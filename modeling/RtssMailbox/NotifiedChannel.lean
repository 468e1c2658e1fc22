import RtssMailbox.Library.Iteration
import RtssMailbox.ChannelHandle
import RtssMailbox.RingQueue

/-!
A receive channel with its notifications. The peer publishes items and then adds
one to the eventfd counter; the reader checks the ring, polls, drains the counter
and takes items. Each of these is one step, in any order, and any number of peer
writes may be between publication and notification.
-/
namespace RtssMailbox
open Effects ByteMemory CyclicBuffer Iteration

/-- The mailbox memory, the counter of the eventfd, and the number of peer writes
that have published and not yet notified. -/
structure NotifyState where
  mem : Mem
  counter : Nat
  pending : Nat

/-- The index store of a peer write: items join the ring at its end. -/
structure Publishes (ch : Channel) (m m' : Mem) : Prop where
  consistent : ch.Consistent m'
  appends : ∃ new, new ≠ [] ∧ ch.items m' = ch.items m ++ new

/-- A write of the library that reports items is such a step. -/
theorem libMBWrite_publishes {ch : Channel} {m : Mem} (h : ch.Consistent m) (src : Mem)
    (itemNum : UInt32)
    (hret : 0 < ((libMBWrite ch.mb (some src) itemNum ch.index).run memHandler m).1) :
    Publishes ch m ((libMBWrite ch.mb (some src) itemNum ch.index).run memHandler m).2 := by
  simp only [libMBWrite, ne_eq, ch.mb_ne_null, not_false_eq_true, if_true, run_onSubRegion,
    h.subRegionAt_eq] at hret ⊢
  by_cases hu : ch.Usable
  · simp only [if_pos hu, Prog.run_bind, run_libMBFreeItem, Prog.run_ite,
      h.run_libMBWriteItem, Prog.pure_eq, Prog.run_ret] at hret ⊢
    by_cases hfit : itemNum ≤ freeItem m ch.base
    · rw [if_pos hfit] at hret ⊢
      rw [UInt32.le_iff_toNat_le, h.freeItem_toNat] at hfit
      have hlt := h.len_lt
      obtain ⟨hcons, -, hitems⟩ := Channel.written_spec h hu src itemNum (by omega)
      refine ⟨hcons, _, fun hnil => ?_, hitems⟩
      have hlen : (bufferItems ch.size.toNat src itemNum.toNat).length = itemNum.toNat :=
        bufferItems_length _ _ _
      rw [hnil, List.length_nil] at hlen
      rw [← hlen] at hret
      exact absurd (show 0 < int32 0 from hret) (by decide)
    · rw [if_neg hfit] at hret
      exact absurd (show 0 < mbENoEnoughBuf from hret) (by decide)
  · rw [if_neg hu] at hret
    exact absurd (show 0 < mbECorruptMailbox from hret) (by decide)

inductive PeerStep (ch : Channel) : NotifyState → NotifyState → Prop
  | publish (s : NotifyState) (m' : Mem) (hpublish : Publishes ch s.mem m') :
      PeerStep ch s { s with mem := m', pending := s.pending + 1 }
  | notify (s : NotifyState) (hpending : 0 < s.pending) :
      PeerStep ch s { s with counter := s.counter + 1, pending := s.pending - 1 }

/-- What the reader's operations may do. A poll ends with a readable counter, with
an error event, with its timeout or with an error; without one of these it has no
answer. Reading the eventfd takes the whole counter. -/
def deviceAnswers : (o : DevOp) → NotifyState → DevSig.Res o → NotifyState → Prop
  | .lib c, s, r, s' => c.prog.run memHandler s.mem = (r, s'.mem) ∧
      s'.counter = s.counter ∧ s'.pending = s.pending
  | .poll _ ms, s, r, s' => s' = s ∧
      (0 < r.ret ∧ (r.pollin = true ∨ r.pollerr = true) ∧ (r.pollin = true → 0 < s.counter) ∨
        r.ret = 0 ∧ ms ≠ -1 ∨ r.ret = -1)
  | .eventfdRead _, s, r, s' =>
      r.ret = 0 ∧ 0 < s.counter ∧ s' = { s with counter := 0 } ∨ r.ret = -1 ∧ s' = s
  | _, s, _, s' => s' = s

theorem lib_answers (c : LibCall) (s : NotifyState) :
    deviceAnswers (.lib c) s (c.prog.run memHandler s.mem).1
      { s with mem := (c.prog.run memHandler s.mem).2 } :=
  ⟨rfl, rfl, rfl⟩

def readerEnvironment (ch : Channel) : Environment DevSig NotifyState :=
  ⟨deviceAnswers, PeerStep ch⟩

structure ReadCall where
  buf : Option Mem
  sz : Nat
  ms : Int

def readCalls (h : RtssMbHandle) : Calls DevSig ReadCall ReadPoint (Int × Option Mem) where
  start := .start
  body c := rtssMbReadTimed (some h) c.buf c.sz c.ms

/-- The handle of a receive channel. -/
structure OpenFor (h : RtssMbHandle) (ch : Channel) : Prop where
  opened : 0 ≤ h.fd
  rx : h.mode = rtssMbModeRx
  mapped : h.pMbBaseAddr = ch.mb
  index : h.subregionIndex = ch.index

/-- How many items the buffer of a call has room for. -/
def ReadCall.room (c : ReadCall) (h : RtssMbHandle) : Nat := c.sz / h.subchanItemSize.toNat

section Operations
variable {ch : Channel} {h : RtssMbHandle} {step : NotifyState → NotifyState → Prop}
  {meets : DevOp → NotifyState → Prop} {At : DevOp → NotifyState → Prop}
  {Post : ReadPoint ⊕ (Int × Option Mem) → NotifyState → Prop} {P : NotifyState → Prop}
  {s : NotifyState}

/-- What a ring check answers: the number of items, or an error on an unusable channel. -/
def checkAnswer (ch : Channel) (m : Mem) : Int :=
  if ch.Usable then ch.len m else mbECorruptMailbox

theorem run_check {m : Mem} (hc : ch.Consistent m) :
    (libMBGetValidItemNum ch.mb ch.index).run memHandler m = (checkAnswer ch m, m) := by
  rw [checkAnswer]
  by_cases hu : ch.Usable
  · rw [if_pos hu]
    exact hc.run_libMBGetValidItemNum hu
  · simp only [libMBGetValidItemNum, ne_eq, ch.mb_ne_null, not_false_eq_true, if_true,
      run_onSubRegion, hc.subRegionAt_eq, if_neg hu, id]

/-- A ring check reads the number of items and changes nothing. -/
theorem always_check (hch : OpenFor h ch) (hP : ∀ s s', P s → step s s' → P s')
    (hcons : ∀ s, P s → ch.Consistent s.mem) (hs : P s)
    (hAt : ∀ s, P s → At (.lib (.getValidItemNum h.pMbBaseAddr h.subregionIndex)) s)
    {f : Int → Prog DevSig (ReadPoint ⊕ (Int × Option Mem))}
    (hf : ∀ s, P s → meets (.lib (.getValidItemNum h.pMbBaseAddr h.subregionIndex)) s →
      Always ⟨deviceAnswers, step⟩ meets At Post (f (checkAnswer ch s.mem)) s) :
    Always ⟨deviceAnswers, step⟩ meets At Post
      (Dev.getValidItemNum h.pMbBaseAddr h.subregionIndex >>= f) s := by
  refine Always.perform_bind (S := DevSig)
    (o := DevOp.lib (.getValidItemNum h.pMbBaseAddr h.subregionIndex)) hP hs hAt ?_
  intro s r s' hs hmeets hanswer
  obtain ⟨hrun, hcounter, hpending⟩ := hanswer
  obtain ⟨m', counter', pending'⟩ := s'
  have hcheck := run_check (hcons s hs)
  rw [← hch.mapped, ← hch.index] at hcheck
  have heq : (checkAnswer ch s.mem, s.mem) = (r, m') := hcheck.symm.trans hrun
  cases hcounter
  cases hpending
  cases heq
  exact hf s hs hmeets

theorem run_take {m : Mem} (hc : ch.Consistent m) (hu : ch.Usable) (dest : Mem)
    (itemNum : UInt32) :
    ch.Consistent ((libMBRead ch.mb (some dest) itemNum ch.index).run memHandler m).2 ∧
      ch.items ((libMBRead ch.mb (some dest) itemNum ch.index).run memHandler m).2 =
        (ch.items m).drop itemNum.toNat := by
  have hlt := hc.len_lt
  have hrep : Represents ch m ⟨ch.items m, by rw [Channel.items_length]; omega⟩ := ⟨hc, rfl⟩
  obtain ⟨-, hread⟩ := hrep.run_read hu dest itemNum
  exact ⟨hread.toConsistent, hread.items_eq⟩

/-- A ring read takes as many of the oldest items as it is asked for, if there are as many. -/
theorem always_take (hch : OpenFor h ch) (hP : ∀ s s', P s → step s s' → P s')
    (hcons : ∀ s, P s → ch.Consistent s.mem) (hu : ch.Usable) (hs : P s) (dest : Mem)
    (itemNum : UInt32)
    (hAt : ∀ s, P s → At (.lib (.read h.pMbBaseAddr dest itemNum h.subregionIndex)) s)
    {f : Int × Option Mem → Prog DevSig (ReadPoint ⊕ (Int × Option Mem))}
    (hf : ∀ s r m', P s → ch.Consistent m' →
      ch.items m' = (ch.items s.mem).drop itemNum.toNat →
      Always ⟨deviceAnswers, step⟩ meets At Post (f r) { s with mem := m' }) :
    Always ⟨deviceAnswers, step⟩ meets At Post
      (Dev.read h.pMbBaseAddr dest itemNum h.subregionIndex >>= f) s := by
  refine Always.perform_bind (S := DevSig)
    (o := DevOp.lib (.read h.pMbBaseAddr dest itemNum h.subregionIndex)) hP hs hAt ?_
  intro s r s' hs _ hanswer
  obtain ⟨hrun, hcounter, hpending⟩ := hanswer
  obtain ⟨m', counter', pending'⟩ := s'
  obtain ⟨hcons', hitems⟩ := run_take (hcons s hs) hu dest itemNum
  rw [← hch.mapped, ← hch.index] at hcons' hitems
  have hmem : ((libMBRead h.pMbBaseAddr (some dest) itemNum h.subregionIndex).run memHandler
      s.mem).2 = m' := congrArg Prod.snd hrun
  rw [hmem] at hcons' hitems
  cases hcounter
  cases hpending
  exact hf s r m' hs hcons' hitems

/-- A poll that ends without its timeout and without an error has seen an event. -/
theorem always_poll (hP : ∀ s s', P s → step s s' → P s') (hs : P s) (ms : Int)
    (hAt : ∀ s, P s → At (.poll h.eventFd ms) s)
    {f : PollStatus → Prog DevSig (ReadPoint ⊕ (Int × Option Mem))}
    (hf : ∀ s (r : PollStatus), P s →
      (r.ret ≠ -1 → r.ret ≠ 0 → r.pollin = true ∨ r.pollerr = true) →
      Always ⟨deviceAnswers, step⟩ meets At Post (f r) s) :
    Always ⟨deviceAnswers, step⟩ meets At Post (Dev.poll h.eventFd ms >>= f) s := by
  refine Always.perform_bind (S := DevSig) (o := DevOp.poll h.eventFd ms) hP hs hAt ?_
  intro s r s' hs _ hanswer
  obtain ⟨rfl, hevent | htimeout | herror⟩ := hanswer
  · exact hf s' r hs fun _ _ => hevent.2.1
  · exact hf s' r hs fun _ hret => absurd htimeout.1 hret
  · exact hf s' r hs fun hret => absurd herror hret

theorem always_drain (hP : ∀ s s', P s → step s s' → P s') (hs : P s)
    (hAt : ∀ s, P s → At (.eventfdRead h.eventFd) s)
    {f : SysStatus → Prog DevSig (ReadPoint ⊕ (Int × Option Mem))}
    (htaken : ∀ s r, P s → meets (.eventfdRead h.eventFd) s → 0 < s.counter → r.ret = 0 →
      Always ⟨deviceAnswers, step⟩ meets At Post (f r) { s with counter := 0 })
    (hfailed : ∀ s r, P s → r.ret = -1 →
      Always ⟨deviceAnswers, step⟩ meets At Post (f r) s) :
    Always ⟨deviceAnswers, step⟩ meets At Post (Dev.eventfdRead h.eventFd >>= f) s := by
  refine Always.perform_bind (S := DevSig) (o := DevOp.eventfdRead h.eventFd) hP hs hAt ?_
  intro s r s' hs hmeets hanswer
  cases hanswer with
  | inl htake =>
      obtain ⟨hret, hcounter, rfl⟩ := htake
      exact htaken s r hs hmeets hcounter hret
  | inr hfail =>
      obtain ⟨hret, rfl⟩ := hfail
      exact hfailed s' r hs hret

end Operations

/-- An invariant of one read in three parts: between calls, after a look at the ring
that found so many items, and from the drained counter to the next look. -/
structure ReadInvariant (ch : Channel) (h : RtssMbHandle) (call : ReadCall)
    (step : NotifyState → NotifyState → Prop) (meets : ReadPoint → DevOp → NotifyState → Prop)
    (Idle : NotifyState → Prop) (Looked : Int → NotifyState → Prop)
    (Drained : NotifyState → Prop) : Prop where
  idle_step : ∀ s s', Idle s → step s s' → Idle s'
  looked_step : ∀ n s s', Looked n s → step s s' → Looked n s'
  drained_step : ∀ s s', Drained s → step s s' → Drained s'
  idle_consistent : ∀ s, Idle s → ch.Consistent s.mem
  looked_consistent : ∀ n s, Looked n s → ch.Consistent s.mem
  drained_consistent : ∀ s, Drained s → ch.Consistent s.mem
  first_look : ∀ s, Idle s →
    meets .start (.lib (.getValidItemNum h.pMbBaseAddr h.subregionIndex)) s →
    Looked (ch.len s.mem) s
  asleep_idle : ∀ s, Looked 0 s → Idle s
  drain : ∀ s, Looked 0 s → meets (.test 0) (.eventfdRead h.eventFd) s → 0 < s.counter →
    Drained { s with counter := 0 }
  look : ∀ s, Drained s → Looked (ch.len s.mem) s
  take : ∀ n s m', n ≠ 0 → Looked n s → ch.Consistent m' →
    ch.items m' = (ch.items s.mem).drop (min n.toNat (call.room h)) → Idle { s with mem := m' }

/-- What a look at the ring leaves true for the rest of a call. -/
structure Counted (ch : Channel) (h : RtssMbHandle) (call : ReadCall) (n : Int) : Prop where
  buf : call.buf.isSome
  usable : ch.Usable
  itemSize : h.subchanItemSize ≠ 0
  lt : n.toNat < 2 ^ 32

/-- The number of items that a read asks for: what it has counted, or what its buffer
has room for. -/
theorem Counted.itemNum_toNat {ch : Channel} {h : RtssMbHandle} {call : ReadCall} {n : Int}
    (hn : Counted ch h call n) :
    (if n.toNat * h.subchanItemSize.toNat > call.sz then
        UInt32.ofNat (call.sz / h.subchanItemSize.toNat)
      else UInt32.ofNat n.toNat).toNat = min n.toNat (call.room h) := by
  have hlt := hn.lt
  have hsize : 0 < h.subchanItemSize.toNat :=
    Nat.pos_of_ne_zero fun hzero => hn.itemSize (UInt32.toNat_inj.mp hzero)
  rw [ReadCall.room]
  split
  · have hroom : call.sz / h.subchanItemSize.toNat < n.toNat :=
      (Nat.div_lt_iff_lt_mul hsize).mpr ‹_›
    rw [UInt32.toNat_ofNat', Nat.mod_eq_of_lt (by omega)]
    omega
  · have hroom : n.toNat ≤ call.sz / h.subchanItemSize.toNat :=
      (Nat.le_div_iff_mul_le hsize).mpr (by omega)
    rw [UInt32.toNat_ofNat', Nat.mod_eq_of_lt (by omega)]
    omega

namespace ReadInvariant
variable {ch : Channel} {h : RtssMbHandle}

/-- What holds at the control points of a read. -/
def Point (ch : Channel) (h : RtssMbHandle) (Idle : NotifyState → Prop)
    (Looked : ReadCall → Int → NotifyState → Prop) (call : ReadCall) :
    ReadPoint → NotifyState → Prop
  | .start, s => Idle s
  | .test n, s => Counted ch h call n ∧ Looked call n s

/-- What holds whenever the reader goes to sleep. -/
def AtPoll (Asleep : NotifyState → Prop) (o : DevOp) (s : NotifyState) : Prop :=
  ∀ fd ms, o = .poll fd ms → Asleep s

section Body
variable {call : ReadCall} {step : NotifyState → NotifyState → Prop}
  {meets : ReadPoint → DevOp → NotifyState → Prop} {Idle : NotifyState → Prop}
  {Looked : ReadCall → Int → NotifyState → Prop} {Drained Asleep : NotifyState → Prop}
  {a : ReadPoint} {s : NotifyState}

theorem point_step (hi : ReadInvariant ch h call step meets Idle (Looked call) Drained)
    {s' : NotifyState} (hs : Point ch h Idle Looked call a s) (hstep : step s s') :
    Point ch h Idle Looked call a s' := by
  cases a with
  | start => exact hi.idle_step s s' hs hstep
  | test n => exact ⟨hs.1, hi.looked_step n s s' hs.2 hstep⟩

theorem ended (hi : ReadInvariant ch h call step meets Idle (Looked call) Drained)
    {r : Int × Option Mem} (hs : Idle s) :
    Always (S := DevSig) ⟨deviceAnswers, step⟩ (meets a) (AtPoll Asleep)
      (Next Idle (Point ch h Idle Looked call)) (.ret (.inr r)) s :=
  Always.ret (fun _ _ hs hstep => hi.idle_step _ _ hs hstep) hs

theorem next_point (hi : ReadInvariant ch h call step meets Idle (Looked call) Drained)
    {a' : ReadPoint} (hs : Point ch h Idle Looked call a' s) :
    Always (S := DevSig) (β := Int × Option Mem) ⟨deviceAnswers, step⟩ (meets a) (AtPoll Asleep)
      (Next Idle (Point ch h Idle Looked call)) (.ret (.inl a')) s :=
  Always.ret (fun _ _ hs hstep => hi.point_step hs hstep) hs

/-- The first look at the ring ends the call, or leads to the test with what it counted. -/
theorem checked_first (hi : ReadInvariant ch h call step meets Idle (Looked call) Drained)
    (hch : OpenFor h ch) (hbuf : call.buf.isSome) (hsize : h.subchanItemSize ≠ 0)
    {r : Int × Option Mem} (hs : Idle s) :
    Always ⟨deviceAnswers, step⟩ (meets .start) (AtPoll Asleep)
      (Next Idle (Point ch h Idle Looked call))
      (Dev.getValidItemNum h.pMbBaseAddr h.subregionIndex >>= fun nNumItems =>
        if nNumItems < 0 then .ret (.inr r) else .ret (.inl (.test nNumItems))) s := by
  refine always_check hch hi.idle_step hi.idle_consistent hs (fun s _ => nofun)
    fun s hs hmeets => ?_
  refine .guard (fun _ => hi.ended hs) fun hn => hi.next_point ?_
  by_cases hu : ch.Usable
  · rw [checkAnswer, if_pos hu]
    have hlt := (hi.idle_consistent s hs).len_lt
    have hnum := ch.num.toNat_lt
    exact ⟨⟨hbuf, hu, hsize, by omega⟩, hi.first_look s hs hmeets⟩
  · rw [checkAnswer, if_neg hu] at hn
    exact absurd (by decide) hn

/-- The look after the counter was drained leads to the test. -/
theorem checked_again (hi : ReadInvariant ch h call step meets Idle (Looked call) Drained)
    (hch : OpenFor h ch) {n : Int} (hn : Counted ch h call n) {r : Int × Option Mem}
    (hs : Drained s) :
    Always ⟨deviceAnswers, step⟩ (meets a) (AtPoll Asleep)
      (Next Idle (Point ch h Idle Looked call))
      (Dev.getValidItemNum h.pMbBaseAddr h.subregionIndex >>= fun nNumItems =>
        if nNumItems < 0 then .ret (.inr r) else .ret (.inl (.test nNumItems))) s := by
  refine always_check hch hi.drained_step hi.drained_consistent hs (fun s _ => nofun)
    fun s hs _ => ?_
  rw [checkAnswer, if_pos hn.usable, if_neg (by omega)]
  have hlt := (hi.drained_consistent s hs).len_lt
  have hnum := ch.num.toNat_lt
  exact hi.next_point ⟨⟨hn.buf, hn.usable, hn.itemSize, by omega⟩, hi.look s hs⟩

/-- Every piece of a read leads from its control point to the next, or to the end
of the call with the invariant between calls. -/
theorem body (hi : ReadInvariant ch h call step meets Idle (Looked call) Drained)
    (hch : OpenFor h ch) (hasleep : ∀ s, Looked call 0 s → Asleep s)
    (hs : Point ch h Idle Looked call a s) :
    Always ⟨deviceAnswers, step⟩ (meets a) (AtPoll Asleep)
      (Next Idle (Point ch h Idle Looked call)) ((readCalls h).body call a) s := by
  have hend : ∀ s (r : Int × Option Mem), Idle s →
      Always (S := DevSig) ⟨deviceAnswers, step⟩ (meets a) (AtPoll Asleep)
        (Next Idle (Point ch h Idle Looked call)) (.ret (.inr r)) s := fun _ _ hs => hi.ended hs
  obtain ⟨buf, sz, ms⟩ := call
  cases a with
  | start =>
      have hidle : Idle s := hs
      cases buf with
      | none => exact hend s _ hs
      | some buf =>
          simp only [readCalls, rtssMbReadTimed]
          refine .guard (fun _ => hend s _ hs) fun _ => ?_
          refine .guard (fun _ => hend s _ hs) fun _ => ?_
          refine .guard (fun _ => hend s _ hs) fun _ => ?_
          refine .guard (fun _ => hend s _ hs) fun _ => ?_
          refine .guard (fun _ => hend s _ hs) fun hsize => ?_
          refine .guard (fun _ => hend s _ hs) fun _ => ?_
          exact hi.checked_first hch rfl hsize hidle
  | test n =>
      obtain ⟨hcounted, hlooked⟩ := hs
      cases buf with
      | none => exact nomatch hcounted.buf
      | some buf =>
          simp only [readCalls, rtssMbReadTimed]
          refine .guard (fun hn => ?_) fun hn => ?_
          · -- Asleep until the poll has an answer; only a drained counter leads on.
            subst hn
            refine always_poll (hi.looked_step 0) hlooked ms
              (fun s hs _ _ _ => hasleep s hs) fun s r hs hevent => ?_
            have hidle := hi.asleep_idle s hs
            refine .guard (fun _ => ?_) fun herror => ?_
            · exact .guard (fun _ => hend s _ hidle) fun _ => hend s _ hidle
            refine .guard (fun _ => hend s _ hidle) fun htimeout => ?_
            refine .guard (fun _ => ?_) fun hpollin => ?_
            · refine always_drain (hi.looked_step 0) hs (fun s _ => nofun)
                (fun s r hs hmeets hcounter hret => ?_) fun s r hs hret => ?_
              · have hret' : r.ret ≠ -1 := by omega
                rw [if_neg hret']
                exact hi.checked_again hch hcounted (hi.drain s hs hmeets hcounter)
              · rw [if_pos hret]
                exact hend s _ (hi.asleep_idle s hs)
            · have hpollerr : r.pollerr = true := (hevent herror htimeout).resolve_left hpollin
              rw [if_pos hpollerr]
              exact hend s _ hidle
          · refine always_take hch (hi.looked_step n) (hi.looked_consistent n) hcounted.usable
              hlooked buf _ (fun s _ => nofun) fun s r m' hs hcons hitems => ?_
            rw [hcounted.itemNum_toNat] at hitems
            have hidle := hi.take n s m' hn hs hcons hitems
            exact .guard (fun _ => hend _ _ hidle) fun _ => hend _ _ hidle

end Body

/-- Every run of reads beside the peer keeps an invariant of its reads. -/
theorem reachable {Idle : NotifyState → Prop} {Looked : ReadCall → Int → NotifyState → Prop}
    {Drained Asleep : NotifyState → Prop}
    (hi : ∀ call, ReadInvariant ch h call (PeerStep ch) (fun _ _ _ => True) Idle (Looked call)
      Drained)
    (hch : OpenFor h ch) (hasleep : ∀ call s, Looked call 0 s → Asleep s)
    (hIdle : ∀ s s', Idle s → PeerStep ch s s' → Idle s') {s : NotifyState} (hs : Idle s)
    {x : Caller DevSig ReadCall ReadPoint (Int × Option Mem) × NotifyState}
    (hx : Reachable (readCalls h) (readerEnvironment ch) (fun _ _ => True) s x) :
    Holds (readerEnvironment ch) (fun _ _ => True) Idle (Point ch h Idle Looked)
      (AtPoll Asleep) x.1 x.2 :=
  hx.holds hIdle (fun _ _ hs => hs)
    (fun call _ _ hs => (hi call).body hch (hasleep call) hs) hs

/-- So does every run that meets conditions, with an invariant under these. -/
theorem conditioned {cond : Conditions DevSig NotifyState ReadCall ReadPoint}
    {Idle : NotifyState → Prop} {Looked : ReadCall → Int → NotifyState → Prop}
    {Drained : ReadCall → NotifyState → Prop}
    (hi : ∀ call, ReadInvariant ch h call ((readerEnvironment ch).beside cond call).step
      (cond.meets call) Idle (Looked call) (Drained call))
    (hch : OpenFor h ch) (hIdle : ∀ s s', Idle s → PeerStep ch s s' → Idle s')
    {s : NotifyState} (hs : Idle s)
    {x : Position DevSig ReadCall ReadPoint (Int × Option Mem) × NotifyState}
    (hx : ConditionedRun (readCalls h) (readerEnvironment ch) cond s x) :
    HoldsUnder (readerEnvironment ch) cond Idle (Point ch h Idle Looked)
      (AtPoll fun _ => True) x.1 x.2 :=
  hx.holds hIdle (fun _ _ hs => hs)
    (fun call _ _ hs => (hi call).body hch (fun _ _ => trivial) hs) hs

end ReadInvariant

end RtssMailbox
