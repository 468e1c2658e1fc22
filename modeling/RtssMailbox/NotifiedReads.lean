import RtssMailbox.NotifiedChannel

/-!
What the notifications tell a reader. A reader that goes to sleep has collected
all notifications of an empty ring, so every later item comes with a new one. The
counter is readable for exactly the non-empty rings only as long as each ring read
leaves the two in step, which the fast path of a read does not take care of.
-/
namespace RtssMailbox
open Effects ByteMemory CyclicBuffer Iteration Relation

section Wakeup
variable (ch : Channel)

/-- Items in the ring come with a notification, delivered or still to come. -/
def Announced (s : NotifyState) : Prop :=
  ch.items s.mem ≠ [] → 0 < s.counter ∨ 0 < s.pending

variable {ch} {s s' : NotifyState}

theorem peerStep_consistent (h : ch.Consistent s.mem) (hstep : PeerStep ch s s') :
    ch.Consistent s'.mem := by
  cases hstep with
  | publish m' hpublish => exact hpublish.consistent
  | notify hpending => exact h

theorem peerStep_announces (hstep : PeerStep ch s s') : Announced ch s' := by
  cases hstep with
  | publish m' hpublish => exact fun _ => Or.inr (Nat.succ_pos _)
  | notify hpending => exact fun _ => Or.inl (Nat.succ_pos _)

theorem announced_of_empty (hlen : (ch.len s.mem : Int) = 0) : Announced ch s := by
  intro hitems
  rw [← Channel.items_length] at hlen
  exact absurd (List.eq_nil_of_length_eq_zero (by omega)) hitems

/-- Nothing is asked of the notifications but while the reader sleeps. -/
theorem announced_invariant (h : RtssMbHandle) (call : ReadCall) :
    ReadInvariant ch h call (PeerStep ch) (fun _ _ _ => True) (fun s => ch.Consistent s.mem)
      (fun n s => ch.Consistent s.mem ∧ (n = 0 → Announced ch s))
      (fun s => ch.Consistent s.mem) where
  idle_step _ _ hs hstep := peerStep_consistent hs hstep
  looked_step _ _ _ hs hstep := ⟨peerStep_consistent hs.1 hstep, fun _ => peerStep_announces hstep⟩
  drained_step _ _ hs hstep := peerStep_consistent hs hstep
  idle_consistent _ hs := hs
  looked_consistent _ _ hs := hs.1
  drained_consistent _ hs := hs
  first_look _ hs _ := ⟨hs, announced_of_empty⟩
  asleep_idle _ hs := hs.1
  drain _ hs _ _ := hs.1
  look _ hs := ⟨hs, announced_of_empty⟩
  take _ _ _ _ _ hcons _ := hcons

end Wakeup

/-- A reader that is about to block in `poll` while the ring holds an item will be
woken: the counter is positive, or some write has yet to add to it. -/
theorem no_lost_wakeup (ch : Channel) (h : RtssMbHandle) (hch : OpenFor h ch)
    (s : NotifyState) (hs : ch.Consistent s.mem) (call : ReadCall) (fd ms : Int)
    (k : PollStatus → Prog DevSig (ReadPoint ⊕ (Int × Option Mem))) (t : NotifyState)
    (hreach : Reachable (readCalls h) (readerEnvironment ch) (fun _ _ => True) s
      (.busy call (.op (.poll fd ms) k), t))
    (hitems : ch.items t.mem ≠ []) : 0 < t.counter ∨ 0 < t.pending := by
  have hpoll := (ReadInvariant.reachable (announced_invariant h) hch
    (fun _ _ hlooked => hlooked.2 rfl) (fun _ _ => peerStep_consistent) hs hreach t .refl).1
  exact hpoll fd ms rfl hitems

def Channel.sampleMem₂ : Mem :=
  ((libMBWrite sample.mb (some fun i => UInt8.ofNat i) 2 sample.index).run memHandler sampleMem).2

theorem sampleMem₂_publishes : Publishes Channel.sample Channel.sampleMem Channel.sampleMem₂ :=
  libMBWrite_publishes Channel.sampleMem_consistent _ 2 (by decide)

def RtssMbHandle.sampleRx : RtssMbHandle :=
  { RtssMbHandle.blank with
    fd := 3
    pMbBaseAddr := Channel.sample.mb
    eventFd := 4
    subchanItemSize := Channel.sample.size }

theorem sampleRx_open : OpenFor RtssMbHandle.sampleRx Channel.sample :=
  ⟨by decide, rfl, rfl, rfl⟩

/-- The reader finds the ring empty, and the peer publishes before it polls. -/
theorem no_lost_wakeup_sample :
    ∃ x : NotifyState, Channel.sample.items x.mem = [[0, 1], [2, 3]] ∧ x.counter = 0 ∧
      (0 < x.counter ∨ 0 < x.pending) := by
  let call : ReadCall := ⟨some fun _ => 0, 2, -1⟩
  let s : NotifyState := ⟨Channel.sampleMem, 0, 0⟩
  have hstart : Reachable (readCalls .sampleRx) (readerEnvironment .sample) (fun _ _ => True)
    s (.busy call _, s) := .single (.start call s)
  have hzero : checkAnswer .sample Channel.sampleMem = 0 := by decide
  have hempty : deviceAnswers (.lib (.getValidItemNum 4096 0)) s (0 : Int) s :=
    ⟨(run_check Channel.sampleMem_consistent).trans (congrArg (·, _) hzero), rfl, rfl⟩
  have hcheck := hstart.tail (.op call _ _ _ s s trivial hempty)
  have hloop := hcheck.tail (.again call _ s)
  have hpoll := hloop.tail (.other _ _ _ (.publish s _ sampleMem₂_publishes))
  exact ⟨_, by decide, rfl, no_lost_wakeup _ _ sampleRx_open s Channel.sampleMem_consistent call 4
    (-1) _ _ hpoll (by decide)⟩

section Truth
variable (ch : Channel)

/-- The eventfd is readable exactly while the ring holds an item. -/
def FdTruthful (s : NotifyState) : Prop := 0 < s.counter ↔ ch.items s.mem ≠ []

/-- What keeps a call and the peer in step, with the number of items that the buffer
has room for: the call first looks at a ring that is empty or holds more than that, and
collects notifications only while none is still to come; beside it the peer publishes
into a ring that holds more than that already, or so that all items have room and none
of those before has its notification collected. -/
def inStepConditions (h : RtssMbHandle) : Conditions DevSig NotifyState ReadCall ReadPoint where
  meets call
    | .start, .lib (.getValidItemNum _ _), s =>
        ch.items s.mem = [] ∨ call.room h < ch.len s.mem
    | _, .eventfdRead _, s => s.pending = 0
    | _, _, _ => True
  beside call s s' :=
    s'.mem = s.mem ∨ call.room h < ch.len s.mem ∨
      ch.len s'.mem ≤ call.room h ∧ (ch.items s.mem = [] ∨ 0 < s.counter + s.pending)

/-- Items and notifications, delivered or still to come, are there together. -/
structure InStep (s : NotifyState) : Prop where
  consistent : ch.Consistent s.mem
  iff_items : 0 < s.counter + s.pending ↔ ch.items s.mem ≠ []

/-- All notifications of the items are collected, and the items have room. -/
structure Collected (room : Nat) (s : NotifyState) : Prop where
  consistent : ch.Consistent s.mem
  items_ne_nil : ch.items s.mem ≠ []
  len_le : ch.len s.mem ≤ room
  collected : s.counter + s.pending = 0

/-- After a look at the ring: it was empty, it held more than there is room for, or it
holds what was counted and the notifications are collected. -/
inductive LookedInStep (room : Nat) (n : Int) (s : NotifyState) : Prop
  | empty (hn : n = 0) (hs : InStep ch s) (hlen : ch.len s.mem ≤ room)
  | more (hn : (room : Int) < n) (hs : InStep ch s) (hlen : room < ch.len s.mem)
  | counted (hn : n = ch.len s.mem) (hs : Collected ch room s)

variable {ch} {s s' : NotifyState} {room : Nat}

theorem Publishes.items_ne_nil {m m' : Mem} (h : Publishes ch m m') : ch.items m' ≠ [] := by
  obtain ⟨new, hnew, hitems⟩ := h.appends
  rw [hitems]
  exact List.append_ne_nil_of_right_ne_nil _ hnew

theorem Publishes.len_lt {m m' : Mem} (h : Publishes ch m m') : ch.len m < ch.len m' := by
  obtain ⟨new, hnew, hitems⟩ := h.appends
  have hpos : 0 < new.length := List.length_pos_iff.mpr hnew
  rw [← Channel.items_length, ← Channel.items_length, hitems, List.length_append]
  omega

theorem len_eq_zero_iff {m : Mem} : ch.len m = 0 ↔ ch.items m = [] := by
  rw [← Channel.items_length, List.length_eq_zero_iff]

theorem InStep.peerStep (h : InStep ch s) (hstep : PeerStep ch s s') : InStep ch s' := by
  cases hstep with
  | publish m' hpublish =>
      exact ⟨hpublish.consistent, fun _ => hpublish.items_ne_nil, fun _ => Nat.succ_pos _⟩
  | notify hpending =>
      refine ⟨h.consistent, Iff.trans ?_ h.iff_items⟩
      simp only
      omega

variable {h : RtssMbHandle} {call : ReadCall}

/-- The peer leaves a ring alone whose notifications are all collected. -/
theorem Collected.peerStep (hs : Collected ch (call.room h) s) (hstep : PeerStep ch s s')
    (hbeside : (inStepConditions ch h).beside call s s') : Collected ch (call.room h) s' := by
  have hcollected := hs.collected
  cases hstep with
  | publish m' hpublish =>
      have hlt := hpublish.len_lt
      have hle := hs.len_le
      rcases hbeside with hmem | hmore | ⟨-, hempty | hpos⟩
      · exact absurd (congrArg ch.len hmem) hlt.ne'
      · exact absurd hmore hle.not_gt
      · exact absurd hempty hs.items_ne_nil
      · omega
  | notify hpending => omega

theorem LookedInStep.peerStep {n : Int} (hs : LookedInStep ch (call.room h) n s)
    (hstep : PeerStep ch s s') (hbeside : (inStepConditions ch h).beside call s s') :
    LookedInStep ch (call.room h) n s' := by
  cases hs with
  | empty hn hs hlen =>
      refine .empty hn (hs.peerStep hstep) ?_
      rcases hbeside with hmem | hmore | ⟨hroom, -⟩
      · rwa [hmem]
      · exact absurd hmore hlen.not_gt
      · exact hroom
  | more hn hs hlen =>
      refine .more hn (hs.peerStep hstep) ?_
      cases hstep with
      | publish m' hpublish => exact hlen.trans hpublish.len_lt
      | notify hpending => exact hlen
  | counted hn hs =>
      cases hstep with
      | publish m' hpublish =>
          have hnext := hs.peerStep (.publish s m' hpublish) hbeside
          exact absurd hnext.collected (Nat.succ_ne_zero _)
      | notify hpending =>
          have hcollected := hs.collected
          omega

/-- A call that collected notifications finds no item without room at its next look. -/
theorem LookedInStep.drain (hs : LookedInStep ch room 0 s) (hpending : s.pending = 0)
    (hcounter : 0 < s.counter) : Collected ch room { s with counter := 0 } := by
  cases hs with
  | empty _ hs hlen =>
      exact ⟨hs.consistent, hs.iff_items.mp (by omega), hlen, by simpa using hpending⟩
  | more hn => omega
  | counted _ hs =>
      have hcollected := hs.collected
      omega

/-- A ring read leaves items behind and their notifications, or it takes all items and
all notifications are collected. -/
theorem LookedInStep.take {n : Int} (hs : LookedInStep ch room n s) (hn : n ≠ 0) {m' : Mem}
    (hcons : ch.Consistent m')
    (hitems : ch.items m' = (ch.items s.mem).drop (min n.toNat room)) :
    InStep ch { s with mem := m' } := by
  refine ⟨hcons, ?_⟩
  change _ ↔ ch.items m' ≠ []
  rw [hitems, ne_eq, List.drop_eq_nil_iff, Channel.items_length, Nat.not_le]
  cases hs with
  | empty hzero => exact absurd hzero hn
  | more hroom hs hlen =>
      have hpos := hs.iff_items.mpr fun hempty => by
        rw [← len_eq_zero_iff] at hempty
        omega
      exact ⟨fun _ => by omega, fun _ => hpos⟩
  | counted hcount hs =>
      have hcollected := hs.collected
      have hle := hs.len_le
      exact ⟨fun hpos => absurd hcollected hpos.ne', fun hlt => by omega⟩

theorem inStep_invariant (h : RtssMbHandle) (call : ReadCall) :
    ReadInvariant ch h call
      ((readerEnvironment ch).beside (inStepConditions ch h) call).step
      ((inStepConditions ch h).meets call) (InStep ch) (LookedInStep ch (call.room h))
      (Collected ch (call.room h)) where
  idle_step _ _ hs hstep := hs.peerStep hstep.1
  looked_step _ _ _ hs hstep := hs.peerStep hstep.1 hstep.2
  drained_step _ _ hs hstep := hs.peerStep hstep.1 hstep.2
  idle_consistent _ hs := hs.consistent
  looked_consistent _ _ hs := by
    cases hs with
    | empty _ hs => exact hs.consistent
    | more _ hs => exact hs.consistent
    | counted _ hs => exact hs.consistent
  drained_consistent _ hs := hs.consistent
  first_look s hs hmeets := by
    cases hmeets with
    | inl hempty =>
        have hlen := len_eq_zero_iff.mpr hempty
        exact .empty (by omega) hs (by omega)
    | inr hmore => exact .more (by omega) hs hmore
  asleep_idle s hs := by
    cases hs with
    | empty _ hs => exact hs
    | more hn => omega
    | counted hn hs => exact absurd (len_eq_zero_iff.mp (by omega)) hs.items_ne_nil
  drain _ hs hmeets hcounter := hs.drain hmeets hcounter
  look _ hs := .counted rfl hs
  take _ _ _ hn hs hcons hitems := hs.take hn hcons hitems

end Truth

/-- As long as calls and peer keep in step, the fd of the channel is readable between
calls exactly while the ring holds an item. -/
theorem fd_truthful (ch : Channel) (h : RtssMbHandle) (hch : OpenFor h ch) (m : Mem)
    (hm : ch.Consistent m) (hempty : ch.items m = []) (s : NotifyState)
    (hrun : ConditionedRun (readCalls h) (readerEnvironment ch) (inStepConditions ch h)
      ⟨m, 0, 0⟩ (.idle, s))
    (hpending : s.pending = 0) :
    rtssMbGetFd (some h) = h.eventFd ∧ FdTruthful ch s := by
  have hstart : InStep ch ⟨m, 0, 0⟩ :=
    ⟨hm, fun hpos => absurd hpos (by simp), fun hitems => absurd hempty hitems⟩
  have hidle : InStep ch s := ReadInvariant.conditioned (inStep_invariant h) hch
    (fun _ _ hs hstep => hs.peerStep hstep) hstart hrun
  constructor
  · have hfd : ¬ h.fd < 0 := Int.not_lt.mpr hch.opened
    simp only [rtssMbGetFd, if_neg hfd, hch.rx, ne_eq, not_true_eq_false, if_false]
  · have hiff := hidle.iff_items
    rw [hpending, Nat.add_zero] at hiff
    exact hiff

def ReadCall.sample (sz : Nat) : ReadCall := ⟨some fun _ => 0, sz, 0⟩

theorem sample_body_start (sz : Nat) (hsz : 2 ≤ sz) :
    (readCalls .sampleRx).body (.sample sz) (readCalls .sampleRx).start =
      Dev.getValidItemNum 4096 0 >>= fun nNumItems =>
        if nNumItems < 0 then pure (.inr (-eio, some fun _ => 0))
        else pure (.inl (.test nNumItems)) := by
  simp only [readCalls, ReadCall.sample, rtssMbReadTimed]
  rw [if_neg (by omega), if_neg (by decide), if_neg (by decide), if_neg (by decide),
    if_neg (by decide), if_neg (by change ¬ sz < 2; omega)]
  rfl

theorem sample_looks (s : NotifyState) (hs : Channel.sample.Consistent s.mem) (n : Int)
    (hn : checkAnswer .sample s.mem = n) :
    deviceAnswers (.lib (.getValidItemNum 4096 0)) s n s :=
  ⟨(run_check hs).trans (congrArg (·, _) hn), rfl, rfl⟩

/-- The peer publishes and notifies while a call waits, which takes both items. -/
theorem fd_truthful_sample :
    ∃ s : NotifyState, Reachable (readCalls .sampleRx) (readerEnvironment .sample)
        (fun _ _ => True) ⟨Channel.sampleMem, 0, 0⟩ (.idle, s) ∧
      Channel.sample.items s.mem = [] ∧ s.counter = 0 ∧
      rtssMbGetFd (some .sampleRx) = 4 ∧ FdTruthful .sample s := by
  have hinit : ConditionedRun (readCalls .sampleRx) (readerEnvironment .sample)
      (inStepConditions .sample .sampleRx) ⟨Channel.sampleMem, 0, 0⟩
      (.idle, ⟨Channel.sampleMem, 0, 0⟩) := .refl
  have hstart := hinit.tail (.start (.sample 4) _)
  rw [sample_body_start 4 (by decide)] at hstart
  have hlook := hstart.tail (.op _ _ _ _ _ _ _ (Or.inl (by decide))
    (sample_looks _ Channel.sampleMem_consistent 0 (by decide)))
  have hwait := hlook.tail (.again _ _ _ _)
  have hpublish := hwait.tail (.beside _ _ _ _ _ ⟨.publish _ _ sampleMem₂_publishes,
    Or.inr (Or.inr ⟨by decide, Or.inl (by decide)⟩)⟩)
  have hnotify := hpublish.tail (.beside _ _ _ _ _ ⟨.notify _ Nat.one_pos, Or.inl rfl⟩)
  have hpoll := hnotify.tail (.op (S := DevSig) _ _ (DevOp.poll 4 0) _ ⟨⟨1, 0⟩, true, false⟩ _ _
    trivial ⟨rfl, Or.inl ⟨by decide, Or.inl rfl, fun _ => Nat.one_pos⟩⟩)
  have hdrain := hpoll.tail (.op (S := DevSig) _ _ (DevOp.eventfdRead 4) _ ⟨0, 0⟩ _ _ rfl
    (Or.inl ⟨rfl, Nat.one_pos, rfl⟩))
  have hagain := hdrain.tail (.op _ _ _ _ _ _ _ trivial
    (sample_looks _ sampleMem₂_publishes.consistent 2 (by decide)))
  have hread := (hagain.tail (.again _ _ _ _)).tail (.op _ _ _ _ _ _ _ trivial
    (lib_answers (.read 4096 (fun _ => 0) 2 0) _))
  have hdone := hread.tail (.done _ _ _ _)
  exact ⟨_, ConditionedRun.reachable hdone, by decide, rfl, fd_truthful .sample .sampleRx
    sampleRx_open Channel.sampleMem Channel.sampleMem_consistent (by decide) _ hdone rfl⟩

/-- A call that finds two notified items at its first look takes both and leaves the
notification behind: the fd of the empty ring stays readable. -/
theorem fd_untruthful :
    ¬ ∀ s, Reachable (readCalls .sampleRx) (readerEnvironment .sample) (fun _ _ => True)
      ⟨Channel.sampleMem, 0, 0⟩ (.idle, s) → s.pending = 0 → FdTruthful .sample s := by
  intro h
  have hinit : Reachable (readCalls .sampleRx) (readerEnvironment .sample) (fun _ _ => True)
      ⟨Channel.sampleMem, 0, 0⟩ (.idle, ⟨Channel.sampleMem, 0, 0⟩) := .refl
  have hpublish := hinit.tail (.other _ _ _ (.publish _ _ sampleMem₂_publishes))
  have hnotify := hpublish.tail (.other _ _ _ (.notify _ Nat.one_pos))
  have hstart := hnotify.tail (.start (.sample 4) _)
  rw [sample_body_start 4 (by decide)] at hstart
  have hlook := hstart.tail (.op _ _ _ _ _ _ trivial
    (sample_looks _ sampleMem₂_publishes.consistent 2 (by decide)))
  have hread := (hlook.tail (.again _ _ _)).tail
    (.op _ _ _ _ _ _ trivial (lib_answers (.read 4096 (fun _ => 0) 2 0) _))
  have hdone := hread.tail (.done _ _ _)
  exact (h _ hdone rfl).mp Nat.one_pos (by decide)

end RtssMailbox
