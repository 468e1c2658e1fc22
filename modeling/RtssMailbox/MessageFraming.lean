import RtssMailbox.RingSafety

/-!
Messages of a fixed number of items. The writer offers `k` items at a time and the
reader asks for `k` items at a time, while their steps interleave in any order: the ring
never holds a part of a message, so no read delivers one.
-/
namespace RtssMailbox
open Effects ByteMemory CyclicBuffer RelyGuarantee

/-- A writer of messages of `k` items. -/
def framedWriter (ch : Channel) (k : UInt32) : Client MemSig RingState where
  Call := Option Mem
  Res := Int
  prog buf := (writer ch).prog ⟨buf, k⟩
  finish buf := (writer ch).finish ⟨buf, k⟩

def framedReader (ch : Channel) (k : UInt32) : Client MemSig RingState where
  Call := Option Mem
  Res := Int × Option Mem
  prog buf := (reader ch).prog ⟨buf, k⟩
  finish buf := (reader ch).finish ⟨buf, k⟩

/-- Between any two steps, whole messages were accepted and whole messages were received. -/
structure FramedInv (ch : Channel) (k : Nat) (s : RingState) : Prop extends RingInv ch s where
  accepted_dvd : k ∣ s.accepted.length
  received_dvd : k ∣ s.received.length

/-- So the ring holds whole messages. -/
theorem FramedInv.len_dvd {ch : Channel} {k : Nat} {s : RingState} (h : FramedInv ch k s) :
    k ∣ ch.len s.mem := by
  have hsum := congrArg List.length h.accepted_eq
  rw [List.length_append, Channel.items_length] at hsum
  exact (Nat.dvd_add_right h.received_dvd).mp (hsum ▸ h.accepted_dvd)

structure FramedWriterStep (ch : Channel) (k : Nat) (s s' : RingState) : Prop
    extends WriterStep ch s s' where
  framed : FramedInv ch k s'

structure FramedReaderStep (ch : Channel) (k : Nat) (s s' : RingState) : Prop
    extends ReaderStep ch s s' where
  framed : FramedInv ch k s'

/-- One message of `k` items was added, or nothing. -/
def GainsMessage (k : Nat) (items items' : List (List UInt8)) : Prop :=
  items' = items ∨ ∃ msg, msg.length = k ∧ items' = items ++ msg

/-- A list that keeps its length a multiple of `k` while at most `k` items are added has
got a whole message, or nothing. -/
theorem gainsMessage_of_dvd {k : Nat} {items msg : List (List UInt8)} (h : k ∣ items.length)
    (h' : k ∣ (items ++ msg).length) (hle : msg.length ≤ k) :
    GainsMessage k items (items ++ msg) := by
  rw [List.length_append] at h'
  have hmsg : k ∣ msg.length := (Nat.dvd_add_right h).mp h'
  rcases Nat.eq_zero_or_pos msg.length with h0 | hpos
  · rw [List.eq_nil_of_length_eq_zero h0, List.append_nil]
    exact .inl rfl
  · exact .inr ⟨msg, Nat.le_antisymm hle (Nat.le_of_dvd hpos hmsg), rfl⟩

/-- An operation notes no item. -/
def SameItems (s s' : RingState) : Prop :=
  s'.accepted = s.accepted ∧ s'.received = s.received

theorem ringHandler_sameItems (o : MemSig.Op) (s : RingState) : SameItems s (ringHandler o s).2 :=
  ⟨rfl, rfl⟩

theorem int32_toNat_cases (k : UInt32) :
    (int32 k.toNat).toNat = 0 ∨ (int32 k.toNat).toNat = k.toNat := by
  have hk := k.toNat_lt
  unfold int32
  omega

theorem reportedItems_length (size : Nat) (buf : Option Mem) (ret : Int) :
    (reportedItems size buf ret).length = 0 ∨
      (reportedItems size buf ret).length = ret.toNat := by
  cases buf with
  | none => exact .inl rfl
  | some buf => exact .inr (bufferItems_length _ _ _)

/-- A call that reports a whole message or none keeps the number of items a multiple. -/
theorem dvd_reported {k size : Nat} {items : List (List UInt8)} {buf : Option Mem} {ret : Int}
    (hitems : k ∣ items.length) (hret : ret.toNat = 0 ∨ ret.toNat = k) :
    k ∣ (items ++ reportedItems size buf ret).length := by
  rw [List.length_append]
  refine Nat.dvd_add hitems ?_
  rcases reportedItems_length size buf ret with h | h
  · rw [h]
    exact Nat.dvd_zero _
  · rw [h]
    rcases hret with h0 | hk
    · rw [h0]
      exact Nat.dvd_zero _
    · rw [hk]

section Writer
variable (ch : Channel) (k : UInt32)

/-- A write reports all its items or none. -/
theorem writer_returns (buf : Option Mem) :
    ((writer ch).prog ⟨buf, k⟩).Returns fun ret => ret.toNat = 0 ∨ ret.toNat = k.toNat := by
  refine Prog.Returns.expand _ ?_
  cases buf with
  | none => exact .inl rfl
  | some source =>
      refine .ite (fun _ => ?_) fun _ => .inl rfl
      refine .of_bind fun magic => .ite (fun _ => ?_) fun _ => .inl rfl
      refine .of_bind fun num => .ite (fun _ => ?_) fun _ => .inl rfl
      refine .of_bind fun start => .of_bind fun sane => .ite (fun _ => ?_) fun _ => .inl rfl
      refine .of_bind fun free => .ite (fun _ => ?_) fun _ => .inl rfl
      exact .of_bind fun _ => int32_toNat_cases k

theorem framedWriter_calls (buf : Option Mem) (s : RingState) (hs : FramedInv ch k.toNat s) :
    Wp ringHandler copiedBytes (FramedReaderStep ch k.toNat) (FramedWriterStep ch k.toNat)
      (writerSafe ch)
      (fun _ ret s₀ s => FramedWriterStep ch k.toNat s₀ ((framedWriter ch k).finish buf ret s))
      ((framedWriter ch k).prog buf) [] s s := by
  refine Wp.both (R := ReaderStep ch) (V := fun _ _ => True) (W := SameItems)
    (J := FramedInv ch k.toNat) (fun s s' h => ⟨h.toReaderStep, trivial, h.framed⟩)
    (fun s₀ s hJ hstep hsame => ⟨hstep, hstep.inv, ?_, ?_⟩) (fun past ret s₀ s hJ hdone hrest => ?_)
    hs (writer_calls ch ⟨buf, k⟩ s hs.toRingInv)
    (Wp.of_returns ringHandler_sameItems (writer_returns ch k buf) ⟨rfl, rfl⟩)
  · rw [hsame.1]
    exact hJ.accepted_dvd
  · rw [hsame.2]
    exact hJ.received_dvd
  · obtain ⟨⟨hacc, hrec⟩, hret⟩ := hrest
    refine ⟨hdone, hdone.inv, ?_, ?_⟩
    · change k.toNat ∣ (s.accepted ++ reportedItems ch.size.toNat buf ret).length
      rw [hacc]
      exact dvd_reported hJ.accepted_dvd hret
    · change k.toNat ∣ s.received.length
      rw [hrec]
      exact hJ.received_dvd

end Writer

section Reader
variable (ch : Channel) (k : UInt32)

/-- What the reader needs of the writer besides the invariant of the ring. -/
theorem framedParty :
    Party ch (FramedWriterStep ch k.toNat) SameItems fun _ _ => True where
  rely_inv _ _ h := h.inv
  guar_refl _ _ := ⟨rfl, rfl⟩
  safe_nil _ := trivial

/-- The count of valid items is a number of whole messages: the items that the stale write
index counts were all there when it was read. -/
theorem framed_validItem (g : Nat) :
    Spec ringHandler copiedBytes (FramedWriterStep ch k.toNat) SameItems (fun _ _ => True)
      (fun past s => past = [] ∧ RingInv ch s) ((libMBValidItem ch.base).expand (slotwise g))
      fun _ v _ => k.toNat ∣ v.toNat := by
  simp only [libMBValidItem, Prog.expand_bind, expand_getReg, Prog.expand_ite, Prog.pure_eq,
    Prog.expand_ret]
  have hwrite : Spec ringHandler copiedBytes (FramedWriterStep ch k.toNat) SameItems
      (fun _ _ => True) (fun past s => past = [] ∧ RingInv ch s)
      (getReg (ch.base + MbSubRgnDesc.itemInIndex)) fun past w s => past = [] ∧
        RingInv ch s ∧ k.toNat ∣ count ch.num.toNat w.toNat (ch.outIndex s.mem) := by
    intro past s₀ s hguar h
    refine ⟨hguar, fun s' hs' => ⟨trivial, ⟨rfl, rfl⟩, ?_, hs'.inv, hs'.framed.len_dvd⟩⟩
    rw [h.1]
    rfl
  refine Spec.bind hwrite fun w => ?_
  have hread : Spec ringHandler copiedBytes (FramedWriterStep ch k.toNat) SameItems
      (fun _ _ => True) (fun past s => past = [] ∧ RingInv ch s ∧
        k.toNat ∣ count ch.num.toNat w.toNat (ch.outIndex s.mem))
      (getReg (ch.base + MbSubRgnDesc.itemOutIndex)) fun past r s => past = [] ∧ RingInv ch s ∧
        k.toNat ∣ (if w ≥ r then w - r else ch.num - r + w).toNat := by
    refine ((framedParty ch k).getReg (P := fun s => RingInv ch s ∧
      k.toNat ∣ count ch.num.toNat w.toNat (ch.outIndex s.mem)) (fun s h => h.1)
      (fun s s' h hs => ⟨hs.inv, by rw [hs.out_eq]; exact h.2⟩) _).weaken
      (fun _ _ h => h) fun past r s h => ?_
    obtain ⟨hpast, ⟨hinv, hdvd⟩, rfl⟩ := h
    refine ⟨hpast, hinv, ?_⟩
    rw [occupied_toNat ch.num w _ hinv.out_lt]
    exact hdvd
  refine Spec.bind hread fun r => ?_
  by_cases hle : w ≥ r
  · simp only [if_pos hle]
    exact Spec.ret fun past s h => h.2.2
  · simp only [if_neg hle]
    refine Spec.bind ((framedParty ch k).getReg (P := fun s => RingInv ch s ∧
      k.toNat ∣ (ch.num - r + w).toNat) (fun s h => h.1) (fun s s' h hs => ⟨hs.inv, h.2⟩) _)
      fun num => ?_
    refine Spec.ret fun past s h => ?_
    obtain ⟨-, ⟨hinv, hdvd⟩, rfl⟩ := h
    rw [hinv.num]
    exact hdvd

/-- Of whole messages, a read takes one or none. -/
theorem readNum_cases (valid k : UInt32) (h : k.toNat ∣ valid.toNat) :
    (if valid < k then valid else k).toNat = 0 ∨
      (if valid < k then valid else k).toNat = k.toNat := by
  split
  · rename_i hlt
    exact .inl (Nat.eq_zero_of_dvd_of_lt h (UInt32.lt_iff_toNat_lt.mp hlt))
  · exact .inr rfl

/-- A read reports a whole message or none. -/
theorem framedReader_results (buf : Option Mem) (s : RingState) (hs : RingInv ch s) :
    Wp ringHandler copiedBytes (FramedWriterStep ch k.toNat) SameItems (fun _ _ => True)
      (fun _ r s₀ s => SameItems s₀ s ∧ (r.1.toNat = 0 ∨ r.1.toNat = k.toNat))
      ((reader ch).prog ⟨buf, k⟩) [] s s := by
  cases buf with
  | none => exact ⟨⟨rfl, rfl⟩, .inl rfl⟩
  | some dest =>
      simp only [reader, libMBRead, ne_eq, ch.mb_ne_null, not_false_eq_true, if_true]
      refine (framedParty ch k).onSubRegion _ _ _ (fun s₀ s hguar _ => ⟨hguar, .inl rfl⟩)
        (fun _ s₀ s hguar hinv => ?_) hs
      simp only [Prog.expand_bind, Prog.expand_ite, Prog.pure_eq, Prog.expand_ret]
      refine (framed_validItem ch k _).then (fun past valid s₀ s hguar hdvd => ?_) hguar
        ⟨rfl, hinv⟩
      have hnum := readNum_cases valid k hdvd
      generalize (if valid < k then valid else k) = n at hnum ⊢
      have hret : (int32 n.toNat).toNat = 0 ∨ (int32 n.toNat).toNat = k.toNat := by
        rcases int32_toNat_cases n with h | h <;> omega
      refine Wp.of_returns ringHandler_sameItems ?_ hguar
      refine Prog.Returns.ite (fun _ => ?_) fun _ => ?_
      · exact Prog.Returns.of_bind fun _ => hret
      · exact .inl rfl

theorem framedReader_calls (buf : Option Mem) (s : RingState) (hs : FramedInv ch k.toNat s) :
    Wp ringHandler copiedBytes (FramedWriterStep ch k.toNat) (FramedReaderStep ch k.toNat)
      (readerSafe ch)
      (fun _ r s₀ s => FramedReaderStep ch k.toNat s₀ ((framedReader ch k).finish buf r s))
      ((framedReader ch k).prog buf) [] s s := by
  refine Wp.both (R := WriterStep ch) (W := SameItems) (J := FramedInv ch k.toNat)
    (fun s s' h => ⟨h.toWriterStep, h, h.framed⟩)
    (fun s₀ s hJ hstep hsame => ⟨hstep, hstep.inv, ?_, ?_⟩) (fun past r s₀ s hJ hdone hrest => ?_)
    hs (reader_calls ch ⟨buf, k⟩ s hs.toRingInv) (framedReader_results ch k buf s hs.toRingInv)
  · rw [hsame.1]
    exact hJ.accepted_dvd
  · rw [hsame.2]
    exact hJ.received_dvd
  · obtain ⟨⟨hacc, hrec⟩, hret⟩ := hrest
    refine ⟨hdone, hdone.inv, ?_, ?_⟩
    · change k.toNat ∣ s.accepted.length
      rw [hacc]
      exact hJ.accepted_dvd
    · change k.toNat ∣ (s.received ++ reportedItems ch.size.toNat r.2 r.1).length
      rw [hrec]
      exact dvd_reported hJ.received_dvd hret

end Reader

abbrev FramedSystem (ch : Channel) (k : UInt32) : Type :=
  System Nat (framedWriter ch k) (framedReader ch k)

namespace FramedSystem
variable {ch : Channel} {k : UInt32}

/-- What any interleaving of the two parties reaches from a memory without items. -/
def Reachable (m : Mem) (x : FramedSystem ch k) : Prop :=
  System.Reachable ringHandler copiedBytes ⟨m, [], []⟩ x

theorem verified (ch : Channel) (k : UInt32) :
    Verified ringHandler copiedBytes (framedWriter ch k) (framedReader ch k)
      (FramedWriterStep ch k.toNat) (FramedReaderStep ch k.toNat) (writerSafe ch) (readerSafe ch)
      (FramedInv ch k.toNat) where
  reflC _ h := ⟨.refl h.toRingInv, h⟩
  reflD _ h := ⟨.refl h.toRingInv, h⟩
  transC _ _ _ h h' := ⟨h.toWriterStep.trans h'.toWriterStep, h'.framed⟩
  transD _ _ _ h h' := ⟨h.toReaderStep.trans h'.toReaderStep, h'.framed⟩
  invC _ _ h := h.framed
  invD _ _ h := h.framed
  callsC buf s hs := framedWriter_calls ch k buf s hs
  callsD buf s hs := framedReader_calls ch k buf s hs

theorem inv {m : Mem} (h : ch.Consistent m) (hempty : ch.items m = []) {x : FramedSystem ch k}
    (hx : x.Reachable m) : FramedInv ch k.toNat x.state :=
  ((verified ch k).reachable ⟨⟨h, hempty.symm⟩, Nat.dvd_zero _, Nat.dvd_zero _⟩ hx).1

/-- A write reports at most `k` items, and so does a read. -/
theorem returns (ch : Channel) (k : UInt32) :
    (∀ buf, ((framedWriter ch k).prog buf).Returns fun ret : Int => ret.toNat ≤ k.toNat) ∧
      ∀ buf, ((framedReader ch k).prog buf).Returns
        fun r : Int × Option Mem => r.1.toNat ≤ k.toNat := by
  constructor
  · exact fun buf => (writer_returns ch k buf).mono fun ret h => by omega
  · intro buf
    refine Prog.Returns.expand _ ?_
    cases buf with
    | none => exact Nat.zero_le _
    | some dest =>
        refine .ite (fun _ => ?_) fun _ => Nat.zero_le _
        refine .of_bind fun magic => .ite (fun _ => ?_) fun _ => Nat.zero_le _
        refine .of_bind fun num => .ite (fun _ => ?_) fun _ => Nat.zero_le _
        refine .of_bind fun start => .of_bind fun sane => .ite (fun _ => ?_) fun _ =>
          Nat.zero_le _
        refine .of_bind fun valid => .ite (fun _ => .of_bind fun buf => ?_) fun _ => Nat.zero_le _
        have hle : (if valid < k then valid else k).toNat ≤ k.toNat := by
          split
          · exact Nat.le_of_lt (UInt32.lt_iff_toNat_lt.mp ‹_›)
          · exact Nat.le_refl _
        change (int32 (if valid < k then valid else k).toNat).toNat ≤ k.toNat
        rcases int32_toNat_cases (if valid < k then valid else k) with h | h <;> omega

/-- The state before the completion of a step: an operation notes no item. -/
theorem sameItems_of_effect {s s₁ : RingState}
    (h : s₁ = s ∨ ∃ o : MemSig.Op, s₁ = (ringHandler o s).2) : SameItems s s₁ := by
  rcases h with rfl | ⟨o, rfl⟩
  · exact ⟨rfl, rfl⟩
  · exact ringHandler_sameItems o _

theorem reported_le {size : Nat} {buf : Option Mem} {ret : Int} (h : ret.toNat ≤ k.toNat) :
    (reportedItems size buf ret).length ≤ k.toNat := by
  rcases reportedItems_length size buf ret with hlen | hlen <;> omega

theorem writer_step {t t' : Thread Nat (framedWriter ch k)} {s s' : RingState}
    (hs : FramedInv ch k.toNat s) (hs' : FramedInv ch k.toNat s')
    (ht : t.Returns fun _ (ret : Int) => ret.toNat ≤ k.toNat)
    (hstep : ThreadStep ringHandler copiedBytes (framedWriter ch k) t s t' s') :
    GainsMessage k.toNat s.accepted s'.accepted ∧ s'.received = s.received := by
  obtain ⟨s₁, hop, hdone⟩ := hstep.effect (returns ch k).1 ht
  obtain ⟨hacc, hrec⟩ := sameItems_of_effect hop
  rcases hdone with rfl | ⟨buf, ret, hret, rfl⟩
  · exact ⟨.inl hacc, hrec⟩
  · have hdvd : k.toNat ∣ (s₁.accepted ++ reportedItems ch.size.toNat buf ret).length :=
      hs'.accepted_dvd
    rw [hacc] at hdvd
    refine ⟨?_, hrec⟩
    change GainsMessage _ _ (s₁.accepted ++ reportedItems ch.size.toNat buf ret)
    rw [hacc]
    exact gainsMessage_of_dvd hs.accepted_dvd hdvd (reported_le hret)

theorem reader_step {t t' : Thread Nat (framedReader ch k)} {s s' : RingState}
    (hs : FramedInv ch k.toNat s) (hs' : FramedInv ch k.toNat s')
    (ht : t.Returns fun _ (r : Int × Option Mem) => r.1.toNat ≤ k.toNat)
    (hstep : ThreadStep ringHandler copiedBytes (framedReader ch k) t s t' s') :
    s'.accepted = s.accepted ∧ GainsMessage k.toNat s.received s'.received := by
  obtain ⟨s₁, hop, hdone⟩ := hstep.effect (returns ch k).2 ht
  obtain ⟨hacc, hrec⟩ := sameItems_of_effect hop
  rcases hdone with rfl | ⟨buf, r, hret, rfl⟩
  · exact ⟨hacc, .inl hrec⟩
  · have hdvd : k.toNat ∣ (s₁.received ++ reportedItems ch.size.toNat r.2 r.1).length :=
      hs'.received_dvd
    rw [hrec] at hdvd
    refine ⟨hacc, ?_⟩
    change GainsMessage _ _ (s₁.received ++ reportedItems ch.size.toNat r.2 r.1)
    rw [hrec]
    exact gainsMessage_of_dvd hs.received_dvd hdvd (reported_le hret)

/-- In every interleaving, a step delivers nothing or exactly one message, and accepts
nothing or exactly one; what was received are the first messages of what was accepted. -/
theorem messages_whole (ch : Channel) (k : UInt32) (m : Mem) (h : ch.Consistent m)
    (hempty : ch.items m = []) (x : FramedSystem ch k) (hx : x.Reachable m) :
    k.toNat ∣ x.state.accepted.length ∧ k.toNat ∣ x.state.received.length ∧
      x.state.accepted = x.state.received ++ ch.items x.state.mem ∧
      ∀ y : FramedSystem ch k, System.Step ringHandler copiedBytes x y →
        GainsMessage k.toNat x.state.accepted y.state.accepted ∧
          GainsMessage k.toNat x.state.received y.state.received := by
  have hinv := inv h hempty hx
  refine ⟨hinv.accepted_dvd, hinv.received_dvd, hinv.accepted_eq, fun y hstep => ?_⟩
  have hnext := inv h hempty (Relation.ReflTransGen.tail hx hstep)
  obtain ⟨hleft, hright⟩ := System.Reachable.returns (returns ch k).1 (returns ch k).2 hx
  cases hstep with
  | left u hstep =>
      obtain ⟨hacc, hrec⟩ := writer_step hinv hnext hleft hstep
      exact ⟨hacc, .inl hrec⟩
  | right t hstep =>
      obtain ⟨hacc, hrec⟩ := reader_step hinv hnext hright hstep
      exact ⟨.inl hacc, hrec⟩

/-- While one party tries to write a second message, the other one reads the first. -/
theorem messages_whole_sample :
    ∃ x : FramedSystem Channel.sample 2, x.Reachable Channel.sampleMem ∧
      x.left ≠ .idle ∧ x.state.received = [[0, 1], [2, 3]] ∧ 2 ∣ x.state.received.length := by
  have hstart : System.Reachable ringHandler copiedBytes ⟨Channel.sampleMem, [], []⟩
      (⟨.idle, .idle, ⟨Channel.sampleMem, [], []⟩⟩ : FramedSystem Channel.sample 2) := .refl
  have hwritten := hstart.call_left (some fun i => UInt8.ofNat i)
  have hwriting := hwritten.tail (.left _ (.start (some fun i => UInt8.ofNat i : Option Mem) _))
  have hreading := hwriting.tail (.right _ (.start (some fun _ => 0 : Option Mem) _))
  have hreach := System.Reachable.turns hreading
    [false, true, false, false, true, false, false, true, false, false, true, false, false, true,
      false, false, true, false, false, true, false, false]
  refine ⟨_, hreach, ?_, ?_, ?_⟩
  · rintro ⟨⟩
  · decide
  · exact (messages_whole Channel.sample 2 Channel.sampleMem Channel.sampleMem_consistent
      (by decide) _ hreach).2.1

end FramedSystem

end RtssMailbox
