import RtssMailbox.RingInterleaving

/-!
The writer under interference. While a write runs, the reader can only move the
read index towards the write index, so a count of free items is never too large
when it is used, and the slots that the copies fill stay free until the write
index is stored.
-/
namespace RtssMailbox
open Effects ByteMemory CyclicBuffer RelyGuarantee

/-- The bytes that a write has copied so far lie in free slots. -/
def writerSafe (ch : Channel) (past : List Nat) (s : RingState) : Prop :=
  ∀ p ∈ past, ch.FreeByte s.mem p

theorem writerParty (ch : Channel) :
    Party ch (ReaderStep ch) (WriterStep ch) (writerSafe ch) where
  rely_inv _ _ h := h.inv
  guar_refl _ h := .refl h
  safe_nil _ _ h := absurd h List.not_mem_nil

abbrev WriterSpec (ch : Channel) {α : Type} (P : List Nat → RingState → Prop) (p : Prog MemSig α)
    (Q : List Nat → α → RingState → Prop) : Prop :=
  Spec ringHandler copiedBytes (ReaderStep ch) (WriterStep ch) (writerSafe ch) P p Q

section Count
variable {ch : Channel}

/-- What the writer knows between its register reads about the room in the ring. -/
structure Room (ch : Channel) (free : Nat) (s : RingState) : Prop extends RingInv ch s where
  room : ch.len s.mem + free < ch.num.toNat

theorem Room.stable {free : Nat} {s s' : RingState} (h : Room ch free s)
    (hs : ReaderStep ch s s') : Room ch free s' := by
  have hroom := h.room
  have hle := hs.len_le
  exact ⟨hs.inv, by omega⟩

/-- A count of free items stays valid: the reader only adds to them. -/
theorem writer_freeItem (g : Nat) :
    WriterSpec ch (fun past s => past = [] ∧ RingInv ch s)
      ((libMBFreeItem ch.base).expand (slotwise g))
      fun past f s => past = [] ∧ Room ch f.toNat s := by
  simp only [libMBFreeItem, Prog.expand_bind, expand_getReg, Prog.expand_ite, Prog.pure_eq,
    Prog.expand_ret]
  refine Spec.bind ((writerParty ch).getReg_inv _) fun w => ?_
  have hindex : WriterSpec ch
      (fun past s => past = [] ∧ RingInv ch s ∧
        w = load32 s.mem (ch.base + MbSubRgnDesc.itemInIndex))
      (getReg (ch.base + MbSubRgnDesc.itemOutIndex)) fun past r s => past = [] ∧
        Room ch (if w ≥ r then ch.num - w + r - 1 else r - w - 1).toNat s := by
    refine ((writerParty ch).getReg (P := fun s => RingInv ch s ∧ ch.inIndex s.mem = w.toNat)
      (fun s h => h.1) (fun s s' h hs => ⟨hs.inv, hs.in_eq.trans h.2⟩) _).weaken
      (fun _ _ h => ⟨h.1, h.2.1, congrArg UInt32.toNat h.2.2.symm⟩) fun past r s h => ?_
    obtain ⟨hpast, ⟨hinv, hw⟩, rfl⟩ := h
    refine ⟨hpast, hinv, ?_⟩
    have hlt := hinv.len_lt
    rw [vacant_toNat ch.num w _ (by rw [← hw]; exact hinv.in_lt) hinv.out_lt, ← hw]
    change ch.len s.mem + (ch.num.toNat - 1 - ch.len s.mem) < ch.num.toNat
    omega
  refine Spec.bind hindex fun r => ?_
  by_cases hle : w ≥ r
  · simp only [if_pos hle]
    refine Spec.bind ((writerParty ch).getReg (fun s h => h.toRingInv)
      (fun s s' h hs => h.stable hs) _) fun num => ?_
    refine Spec.ret fun past s h => ⟨h.1, ?_⟩
    obtain ⟨-, hroom, rfl⟩ := h
    rw [hroom.num]
    exact hroom
  · simp only [if_neg hle]
    exact Spec.ret fun past s h => h

end Count

section Copy
variable {ch : Channel}

/-- During the copies of a write of `k` items from slot `w` on: `done` bytes of the
source are in the ring, and every copied byte belongs to those slots. -/
structure Filling (ch : Channel) (w k : Nat) (src : Mem) (done : Nat) (past : List Nat)
    (s : RingState) : Prop extends RingInv ch s where
  in_eq : ch.inIndex s.mem = w
  room : ch.len s.mem + k < ch.num.toNat
  copied : ∀ i < done, s.mem (ch.position w i) = src i
  past_slots : ∀ p ∈ past, ∃ i < k * ch.size.toNat, p = ch.position w i

variable {w k done : Nat} {src : Mem} {past : List Nat} {s s' : RingState}

theorem Filling.stable (h : Filling ch w k src done past s) (hs : ReaderStep ch s s') :
    Filling ch w k src done past s' := by
  have hroom := h.room
  have hle := hs.len_le
  refine ⟨hs.inv, hs.in_eq.trans h.in_eq, by omega, fun i hi => ?_, h.past_slots⟩
  rw [hs.ring_eq (ch.position w i) (Nat.le_add_right _ _)]
  exact h.copied i hi

theorem Filling.safe (h : Filling ch w k src done past s) : writerSafe ch past s := by
  intro p hp
  obtain ⟨i, hi, rfl⟩ := h.past_slots p hp
  have hroom := h.room
  have hle : k * ch.size.toNat ≤ (ch.num.toNat - 1 - ch.len s.mem) * ch.size.toNat :=
    Nat.mul_le_mul_right _ (by omega)
  exact ⟨i, by omega, by rw [h.in_eq]⟩

/-- The bytes of `n` more bytes of the transfer join those that were copied. -/
theorem Filling.past_append (h : Filling ch w k src done past s) (a n : Nat)
    (hn : done + n ≤ k * ch.size.toNat) (ha : ∀ i < n, a + i = ch.position w (done + i)) :
    Filling ch w k src done (past ++ byteRange a n) s := by
  refine { h with past_slots := fun p hp => ?_ }
  cases List.mem_append.mp hp with
  | inl hp => exact h.past_slots p hp
  | inr hp =>
      rw [mem_byteRange] at hp
      have hpos := ha (p - a) (by omega)
      exact ⟨done + (p - a), by omega, by omega⟩

theorem Filling.position_ne (h : Filling ch w k src done past s) {i j : Nat}
    (hi : i < k * ch.size.toNat) (hj : j < k * ch.size.toNat) (hne : i ≠ j) :
    ch.position w i ≠ ch.position w j := by
  intro heq
  have hroom := h.room
  have hle : k * ch.size.toNat ≤ ch.num.toNat * ch.size.toNat :=
    Nat.mul_le_mul_right _ (by omega)
  simp only [Channel.position] at heq
  exact hne (position_inj (ch.num.toNat * ch.size.toNat) (w * ch.size.toNat) i j (by omega)
    (by omega) (by omega))

/-- One copy into free slots is a step of the writer. -/
theorem Filling.put (h : Filling ch w k src done past s) (a n : Nat)
    (hn : done + n ≤ k * ch.size.toNat) (ha : ∀ i < n, a + i = ch.position w (done + i)) :
    WriterStep ch s { s with mem := storeBytes s.mem a (loadBytes src done n) } ∧
      Filling ch w k src (done + n) past
        { s with mem := storeBytes s.mem a (loadBytes src done n) } := by
  have hoff : ∀ p, (∀ i < n, p ≠ ch.position w (done + i)) →
      storeBytes s.mem a (loadBytes src done n) p = s.mem p := fun p hp => by
    refine storeBytes_outside _ _ _ _ ?_
    rw [loadBytes_length]
    by_contra hin
    have hpos := ha (p - a) (by omega)
    exact hp (p - a) (by omega) (by omega)
  have hon : ∀ i < n, storeBytes s.mem a (loadBytes src done n) (ch.position w (done + i)) =
      src (done + i) := fun i hi => by
    rw [← ha i hi, storeBytes_inside _ _ _ _ (by rw [loadBytes_length]; exact hi)]
    simp [loadBytes]
  have hroom := h.room
  have hsafe := (h.past_append a n hn ha).safe
  have hdesc : ∀ p < ch.ring, storeBytes s.mem a (loadBytes src done n) p = s.mem p :=
    fun p hp => hoff p fun i _ heq => by
      simp only [Channel.position] at heq
      omega
  obtain ⟨hcons, hin, hout⟩ := h.toConsistent.of_ring hdesc
  have hitem : ∀ p, ch.ItemByte s.mem p →
      storeBytes s.mem a (loadBytes src done n) p = s.mem p := fun p hp => hoff p fun i hi heq => by
    have hpos := ha i hi
    refine h.toConsistent.free_not_item (hsafe p (List.mem_append_right _ ?_)) hp
    rw [mem_byteRange]
    omega
  have hitems : ch.items (storeBytes s.mem a (loadBytes src done n)) = ch.items s.mem :=
    Channel.items_congr hin hout fun j hj => hitem _ ⟨j, hj, rfl⟩
  have hlen : ch.len (storeBytes s.mem a (loadBytes src done n)) = ch.len s.mem := by
    rw [← Channel.items_length, hitems, Channel.items_length]
  have hinv : RingInv ch { s with mem := storeBytes s.mem a (loadBytes src done n) } :=
    ⟨hcons, by rw [hitems]; exact h.accepted_eq⟩
  refine ⟨⟨hinv, hout, rfl, Nat.le_of_eq hlen.symm, hitem⟩, hinv, hin.trans h.in_eq,
    by rw [hlen]; exact hroom, fun i hi => ?_, h.past_slots⟩
  by_cases hi' : i < done
  · rw [← h.copied i hi']
    exact hoff _ fun j hj => h.position_ne (by omega) (by omega) (by omega)
  · obtain ⟨j, rfl⟩ := Nat.exists_eq_add_of_le (Nat.not_lt.mp hi')
    exact hon j (by omega)

theorem writer_putSlots (g n a len : Nat) (hlen : len ≤ n * g)
    (hn : done + len ≤ k * ch.size.toNat) (ha : ∀ i < len, a + i = ch.position w (done + i)) :
    WriterSpec ch (Filling ch w k src done) (putSlots g n a (loadBytes src done len))
      fun past _ s => Filling ch w k src (done + len) past s := by
  induction n generalizing a len done with
  | zero =>
      have hzero : len = 0 := by omega
      cases hzero
      exact Spec.ret fun past s h => h
  | succ n ih =>
      rw [Nat.add_mul, Nat.one_mul] at hlen
      rw [putSlots, take_loadBytes, drop_loadBytes]
      have hput : WriterSpec ch (Filling ch w k src done)
          (putBytes a (loadBytes src done (min g len)))
          fun past _ s => Filling ch w k src (done + min g len) past s := by
        refine Spec.perform (S := MemSig) (o := MemOp.copyIn a _)
          (fun past s s' h hs => h.stable hs) (fun past s h => ?_) fun past s h => ?_
        all_goals rw [copiedBytes, MemOp.copied, loadBytes_length]
        · exact (h.past_append a (min g len) (by omega) fun i hi => ha i (by omega)).safe
        · exact (h.past_append a (min g len) (by omega) fun i hi => ha i (by omega)).put a _
            (by omega) fun i hi => ha i (by omega)
      refine Spec.bind hput fun _ => ?_
      have hnext : ∀ i < len - g, a + g + i = ch.position w (done + min g len + i) :=
        fun i hi => by
          have hpos := ha (g + i) (by omega)
          rw [Nat.min_eq_left (by omega), Nat.add_assoc, Nat.add_assoc, hpos]
      have hrest := ih (a + g) (len - g) (by omega) (by omega) hnext
      rw [show done + min g len + (len - g) = done + len by omega] at hrest
      exact hrest

theorem writer_copyIntoRing (g total : Nat) (hg : 0 < g) (spans : List Span)
    (htiles : Tiles (ch.num.toNat * ch.size.toNat) (w * ch.size.toNat) done spans total)
    (htotal : total ≤ k * ch.size.toNat) :
    WriterSpec ch (Filling ch w k src done)
      ((copyIntoRing ch.ring src spans).expand (slotwise g))
      fun past _ s => Filling ch w k src total past s := by
  induction spans generalizing done with
  | nil =>
      cases htiles
      exact Spec.ret fun past s h => h
  | cons span rest ih =>
      obtain ⟨rfl, hslot, hfit, hrest⟩ := htiles
      have hle := hrest.le
      simp only [copyIntoRing, copyIn, Prog.expand_bind, expand_putBytes, loadBytes_length]
      refine Spec.bind (writer_putSlots g _ _ span.len (slotCount_enough g _ hg) (by omega)
        fun i hi => ?_) fun _ => ih hrest
      have hpos := span_position (ch.num.toNat * ch.size.toNat) (w * ch.size.toNat) span.off
        span.slot i hslot (by omega)
      simp only [Channel.position]
      omega

/-- Storing the write index accepts the whole transfer at once. -/
theorem Filling.publish (h : Filling ch w k src (k * ch.size.toNat) past s) (hu : ch.Usable)
    (itemNum : UInt32) (hk : itemNum.toNat = k) (index : UInt32) (hindex : index.toNat = w) :
    WriterStep ch s
      { mem := store32 s.mem (ch.base + MbSubRgnDesc.itemInIndex) ((index + itemNum) % ch.num)
        accepted := s.accepted ++ bufferItems ch.size.toNat src k
        received := s.received } := by
  have hword : index = load32 s.mem (ch.base + MbSubRgnDesc.itemInIndex) :=
    UInt32.toNat.inj (hindex.trans h.in_eq.symm)
  obtain ⟨hcons, hout, hitems⟩ := Channel.publish_spec h.toConsistent hu src itemNum
    (by rw [hk]; exact h.room)
    (fun i hi => by
      rw [h.in_eq]
      exact h.copied i (by rw [← hk]; exact hi)) rfl
  rw [← hword, hk] at hitems
  rw [← hword] at hcons hout
  refine ⟨⟨hcons, ?_⟩, hout, rfl, ?_, fun p hp => store32_outside _ _ _ _ (Or.inr ?_)⟩
  · simp only [hitems, h.accepted_eq, List.append_assoc]
  · rw [← Channel.items_length, ← Channel.items_length, hitems, List.length_append]
    exact Nat.le_add_right _ _
  · obtain ⟨j, -, rfl⟩ := hp
    simp only [Channel.position, Channel.ring, MbSubRgnDesc.itemInIndex, mbSubRegionHeaderSz]
    omega

end Copy

/-- The end of a write: its last step may complete the call. -/
def writeDone (ch : Channel) (call : TransferCall) (_ : List Nat) (ret : Int)
    (s₀ s : RingState) : Prop :=
  WriterStep ch s₀
    { s with accepted := s.accepted ++ reportedItems ch.size.toNat call.buf ret }

/-- A call that reports no items ends in the state that it has left. -/
theorem writeDone_refused {ch : Channel} {call : TransferCall} {ret : Int} {s₀ s : RingState}
    (hret : ret.toNat = 0) (hguar : WriterStep ch s₀ s) : writeDone ch call [] ret s₀ s := by
  have hnone : reportedItems ch.size.toNat call.buf ret = [] := by
    cases hbuf : call.buf <;> simp [reportedItems, hret, bufferItems]
  rw [writeDone, hnone, List.append_nil]
  exact hguar

abbrev WriterWp (ch : Channel) (call : TransferCall) (p : Prog MemSig Int)
    (s₀ s : RingState) : Prop :=
  Wp ringHandler copiedBytes (ReaderStep ch) (WriterStep ch) (writerSafe ch)
    (writeDone ch call) p [] s₀ s

/-- The ring write of an admitted call, with the completion of the call. -/
theorem writer_writeItem (ch : Channel) (hu : ch.Usable) (src : Mem) (itemNum : UInt32)
    {s₀ s : RingState} (hguar : WriterStep ch s₀ s) (hroom : Room ch itemNum.toNat s) :
    WriterWp ch ⟨some src, itemNum⟩
      ((libMBWriteItem ch.base src itemNum).expand (slotwise ch.size.toNat) >>= fun _ =>
        .ret (int32 itemNum.toNat)) s₀ s := by
  have hnum : ch.num.toNat ≤ 1048576 := UInt32.le_iff_toNat_le.mp hu.1
  simp only [libMBWriteItem, Prog.expand_bind, expand_getReg, Prog.expand_ite, Prog.pure_eq,
    Prog.expand_ret, expand_setReg, Prog.bind_bind]
  refine ((writerParty ch).getReg (fun s h => h.toRingInv) (fun s s' h hs => h.stable hs) _).then
    (fun past size s₀ s hguar hread => ?_) hguar ⟨rfl, hroom⟩
  obtain ⟨rfl, hroom, hsize⟩ := hread
  rw [hroom.size] at hsize
  refine ((writerParty ch).getReg (fun s h => h.toRingInv) (fun s s' h hs => h.stable hs) _).then
    (fun past w s₀ s hguar hread => ?_) hguar ⟨rfl, hroom⟩
  obtain ⟨rfl, hroom, hw⟩ := hread
  refine ((writerParty ch).getReg (P := fun s => Room ch itemNum.toNat s ∧
    ch.inIndex s.mem = w.toNat) (fun s h => h.1.toRingInv)
    (fun s s' h hs => ⟨h.1.stable hs, hs.in_eq.trans h.2⟩) _).then
    (fun past num s₀ s hguar hread => ?_) hguar ⟨rfl, hroom, congrArg UInt32.toNat hw.symm⟩
  obtain ⟨rfl, ⟨hroom, hin⟩, hread⟩ := hread
  rw [hroom.num] at hread
  cases hsize
  cases hread
  have hinlt := hroom.in_lt
  have hlt : w < ch.num := UInt32.lt_iff_toNat_lt.mpr (by rw [← hin]; exact hinlt)
  have hlen := hroom.room
  rw [if_neg (by simp [Channel.num_ne_zero, Channel.size_ne_zero, hlt]), Prog.bind_bind]
  have htiles := ringSpans_tiles w itemNum ch.num ch.size hlt
    (UInt32.le_iff_toNat_le.mpr (by omega)) hu.1 ch.bytes_lt
  refine (writer_copyIntoRing (k := itemNum.toNat) _ _ ch.size_pos _ htiles
    (Nat.le_refl _)).then (fun past _ s₀ s hguar hfilled => ?_) hguar
    ⟨hroom.toRingInv, hin, hlen, fun i hi => absurd hi (Nat.not_lt_zero _),
      fun p hp => absurd hp List.not_mem_nil⟩
  refine ⟨hguar, fun s' hs' => ?_⟩
  have hfilled' := hfilled.stable hs'
  have hpublish := hfilled'.publish hu itemNum rfl w rfl
  refine ⟨?_, ?_⟩
  · rw [copiedBytes, MemOp.copied, List.append_nil]
    exact hfilled'.safe
  · have hint : (int32 itemNum.toNat).toNat = itemNum.toNat := by
      rw [int32_of_lt _ (by omega), Int.toNat_natCast]
    have hdone : writeDone ch ⟨some src, itemNum⟩ [] (int32 itemNum.toNat) s'
        (ringHandler (.setReg (ch.base + MbSubRgnDesc.itemInIndex)
          ((w + itemNum) % ch.num)) s').2 := by
      rw [writeDone, reportedItems, hint]
      exact hpublish
    exact hdone

/-- Every write of the writer is verified: a refused one leaves the items as they
are, an accepted one adds its items with the store of its index. -/
theorem writer_calls (ch : Channel) (call : TransferCall) (s : RingState) (hs : RingInv ch s) :
    WriterWp ch call
      ((libMBWrite ch.mb call.buf call.itemNum ch.index).expand (slotwise ch.size.toNat)) s s := by
  obtain ⟨buf, itemNum⟩ := call
  cases buf with
  | none => exact writeDone_refused (show mbENullInput.toNat = 0 from rfl) (.refl hs)
  | some src =>
      simp only [libMBWrite, ne_eq, ch.mb_ne_null, not_false_eq_true, if_true]
      refine (writerParty ch).onSubRegion _ _ _
        (fun s₀ s hguar _ => writeDone_refused rfl hguar) (fun hu s₀ s hguar hinv => ?_) hs
      simp only [Prog.expand_bind, Prog.expand_ite, Prog.pure_eq, Prog.expand_ret]
      refine (writer_freeItem _).then (fun past free s₀ s hguar hfree => ?_) hguar ⟨rfl, hinv⟩
      obtain ⟨rfl, hroom⟩ := hfree
      by_cases hfit : itemNum ≤ free
      · rw [if_pos hfit]
        have hle := UInt32.le_iff_toNat_le.mp hfit
        have hfree := hroom.room
        exact writer_writeItem ch hu src itemNum hguar ⟨hroom.toRingInv, by omega⟩
      · rw [if_neg hfit]
        exact writeDone_refused (show mbENoEnoughBuf.toNat = 0 from rfl) hguar

end RtssMailbox
