import RtssMailbox.RingInterleaving

/-!
The reader under interference. While a read runs, the writer can only move the
write index away from the read index, so a count of valid items is never too
large when it is used, and the slots that the copies take keep their items until
the read index is stored.
-/
namespace RtssMailbox
open Effects ByteMemory CyclicBuffer RelyGuarantee

/-- The bytes that a read has copied so far belong to items in the ring. -/
def readerSafe (ch : Channel) (past : List Nat) (s : RingState) : Prop :=
  ∀ p ∈ past, ch.ItemByte s.mem p

theorem readerParty (ch : Channel) :
    Party ch (WriterStep ch) (ReaderStep ch) (readerSafe ch) where
  rely_inv _ _ h := h.inv
  guar_refl _ h := .refl h
  safe_nil _ _ h := absurd h List.not_mem_nil

abbrev ReaderSpec (ch : Channel) {α : Type} (P : List Nat → RingState → Prop) (p : Prog MemSig α)
    (Q : List Nat → α → RingState → Prop) : Prop :=
  Spec ringHandler copiedBytes (WriterStep ch) (ReaderStep ch) (readerSafe ch) P p Q

section Count
variable {ch : Channel}

/-- What the reader knows between its register reads about the items in the ring. -/
structure Available (ch : Channel) (n : Nat) (s : RingState) : Prop extends RingInv ch s where
  avail : n ≤ ch.len s.mem

theorem Available.stable {n : Nat} {s s' : RingState} (h : Available ch n s)
    (hs : WriterStep ch s s') : Available ch n s' :=
  ⟨hs.inv, Nat.le_trans h.avail hs.len_le⟩

/-- A count of valid items stays valid: the writer only adds to them. -/
theorem reader_validItem (g : Nat) :
    ReaderSpec ch (fun past s => past = [] ∧ RingInv ch s)
      ((libMBValidItem ch.base).expand (slotwise g))
      fun past v s => past = [] ∧ Available ch v.toNat s := by
  simp only [libMBValidItem, Prog.expand_bind, expand_getReg, Prog.expand_ite, Prog.pure_eq,
    Prog.expand_ret]
  refine Spec.bind ((readerParty ch).getReg_inv _) fun w => ?_
  have hindex : ReaderSpec ch
      (fun past s => past = [] ∧ RingInv ch s ∧
        w = load32 s.mem (ch.base + MbSubRgnDesc.itemInIndex))
      (getReg (ch.base + MbSubRgnDesc.itemOutIndex)) fun past r s => past = [] ∧
        Available ch (if w ≥ r then w - r else ch.num - r + w).toNat s := by
    -- the write index may be stale by then: what it counted is still in the ring
    refine ((readerParty ch).getReg
      (P := fun s => Available ch (count ch.num.toNat w.toNat (ch.outIndex s.mem)) s)
      (fun s h => h.toRingInv) (fun s s' h hs => ?_) _).weaken
      (fun _ s h => ⟨h.1, h.2.1, ?_⟩) fun past r s h => ?_
    · rw [hs.out_eq]
      exact h.stable hs
    · rw [h.2.2]
      exact Nat.le_refl _
    · obtain ⟨hpast, havail, rfl⟩ := h
      refine ⟨hpast, ?_⟩
      rw [occupied_toNat ch.num w _ havail.out_lt]
      exact havail
  refine Spec.bind hindex fun r => ?_
  by_cases hle : w ≥ r
  · simp only [if_pos hle]
    exact Spec.ret fun past s h => h
  · simp only [if_neg hle]
    refine Spec.bind ((readerParty ch).getReg (fun s h => h.toRingInv)
      (fun s s' h hs => h.stable hs) _) fun num => ?_
    refine Spec.ret fun past s h => ⟨h.1, ?_⟩
    obtain ⟨-, havail, rfl⟩ := h
    rw [havail.num]
    exact havail

end Count

section Copy
variable {ch : Channel}

/-- During the copies of a read of `n` items from slot `r` on: every copied byte
belongs to those slots, and `known` holds of bytes that were copied. -/
structure Draining (ch : Channel) (r n : Nat) (known : RingState → Prop) (past : List Nat)
    (s : RingState) : Prop extends Available ch n s where
  out_eq : ch.outIndex s.mem = r
  known_holds : known s
  past_slots : ∀ p ∈ past, ∃ i < n * ch.size.toNat, p = ch.position r i

/-- A fact about the bytes that the reader may copy. -/
def OfItems (ch : Channel) (r n : Nat) (known : RingState → Prop) : Prop :=
  ∀ s s' : RingState,
    (∀ i < n * ch.size.toNat, s'.mem (ch.position r i) = s.mem (ch.position r i)) →
    known s → known s'

variable {r n off : Nat} {known : RingState → Prop} {past : List Nat} {s s' : RingState}

theorem Draining.itemByte (h : Draining ch r n known past s) {i : Nat}
    (hi : i < n * ch.size.toNat) : ch.ItemByte s.mem (ch.position r i) :=
  ⟨i, Nat.lt_of_lt_of_le hi (Nat.mul_le_mul_right _ h.avail), by rw [h.out_eq]⟩

theorem Draining.stable (hknown : OfItems ch r n known) (h : Draining ch r n known past s)
    (hs : WriterStep ch s s') : Draining ch r n known past s' :=
  ⟨h.toAvailable.stable hs, hs.out_eq.trans h.out_eq,
    hknown s s' (fun _ hi => hs.item_eq _ (h.itemByte hi)) h.known_holds, h.past_slots⟩

theorem Draining.safe (h : Draining ch r n known past s) : readerSafe ch past s := by
  intro p hp
  obtain ⟨i, hi, rfl⟩ := h.past_slots p hp
  exact h.itemByte hi

theorem Draining.past_append (h : Draining ch r n known past s) (a len : Nat)
    (hn : off + len ≤ n * ch.size.toNat) (ha : ∀ i < len, a + i = ch.position r (off + i)) :
    Draining ch r n known (past ++ byteRange a len) s := by
  refine { h with past_slots := fun p hp => ?_ }
  cases List.mem_append.mp hp with
  | inl hp => exact h.past_slots p hp
  | inr hp =>
      rw [mem_byteRange] at hp
      have hpos := ha (p - a) (by omega)
      exact ⟨off + (p - a), by omega, by omega⟩

/-- The bytes of the ring that a copy of `len` bytes at offset `off` delivers. -/
def ringBytes (ch : Channel) (r off len : Nat) (s : RingState) : List UInt8 :=
  (List.range len).map fun i => s.mem (ch.position r (off + i))

theorem ringBytes_add (r off len len' : Nat) (s : RingState) :
    ringBytes ch r off (len + len') s =
      ringBytes ch r off len s ++ ringBytes ch r (off + len) len' s := by
  simp only [ringBytes, List.range_add, List.map_append, List.map_map]
  congr 1
  exact List.map_congr_left fun _ _ => by simp [Nat.add_assoc]

theorem ringBytes_ofItems (bs : List UInt8) (len : Nat) (hn : off + len ≤ n * ch.size.toNat)
    (hknown : OfItems ch r n known) :
    OfItems ch r n fun s => known s ∧ bs = ringBytes ch r off len s := by
  intro s s' hsame h
  refine ⟨hknown s s' hsame h.1, h.2.trans (List.map_congr_left fun i hi => ?_)⟩
  have hi' := List.mem_range.mp hi
  exact (hsame _ (by omega)).symm

theorem reader_getSlots (g cnt a len : Nat) (hknown : OfItems ch r n known)
    (hlen : len ≤ cnt * g) (hn : off + len ≤ n * ch.size.toNat)
    (ha : ∀ i < len, a + i = ch.position r (off + i)) :
    ReaderSpec ch (Draining ch r n known) (getSlots g cnt a len)
      fun past bs s =>
        Draining ch r n (fun s => known s ∧ bs = ringBytes ch r off len s) past s := by
  induction cnt generalizing a len off known with
  | zero =>
      have hzero : len = 0 := by omega
      cases hzero
      exact Spec.ret fun past s h => { h with known_holds := ⟨h.known_holds, rfl⟩ }
  | succ cnt ih =>
      rw [Nat.add_mul, Nat.one_mul] at hlen
      have hget : ReaderSpec ch (Draining ch r n known) (getBytes a (min g len))
          fun past bs s => Draining ch r n
            (fun s => known s ∧ bs = ringBytes ch r off (min g len) s) past s := by
        refine Spec.perform (S := MemSig) (o := MemOp.copyOut a _)
          (fun past s s' h hs => h.stable hknown hs) (fun past s h => ?_) fun past s h => ?_
        · exact (h.past_append a (min g len) (by omega) fun i hi => ha i (by omega)).safe
        · refine ⟨.refl h.toRingInv, ?_⟩
          have hpast := h.past_append a (min g len) (by omega) fun i hi => ha i (by omega)
          refine { hpast with known_holds := ⟨h.known_holds, ?_⟩ }
          refine List.map_congr_left fun i hi => congrArg s.mem (ha i ?_)
          have hi' := List.mem_range.mp hi
          omega
      refine Spec.bind hget fun bs => ?_
      have hnext : ∀ i < len - g, a + g + i = ch.position r (off + min g len + i) :=
        fun i hi => by
          have hpos := ha (g + i) (by omega)
          rw [Nat.min_eq_left (by omega), Nat.add_assoc, Nat.add_assoc, hpos]
      refine Spec.bind (ih (a + g) (len - g) (ringBytes_ofItems bs _ (by omega) hknown)
        (by omega) (by omega) hnext) fun rest => Spec.ret fun past s h => ?_
      obtain ⟨⟨hk, hbs⟩, hrest⟩ := h.known_holds
      refine { h with known_holds := ⟨hk, ?_⟩ }
      rw [show len = min g len + (len - g) by omega, ringBytes_add, ← hbs, ← hrest]

/-- The first `done` bytes of a buffer are those of the ring from slot `r` on. -/
def Delivered (ch : Channel) (r : Nat) (buf : Mem) (done : Nat) (s : RingState) : Prop :=
  ∀ i < done, buf i = s.mem (ch.position r i)

theorem delivered_ofItems (buf : Mem) (done : Nat) (hn : done ≤ n * ch.size.toNat) :
    OfItems ch r n (Delivered ch r buf done) := by
  intro s s' hsame h i hi
  rw [hsame i (by omega)]
  exact h i hi

theorem reader_copyFromRing (g total : Nat) (hg : 0 < g) (dest : Mem) (spans : List Span)
    (htiles : Tiles (ch.num.toNat * ch.size.toNat) (r * ch.size.toNat) off spans total)
    (htotal : total ≤ n * ch.size.toNat) :
    ReaderSpec ch (Draining ch r n (Delivered ch r dest off))
      ((copyFromRing ch.ring dest spans).expand (slotwise g))
      fun past buf s => Draining ch r n (Delivered ch r buf total) past s := by
  induction spans generalizing off dest with
  | nil =>
      cases htiles
      exact Spec.ret fun past s h => h
  | cons span rest ih =>
      obtain ⟨rfl, hslot, hfit, hrest⟩ := htiles
      have hle := hrest.le
      simp only [copyFromRing, copyOut, Prog.expand_bind, expand_getBytes, Prog.pure_eq,
        Prog.expand_ret, Prog.bind_bind]
      have hspan : ∀ i < span.len, ch.ring + span.slot + i = ch.position r (span.off + i) :=
        fun i hi => by
          have hpos := span_position (ch.num.toNat * ch.size.toNat) (r * ch.size.toNat) span.off
            span.slot i hslot (by omega)
          simp only [Channel.position]
          omega
      refine Spec.bind (reader_getSlots g _ _ span.len
        (delivered_ofItems dest span.off (by omega)) (slotCount_enough g _ hg) (by omega) hspan)
        fun bs => ?_
      refine (ih (storeBytes dest span.off bs) hrest).weaken (fun past s h => ?_)
        fun _ _ _ h => h
      obtain ⟨hdest, rfl⟩ := h.known_holds
      refine { h with known_holds := fun i hi => ?_ }
      by_cases hi' : i < span.off
      · rw [storeBytes_outside _ _ _ _ (Or.inl hi')]
        exact hdest i hi'
      · obtain ⟨j, rfl⟩ := Nat.exists_eq_add_of_le (Nat.not_lt.mp hi')
        rw [storeBytes_inside _ _ _ _ (by simp [ringBytes]; omega)]
        simp [ringBytes]

/-- Storing the read index delivers the whole transfer at once. -/
theorem Draining.release {buf : Mem}
    (h : Draining ch r n (Delivered ch r buf (n * ch.size.toNat)) past s) (hu : ch.Usable)
    (itemNum : UInt32) (hn : itemNum.toNat = n) (index : UInt32) (hindex : index.toNat = r) :
    ReaderStep ch s
      { mem := store32 s.mem (ch.base + MbSubRgnDesc.itemOutIndex) ((index + itemNum) % ch.num)
        accepted := s.accepted
        received := s.received ++ bufferItems ch.size.toNat buf n } := by
  have hword : index = load32 s.mem (ch.base + MbSubRgnDesc.itemOutIndex) :=
    UInt32.toNat.inj (hindex.trans h.out_eq.symm)
  obtain ⟨hcons, hin, hring, hitems⟩ := Channel.release_spec h.toConsistent hu buf itemNum
    (by rw [hn]; exact h.avail)
    (fun i hi => by
      rw [h.out_eq]
      exact (h.known_holds i (by rw [← hn]; exact hi)).symm) rfl
  rw [← hword, hn] at hitems
  rw [← hword] at hcons hin hring
  refine ⟨⟨hcons, ?_⟩, hin, rfl, ?_, hring⟩
  · simp only [h.accepted_eq, hitems, List.append_assoc]
  · rw [← Channel.items_length, ← Channel.items_length, hitems, List.length_append]
    exact Nat.le_add_left _ _

end Copy

/-- The end of a read: its last step may complete the call. -/
def readDone (ch : Channel) (_ : List Nat) (r : Int × Option Mem) (s₀ s : RingState) : Prop :=
  ReaderStep ch s₀ { s with received := s.received ++ reportedItems ch.size.toNat r.2 r.1 }

/-- A call that reports no items ends in the state that it has left. -/
theorem readDone_none {ch : Channel} {r : Int × Option Mem} {s₀ s : RingState}
    (hret : r.1.toNat = 0) (hguar : ReaderStep ch s₀ s) : readDone ch [] r s₀ s := by
  have hnone : reportedItems ch.size.toNat r.2 r.1 = [] := by
    cases hbuf : r.2 <;> simp [reportedItems, hret, bufferItems]
  rw [readDone, hnone, List.append_nil]
  exact hguar

abbrev ReaderWp (ch : Channel) (p : Prog MemSig (Int × Option Mem)) (s₀ s : RingState) : Prop :=
  Wp ringHandler copiedBytes (WriterStep ch) (ReaderStep ch) (readerSafe ch) (readDone ch)
    p [] s₀ s

/-- The ring read of a call that found items, with the completion of the call. -/
theorem reader_readItem (ch : Channel) (hu : ch.Usable) (dest : Mem) (itemNum : UInt32)
    {s₀ s : RingState} (hguar : ReaderStep ch s₀ s) (havail : Available ch itemNum.toNat s) :
    ReaderWp ch
      ((libMBReadItem ch.base dest itemNum).expand (slotwise ch.size.toNat) >>= fun buf =>
        .ret (int32 itemNum.toNat, some buf)) s₀ s := by
  have hnum : ch.num.toNat ≤ 1048576 := UInt32.le_iff_toNat_le.mp hu.1
  simp only [libMBReadItem, Prog.expand_bind, expand_getReg, Prog.expand_ite, Prog.pure_eq,
    Prog.expand_ret, expand_setReg, Prog.bind_bind]
  refine ((readerParty ch).getReg (fun s h => h.toRingInv) (fun s s' h hs => h.stable hs) _).then
    (fun past size s₀ s hguar hread => ?_) hguar ⟨rfl, havail⟩
  obtain ⟨rfl, havail, hsize⟩ := hread
  rw [havail.size] at hsize
  refine ((readerParty ch).getReg (fun s h => h.toRingInv) (fun s s' h hs => h.stable hs) _).then
    (fun past r s₀ s hguar hread => ?_) hguar ⟨rfl, havail⟩
  obtain ⟨rfl, havail, hr⟩ := hread
  refine ((readerParty ch).getReg (P := fun s => Available ch itemNum.toNat s ∧
    ch.outIndex s.mem = r.toNat) (fun s h => h.1.toRingInv)
    (fun s s' h hs => ⟨h.1.stable hs, hs.out_eq.trans h.2⟩) _).then
    (fun past num s₀ s hguar hread => ?_) hguar ⟨rfl, havail, congrArg UInt32.toNat hr.symm⟩
  obtain ⟨rfl, ⟨havail, hout⟩, hread⟩ := hread
  rw [havail.num] at hread
  cases hsize
  cases hread
  have houtlt := havail.out_lt
  have hlt : r < ch.num := UInt32.lt_iff_toNat_lt.mpr (by rw [← hout]; exact houtlt)
  have hle := havail.avail
  have hlen := havail.len_lt
  rw [if_neg (by simp [Channel.num_ne_zero, Channel.size_ne_zero, hlt]), Prog.bind_bind]
  have htiles := ringSpans_tiles r itemNum ch.num ch.size hlt
    (UInt32.le_iff_toNat_le.mpr (by omega)) hu.1 ch.bytes_lt
  refine (reader_copyFromRing (n := itemNum.toNat) _ _ ch.size_pos dest _ htiles
    (Nat.le_refl _)).then (fun past buf s₀ s hguar hcopied => ?_) hguar
    ⟨havail, hout, fun i hi => absurd hi (Nat.not_lt_zero _),
      fun p hp => absurd hp List.not_mem_nil⟩
  refine ⟨hguar, fun s' hs' => ?_⟩
  have hcopied' := hcopied.stable (delivered_ofItems buf _ (Nat.le_refl _)) hs'
  have hrelease := hcopied'.release hu itemNum rfl r rfl
  refine ⟨?_, ?_⟩
  · rw [copiedBytes, MemOp.copied, List.append_nil]
    exact hcopied'.safe
  · have hint : (int32 itemNum.toNat).toNat = itemNum.toNat := by
      rw [int32_of_lt _ (by omega), Int.toNat_natCast]
    have hdone : readDone ch [] (int32 itemNum.toNat, some buf) s'
        (ringHandler (.setReg (ch.base + MbSubRgnDesc.itemOutIndex)
          ((r + itemNum) % ch.num)) s').2 := by
      rw [readDone, reportedItems, hint]
      exact hrelease
    exact hdone

/-- Every read of the reader is verified: it delivers the oldest items of the ring
with the store of its index, or none. -/
theorem reader_calls (ch : Channel) (call : TransferCall) (s : RingState) (hs : RingInv ch s) :
    ReaderWp ch
      ((libMBRead ch.mb call.buf call.itemNum ch.index).expand (slotwise ch.size.toNat)) s s := by
  obtain ⟨buf, itemNum⟩ := call
  cases buf with
  | none => exact readDone_none (r := (mbENullInput, none)) rfl (.refl hs)
  | some dest =>
      simp only [libMBRead, ne_eq, ch.mb_ne_null, not_false_eq_true, if_true]
      refine (readerParty ch).onSubRegion _ _ _
        (fun s₀ s hguar _ => readDone_none rfl hguar) (fun hu s₀ s hguar hinv => ?_) hs
      simp only [Prog.expand_bind, Prog.expand_ite, Prog.pure_eq, Prog.expand_ret]
      refine (reader_validItem _).then (fun past valid s₀ s hguar hvalid => ?_) hguar ⟨rfl, hinv⟩
      obtain ⟨rfl, havail⟩ := hvalid
      generalize hn : (if valid < itemNum then valid else itemNum) = n
      have hle : n.toNat ≤ valid.toNat := by
        rw [← hn]
        split
        · exact Nat.le_refl _
        · exact UInt32.le_iff_toNat_le.mp (UInt32.not_lt.mp ‹_›)
      by_cases hpos : n > 0
      · rw [if_pos hpos]
        exact reader_readItem ch hu dest n hguar
          ⟨havail.toRingInv, Nat.le_trans hle havail.avail⟩
      · rw [if_neg hpos]
        exact readDone_none (r := (0, some dest)) rfl hguar

end RtssMailbox
