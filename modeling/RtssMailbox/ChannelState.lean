import RtssMailbox.RingOperations

/-!
A channel is one sub-region of a mailbox together with what locates it. Its
state is read from memory: the header words that never change, the two indices,
and the queue of items between them. Each library program is then specified by
the queue it leaves.
-/
namespace RtssMailbox
open Effects ByteMemory CyclicBuffer

/-- A sub-region that lies behind its entry in the descriptor's table and whose
items have an exact 32-bit size. -/
structure Channel where
  mb : Nat
  index : UInt32
  base : Nat
  num : UInt32
  size : UInt32
  mb_ne_null : mb ≠ null
  behind : mb + MbDesc.subRegionEndOffset index.toNat ≤ base
  num_pos : 0 < num.toNat
  size_pos : 0 < size.toNat
  bytes_lt : num.toNat * size.toNat < 4294967296

/-- `k` consecutive items of a caller's buffer. -/
def bufferItems (size : Nat) (buf : Mem) (k : Nat) : List (List UInt8) :=
  (List.range k).map fun j => loadBytes buf (j * size) size

@[simp] theorem bufferItems_length (size : Nat) (buf : Mem) (k : Nat) :
    (bufferItems size buf k).length = k := by
  simp [bufferItems]

theorem slot_position (cap size w j b : Nat) (hb : b < size) (hcap : 0 < cap) :
    (w + j) % cap * size + b = (w * size + (j * size + b)) % (cap * size) := by
  have hlt : (w + j) % cap * size + b < cap * size := by
    have hmod := Nat.mod_lt (w + j) hcap
    calc (w + j) % cap * size + b < ((w + j) % cap + 1) * size := by rw [Nat.add_mul]; omega
      _ ≤ cap * size := Nat.mul_le_mul_right _ hmod
  have hsplit : w * size + (j * size + b) =
      cap * size * ((w + j) / cap) + ((w + j) % cap * size + b) := by
    have hdiv := congrArg (· * size) (Nat.div_add_mod (w + j) cap)
    simp only [Nat.add_mul, Nat.mul_right_comm] at hdiv
    omega
  rw [hsplit, Nat.mul_add_mod, Nat.mod_eq_of_lt hlt]

theorem occupied_toNat (num w r : UInt32) (hr : r.toNat < num.toNat) :
    (if w ≥ r then w - r else num - r + w).toNat = count num.toNat w.toNat r.toNat := by
  have hnum := num.toNat_lt
  simp only [count, ge_iff_le, UInt32.le_iff_toNat_le]
  by_cases hle : r.toNat ≤ w.toNat
  · rw [if_pos hle, if_pos hle]
    exact UInt32.toNat_sub_of_le _ _ (UInt32.le_iff_toNat_le.mpr hle)
  · rw [if_neg hle, if_neg hle, UInt32.toNat_add,
      UInt32.toNat_sub_of_le _ _ (UInt32.le_iff_toNat_le.mpr (by omega))]
    omega

theorem vacant_toNat (num w r : UInt32) (hw : w.toNat < num.toNat)
    (hr : r.toNat < num.toNat) :
    (if w ≥ r then num - w + r - 1 else r - w - 1).toNat =
      num.toNat - 1 - count num.toNat w.toNat r.toNat := by
  have hnum := num.toNat_lt
  have hone : (1 : UInt32).toNat = 1 := rfl
  simp only [count, ge_iff_le, UInt32.le_iff_toNat_le]
  by_cases hle : r.toNat ≤ w.toNat
  · rw [if_pos hle, if_pos hle, UInt32.toNat_sub, UInt32.toNat_add,
      UInt32.toNat_sub_of_le _ _ (UInt32.le_iff_toNat_le.mpr (by omega)), hone]
    omega
  · rw [if_neg hle, if_neg hle, UInt32.toNat_sub,
      UInt32.toNat_sub_of_le _ _ (UInt32.le_iff_toNat_le.mpr (by omega)), hone]
    omega

namespace Channel
variable (ch : Channel)

def ring : Nat := ch.base + mbSubRegionHeaderSz

def slot (m : Mem) (k : Nat) : List UInt8 :=
  loadBytes m (ch.ring + k * ch.size.toNat) ch.size.toNat

def inIndex (m : Mem) : Nat := (load32 m (ch.base + MbSubRgnDesc.itemInIndex)).toNat

def outIndex (m : Mem) : Nat := (load32 m (ch.base + MbSubRgnDesc.itemOutIndex)).toNat

def len (m : Mem) : Nat := count ch.num.toNat (ch.inIndex m) (ch.outIndex m)

def items (m : Mem) : List (List UInt8) :=
  queue (ch.slot m) ch.num.toNat (ch.inIndex m) (ch.outIndex m)

def Usable : Prop := ch.num ≤ mbMaxItemNum ∧ ch.size ≤ mbMaxSize

instance : Decidable ch.Usable := inferInstanceAs (Decidable (_ ∧ _))

/-- The words that locate the channel, which no operation on it changes. -/
structure Header (m : Mem) : Prop where
  magic : load32 m (ch.mb + MbDesc.magic) = mbMagicNumber
  index_lt : ch.index < load32 m (ch.mb + MbDesc.numOfSubRegion)
  start : ch.mb + (load32 m (ch.mb + MbDesc.subRegionStartOffset ch.index.toNat)).toNat = ch.base
  num : load32 m (ch.base + MbSubRgnDesc.maxItemNum) = ch.num
  size : load32 m (ch.base + MbSubRgnDesc.maxItemSize) = ch.size

/-- A memory that holds the channel in a consistent state. -/
structure Consistent (m : Mem) : Prop extends ch.Header m where
  in_lt : ch.inIndex m < ch.num.toNat
  out_lt : ch.outIndex m < ch.num.toNat

variable {ch} {m m' : Mem}

@[simp] theorem items_length : (ch.items m).length = ch.len m := queue_length _ _ _ _

theorem base_ne_null : ch.base ≠ null := by
  have hmb := ch.mb_ne_null
  have hbehind := ch.behind
  simp only [null, MbDesc.subRegionEndOffset] at *
  omega

theorem Consistent.len_lt (h : ch.Consistent m) : ch.len m < ch.num.toNat :=
  count_lt _ _ _ h.in_lt h.out_lt

/-- The header's words lie below the two indices and the ring. -/
theorem Header.of_agree (h : ch.Header m)
    (hsame : ∀ p < ch.base + MbSubRgnDesc.itemInIndex, m' p = m p) : ch.Header m' := by
  have hbehind := ch.behind
  have hword : ∀ a, a + 4 ≤ ch.base + MbSubRgnDesc.itemInIndex → load32 m' a = load32 m a :=
    fun a ha => load32_congr m' m a fun i hi => hsame (a + i) (by omega)
  simp only [MbDesc.subRegionEndOffset, MbSubRgnDesc.itemInIndex] at hbehind hword
  refine ⟨?_, ?_, ?_, ?_, ?_⟩
  · rw [hword _ (by simp only [MbDesc.magic]; omega), h.magic]
  · rw [hword _ (by simp only [MbDesc.numOfSubRegion]; omega)]
    exact h.index_lt
  · rw [hword _ (by simp only [MbDesc.subRegionStartOffset]; omega), h.start]
  · rw [hword _ (by simp only [MbSubRgnDesc.maxItemNum]; omega), h.num]
  · rw [hword _ (by simp only [MbSubRgnDesc.maxItemSize]; omega), h.size]

theorem inIndex_congr
    (hsame : ∀ p, ch.base + MbSubRgnDesc.itemInIndex ≤ p →
      p < ch.base + MbSubRgnDesc.itemOutIndex → m' p = m p) :
    ch.inIndex m' = ch.inIndex m :=
  congrArg UInt32.toNat <| load32_congr m' m _ fun i hi =>
    hsame _ (by omega) (by simp only [MbSubRgnDesc.itemInIndex, MbSubRgnDesc.itemOutIndex]; omega)

theorem outIndex_congr
    (hsame : ∀ p, ch.base + MbSubRgnDesc.itemOutIndex ≤ p → p < ch.ring → m' p = m p) :
    ch.outIndex m' = ch.outIndex m :=
  congrArg UInt32.toNat <| load32_congr m' m _ fun i hi =>
    hsame _ (by omega) (by
      simp only [MbSubRgnDesc.itemOutIndex, ring, mbSubRegionHeaderSz]; omega)

theorem slot_eq (m : Mem) (w j : Nat) :
    ch.slot m ((w + j) % ch.num.toNat) =
      (List.range ch.size.toNat).map fun b =>
        m (ch.ring + (w * ch.size.toNat + (j * ch.size.toNat + b)) %
          (ch.num.toNat * ch.size.toNat)) :=
  List.map_congr_left fun b hb => congrArg m (by
    rw [← slot_position _ _ w j b (List.mem_range.mp hb) ch.num_pos]
    omega)

theorem window_eq_bufferItems (m buf : Mem) (w k : Nat)
    (h : ∀ i < k * ch.size.toNat,
      m (ch.ring + (w * ch.size.toNat + i) % (ch.num.toNat * ch.size.toNat)) = buf i) :
    window (ch.slot m) ch.num.toNat w k = bufferItems ch.size.toNat buf k := by
  refine List.map_congr_left fun j hj => ?_
  rw [slot_eq, loadBytes]
  refine List.map_congr_left fun b hb => h _ ?_
  have hj' := List.mem_range.mp hj
  have hb' := List.mem_range.mp hb
  calc j * ch.size.toNat + b < (j + 1) * ch.size.toNat := by rw [Nat.add_mul]; omega
    _ ≤ k * ch.size.toNat := Nat.mul_le_mul_right _ hj'

theorem slot_congr (w j : Nat)
    (h : ∀ b < ch.size.toNat,
      m' (ch.ring + (w * ch.size.toNat + (j * ch.size.toNat + b)) %
        (ch.num.toNat * ch.size.toNat)) =
      m (ch.ring + (w * ch.size.toNat + (j * ch.size.toNat + b)) %
        (ch.num.toNat * ch.size.toNat))) :
    ch.slot m' ((w + j) % ch.num.toNat) = ch.slot m ((w + j) % ch.num.toNat) := by
  rw [slot_eq, slot_eq]
  exact List.map_congr_left fun b hb => h b (List.mem_range.mp hb)

/-- Writing into the ring alone keeps the channel and its indices. -/
theorem Consistent.of_ring (h : ch.Consistent m) (hsame : ∀ p < ch.ring, m' p = m p) :
    ch.Consistent m' ∧ ch.inIndex m' = ch.inIndex m ∧ ch.outIndex m' = ch.outIndex m := by
  have hin : ch.inIndex m' = ch.inIndex m := inIndex_congr fun p _ hp => hsame p (by
    simp only [ring, MbSubRgnDesc.itemOutIndex, mbSubRegionHeaderSz] at *
    omega)
  have hout : ch.outIndex m' = ch.outIndex m := outIndex_congr fun p _ hp => hsame p hp
  refine ⟨⟨h.toHeader.of_agree fun p hp => hsame p ?_, ?_, ?_⟩, hin, hout⟩
  · simp only [ring, MbSubRgnDesc.itemInIndex, mbSubRegionHeaderSz] at *
    omega
  · rw [hin]
    exact h.in_lt
  · rw [hout]
    exact h.out_lt

/-- The items depend on the indices and on the bytes of the occupied slots. -/
theorem window_items_congr (r len : Nat)
    (hslots : ∀ j < len * ch.size.toNat,
      m' (ch.ring + (r * ch.size.toNat + j) % (ch.num.toNat * ch.size.toNat)) =
        m (ch.ring + (r * ch.size.toNat + j) % (ch.num.toNat * ch.size.toNat))) :
    ∀ j < len, ch.slot m' ((r + j) % ch.num.toNat) = ch.slot m ((r + j) % ch.num.toNat) :=
  fun j hj => slot_congr _ _ fun b hb => hslots _ <|
    calc j * ch.size.toNat + b < (j + 1) * ch.size.toNat := by rw [Nat.add_mul]; omega
      _ ≤ len * ch.size.toNat := Nat.mul_le_mul_right _ hj

theorem items_congr (hin : ch.inIndex m' = ch.inIndex m) (hout : ch.outIndex m' = ch.outIndex m)
    (hslots : ∀ j < ch.len m * ch.size.toNat,
      m' (ch.ring + (ch.outIndex m * ch.size.toNat + j) % (ch.num.toNat * ch.size.toNat)) =
        m (ch.ring + (ch.outIndex m * ch.size.toNat + j) % (ch.num.toNat * ch.size.toNat))) :
    ch.items m' = ch.items m := by
  rw [items, items, hin, hout]
  exact window_congr _ _ _ _ _ (window_items_congr _ _ hslots)

theorem index_advance (w k : UInt32) (hk : w.toNat + k.toNat < 4294967296) :
    ((w + k) % ch.num).toNat = (w.toNat + k.toNat) % ch.num.toNat := by
  rw [UInt32.toNat_mod, UInt32.toNat_add,
    Nat.mod_eq_of_lt (show w.toNat + k.toNat < 2 ^ 32 from hk)]

/-- Storing the write index publishes the items of the filled slots behind it. -/
theorem publish_spec (h : ch.Consistent m) (hu : ch.Usable) (src : Mem) (k : UInt32)
    (hk : ch.len m + k.toNat < ch.num.toNat)
    (hfilled : ∀ i < k.toNat * ch.size.toNat,
      m (ch.ring + (ch.inIndex m * ch.size.toNat + i) % (ch.num.toNat * ch.size.toNat)) = src i)
    (hm' : m' = store32 m (ch.base + MbSubRgnDesc.itemInIndex)
      ((load32 m (ch.base + MbSubRgnDesc.itemInIndex) + k) % ch.num)) :
    ch.Consistent m' ∧ ch.outIndex m' = ch.outIndex m ∧
      ch.items m' = ch.items m ++ bufferItems ch.size.toNat src k.toNat := by
  have hnum : ch.num.toNat ≤ 1048576 := UInt32.le_iff_toNat_le.mp hu.1
  have hinlt := h.in_lt
  have hkeep : ∀ p, p < ch.base + MbSubRgnDesc.itemInIndex ∨
      ch.base + MbSubRgnDesc.itemOutIndex ≤ p → m' p = m p := fun p hp => by
    rw [hm']
    exact store32_outside _ _ _ _ (by
      simp only [MbSubRgnDesc.itemInIndex, MbSubRgnDesc.itemOutIndex] at *
      omega)
  have hring : ∀ p, ch.ring ≤ p → m' p = m p := fun p hp => hkeep p (Or.inr (by
    simp only [ring, MbSubRgnDesc.itemOutIndex, mbSubRegionHeaderSz] at *
    omega))
  have hindex : ch.inIndex m' = (ch.inIndex m + k.toNat) % ch.num.toNat := by
    rw [inIndex, hm', load32_store32_same]
    simp only [inIndex] at hinlt ⊢
    exact index_advance _ _ (by omega)
  have hout : ch.outIndex m' = ch.outIndex m := outIndex_congr fun p hp _ => hkeep p (Or.inr hp)
  refine ⟨⟨h.toHeader.of_agree fun p hp => hkeep p (Or.inl hp), ?_, ?_⟩, hout, ?_⟩
  · rw [hindex]
    exact Nat.mod_lt _ ch.num_pos
  · rw [hout]
    exact h.out_lt
  · have hnew : window (ch.slot m') ch.num.toNat (ch.inIndex m) k.toNat =
        bufferItems ch.size.toNat src k.toNat :=
      window_eq_bufferItems _ src _ _ fun i hi => (hring _ (by omega)).trans (hfilled i hi)
    have hlen : (bufferItems ch.size.toNat src k.toNat).length = k.toNat := bufferItems_length _ _ _
    rw [items, hindex, hout]
    have hpush := queue_push (ch.slot m) (ch.slot m') ch.num.toNat
      (ch.inIndex m) (ch.outIndex m) (bufferItems ch.size.toNat src k.toNat) h.in_lt h.out_lt
      (by rw [hlen]; exact hk) (by rw [hlen]; exact hnew)
      (window_items_congr _ _ fun j _ => hring _ (by omega))
    rw [hlen] at hpush
    exact hpush

/-- Storing the read index releases the oldest items, which a buffer may hold by then. -/
theorem release_spec (h : ch.Consistent m) (hu : ch.Usable) (buf : Mem) (n : UInt32)
    (hn : n.toNat ≤ ch.len m)
    (hcopied : ∀ i < n.toNat * ch.size.toNat,
      m (ch.ring + (ch.outIndex m * ch.size.toNat + i) % (ch.num.toNat * ch.size.toNat)) = buf i)
    (hm' : m' = store32 m (ch.base + MbSubRgnDesc.itemOutIndex)
      ((load32 m (ch.base + MbSubRgnDesc.itemOutIndex) + n) % ch.num)) :
    ch.Consistent m' ∧ ch.inIndex m' = ch.inIndex m ∧ (∀ p, ch.ring ≤ p → m' p = m p) ∧
      ch.items m = bufferItems ch.size.toNat buf n.toNat ++ ch.items m' := by
  have hnum : ch.num.toNat ≤ 1048576 := UInt32.le_iff_toNat_le.mp hu.1
  have houtlt := h.out_lt
  have hlen := h.len_lt
  have hkeep : ∀ p, p < ch.base + MbSubRgnDesc.itemOutIndex ∨ ch.ring ≤ p → m' p = m p :=
    fun p hp => by
      rw [hm']
      exact store32_outside _ _ _ _ (by
        simp only [MbSubRgnDesc.itemOutIndex, ring, mbSubRegionHeaderSz] at *
        omega)
  have hindex : ch.outIndex m' = (ch.outIndex m + n.toNat) % ch.num.toNat := by
    rw [outIndex, hm', load32_store32_same]
    simp only [outIndex] at houtlt ⊢
    exact index_advance _ _ (by omega)
  have hin : ch.inIndex m' = ch.inIndex m := inIndex_congr fun p _ hp => hkeep p (Or.inl hp)
  have hslots : ch.slot m' = ch.slot m := funext fun k =>
    loadBytes_congr _ _ _ _ fun b _ => hkeep _ (Or.inr (by omega))
  refine ⟨⟨h.toHeader.of_agree fun p hp => hkeep p (Or.inl ?_), ?_, ?_⟩, hin,
    fun p hp => hkeep p (Or.inr hp), ?_⟩
  · simp only [MbSubRgnDesc.itemInIndex, MbSubRgnDesc.itemOutIndex] at *
    omega
  · rw [hin]
    exact h.in_lt
  · rw [hindex]
    exact Nat.mod_lt _ ch.num_pos
  · have hwindow : window (ch.slot m) ch.num.toNat (ch.outIndex m) n.toNat =
        bufferItems ch.size.toNat buf n.toNat :=
      window_eq_bufferItems m _ _ _ hcopied
    rw [items, items, hslots, hindex, hin, ← hwindow]
    exact queue_pop _ _ _ _ _ h.in_lt h.out_lt hn

theorem Consistent.validItem_toNat (h : ch.Consistent m) :
    (validItem m ch.base).toNat = ch.len m := by
  rw [validItem, h.num]
  exact occupied_toNat _ _ _ h.out_lt

theorem Consistent.freeItem_toNat (h : ch.Consistent m) :
    (freeItem m ch.base).toNat = ch.num.toNat - 1 - ch.len m := by
  rw [freeItem, h.num]
  exact vacant_toNat _ _ _ h.in_lt h.out_lt

theorem Consistent.sane_iff (h : ch.Consistent m) : sane m ch.base = true ↔ ch.Usable := by
  have hin := UInt32.lt_iff_toNat_lt.mpr h.in_lt
  have hout := UInt32.lt_iff_toNat_lt.mpr h.out_lt
  simp [sane, base_ne_null, h.num, h.size, hin, hout, Usable]

theorem Consistent.subRegionAt_eq (h : ch.Consistent m) :
    subRegionAt ch.mb ch.index m =
      if ch.Usable then .ok ch.base else .error mbECorruptMailbox := by
  simp only [subRegionAt, if_pos h.magic, if_pos h.index_lt, h.start, h.sane_iff]

theorem Consistent.run_libMBGetFreeItemNum (h : ch.Consistent m) (hu : ch.Usable) :
    (libMBGetFreeItemNum ch.mb ch.index).run memHandler m =
      (((ch.num.toNat - 1 - ch.len m : Nat) : Int), m) := by
  have hnum : ch.num.toNat ≤ 1048576 := UInt32.le_iff_toNat_le.mp hu.1
  simp only [libMBGetFreeItemNum, ne_eq, ch.mb_ne_null, not_false_eq_true, if_true,
    run_onSubRegion, h.subRegionAt_eq, if_pos hu, Prog.run_bind, run_libMBFreeItem,
    Prog.pure_eq, Prog.run_ret, h.freeItem_toNat]
  rw [int32_of_lt _ (by omega)]

theorem Consistent.run_libMBGetValidItemNum (h : ch.Consistent m) (hu : ch.Usable) :
    (libMBGetValidItemNum ch.mb ch.index).run memHandler m = ((ch.len m : Int), m) := by
  have hlt := h.len_lt
  have hnum : ch.num.toNat ≤ 1048576 := UInt32.le_iff_toNat_le.mp hu.1
  simp only [libMBGetValidItemNum, ne_eq, ch.mb_ne_null, not_false_eq_true, if_true,
    run_onSubRegion, h.subRegionAt_eq, if_pos hu, Prog.run_bind, run_libMBValidItem,
    Prog.pure_eq, Prog.run_ret, h.validItem_toNat]
  rw [int32_of_lt _ (by omega)]

/-- The memory after `LibMB_Write_Item` on a consistent channel. -/
def written (ch : Channel) (m src : Mem) (k : UInt32) : Mem :=
  store32
    ((copyIntoRing ch.ring src
      (ringSpans (load32 m (ch.base + MbSubRgnDesc.itemInIndex)) k ch.num ch.size)).run
        memHandler m).2
    (ch.base + MbSubRgnDesc.itemInIndex)
    ((load32 m (ch.base + MbSubRgnDesc.itemInIndex) + k) % ch.num)

theorem num_ne_zero : ch.num ≠ 0 := fun h => by
  have hpos := ch.num_pos
  rw [h] at hpos
  exact absurd hpos (by decide)

theorem size_ne_zero : ch.size ≠ 0 := fun h => by
  have hpos := ch.size_pos
  rw [h] at hpos
  exact absurd hpos (by decide)

theorem Consistent.run_libMBWriteItem (h : ch.Consistent m) (src : Mem) (k : UInt32) :
    (libMBWriteItem ch.base src k).run memHandler m = ((), ch.written m src k) := by
  have hin : ¬ load32 m (ch.base + MbSubRgnDesc.itemInIndex) ≥ ch.num := by
    rw [ge_iff_le, UInt32.le_iff_toNat_le]
    exact Nat.not_le.mpr h.in_lt
  simp only [libMBWriteItem, Prog.run_bind, run_getReg, h.num, h.size, num_ne_zero, size_ne_zero,
    hin, or_self, if_false, run_setReg]
  rfl

/-- The memory after the copies of a write, before its index is stored. -/
def filled (ch : Channel) (m src : Mem) (k : UInt32) : Mem :=
  ((copyIntoRing ch.ring src
    (ringSpans (load32 m (ch.base + MbSubRgnDesc.itemInIndex)) k ch.num ch.size)).run
      memHandler m).2

theorem writeTiles (h : ch.Consistent m) (hu : ch.Usable) (k : UInt32)
    (hk : k.toNat ≤ ch.num.toNat) :
    Tiles (ch.num.toNat * ch.size.toNat) (ch.inIndex m * ch.size.toNat) 0
      (ringSpans (load32 m (ch.base + MbSubRgnDesc.itemInIndex)) k ch.num ch.size)
      (k.toNat * ch.size.toNat) :=
  ringSpans_tiles _ k ch.num ch.size (UInt32.lt_iff_toNat_lt.mpr h.in_lt)
    (UInt32.le_iff_toNat_le.mpr hk) hu.1 ch.bytes_lt

/-- The copies of a write change nothing but the bytes of `k` slots. -/
theorem filled_outside (h : ch.Consistent m) (hu : ch.Usable) (src : Mem) (k : UInt32)
    (hk : k.toNat ≤ ch.num.toNat) (p : Nat)
    (hslots : ∀ i < k.toNat * ch.size.toNat,
      p ≠ ch.ring + (ch.inIndex m * ch.size.toNat + i) % (ch.num.toNat * ch.size.toNat)) :
    ch.filled m src k p = m p :=
  copyIntoRing_outside _ _ _ _ _ src _ m (writeTiles h hu k hk) p fun i _ hi => hslots i hi

theorem filled_inside (h : ch.Consistent m) (hu : ch.Usable) (src : Mem) (k : UInt32)
    (hk : k.toNat ≤ ch.num.toNat) (i : Nat) (hi : i < k.toNat * ch.size.toNat) :
    ch.filled m src k (ch.ring + (ch.inIndex m * ch.size.toNat + i) %
      (ch.num.toNat * ch.size.toNat)) = src i :=
  copyIntoRing_inside _ _ _ _ _ src _ m (writeTiles h hu k hk) (Nat.mul_le_mul_right _ hk) i
    (Nat.zero_le _) hi

/-- Bytes of occupied slots are none of the bytes that a write into free slots fills. -/
theorem free_byte_ne (h : ch.Consistent m) (k : Nat) (hk : ch.len m + k < ch.num.toNat) (i : Nat)
    (hi : i < k * ch.size.toNat) (j : Nat) (hj : j < ch.len m * ch.size.toNat) :
    (ch.inIndex m * ch.size.toNat + i) % (ch.num.toNat * ch.size.toNat) ≠
      (ch.outIndex m * ch.size.toNat + j) % (ch.num.toNat * ch.size.toNat) := by
  have hmod : ch.inIndex m * ch.size.toNat =
      (ch.outIndex m * ch.size.toNat + ch.len m * ch.size.toNat) %
        (ch.num.toNat * ch.size.toNat) := by
    rw [← Nat.add_mul, Nat.mul_mod_mul_right, len, advance_count _ _ _ h.in_lt h.out_lt]
  have htotal : ch.len m * ch.size.toNat + k * ch.size.toNat ≤
      ch.num.toNat * ch.size.toNat := by
    rw [← Nat.add_mul]
    exact Nat.mul_le_mul_right _ (Nat.le_of_lt hk)
  intro heq
  rw [hmod, Nat.mod_add_mod, Nat.add_assoc] at heq
  have hsame := position_inj _ _ _ _ (by omega) (by omega) heq
  omega

/-- A write into free slots appends the items of the buffer to the queue. -/
theorem written_spec (h : ch.Consistent m) (hu : ch.Usable) (src : Mem) (k : UInt32)
    (hk : ch.len m + k.toNat < ch.num.toNat) :
    ch.Consistent (ch.written m src k) ∧
      ch.outIndex (ch.written m src k) = ch.outIndex m ∧
      ch.items (ch.written m src k) =
        ch.items m ++ bufferItems ch.size.toNat src k.toNat := by
  have hle : k.toNat ≤ ch.num.toNat := by omega
  have houtside : ∀ p, p < ch.ring → ch.filled m src k p = m p := fun p hp =>
    filled_outside h hu src k hle p fun i _ => by omega
  obtain ⟨hcons, hin, hout⟩ := h.of_ring houtside
  have hitems : ch.items (ch.filled m src k) = ch.items m := items_congr hin hout fun j hj =>
    filled_outside h hu src k hle _ fun i hi heq => free_byte_ne h k.toNat hk i hi j hj (by omega)
  have hlen : ch.len (ch.filled m src k) = ch.len m := by rw [len, hin, hout, len]
  have hword : load32 (ch.filled m src k) (ch.base + MbSubRgnDesc.itemInIndex) =
      load32 m (ch.base + MbSubRgnDesc.itemInIndex) := UInt32.toNat.inj hin
  obtain ⟨hcons', hout', hitems'⟩ := publish_spec hcons hu src k (by rw [hlen]; exact hk)
    (fun i hi => by rw [hin]; exact filled_inside h hu src k hle i hi)
    (by rw [hword]; rfl : ch.written m src k = _)
  exact ⟨hcons', hout'.trans hout, by rw [hitems', hitems]⟩

/-- The memory and the buffer after `LibMB_Read_Item` on a consistent channel. -/
def readOut (ch : Channel) (m dest : Mem) (n : UInt32) : Mem × Mem :=
  (((copyFromRing ch.ring dest
      (ringSpans (load32 m (ch.base + MbSubRgnDesc.itemOutIndex)) n ch.num ch.size)).run
        memHandler m).1,
    store32 m (ch.base + MbSubRgnDesc.itemOutIndex)
      ((load32 m (ch.base + MbSubRgnDesc.itemOutIndex) + n) % ch.num))

theorem Consistent.readTiles (h : ch.Consistent m) (hu : ch.Usable) (n : UInt32)
    (hn : n.toNat ≤ ch.num.toNat) :
    Tiles (ch.num.toNat * ch.size.toNat) (ch.outIndex m * ch.size.toNat) 0
      (ringSpans (load32 m (ch.base + MbSubRgnDesc.itemOutIndex)) n ch.num ch.size)
      (n.toNat * ch.size.toNat) :=
  ringSpans_tiles _ n ch.num ch.size (UInt32.lt_iff_toNat_lt.mpr h.out_lt)
    (UInt32.le_iff_toNat_le.mpr hn) hu.1 ch.bytes_lt

theorem Consistent.run_libMBReadItem (h : ch.Consistent m) (hu : ch.Usable) (dest : Mem)
    (n : UInt32) (hn : n.toNat ≤ ch.num.toNat) :
    (libMBReadItem ch.base dest n).run memHandler m = ch.readOut m dest n := by
  have hout : ¬ load32 m (ch.base + MbSubRgnDesc.itemOutIndex) ≥ ch.num := by
    rw [ge_iff_le, UInt32.le_iff_toNat_le]
    exact Nat.not_le.mpr h.out_lt
  have hsame := (copyFromRing_run ch.ring _ _ _ _ dest _ m (h.readTiles hu n hn)).2.2
  simp only [libMBReadItem, Prog.run_bind, run_getReg, h.num, h.size, num_ne_zero, size_ne_zero,
    hout, or_self, if_false, run_setReg, Prog.pure_eq, Prog.run_ret, readOut]
  exact congrArg (Prod.mk _) (congrArg (store32 · _ _) hsame)

/-- A read of available items delivers the oldest ones and removes them. -/
theorem readOut_spec (h : ch.Consistent m) (hu : ch.Usable) (dest : Mem) (n : UInt32)
    (hn : n.toNat ≤ ch.len m) :
    ch.Consistent (ch.readOut m dest n).2 ∧
      ch.inIndex (ch.readOut m dest n).2 = ch.inIndex m ∧
      ch.items m = bufferItems ch.size.toNat (ch.readOut m dest n).1 n.toNat ++
        ch.items (ch.readOut m dest n).2 ∧
      ∀ i, n.toNat * ch.size.toNat ≤ i → (ch.readOut m dest n).1 i = dest i := by
  have hlen := h.len_lt
  obtain ⟨hread, hrest, -⟩ :=
    copyFromRing_run ch.ring _ _ _ _ dest _ m (h.readTiles hu n (by omega))
  obtain ⟨hcons, hin, -, hitems⟩ := release_spec h hu (ch.readOut m dest n).1 n hn
    (fun i hi => (hread i (Nat.zero_le _) hi).symm) (rfl : (ch.readOut m dest n).2 = _)
  exact ⟨hcons, hin, hitems, fun i hi => hrest i (Or.inr hi)⟩

/-- A mailbox at address 4096 whose only sub-region has four slots of two bytes. -/
def sample : Channel where
  mb := 4096
  index := 0
  base := 4140
  num := 4
  size := 2
  mb_ne_null := by decide
  behind := by decide
  num_pos := by decide
  size_pos := by decide
  bytes_lt := by decide

/-- The memory of that mailbox after its creation. -/
def sampleMem : Mem :=
  [(4096 + MbDesc.magic, mbMagicNumber), (4096 + MbDesc.numOfSubRegion, 1),
    (4096 + MbDesc.subRegionStartOffset 0, 44), (4140 + MbSubRgnDesc.maxItemNum, 4),
    (4140 + MbSubRgnDesc.maxItemSize, 2)].foldl (fun m w => store32 m w.1 w.2) fun _ => 0

theorem sampleMem_consistent : sample.Consistent sampleMem :=
  ⟨⟨by decide, by decide, by decide, by decide, by decide⟩, by decide, by decide⟩

end Channel
end RtssMailbox
