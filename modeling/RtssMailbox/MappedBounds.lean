import RtssMailbox.ChannelOpen

/-!
The addresses that a write or a read accesses, compared with the region that the
handle has mapped. The offsets of the code are 32-bit products and sums of words
that the other processor has written; what they have to be is stated over
unbounded numbers.
-/
namespace RtssMailbox
open Effects ByteMemory CyclicBuffer

/-- The addresses of `k` slots from slot `i` on, in order, where slot `j` starts
at `ring + j * size`. -/
def slotBytes (ring cap size i k : Nat) : List Nat :=
  (List.range k).flatMap fun j => byteRange (ring + (i + j) % cap * size) size

theorem slotBytes_append (ring cap size i n k : Nat) :
    slotBytes ring cap size i (n + k) =
      slotBytes ring cap size i n ++ slotBytes ring cap size (i + n) k := by
  simp only [slotBytes, List.range_add, List.flatMap_append, List.flatMap_map, Nat.add_assoc]

theorem slotBytes_mod (ring cap size i k : Nat) :
    slotBytes ring cap size (i % cap) k = slotBytes ring cap size i k := by
  simp only [slotBytes, Nat.mod_add_mod]

theorem slotBytes_of_le (ring cap size i k : Nat) (h : i + k ≤ cap) :
    slotBytes ring cap size i k = byteRange (ring + i * size) (k * size) := by
  induction k with
  | zero => simp [slotBytes, byteRange]
  | succ k ih =>
      have hlast : slotBytes ring cap size (i + k) 1 = byteRange (ring + (i + k) * size) size := by
        simp [slotBytes, Nat.mod_eq_of_lt (show i + k < cap by omega)]
      rw [slotBytes_append, ih (by omega), hlast, Nat.add_mul, Nat.add_mul, Nat.one_mul,
        ← Nat.add_assoc, byteRange_append]

theorem mem_slotBytes (ring cap size i k p : Nat) :
    p ∈ slotBytes ring cap size i k ↔
      ∃ j < k, ring + (i + j) % cap * size ≤ p ∧ p < ring + (i + j) % cap * size + size := by
  simp only [slotBytes, List.mem_flatMap, List.mem_range, mem_byteRange]

/-- The copies of the code cover the slots from `index` on, if the products that
they compute fit in 32 bits. -/
theorem ringSpans_bytes (ring : Nat) (index num ringSize itemSize : UInt32)
    (hindex : index.toNat < ringSize.toNat) (hnum : num.toNat ≤ ringSize.toNat)
    (hring : ringSize.toNat ≤ 1048576)
    (hbytes : min (index.toNat + num.toNat) ringSize.toNat * itemSize.toNat < 4294967296) :
    (ringSpans index num ringSize itemSize).flatMap (fun s => byteRange (ring + s.slot) s.len) =
      slotBytes ring ringSize.toNat itemSize.toNat index.toNat num.toNat := by
  have hadd : (index + num).toNat = index.toNat + num.toNat := by
    rw [UInt32.toNat_add]
    exact Nat.mod_eq_of_lt (by omega)
  have hproduct : ∀ k : UInt32, k.toNat ≤ min (index.toNat + num.toNat) ringSize.toNat →
      (k * itemSize).toNat = k.toNat * itemSize.toNat := fun k hk => by
    rw [UInt32.toNat_mul]
    exact Nat.mod_eq_of_lt (Nat.lt_of_le_of_lt (Nat.mul_le_mul_right _ hk) hbytes)
  by_cases hwrap : index + num > ringSize
  · rw [ringSpans, if_pos hwrap]
    rw [gt_iff_lt, UInt32.lt_iff_toNat_lt, hadd] at hwrap
    have hfirst : (ringSize - index).toNat = ringSize.toNat - index.toNat :=
      UInt32.toNat_sub_of_le _ _ (UInt32.le_iff_toNat_le.mpr (by omega))
    have hrest : (index + num - ringSize).toNat = index.toNat + num.toNat - ringSize.toNat := by
      rw [UInt32.toNat_sub_of_le _ _ (UInt32.le_iff_toNat_le.mpr (by omega)), hadd]
    have hsplit : num.toNat =
        (ringSize.toNat - index.toNat) + (index.toNat + num.toNat - ringSize.toNat) := by omega
    simp only [List.flatMap_cons, List.flatMap_nil, List.append_nil]
    rw [hproduct _ (by omega), hproduct _ (by omega), hproduct _ (by omega), hfirst, hrest]
    conv_rhs => rw [hsplit]
    rw [slotBytes_append, slotBytes_of_le _ _ _ index.toNat _ (by omega),
      ← slotBytes_mod _ _ _ (index.toNat + _), Nat.add_sub_of_le (by omega), Nat.mod_self,
      slotBytes_of_le _ _ _ 0 _ (by omega), Nat.zero_mul]
  · rw [ringSpans, if_neg hwrap]
    rw [gt_iff_lt, UInt32.lt_iff_toNat_lt, hadd] at hwrap
    simp only [List.flatMap_cons, List.flatMap_nil, List.append_nil]
    rw [hproduct _ (by omega), hproduct _ (by omega), slotBytes_of_le _ _ _ _ _ (by omega)]

/-- A register access of a trace stays inside `[lo, hi)`. -/
def Registers (lo hi : Nat) (trace : List MemOp) : Prop :=
  ∀ o ∈ trace, o.copied = [] ∧ ∀ p ∈ o.bytes, lo ≤ p ∧ p < hi

theorem Registers.append {lo hi : Nat} {s t : List MemOp} (hs : Registers lo hi s)
    (ht : Registers lo hi t) : Registers lo hi (s ++ t) := by
  intro o ho
  cases List.mem_append.mp ho with
  | inl h => exact hs o h
  | inr h => exact ht o h

theorem Registers.copied_nil {lo hi : Nat} {trace : List MemOp} (h : Registers lo hi trace) :
    trace.flatMap MemOp.copied = [] := by
  rw [List.flatMap_eq_nil_iff]
  exact fun o ho => (h o ho).1

theorem registers_get {lo hi : Nat} (as : List Nat) (h : ∀ a ∈ as, lo ≤ a ∧ a + 4 ≤ hi) :
    Registers lo hi (as.map .getReg) := by
  intro o ho
  obtain ⟨a, ha, rfl⟩ := List.mem_map.mp ho
  refine ⟨rfl, fun p hp => ?_⟩
  have hbounds := h a ha
  rw [MemOp.bytes, mem_byteRange] at hp
  omega

theorem registers_set {lo hi a : Nat} {v : UInt32} (h : lo ≤ a ∧ a + 4 ≤ hi) :
    Registers lo hi [.setReg a v] := by
  intro o ho
  cases List.mem_singleton.mp ho
  refine ⟨rfl, fun p hp => ?_⟩
  rw [MemOp.bytes, mem_byteRange] at hp
  omega

theorem ops_copyIntoRing (ring : Nat) (source : Mem) (spans : List Span) (m : Mem) :
    (copyIntoRing ring source spans).ops memHandler m =
      spans.map fun s => .copyIn (ring + s.slot) (loadBytes source s.off s.len) := by
  induction spans generalizing m with
  | nil => rfl
  | cons s rest ih =>
      simp only [copyIntoRing, copyIn, Prog.ops_bind, ops_putBytes, ih]
      rfl

theorem ops_copyFromRing (ring : Nat) (dest : Mem) (spans : List Span) (m : Mem) :
    (copyFromRing ring dest spans).ops memHandler m =
      spans.map fun s => .copyOut (ring + s.slot) s.len := by
  induction spans generalizing dest m with
  | nil => rfl
  | cons s rest ih =>
      simp only [copyFromRing, copyOut, Prog.ops_bind, ops_getBytes, Prog.pure_eq, Prog.ops_ret,
        ih, List.append_nil]
      rfl

/-- The accesses of a program that runs alone. -/
def trace {α : Type} (p : Prog MemSig α) (m : Mem) : List MemOp := p.ops memHandler m

/-- The registers that the checks of a call read before its own work. -/
def checkedRegs (mb : Nat) (index : UInt32) (base : Nat) : List Nat :=
  [mb + MbDesc.magic, mb + MbDesc.numOfSubRegion, mb + MbDesc.subRegionStartOffset index.toNat,
    base + MbSubRgnDesc.maxItemNum, base + MbSubRgnDesc.maxItemSize,
    base + MbSubRgnDesc.itemInIndex, base + MbSubRgnDesc.itemOutIndex]

theorem ops_onSubRegion {α : Type} (mb : Nat) (index : UInt32) (fail : Int → α)
    (body : Nat → Prog MemSig α) (m : Mem) (base : Nat) (h : subRegionAt mb index m = .ok base) :
    (onSubRegion mb index fail body).ops memHandler m =
      (checkedRegs mb index base).map .getReg ++ (body base).ops memHandler m := by
  obtain ⟨hmagic, hindex, hbase, hsane⟩ := subRegionAt_ok mb index m base h
  have hne : base ≠ null := ((sane_iff m base).mp hsane).1
  have hcheck : (libMBMailboxSanityCheck base).ops memHandler m =
      [.getReg (base + MbSubRgnDesc.maxItemNum), .getReg (base + MbSubRgnDesc.maxItemSize),
        .getReg (base + MbSubRgnDesc.itemInIndex), .getReg (base + MbSubRgnDesc.itemOutIndex)] := by
    rw [libMBMailboxSanityCheck, if_pos hne]
    rfl
  rw [onSubRegion]
  simp only [Prog.ops_bind, ops_getReg, run_getReg, if_pos hmagic, if_pos hindex, ← hbase, hcheck,
    run_libMBMailboxSanityCheck, hsane, if_true]
  rfl

/-- The fields that a count of free or valid items reads. -/
def indexFields : List Nat :=
  [MbSubRgnDesc.itemInIndex, MbSubRgnDesc.itemOutIndex, MbSubRgnDesc.maxItemNum]

theorem ops_libMBFreeItem (base : Nat) (m : Mem) :
    ∃ fs ⊆ indexFields,
      (libMBFreeItem base).ops memHandler m = fs.map fun f => .getReg (base + f) := by
  simp only [libMBFreeItem, Prog.ops_bind, ops_getReg, run_getReg, Prog.ops_ite]
  split
  · exact ⟨indexFields, List.Subset.refl _, rfl⟩
  · exact ⟨[MbSubRgnDesc.itemInIndex, MbSubRgnDesc.itemOutIndex], by decide, rfl⟩

theorem ops_libMBValidItem (base : Nat) (m : Mem) :
    ∃ fs ⊆ indexFields,
      (libMBValidItem base).ops memHandler m = fs.map fun f => .getReg (base + f) := by
  simp only [libMBValidItem, Prog.ops_bind, ops_getReg, run_getReg, Prog.ops_ite]
  split
  · exact ⟨[MbSubRgnDesc.itemInIndex, MbSubRgnDesc.itemOutIndex], by decide, rfl⟩
  · exact ⟨indexFields, List.Subset.refl _, rfl⟩

/-- The number of slots that the header of a sub-region gives. -/
def capacity (m : Mem) (base : Nat) : UInt32 := load32 m (base + MbSubRgnDesc.maxItemNum)

/-- The number of bytes of a slot that the header of a sub-region gives. -/
def slotSize (m : Mem) (base : Nat) : UInt32 := load32 m (base + MbSubRgnDesc.maxItemSize)

/-- A call accesses only the `size` bytes from `mb` on, and its copies access the
slots of the items that it reports, from slot `first` of the ring on. -/
structure CallExact (mb : Nat) (size : UInt32) (m : Mem) (base first : Nat) (ret : Int)
    (trace : List MemOp) : Prop where
  inside : ∀ o ∈ trace, ∀ p ∈ o.bytes, mb ≤ p ∧ p < mb + size.toNat
  slots : trace.flatMap MemOp.copied =
    slotBytes (base + mbSubRegionHeaderSz) (capacity m base).toNat
      (slotSize m base).toNat first ret.toNat

def subRegionBase (mb : Nat) (index : UInt32) (m : Mem) : Nat :=
  mb + (load32 m (mb + MbDesc.subRegionStartOffset index.toNat)).toNat

/-- Every write and every read of a channel stays inside the mapping and uses the
exact slots. -/
structure AccessesExact (mb : Nat) (size index : UInt32) (m : Mem) : Prop where
  write : ∀ source itemNum,
    CallExact mb size m (subRegionBase mb index m)
      (load32 m (subRegionBase mb index m + MbSubRgnDesc.itemInIndex)).toNat
      ((libMBWrite mb source itemNum index).run memHandler m).1
      (trace (libMBWrite mb source itemNum index) m)
  read : ∀ dest itemNum,
    CallExact mb size m (subRegionBase mb index m)
      (load32 m (subRegionBase mb index m + MbSubRgnDesc.itemOutIndex)).toNat
      ((libMBRead mb dest itemNum index).run memHandler m).1.1
      (trace (libMBRead mb dest itemNum index) m)

/-- The slots that writes and reads can reach before an index moves: with the
read index at the start, the last slot is the reserved one. -/
def slotsInReach (m : Mem) (base : Nat) : Nat :=
  if load32 m (base + MbSubRgnDesc.itemOutIndex) = 0 then
    (capacity m base).toNat - 1
  else
    (capacity m base).toNat

/-- The table entry and the slots in reach end inside the mapping. -/
structure RingMapped (mb : Nat) (size index : UInt32) (m : Mem) : Prop where
  entry : MbDesc.subRegionEndOffset index.toNat ≤ size.toNat
  ring : (load32 m (mb + MbDesc.subRegionStartOffset index.toNat)).toNat + mbSubRegionHeaderSz +
    slotsInReach m (subRegionBase mb index m) *
      (slotSize m (subRegionBase mb index m)).toNat ≤ size.toNat

theorem CallExact.of_parts {mb : Nat} {size : UInt32} {m : Mem} {base first : Nat} {ret : Int}
    {before copies after : List MemOp} (hbefore : Registers mb (mb + size.toNat) before)
    (hafter : Registers mb (mb + size.toNat) after)
    (hcopies : ∀ o ∈ copies, o.bytes = o.copied)
    (hslots : copies.flatMap MemOp.copied =
      slotBytes (base + mbSubRegionHeaderSz) (capacity m base).toNat
        (slotSize m base).toNat first ret.toNat)
    (hinside : ∀ p ∈ copies.flatMap MemOp.copied, mb ≤ p ∧ p < mb + size.toNat) :
    CallExact mb size m base first ret (before ++ (copies ++ after)) := by
  constructor
  · intro o ho
    cases List.mem_append.mp ho with
    | inl h => exact (hbefore o h).2
    | inr h =>
        cases List.mem_append.mp h with
        | inl h =>
            rw [hcopies o h]
            exact fun p hp => hinside p (List.mem_flatMap.mpr ⟨o, h, hp⟩)
        | inr h => exact (hafter o h).2
  · rw [List.flatMap_append, List.flatMap_append, hbefore.copied_nil, hafter.copied_nil,
      List.nil_append, List.append_nil, hslots]

/-- A call without copies is exact if it reports no items, or items without bytes. -/
theorem CallExact.of_registers {mb : Nat} {size : UInt32} {m : Mem} {base first : Nat} {ret : Int}
    {trace : List MemOp} (htrace : Registers mb (mb + size.toNat) trace)
    (hnone : ret.toNat = 0 ∨ slotSize m base = 0) :
    CallExact mb size m base first ret trace := by
  constructor
  · exact fun o ho => (htrace o ho).2
  · rw [htrace.copied_nil]
    cases hnone with
    | inl h => rw [h]; rfl
    | inr h => simp [h, slotBytes, byteRange]

section Sane
variable {mb : Nat} {size index : UInt32} {m : Mem} {base : Nat}

/-- What the sanity check says about the indices of a sub-region. -/
theorem sane_indices (hsane : sane m base = true) :
    (capacity m base).toNat ≤ 1048576 ∧
      (load32 m (base + MbSubRgnDesc.itemInIndex)).toNat < (capacity m base).toNat ∧
      (load32 m (base + MbSubRgnDesc.itemOutIndex)).toNat < (capacity m base).toNat := by
  obtain ⟨-, hmax, -, hin, hout⟩ := (sane_iff m base).mp hsane
  exact ⟨hmax, hin, hout⟩

theorem freeItem_toNat (hsane : sane m base = true) :
    (freeItem m base).toNat = (capacity m base).toNat - 1 -
      count (capacity m base).toNat (load32 m (base + MbSubRgnDesc.itemInIndex)).toNat
        (load32 m (base + MbSubRgnDesc.itemOutIndex)).toNat :=
  vacant_toNat _ _ _ (sane_indices hsane).2.1 (sane_indices hsane).2.2

theorem validItem_toNat (hsane : sane m base = true) :
    (validItem m base).toNat =
      count (capacity m base).toNat (load32 m (base + MbSubRgnDesc.itemInIndex)).toNat
        (load32 m (base + MbSubRgnDesc.itemOutIndex)).toNat :=
  occupied_toNat _ _ _ (sane_indices hsane).2.2

theorem slot_lt_reach (num first k j reach : Nat) (hnum : 0 < num) (hj : j < k)
    (hreach : min (first + k) num ≤ reach) : (first + j) % num < reach := by
  have hmod := Nat.mod_lt (first + j) hnum
  by_cases h : first + j < num
  · rw [Nat.mod_eq_of_lt h]
    omega
  · omega

theorem free_in_reach (hsane : sane m base = true) (itemNum : UInt32)
    (h : itemNum ≤ freeItem m base) :
    min ((load32 m (base + MbSubRgnDesc.itemInIndex)).toNat + itemNum.toNat)
      (capacity m base).toNat ≤ slotsInReach m base := by
  obtain ⟨-, hin, hout⟩ := sane_indices hsane
  rw [UInt32.le_iff_toNat_le, freeItem_toNat hsane, count] at h
  rw [slotsInReach]
  split
  · rename_i hzero
    rw [hzero, UInt32.toNat_zero, if_pos (Nat.zero_le _)] at h
    omega
  · omega

theorem valid_in_reach (hsane : sane m base = true) (itemNum : UInt32)
    (h : itemNum ≤ validItem m base) :
    min ((load32 m (base + MbSubRgnDesc.itemOutIndex)).toNat + itemNum.toNat)
      (capacity m base).toNat ≤ slotsInReach m base := by
  obtain ⟨-, hin, hout⟩ := sane_indices hsane
  rw [UInt32.le_iff_toNat_le, validItem_toNat hsane, count] at h
  rw [slotsInReach]
  split
  · rename_i hzero
    rw [hzero, UInt32.toNat_zero, if_pos (Nat.zero_le _)] at h
    rw [hzero, UInt32.toNat_zero]
    omega
  · omega

namespace RingMapped

theorem registers_inside (h : RingMapped mb size index m) :
    Registers mb (mb + size.toNat)
      ((checkedRegs mb index (subRegionBase mb index m)).map .getReg) := by
  obtain ⟨hentry, hring⟩ := h
  simp only [MbDesc.subRegionEndOffset, mbSubRegionHeaderSz] at hentry hring
  refine registers_get _ fun a ha => ?_
  simp only [checkedRegs, subRegionBase, MbDesc.magic, MbDesc.numOfSubRegion,
    MbDesc.subRegionStartOffset, MbSubRgnDesc.maxItemNum, MbSubRgnDesc.maxItemSize,
    MbSubRgnDesc.itemInIndex, MbSubRgnDesc.itemOutIndex, List.mem_cons, List.not_mem_nil,
    or_false] at ha hring
  omega

theorem header_inside (h : RingMapped mb size index m) (f : Nat) (hf : f + 4 ≤ 56) :
    mb ≤ subRegionBase mb index m + f ∧ subRegionBase mb index m + f + 4 ≤ mb + size.toNat := by
  have hring := h.ring
  simp only [subRegionBase, mbSubRegionHeaderSz] at hring ⊢
  omega

theorem fields_inside (h : RingMapped mb size index m) (fs : List Nat)
    (hfs : ∀ f ∈ fs, f + 4 ≤ 56) :
    Registers mb (mb + size.toNat)
      (fs.map fun f => .getReg (subRegionBase mb index m + f)) := by
  have hinside : ∀ a ∈ fs.map (subRegionBase mb index m + ·), mb ≤ a ∧ a + 4 ≤ mb + size.toNat :=
    fun a ha => by
      obtain ⟨f, hf, rfl⟩ := List.mem_map.mp ha
      exact h.header_inside f (hfs f hf)
  have hregs := registers_get _ hinside
  rwa [List.map_map] at hregs

theorem indexFields_inside (h : RingMapped mb size index m) {fs : List Nat}
    (hfs : fs ⊆ indexFields) :
    Registers mb (mb + size.toNat)
      (fs.map fun f => .getReg (subRegionBase mb index m + f)) :=
  h.fields_inside fs fun f hf =>
    (by decide : ∀ f ∈ indexFields, f + 4 ≤ 56) f (hfs hf)

theorem spans_exact (h : RingMapped mb size index m)
    (hsane : sane m (subRegionBase mb index m) = true) (first num : UInt32)
    (hfirst : first.toNat <
      (capacity m (subRegionBase mb index m)).toNat)
    (hnum : num.toNat ≤ (capacity m (subRegionBase mb index m)).toNat)
    (hreach : min (first.toNat + num.toNat)
      (capacity m (subRegionBase mb index m)).toNat ≤
        slotsInReach m (subRegionBase mb index m)) :
    let bytes := (ringSpans first num
      (capacity m (subRegionBase mb index m))
      (slotSize m (subRegionBase mb index m))).flatMap fun s =>
        byteRange (subRegionBase mb index m + mbSubRegionHeaderSz + s.slot) s.len
    bytes = slotBytes (subRegionBase mb index m + mbSubRegionHeaderSz)
        (capacity m (subRegionBase mb index m)).toNat
        (slotSize m (subRegionBase mb index m)).toNat
        first.toNat num.toNat ∧
      ∀ p ∈ bytes, mb ≤ p ∧ p < mb + size.toNat := by
  intro bytes
  obtain ⟨hmax, -⟩ := sane_indices hsane
  have hring := h.ring
  have hsize := size.toNat_lt
  have hproduct : ∀ k ≤ slotsInReach m (subRegionBase mb index m),
      k * (slotSize m (subRegionBase mb index m)).toNat ≤
        slotsInReach m (subRegionBase mb index m) *
          (slotSize m (subRegionBase mb index m)).toNat :=
    fun k hk => Nat.mul_le_mul_right _ hk
  have hfit := hproduct _ hreach
  have hbytes : bytes = _ := ringSpans_bytes _ first num _ _ hfirst hnum hmax (by omega)
  refine ⟨hbytes, fun p hp => ?_⟩
  rw [hbytes, mem_slotBytes] at hp
  obtain ⟨j, hj, hlow, hhigh⟩ := hp
  have hslot := hproduct _ (slot_lt_reach _ first.toNat num.toNat j _ (by omega) hj hreach)
  rw [Nat.succ_mul] at hslot
  rw [subRegionBase] at hlow hhigh
  rw [subRegionBase] at hslot hring
  omega

/-- One transfer of items on a sub-region with bytes in its items, between the
registers of the checks and the update of its index. -/
theorem transfer_exact (h : RingMapped mb size index m)
    (hsane : sane m (subRegionBase mb index m) = true) (first num : UInt32)
    (hfirst : first.toNat <
      (capacity m (subRegionBase mb index m)).toNat)
    (hnum : num.toNat ≤ (capacity m (subRegionBase mb index m)).toNat)
    (hreach : min (first.toNat + num.toNat)
      (capacity m (subRegionBase mb index m)).toNat ≤
        slotsInReach m (subRegionBase mb index m))
    (before after : List MemOp) (copy : Span → MemOp)
    (hbefore : Registers mb (mb + size.toNat) before)
    (hafter : Registers mb (mb + size.toNat) after)
    (hcopy : ∀ s, (copy s).bytes = (copy s).copied ∧ (copy s).copied =
      byteRange (subRegionBase mb index m + mbSubRegionHeaderSz + s.slot) s.len) :
    CallExact mb size m (subRegionBase mb index m) first.toNat (int32 num.toNat)
      (before ++ ((ringSpans first num
        (capacity m (subRegionBase mb index m))
        (slotSize m (subRegionBase mb index m))).map copy ++ after)) := by
  obtain ⟨hmax, -⟩ := sane_indices hsane
  obtain ⟨hbytes, hinside⟩ := h.spans_exact hsane first num hfirst hnum hreach
  have hspans := List.flatMap_map copy MemOp.copied (ringSpans first num
    (capacity m (subRegionBase mb index m)) (slotSize m (subRegionBase mb index m)))
  rw [List.flatMap_congr fun s _ => (hcopy s).2] at hspans
  refine .of_parts hbefore hafter ?_ ?_ ?_
  · intro o ho
    obtain ⟨s, -, rfl⟩ := List.mem_map.mp ho
    exact (hcopy s).1
  · rw [hspans, hbytes, int32_of_lt _ (by omega), Int.toNat_natCast]
  · rw [hspans]
    exact hinside

/-- On a sane sub-region with bytes in its items the guard of the copy code lets pass. -/
theorem copyGuard (first : UInt32) (hfirst : first.toNat < (capacity m base).toNat)
    (hsize : slotSize m base ≠ 0) :
    ¬ (load32 m (base + MbSubRgnDesc.maxItemNum) = 0 ∨
      load32 m (base + MbSubRgnDesc.maxItemSize) = 0 ∨
      first ≥ load32 m (base + MbSubRgnDesc.maxItemNum)) := by
  intro hguard
  rcases hguard with h0 | h0 | h0
  · rw [capacity, h0] at hfirst
    exact absurd hfirst (Nat.not_lt_zero _)
  · exact hsize h0
  · exact absurd (UInt32.le_iff_toNat_le.mp h0) (Nat.not_le.mpr hfirst)

theorem writeItem_exact (h : RingMapped mb size index m)
    (hsane : sane m (subRegionBase mb index m) = true) (source : Mem) (itemNum : UInt32)
    (hfit : itemNum ≤ freeItem m (subRegionBase mb index m)) (before : List MemOp)
    (hbefore : Registers mb (mb + size.toNat) before) :
    CallExact mb size m (subRegionBase mb index m)
      (load32 m (subRegionBase mb index m + MbSubRgnDesc.itemInIndex)).toNat
      (int32 itemNum.toNat)
      (before ++ trace (libMBWriteItem (subRegionBase mb index m) source itemNum) m) := by
  obtain ⟨-, hin, -⟩ := sane_indices hsane
  have hregs := hbefore.append (h.fields_inside
    [MbSubRgnDesc.maxItemSize, MbSubRgnDesc.itemInIndex, MbSubRgnDesc.maxItemNum] (by decide))
  have hnum : itemNum.toNat ≤ (capacity m (subRegionBase mb index m)).toNat := by
    rw [UInt32.le_iff_toNat_le, freeItem_toNat hsane] at hfit
    omega
  simp only [trace, libMBWriteItem, Prog.ops_bind, ops_getReg, run_getReg, Prog.ops_ite]
  by_cases hsize : slotSize m (subRegionBase mb index m) = 0
  · have hnone : load32 m (subRegionBase mb index m + MbSubRgnDesc.maxItemSize) = 0 := hsize
    rw [if_pos (Or.inr (Or.inl hnone))]
    exact .of_registers hregs (Or.inr hsize)
  · have hcall := h.transfer_exact hsane _ itemNum hin hnum (free_in_reach hsane itemNum hfit) _
      [.setReg (subRegionBase mb index m + MbSubRgnDesc.itemInIndex)
        ((load32 m (subRegionBase mb index m + MbSubRgnDesc.itemInIndex) + itemNum) %
          capacity m (subRegionBase mb index m))]
      (fun s => .copyIn (subRegionBase mb index m + mbSubRegionHeaderSz + s.slot)
        (loadBytes source s.off s.len)) hregs
      (registers_set (h.header_inside _ (by decide)))
      (fun s => ⟨rfl, by rw [MemOp.copied, loadBytes_length]⟩)
    rw [List.append_assoc] at hcall
    rw [if_neg (copyGuard _ hin hsize)]
    simp only [ops_copyIntoRing, ops_setReg]
    exact hcall

theorem readItem_exact (h : RingMapped mb size index m)
    (hsane : sane m (subRegionBase mb index m) = true) (dest : Mem) (itemNum : UInt32)
    (hfit : itemNum ≤ validItem m (subRegionBase mb index m)) (before : List MemOp)
    (hbefore : Registers mb (mb + size.toNat) before) :
    CallExact mb size m (subRegionBase mb index m)
      (load32 m (subRegionBase mb index m + MbSubRgnDesc.itemOutIndex)).toNat
      (int32 itemNum.toNat)
      (before ++ trace (libMBReadItem (subRegionBase mb index m) dest itemNum) m) := by
  obtain ⟨-, hin, hout⟩ := sane_indices hsane
  have hregs := hbefore.append (h.fields_inside
    [MbSubRgnDesc.maxItemSize, MbSubRgnDesc.itemOutIndex, MbSubRgnDesc.maxItemNum] (by decide))
  have hnum : itemNum.toNat ≤ (capacity m (subRegionBase mb index m)).toNat := by
    rw [UInt32.le_iff_toNat_le, validItem_toNat hsane] at hfit
    have hlt := count_lt _ _ _ hin hout
    omega
  simp only [trace, libMBReadItem, Prog.ops_bind, ops_getReg, run_getReg, Prog.ops_ite]
  by_cases hsize : slotSize m (subRegionBase mb index m) = 0
  · have hnone : load32 m (subRegionBase mb index m + MbSubRgnDesc.maxItemSize) = 0 := hsize
    rw [if_pos (Or.inr (Or.inl hnone))]
    exact .of_registers hregs (Or.inr hsize)
  · have hcall := h.transfer_exact hsane _ itemNum hout hnum (valid_in_reach hsane itemNum hfit) _
      [.setReg (subRegionBase mb index m + MbSubRgnDesc.itemOutIndex)
        ((load32 m (subRegionBase mb index m + MbSubRgnDesc.itemOutIndex) + itemNum) %
          capacity m (subRegionBase mb index m))]
      (fun s => .copyOut (subRegionBase mb index m + mbSubRegionHeaderSz + s.slot) s.len) hregs
      (registers_set (h.header_inside _ (by decide))) (fun s => ⟨rfl, rfl⟩)
    rw [List.append_assoc] at hcall
    rw [if_neg (copyGuard _ hout hsize)]
    simp only [ops_copyFromRing, ops_setReg, Prog.pure_eq, Prog.ops_ret, List.append_nil]
    exact hcall

/-- A mapping that holds the table entry and the slots in reach is enough. -/
theorem accesses_exact (h : RingMapped mb size index m) (hmb : mb ≠ null)
    (hat : subRegionAt mb index m = .ok (subRegionBase mb index m)) :
    AccessesExact mb size index m := by
  obtain ⟨-, -, -, hsane⟩ := subRegionAt_ok _ _ _ _ hat
  constructor
  · intro source itemNum
    cases source with
    | none => exact .of_registers (fun _ ho => absurd ho List.not_mem_nil) (Or.inl rfl)
    | some source =>
        obtain ⟨fs, hfs, hops⟩ := ops_libMBFreeItem (subRegionBase mb index m) m
        have hregs := h.registers_inside.append (h.indexFields_inside hfs)
        simp only [trace, libMBWrite, if_pos hmb, ops_onSubRegion _ _ _ _ _ _ hat,
          run_onSubRegion, hat, Prog.ops_bind, Prog.run_bind, run_libMBFreeItem, hops]
        by_cases hfit : itemNum ≤ freeItem m (subRegionBase mb index m)
        · have hcall := h.writeItem_exact hsane source itemNum hfit _ hregs
          rw [List.append_assoc] at hcall
          simp only [if_pos hfit, Prog.run_bind, Prog.ops_bind, Prog.pure_eq, Prog.run_ret,
            Prog.ops_ret, List.append_nil]
          exact hcall
        · simp only [if_neg hfit, Prog.pure_eq, Prog.run_ret, Prog.ops_ret, List.append_nil]
          exact .of_registers hregs (Or.inl rfl)
  · intro dest itemNum
    cases dest with
    | none => exact .of_registers (fun _ ho => absurd ho List.not_mem_nil) (Or.inl rfl)
    | some dest =>
        obtain ⟨fs, hfs, hops⟩ := ops_libMBValidItem (subRegionBase mb index m) m
        have hregs := h.registers_inside.append (h.indexFields_inside hfs)
        simp only [trace, libMBRead, if_pos hmb, ops_onSubRegion _ _ _ _ _ _ hat,
          run_onSubRegion, hat, Prog.ops_bind, Prog.run_bind, run_libMBValidItem, hops]
        generalize hn : (if validItem m (subRegionBase mb index m) < itemNum
          then validItem m (subRegionBase mb index m) else itemNum) = n
        have hfit : n ≤ validItem m (subRegionBase mb index m) := by
          rw [← hn]
          split
          · exact UInt32.le_refl _
          · exact UInt32.not_lt.mp ‹_›
        by_cases hpos : n > 0
        · have hcall := h.readItem_exact hsane dest n hfit _ hregs
          rw [List.append_assoc] at hcall
          simp only [if_pos hpos, Prog.run_bind, Prog.ops_bind, Prog.pure_eq, Prog.run_ret,
            Prog.ops_ret, List.append_nil]
          exact hcall
        · simp only [if_neg hpos, Prog.pure_eq, Prog.run_ret, Prog.ops_ret, List.append_nil]
          exact .of_registers hregs (Or.inl rfl)

end RingMapped

/-- The last slot in reach belongs to the free items or to the valid ones. -/
theorem last_slot_reached (num w r reach : Nat) (hw : w < num) (hr : r < num)
    (hreach : reach = if r = 0 then num - 1 else num) (hpos : 0 < reach) :
    (∃ j < num - 1 - count num w r, (w + j) % num = reach - 1) ∨
      ∃ j < count num w r, (r + j) % num = reach - 1 := by
  by_cases hle : r ≤ w
  · have hcount : count num w r = w - r := if_pos hle
    rw [hcount]
    by_cases hlast : w < reach
    · refine Or.inl ⟨reach - 1 - w, ?_, ?_⟩
      · split at hreach <;> omega
      · rw [Nat.add_sub_of_le (by omega)]
        exact Nat.mod_eq_of_lt (by split at hreach <;> omega)
    · refine Or.inr ⟨reach - 1, ?_, ?_⟩
      · split at hreach <;> omega
      · rw [show r = 0 by split at hreach <;> omega, Nat.zero_add]
        exact Nat.mod_eq_of_lt (by split at hreach <;> omega)
  · have hcount : count num w r = num - r + w := if_neg hle
    rw [if_neg (show r ≠ 0 by omega)] at hreach
    rw [hcount]
    refine Or.inr ⟨reach - 1 - r, by omega, ?_⟩
    rw [Nat.add_sub_of_le (by omega)]
    exact Nat.mod_eq_of_lt (by omega)

namespace AccessesExact

theorem register_inside (h : AccessesExact mb size index m) (hmb : mb ≠ null)
    (hat : subRegionAt mb index m = .ok (subRegionBase mb index m)) (a : Nat)
    (ha : a ∈ checkedRegs mb index (subRegionBase mb index m)) : a + 4 ≤ mb + size.toNat := by
  have hmem : MemOp.getReg a ∈ trace (libMBWrite mb (some fun _ => 0) 0 index) m := by
    simp only [trace, libMBWrite, if_pos hmb, ops_onSubRegion _ _ _ _ _ _ hat]
    exact List.mem_append_left _ (List.mem_map_of_mem ha)
  have hbyte := (h.write _ 0).inside _ hmem (a + 3) ((mem_byteRange _ _ _).mpr (by omega))
  omega

theorem write_inside (h : AccessesExact mb size index m) (hmb : mb ≠ null)
    (hat : subRegionAt mb index m = .ok (subRegionBase mb index m)) (p : Nat)
    (hp : p ∈ slotBytes (subRegionBase mb index m + mbSubRegionHeaderSz)
      (capacity m (subRegionBase mb index m)).toNat (slotSize m (subRegionBase mb index m)).toNat
      (load32 m (subRegionBase mb index m + MbSubRgnDesc.itemInIndex)).toNat
      (freeItem m (subRegionBase mb index m)).toNat) : p < mb + size.toNat := by
  obtain ⟨-, -, -, hsane⟩ := subRegionAt_ok _ _ _ _ hat
  obtain ⟨hsmall, -⟩ := sane_freeItem m _ hsane
  have hcall := h.write (some fun _ => 0) (freeItem m (subRegionBase mb index m))
  have hret : ((libMBWrite mb (some fun _ => 0) (freeItem m (subRegionBase mb index m)) index).run
      memHandler m).1 = ((freeItem m (subRegionBase mb index m)).toNat : Int) := by
    simp only [libMBWrite, if_pos hmb, run_onSubRegion, hat, Prog.run_bind, run_libMBFreeItem,
      if_pos (UInt32.le_refl _), Prog.pure_eq, Prog.run_ret]
    exact int32_of_lt _ (by omega)
  have hslots := hcall.slots
  rw [hret, Int.toNat_natCast] at hslots
  rw [← hslots] at hp
  obtain ⟨o, ho, hpo⟩ := List.mem_flatMap.mp hp
  refine (hcall.inside o ho p ?_).2
  cases o with
  | getReg a | setReg a v => cases hpo
  | copyIn a bs | copyOut a n => exact hpo

theorem read_inside (h : AccessesExact mb size index m) (hmb : mb ≠ null)
    (hat : subRegionAt mb index m = .ok (subRegionBase mb index m)) (p : Nat)
    (hp : p ∈ slotBytes (subRegionBase mb index m + mbSubRegionHeaderSz)
      (capacity m (subRegionBase mb index m)).toNat (slotSize m (subRegionBase mb index m)).toNat
      (load32 m (subRegionBase mb index m + MbSubRgnDesc.itemOutIndex)).toNat
      (validItem m (subRegionBase mb index m)).toNat) : p < mb + size.toNat := by
  obtain ⟨-, -, -, hsane⟩ := subRegionAt_ok _ _ _ _ hat
  obtain ⟨hmax, hin, hout⟩ := sane_indices hsane
  have hlt := count_lt _ _ _ hin hout
  have hvalid := validItem_toNat hsane
  have hcall := h.read (some fun _ => 0) (validItem m (subRegionBase mb index m))
  have hret : ((libMBRead mb (some fun _ => 0) (validItem m (subRegionBase mb index m)) index).run
      memHandler m).1.1 = ((validItem m (subRegionBase mb index m)).toNat : Int) := by
    simp only [libMBRead, if_pos hmb, run_onSubRegion, hat, Prog.run_bind, run_libMBValidItem,
      if_neg (UInt32.lt_irrefl _), Prog.run_ite, Prog.pure_eq, Prog.run_ret]
    split
    · exact int32_of_lt _ (by omega)
    · rename_i hzero
      rw [gt_iff_lt, UInt32.lt_iff_toNat_lt, UInt32.toNat_zero] at hzero
      rw [Nat.eq_zero_of_not_pos hzero]
      rfl
  have hslots := hcall.slots
  rw [hret, Int.toNat_natCast] at hslots
  rw [← hslots] at hp
  obtain ⟨o, ho, hpo⟩ := List.mem_flatMap.mp hp
  refine (hcall.inside o ho p ?_).2
  cases o with
  | getReg a | setReg a v => cases hpo
  | copyIn a bs | copyOut a n => exact hpo

/-- The mapping has to hold the table entry and every slot in reach. -/
theorem ring_mapped (h : AccessesExact mb size index m) (hmb : mb ≠ null)
    (hat : subRegionAt mb index m = .ok (subRegionBase mb index m)) :
    RingMapped mb size index m := by
  obtain ⟨-, -, -, hsane⟩ := subRegionAt_ok _ _ _ _ hat
  obtain ⟨-, hin, hout⟩ := sane_indices hsane
  have hentry := h.register_inside hmb hat
    (mb + MbDesc.subRegionStartOffset index.toNat) (by simp [checkedRegs])
  have hheader := h.register_inside hmb hat
    (subRegionBase mb index m + MbSubRgnDesc.itemOutIndex) (by simp [checkedRegs])
  constructor
  · simp only [MbDesc.subRegionStartOffset, MbDesc.subRegionEndOffset] at hentry ⊢
    omega
  · by_cases hpos : 0 < slotsInReach m (subRegionBase mb index m) *
      (slotSize m (subRegionBase mb index m)).toNat
    case neg =>
      simp only [subRegionBase, MbSubRgnDesc.itemOutIndex, mbSubRegionHeaderSz] at *
      omega
    have hreach := Nat.pos_of_mul_pos_right hpos
    have hsize := Nat.pos_of_mul_pos_left hpos
    have hlast := Nat.succ_mul (slotsInReach m (subRegionBase mb index m) - 1)
      (slotSize m (subRegionBase mb index m)).toNat
    rw [Nat.succ_eq_add_one, Nat.sub_add_cancel hreach] at hlast
    -- the last byte of the last slot in reach
    have hbyte : subRegionBase mb index m + mbSubRegionHeaderSz +
        (slotsInReach m (subRegionBase mb index m) - 1) *
          (slotSize m (subRegionBase mb index m)).toNat +
        ((slotSize m (subRegionBase mb index m)).toNat - 1) < mb + size.toNat := by
      have hzero : (load32 m (subRegionBase mb index m + MbSubRgnDesc.itemOutIndex) = 0) ↔
          (load32 m (subRegionBase mb index m + MbSubRgnDesc.itemOutIndex)).toNat = 0 :=
        ⟨fun h0 => by rw [h0]; rfl, fun h0 => UInt32.toNat.inj h0⟩
      cases last_slot_reached _ _ _ (slotsInReach m (subRegionBase mb index m)) hin hout
          (by simp only [slotsInReach, hzero, capacity]) hreach with
      | inl hfree =>
          obtain ⟨j, hj, hslot⟩ := hfree
          refine h.write_inside hmb hat _ ((mem_slotBytes _ _ _ _ _ _).mpr ⟨j, ?_, ?_, ?_⟩)
          · rw [freeItem_toNat hsane]
            exact hj
          · rw [hslot]
            omega
          · rw [hslot]
            omega
      | inr hvalid =>
          obtain ⟨j, hj, hslot⟩ := hvalid
          refine h.read_inside hmb hat _ ((mem_slotBytes _ _ _ _ _ _).mpr ⟨j, ?_, ?_, ?_⟩)
          · rw [validItem_toNat hsane]
            exact hj
          · rw [hslot]
            omega
          · rw [hslot]
            omega
    simp only [subRegionBase] at hbyte hlast hsize ⊢
    omega

end AccessesExact

end Sane

/-- After a successful open, the writes and reads of a channel that passes the
sanity check stay inside the mapped region and use the exact slots if and only if
the region holds the channel's table entry and its slots in reach. -/
theorem opened_accesses_exact_iff (env : SysEnv) (dev : List UInt8) (m m' : Mem)
    (h : RtssMbHandle)
    (hopen : (rtssMbOpen false (some dev)).run (devHandler env) m =
      ((rtssMbReturnSuccess, some h), m'))
    (index : UInt32) (hindex : index < load32 m (h.pMbBaseAddr + MbDesc.numOfSubRegion))
    (hsane : ((libMBMailboxSanityCheck (subRegionBase h.pMbBaseAddr index m)).run
      memHandler m).1 = true) :
    AccessesExact h.pMbBaseAddr env.getMbRegion.2 index m ↔
      RingMapped h.pMbBaseAddr env.getMbRegion.2 index m := by
  obtain ⟨-, hmb, -, hmagic⟩ := rtssMbOpen_maps env dev m m' h hopen
  rw [run_libMBMailboxSanityCheck] at hsane
  have hat : subRegionAt h.pMbBaseAddr index m =
      .ok (subRegionBase h.pMbBaseAddr index m) := by
    rw [subRegionAt, if_pos hmagic, if_pos hindex]
    exact if_pos hsane
  exact ⟨fun hexact => hexact.ring_mapped hmb hat, fun hmapped => hmapped.accesses_exact hmb hat⟩

/-- System calls that map 4096 bytes at address 4096. -/
def SysEnv.mapsPage : SysEnv :=
  ⟨true, ⟨3, 0⟩, (⟨0, 0⟩, 4096), (4096, 0), ⟨4, 0⟩, ⟨0, 0⟩, ⟨0, 0⟩, ⟨⟨1, 0⟩, true, false⟩, ⟨0, 0⟩⟩

/-- A mailbox at address 4096 whose sub-region `a` has two slots of `size` bytes. -/
def twoSlotMem (size : UInt32) : Mem :=
  [(4096 + MbDesc.magic, mbMagicNumber), (4096 + MbDesc.numOfSubRegion, 1),
    (4096 + MbDesc.subRegionStartOffset 0, 44), (4140 + MbSubRgnDesc.name, 97),
    (4140 + MbSubRgnDesc.maxItemNum, 2), (4140 + MbSubRgnDesc.maxItemSize, size)].foldl
    (fun m w => store32 m w.1 w.2) fun _ => 0

def twoSlotHandle (size : UInt32) : RtssMbHandle :=
  { RtssMbHandle.blank with
    fd := 3
    pMbBaseAddr := 4096
    mbSize := 4096
    mode := rtssMbModeTx
    dev := [97]
    subchanItemSize := size }

/-- Slots of sixteen bytes end inside the page. -/
theorem opened_accesses_exact_small : AccessesExact 4096 4096 0 (twoSlotMem 16) :=
  (opened_accesses_exact_iff SysEnv.mapsPage [97] (twoSlotMem 16) (twoSlotMem 16)
    (twoSlotHandle 16) rfl 0 (by decide) (by decide)).mpr ⟨by decide, by decide⟩

/-- A page is mapped and the open and the sanity check succeed, but a slot has
eight megabytes. -/
theorem opened_ring_outside :
    (rtssMbOpen false (some [97])).run (devHandler SysEnv.mapsPage) (twoSlotMem 8388608) =
        ((rtssMbReturnSuccess, some (twoSlotHandle 8388608)), twoSlotMem 8388608) ∧
      ((libMBMailboxSanityCheck (subRegionBase 4096 0 (twoSlotMem 8388608))).run memHandler
        (twoSlotMem 8388608)).1 = true ∧
      ¬ AccessesExact (twoSlotHandle 8388608).pMbBaseAddr SysEnv.mapsPage.getMbRegion.2 0
        (twoSlotMem 8388608) := by
  refine ⟨rfl, by decide, fun hexact => ?_⟩
  have hmapped := hexact.ring_mapped (by decide) (by rfl)
  exact absurd hmapped.ring (by decide)

end RtssMailbox
