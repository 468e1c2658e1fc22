import RtssMailbox.Library.CyclicBuffer
import RtssMailbox.MailboxLibrary

/-!
What the mailbox library's programs do when nothing else touches the memory.
The checks and the two counters are given as functions of any memory; the ring
copies are characterised byte by byte, through one wrapping offset, so that the
split at the end of the ring disappears from later statements.
-/
namespace RtssMailbox
open Effects ByteMemory CyclicBuffer

def sane (m : Mem) (base : Nat) : Bool :=
  base ≠ null && !(load32 m (base + MbSubRgnDesc.maxItemNum) > mbMaxItemNum ||
    load32 m (base + MbSubRgnDesc.maxItemSize) > mbMaxSize ||
    load32 m (base + MbSubRgnDesc.itemInIndex) ≥ load32 m (base + MbSubRgnDesc.maxItemNum) ||
    load32 m (base + MbSubRgnDesc.itemOutIndex) ≥ load32 m (base + MbSubRgnDesc.maxItemNum))

def validItem (m : Mem) (base : Nat) : UInt32 :=
  if load32 m (base + MbSubRgnDesc.itemInIndex) ≥ load32 m (base + MbSubRgnDesc.itemOutIndex) then
    load32 m (base + MbSubRgnDesc.itemInIndex) - load32 m (base + MbSubRgnDesc.itemOutIndex)
  else
    load32 m (base + MbSubRgnDesc.maxItemNum) - load32 m (base + MbSubRgnDesc.itemOutIndex) +
      load32 m (base + MbSubRgnDesc.itemInIndex)

def freeItem (m : Mem) (base : Nat) : UInt32 :=
  if load32 m (base + MbSubRgnDesc.itemInIndex) ≥ load32 m (base + MbSubRgnDesc.itemOutIndex) then
    load32 m (base + MbSubRgnDesc.maxItemNum) - load32 m (base + MbSubRgnDesc.itemInIndex) +
      load32 m (base + MbSubRgnDesc.itemOutIndex) - 1
  else
    load32 m (base + MbSubRgnDesc.itemOutIndex) - load32 m (base + MbSubRgnDesc.itemInIndex) - 1

@[simp] theorem run_libMBMailboxSanityCheck (base : Nat) (m : Mem) :
    (libMBMailboxSanityCheck base).run memHandler m = (sane m base, m) := by
  by_cases h : base = null
  · simp [libMBMailboxSanityCheck, sane, h]
  · simp only [libMBMailboxSanityCheck, sane, ne_eq, h, not_false_eq_true, if_true,
      Prog.run_bind, run_getReg, Prog.pure_eq, Prog.run_ret, decide_true, Bool.true_and]

@[simp] theorem run_libMBValidItem (base : Nat) (m : Mem) :
    (libMBValidItem base).run memHandler m = (validItem m base, m) := by
  simp only [libMBValidItem, validItem, Prog.run_bind, run_getReg, Prog.run_ite, Prog.pure_eq,
    Prog.run_ret]
  split <;> rfl

@[simp] theorem run_libMBFreeItem (base : Nat) (m : Mem) :
    (libMBFreeItem base).run memHandler m = (freeItem m base, m) := by
  simp only [libMBFreeItem, freeItem, Prog.run_bind, run_getReg, Prog.run_ite, Prog.pure_eq,
    Prog.run_ret]
  split <;> rfl

/-- What the sanity check guarantees about the words of a sub-region. -/
theorem sane_iff (m : Mem) (base : Nat) : sane m base = true ↔
    base ≠ null ∧ (load32 m (base + MbSubRgnDesc.maxItemNum)).toNat ≤ 1048576 ∧
      (load32 m (base + MbSubRgnDesc.maxItemSize)).toNat ≤ 8388608 ∧
      (load32 m (base + MbSubRgnDesc.itemInIndex)).toNat <
        (load32 m (base + MbSubRgnDesc.maxItemNum)).toNat ∧
      (load32 m (base + MbSubRgnDesc.itemOutIndex)).toNat <
        (load32 m (base + MbSubRgnDesc.maxItemNum)).toNat := by
  simp [sane, UInt32.lt_iff_toNat_lt, UInt32.le_iff_toNat_le, and_assoc, mbMaxItemNum, mbMaxSize]

/-- The sub-region that the checks of an operation admit, or the error that they report. -/
def subRegionAt (mb : Nat) (index : UInt32) (m : Mem) : Except Int Nat :=
  if load32 m (mb + MbDesc.magic) = mbMagicNumber then
    if index < load32 m (mb + MbDesc.numOfSubRegion) then
      if sane m (mb + (load32 m (mb + MbDesc.subRegionStartOffset index.toNat)).toNat) then
        .ok (mb + (load32 m (mb + MbDesc.subRegionStartOffset index.toNat)).toNat)
      else
        .error mbECorruptMailbox
    else
      .error mbEInvalidIndex
  else
    .error mbEInvalidMailbox

theorem run_onSubRegion {α : Type} (mb : Nat) (index : UInt32) (fail : Int → α)
    (body : Nat → Prog MemSig α) (m : Mem) :
    (onSubRegion mb index fail body).run memHandler m =
      match subRegionAt mb index m with
      | .ok base => (body base).run memHandler m
      | .error e => (fail e, m) := by
  simp only [onSubRegion, subRegionAt, Prog.run_bind, run_getReg, Prog.run_ite, Prog.pure_eq,
    Prog.run_ret, run_libMBMailboxSanityCheck]
  split
  · split
    · split <;> rfl
    · rfl
  · rfl

/-- The copies follow one wrapping offset from `start` and fill the buffer from
`off` up to `total` without a gap. -/
def Tiles (cap start : Nat) : (off : Nat) → List Span → (total : Nat) → Prop
  | off, [], total => off = total
  | off, s :: rest, total =>
      s.off = off ∧ s.slot = (start + off) % cap ∧ s.slot + s.len ≤ cap ∧
        Tiles cap start (off + s.len) rest total

theorem Tiles.le {cap start off total : Nat} {spans : List Span}
    (h : Tiles cap start off spans total) : off ≤ total := by
  induction spans generalizing off with
  | nil => exact Nat.le_of_eq h
  | cons s rest ih => exact Nat.le_trans (Nat.le_add_right _ _) (ih h.2.2.2)

/-- Inside one copy the wrapping offset does not wrap. -/
theorem span_position (cap start off slot i : Nat) (hslot : slot = (start + off) % cap)
    (hi : slot + i < cap) : slot + i = (start + (off + i)) % cap := by
  rw [← Nat.add_assoc, ← Nat.mod_add_mod, ← hslot, Nat.mod_eq_of_lt hi]

/-- The products and sums of the copy code are exact for a slot of the ring and
at most one turn of items. -/
theorem ringSpans_tiles (index num ringSize itemSize : UInt32) (hindex : index < ringSize)
    (hnum : num ≤ ringSize) (hring : ringSize ≤ mbMaxItemNum)
    (hbytes : ringSize.toNat * itemSize.toNat < 4294967296) :
    Tiles (ringSize.toNat * itemSize.toNat) (index.toNat * itemSize.toNat) 0
      (ringSpans index num ringSize itemSize) (num.toNat * itemSize.toNat) := by
  rw [UInt32.lt_iff_toNat_lt] at hindex
  rw [UInt32.le_iff_toNat_le] at hnum hring
  have hmax : mbMaxItemNum.toNat = 1048576 := rfl
  have hproduct : ∀ k : Nat, k ≤ ringSize.toNat →
      k * itemSize.toNat ≤ ringSize.toNat * itemSize.toNat :=
    fun k hk => Nat.mul_le_mul_right _ hk
  have hadd : (index + num).toNat = index.toNat + num.toNat := by
    rw [UInt32.toNat_add]
    omega
  have hat : (index * itemSize).toNat = index.toNat * itemSize.toNat := by
    have hle := hproduct index.toNat (by omega)
    rw [UInt32.toNat_mul, Nat.mod_eq_of_lt (by omega)]
  have hlt : itemSize.toNat = 0 ∨
      index.toNat * itemSize.toNat < ringSize.toNat * itemSize.toNat := by
    rcases Nat.eq_zero_or_pos itemSize.toNat with h0 | hpos
    · exact Or.inl h0
    · exact Or.inr (Nat.mul_lt_mul_of_pos_right hindex hpos)
  have hslot : index.toNat * itemSize.toNat =
      (index.toNat * itemSize.toNat + 0) % (ringSize.toNat * itemSize.toNat) := by
    rcases hlt with h0 | hlt
    · simp [h0]
    · exact (Nat.mod_eq_of_lt hlt).symm
  rw [ringSpans]
  split
  · rename_i hwrap
    rw [gt_iff_lt, UInt32.lt_iff_toNat_lt, hadd] at hwrap
    have hfirst : (ringSize - index).toNat = ringSize.toNat - index.toNat :=
      UInt32.toNat_sub_of_le _ _ (UInt32.le_iff_toNat_le.mpr (by omega))
    have hrest : (index + num - ringSize).toNat = index.toNat + num.toNat - ringSize.toNat := by
      rw [UInt32.toNat_sub_of_le _ _ (UInt32.le_iff_toNat_le.mpr (by omega)), hadd]
    have hfirstBytes : ((ringSize - index) * itemSize).toNat =
        (ringSize.toNat - index.toNat) * itemSize.toNat := by
      have hle := hproduct (ringSize.toNat - index.toNat) (by omega)
      rw [UInt32.toNat_mul, hfirst, Nat.mod_eq_of_lt (by omega)]
    have hrestBytes : ((index + num - ringSize) * itemSize).toNat =
        (index.toNat + num.toNat - ringSize.toNat) * itemSize.toNat := by
      have hle := hproduct (index.toNat + num.toNat - ringSize.toNat) (by omega)
      rw [UInt32.toNat_mul, hrest, Nat.mod_eq_of_lt (by omega)]
    have htotal : index.toNat * itemSize.toNat +
        (ringSize.toNat - index.toNat) * itemSize.toNat =
          ringSize.toNat * itemSize.toNat := by
      rw [← Nat.add_mul, Nat.add_sub_of_le (by omega)]
    refine ⟨rfl, hat.trans hslot, ?_, ?_, ?_, ?_, ?_⟩
    · simp only [hat, hfirstBytes, htotal]
      exact Nat.le_refl _
    · simp only [hfirstBytes, Nat.zero_add]
    · simp only [hfirstBytes, Nat.zero_add, htotal, Nat.mod_self]
    · simp only [hrestBytes, Nat.zero_add]
      exact hproduct _ (by omega)
    · simp only [Tiles, hfirstBytes, hrestBytes, Nat.zero_add]
      rw [← Nat.add_mul]
      congr 1
      omega
  · rename_i hwrap
    rw [gt_iff_lt, UInt32.lt_iff_toNat_lt, hadd] at hwrap
    have hbytes' : (num * itemSize).toNat = num.toNat * itemSize.toNat := by
      have hle := hproduct num.toNat hnum
      rw [UInt32.toNat_mul, Nat.mod_eq_of_lt (by omega)]
    refine ⟨rfl, hat.trans hslot, ?_, ?_⟩
    · simp only [hat, hbytes', ← Nat.add_mul]
      exact hproduct _ (by omega)
    · simp only [Tiles, hbytes', Nat.zero_add]

/-- Copying into the ring changes no byte outside the offsets of the copies. -/
theorem copyIntoRing_outside (ring cap start off total : Nat) (source : Mem)
    (spans : List Span) (m : Mem) (htiles : Tiles cap start off spans total) (p : Nat)
    (hp : ∀ i, off ≤ i → i < total → p ≠ ring + (start + i) % cap) :
    ((copyIntoRing ring source spans).run memHandler m).2 p = m p := by
  induction spans generalizing off m with
  | nil => rfl
  | cons s rest ih =>
      obtain ⟨rfl, hslot, hfit, hrest⟩ := htiles
      have hle := hrest.le
      simp only [copyIntoRing, copyIn, Prog.run_bind, run_putBytes]
      rw [ih _ _ hrest fun i hi hi' => hp i (by omega) hi']
      apply storeBytes_outside
      rw [loadBytes_length]
      by_contra hin
      have hpos := span_position cap start s.off s.slot (p - (ring + s.slot)) hslot (by omega)
      exact hp (s.off + (p - (ring + s.slot))) (by omega) (by omega) (by omega)

theorem copyIntoRing_inside (ring cap start off total : Nat) (source : Mem) (spans : List Span)
    (m : Mem) (htiles : Tiles cap start off spans total) (htotal : total ≤ cap) (i : Nat)
    (hoff : off ≤ i) (hi : i < total) :
    ((copyIntoRing ring source spans).run memHandler m).2 (ring + (start + i) % cap) =
      source i := by
  induction spans generalizing off m with
  | nil =>
      simp only [Tiles] at htiles
      omega
  | cons s rest ih =>
      obtain ⟨rfl, hslot, hfit, hrest⟩ := htiles
      simp only [copyIntoRing, copyIn, Prog.run_bind, run_putBytes]
      rcases Nat.lt_or_ge i (s.off + s.len) with hin | hout
      · have hpos := span_position cap start s.off s.slot (i - s.off) hslot (by omega)
        rw [Nat.add_sub_of_le hoff] at hpos
        have hkeep : ((copyIntoRing ring source rest).run memHandler
            (storeBytes m (ring + s.slot) (loadBytes source s.off s.len))).2
              (ring + (start + i) % cap) =
            storeBytes m (ring + s.slot) (loadBytes source s.off s.len)
              (ring + (start + i) % cap) :=
          copyIntoRing_outside ring cap start _ total source rest _ hrest _ fun j hj hj' heq => by
            have hsame := position_inj cap start i j (by omega) (by omega) (by omega)
            omega
        rw [hkeep, ← hpos, ← Nat.add_assoc, storeBytes_inside _ _ _ _ (by simp; omega)]
        simp only [loadBytes, List.getElem_map, List.getElem_range]
        exact congrArg source (by omega)
      · exact ih _ _ hrest hout

/-- Copying out of the ring takes the bytes at the wrapping offsets and leaves
the rest of the buffer and the ring alone. -/
theorem copyFromRing_run (ring cap start off total : Nat) (dest : Mem) (spans : List Span)
    (m : Mem) (htiles : Tiles cap start off spans total) :
    (∀ i, off ≤ i → i < total →
      ((copyFromRing ring dest spans).run memHandler m).1 i = m (ring + (start + i) % cap)) ∧
    (∀ i, i < off ∨ total ≤ i →
      ((copyFromRing ring dest spans).run memHandler m).1 i = dest i) ∧
    ((copyFromRing ring dest spans).run memHandler m).2 = m := by
  induction spans generalizing off dest with
  | nil =>
      simp only [Tiles] at htiles
      exact ⟨fun i h h' => by omega, fun i _ => rfl, rfl⟩
  | cons s rest ih =>
      obtain ⟨rfl, hslot, hfit, hrest⟩ := htiles
      have hle := hrest.le
      simp only [copyFromRing, copyOut, Prog.run_bind, run_getBytes, Prog.pure_eq, Prog.run_ret]
      obtain ⟨hin, hout, hmem⟩ :=
        ih (s.off + s.len) (storeBytes dest s.off (loadBytes m (ring + s.slot) s.len)) hrest
      refine ⟨fun i hoff hi => ?_, fun i hi => ?_, hmem⟩
      · rcases Nat.lt_or_ge i (s.off + s.len) with hfirst | hlater
        · rw [hout i (Or.inl hfirst)]
          obtain ⟨j, rfl⟩ := Nat.exists_eq_add_of_le hoff
          rw [storeBytes_inside _ _ _ _ (by simp; omega),
            ← span_position cap start s.off s.slot j hslot (by omega)]
          simp only [loadBytes, List.getElem_map, List.getElem_range, Nat.add_assoc]
        · exact hin i hlater hi
      · rw [hout i (by omega)]
        exact storeBytes_outside _ _ _ _ (by rw [loadBytes_length]; omega)

end RtssMailbox
