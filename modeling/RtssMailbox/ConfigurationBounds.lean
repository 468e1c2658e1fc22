import RtssMailbox.MailboxConfiguration

/-!
What `LibMB_Boundary_Check` establishes about a configuration, first as facts
about numbers and then about the exact byte ranges of the sub-regions. The
check adds the size of the header less one, so a product within 54 of `2 ^ 32`
wraps past the start of its own sub-region.
-/
namespace RtssMailbox
open Effects ByteMemory

theorem word_product_exact (a b : UInt32) :
    (a ≠ 0 → a * b / a = b) ↔ a.toNat * b.toNat < 4294967296 := by
  rw [ne_eq, ← UInt32.toNat_inj, ← UInt32.toNat_inj, UInt32.toNat_div, UInt32.toNat_mul]
  have hb := b.toNat_lt
  constructor
  · intro h
    by_cases ha : a.toNat = 0
    · simp [ha]
    · have hle := Nat.div_mul_le_self (a.toNat * b.toNat % 2 ^ 32) a.toNat
      rw [h ha, Nat.mul_comm] at hle
      omega
  · intro h ha
    rw [Nat.mod_eq_of_lt h]
    exact Nat.mul_div_cancel_left _ (Nat.pos_of_ne_zero ha)

/-- The exact number of bytes of all items of a sub-region. -/
def itemBytes (c : MbSubRgnConfig) : Nat := c.itemMaxNum.toNat * c.itemMaxSize.toNat

theorem subRegionCovered_iff (c : MbSubRgnConfig) :
    subRegionCovered (mbSubRegionHeaderSz.toUInt32 - 1) c = true ↔
      c.itemMaxNum ≤ mbMaxItemNum ∧ c.startAddrOffset < c.endAddrOffset ∧
      itemBytes c < 4294967296 ∧
      c.startAddrOffset.toNat < (c.startAddrOffset.toNat + 55 + itemBytes c) % 4294967296 ∧
      (c.startAddrOffset.toNat + 55 + itemBytes c) % 4294967296 ≤ c.endAddrOffset.toNat := by
  rw [itemBytes, ← word_product_exact]
  simp [subRegionCovered, UInt32.lt_iff_toNat_lt, UInt32.le_iff_toNat_le, mbSubRegionHeaderSz]
  grind

theorem align_table (k : Nat) (h : k < 253) :
    ((40 + 8 * UInt32.ofNat k + 3) &&& ~~~3).toNat = 40 + 8 * k := by
  revert k
  decide +kernel

theorem mailboxHeaderSz_eq (mbCfg : MbConfig) (h : 0 < mbCfg.numSubRegions.toNat)
    (h' : mbCfg.numSubRegions.toNat ≤ 253) :
    (mailboxHeaderSz mbCfg).toNat = 32 + 8 * mbCfg.numSubRegions.toNat := by
  have hk := align_table (mbCfg.numSubRegions.toNat - 1) (by omega)
  have hsub : UInt32.ofNat (mbCfg.numSubRegions.toNat - 1) = mbCfg.numSubRegions - 1 := by
    apply UInt32.toNat.inj
    rw [toNat_sub_one _ h, UInt32.toNat_ofNat']
    exact Nat.mod_eq_of_lt (by omega)
  rw [hsub] at hk
  exact hk.trans (by omega)

theorem libMBBoundaryCheck_iff (mbCfg : MbConfig) (subregionCfg : List MbSubRgnConfig) :
    libMBBoundaryCheck mbCfg subregionCfg = true ↔
      (0 < mbCfg.numSubRegions.toNat ∧ mbCfg.numSubRegions.toNat ≤ 253) ∧
      (∀ i < mbCfg.numSubRegions.toNat,
        subRegionCovered (mbSubRegionHeaderSz.toUInt32 - 1) (subregionCfgAt subregionCfg i)) ∧
      ∀ i ≤ mbCfg.numSubRegions.toNat,
        apart mbCfg.mbSize (neighbours mbCfg subregionCfg i) = true := by
  have hguard : (mbCfg.numSubRegions ≤ mbMaxSubRegionNum ∧ mbCfg.numSubRegions > 0) ↔
      0 < mbCfg.numSubRegions.toNat ∧ mbCfg.numSubRegions.toNat ≤ 253 := by
    rw [UInt32.le_iff_toNat_le, gt_iff_lt, UInt32.lt_iff_toNat_lt]
    exact and_comm
  rw [libMBBoundaryCheck]
  split
  · rename_i h
    simp only [Bool.and_eq_true, List.all_eq_true, List.mem_range, Nat.lt_succ_iff, ← hguard, h,
      and_self, true_and]
  · rename_i h
    simp [← hguard, h]

/-- The layout facts which the check establishes, as numbers. -/
structure Checked (mbCfg : MbConfig) (subregionCfg : List MbSubRgnConfig) : Prop where
  positive : 0 < mbCfg.numSubRegions.toNat
  bounded : mbCfg.numSubRegions.toNat ≤ 253
  covered : ∀ i < mbCfg.numSubRegions.toNat,
    subRegionCovered (mbSubRegionHeaderSz.toUInt32 - 1) (subregionCfgAt subregionCfg i) = true
  header : 32 + 8 * mbCfg.numSubRegions.toNat <
    (subregionCfgAt subregionCfg 0).startAddrOffset.toNat
  apart : ∀ i, i + 1 < mbCfg.numSubRegions.toNat →
    (subregionCfgAt subregionCfg i).endAddrOffset.toNat <
      (subregionCfgAt subregionCfg (i + 1)).startAddrOffset.toNat
  startsInside : ∀ i < mbCfg.numSubRegions.toNat,
    (subregionCfgAt subregionCfg i).startAddrOffset.toNat ≤ mbCfg.mbSize.toNat
  lastInside : (subregionCfgAt subregionCfg (mbCfg.numSubRegions.toNat - 1)).endAddrOffset.toNat <
    mbCfg.mbSize.toNat

theorem apart_iff (mbSize : UInt32) (area : UInt32 × UInt32) :
    apart mbSize area = true ↔
      area.1.toNat < area.2.toNat ∧ area.2.toNat ≤ mbSize.toNat := by
  simp [RtssMailbox.apart, UInt32.lt_iff_toNat_lt, UInt32.le_iff_toNat_le]

theorem checked_iff (mbCfg : MbConfig) (subregionCfg : List MbSubRgnConfig) :
    libMBBoundaryCheck mbCfg subregionCfg = true ↔ Checked mbCfg subregionCfg := by
  rw [libMBBoundaryCheck_iff]
  simp only [apart_iff]
  constructor
  · rintro ⟨⟨hpos, hle⟩, hcov, hap⟩
    have hfirst := hap 0 (Nat.zero_le _)
    have hlast := hap mbCfg.numSubRegions.toNat (Nat.le_refl _)
    have hmid : ∀ i, i + 1 < mbCfg.numSubRegions.toNat → _ := fun i hi => hap (i + 1) (by omega)
    simp only [neighbours, if_true, mailboxHeaderSz_eq mbCfg hpos hle] at hfirst
    simp only [neighbours, if_neg (show mbCfg.numSubRegions.toNat ≠ 0 by omega), if_true] at hlast
    simp only [neighbours, Nat.succ_ne_zero, if_false, Nat.add_sub_cancel] at hmid
    refine ⟨hpos, hle, hcov, hfirst.1, fun i hi => ?_, fun i hi => ?_, hlast.1⟩
    · have h := hmid i hi
      rw [if_neg (by omega)] at h
      exact h.1
    · cases i with
      | zero => exact hfirst.2
      | succ i =>
          have h := hmid i hi
          rw [if_neg (by omega)] at h
          exact h.2
  · intro h
    refine ⟨⟨h.positive, h.bounded⟩, h.covered, fun i hi => ?_⟩
    have hpos := h.positive
    by_cases h0 : i = 0
    · subst h0
      simp only [neighbours, if_true, mailboxHeaderSz_eq mbCfg h.positive h.bounded]
      exact ⟨h.header, h.startsInside 0 h.positive⟩
    · by_cases hn : i = mbCfg.numSubRegions.toNat
      · subst hn
        simp only [neighbours, if_neg h0, if_true]
        exact ⟨h.lastInside, (Nat.le_refl _)⟩
      · simp only [neighbours, if_neg h0, if_neg hn]
        have hstep := h.apart (i - 1) (by omega)
        rw [Nat.sub_add_cancel (by omega)] at hstep
        exact ⟨hstep, h.startsInside i (by omega)⟩

namespace Checked
variable {mbCfg : MbConfig} {subregionCfg : List MbSubRgnConfig}

theorem start_lt_end (h : Checked mbCfg subregionCfg) (i : Nat)
    (hi : i < mbCfg.numSubRegions.toNat) :
    (subregionCfgAt subregionCfg i).startAddrOffset.toNat <
      (subregionCfgAt subregionCfg i).endAddrOffset.toNat :=
  UInt32.lt_iff_toNat_lt.mp ((subRegionCovered_iff _).mp (h.covered i hi)).2.1

theorem end_lt_start (h : Checked mbCfg subregionCfg) (i j : Nat) (hij : i < j)
    (hj : j < mbCfg.numSubRegions.toNat) :
    (subregionCfgAt subregionCfg i).endAddrOffset.toNat <
      (subregionCfgAt subregionCfg j).startAddrOffset.toNat := by
  induction hij with
  | refl => exact h.apart i hj
  | @step k hik ih =>
      calc (subregionCfgAt subregionCfg i).endAddrOffset.toNat
          < (subregionCfgAt subregionCfg k).startAddrOffset.toNat := ih (by omega)
        _ < (subregionCfgAt subregionCfg k).endAddrOffset.toNat :=
            h.start_lt_end k (by omega)
        _ < (subregionCfgAt subregionCfg (k + 1)).startAddrOffset.toNat := h.apart k hj

theorem header_lt_start (h : Checked mbCfg subregionCfg) (i : Nat)
    (hi : i < mbCfg.numSubRegions.toNat) :
    32 + 8 * mbCfg.numSubRegions.toNat <
      (subregionCfgAt subregionCfg i).startAddrOffset.toNat := by
  have hfirst := h.header
  rcases Nat.eq_zero_or_pos i with rfl | hpos
  · exact hfirst
  · have hstart := h.start_lt_end 0 h.positive
    have hchain := h.end_lt_start 0 i hpos hi
    omega

theorem end_lt_size (h : Checked mbCfg subregionCfg) (i : Nat)
    (hi : i < mbCfg.numSubRegions.toNat) :
    (subregionCfgAt subregionCfg i).endAddrOffset.toNat < mbCfg.mbSize.toNat := by
  have hlast := h.lastInside
  by_cases hi' : i = mbCfg.numSubRegions.toNat - 1
  · exact hi' ▸ hlast
  · have hchain := h.end_lt_start i (mbCfg.numSubRegions.toNat - 1) (by omega) (by omega)
    have hend := h.start_lt_end (mbCfg.numSubRegions.toNat - 1) (by omega)
    omega

end Checked

/-- The exact number of bytes of a sub-region, header and items. -/
def regionBytes (c : MbSubRgnConfig) : Nat := mbSubRegionHeaderSz + itemBytes c

/-- The bytes of the mailbox descriptor with a table of `num_sub_regions` entries. -/
def descriptorBytes (mbCfg : MbConfig) : Nat :=
  MbDesc.subRegionStartOffset mbCfg.numSubRegions.toNat

/-- The layout that a mailbox needs, over exact byte ranges. -/
structure ExactRanges (mbCfg : MbConfig) (subregionCfg : List MbSubRgnConfig) : Prop where
  covered : ∀ i < mbCfg.numSubRegions.toNat,
    (subregionCfgAt subregionCfg i).startAddrOffset.toNat +
      regionBytes (subregionCfgAt subregionCfg i) ≤
        (subregionCfgAt subregionCfg i).endAddrOffset.toNat + 1
  disjoint : ∀ i < mbCfg.numSubRegions.toNat, ∀ j < mbCfg.numSubRegions.toNat, i ≠ j →
    RangeDisjoint (subregionCfgAt subregionCfg i).startAddrOffset.toNat
      (regionBytes (subregionCfgAt subregionCfg i))
      (subregionCfgAt subregionCfg j).startAddrOffset.toNat
      (regionBytes (subregionCfgAt subregionCfg j))
  descriptor : ∀ i < mbCfg.numSubRegions.toNat,
    RangeDisjoint 0 (descriptorBytes mbCfg) (subregionCfgAt subregionCfg i).startAddrOffset.toNat
      (regionBytes (subregionCfgAt subregionCfg i))
  inside : ∀ i < mbCfg.numSubRegions.toNat,
    (subregionCfgAt subregionCfg i).startAddrOffset.toNat +
      regionBytes (subregionCfgAt subregionCfg i) ≤ mbCfg.mbSize.toNat

/-- Once every sub-region covers its own bytes, the chain of neighbours gives the rest. -/
theorem exactRanges_of_covered (mbCfg : MbConfig) (subregionCfg : List MbSubRgnConfig)
    (h : Checked mbCfg subregionCfg)
    (hcov : ∀ i < mbCfg.numSubRegions.toNat,
      (subregionCfgAt subregionCfg i).startAddrOffset.toNat +
        regionBytes (subregionCfgAt subregionCfg i) ≤
          (subregionCfgAt subregionCfg i).endAddrOffset.toNat + 1) :
    ExactRanges mbCfg subregionCfg := by
  refine ⟨hcov, fun i hi j hj hij => ?_, fun i hi => ?_, fun i hi => ?_⟩
  · have hci := hcov i hi
    have hcj := hcov j hj
    rcases Nat.lt_or_gt_of_ne hij with hlt | hgt
    · have hchain := h.end_lt_start i j hlt hj
      exact Or.inl (by omega)
    · have hchain := h.end_lt_start j i hgt hi
      exact Or.inr (by omega)
  · have hstart := h.header_lt_start i hi
    exact Or.inl (by simp only [descriptorBytes, MbDesc.subRegionStartOffset]; omega)
  · have hend := h.end_lt_size i hi
    have hci := hcov i hi
    omega

/-- An accepted sub-region covers its exact bytes unless the guard itself wraps. -/
theorem covered_exact_iff (c : MbSubRgnConfig)
    (h : subRegionCovered (mbSubRegionHeaderSz.toUInt32 - 1) c = true) :
    c.startAddrOffset.toNat + regionBytes c ≤ c.endAddrOffset.toNat + 1 ↔
      itemBytes c + 55 < 4294967296 := by
  obtain ⟨-, -, -, hwrap, hend⟩ := (subRegionCovered_iff c).mp h
  have hs := c.startAddrOffset.toNat_lt
  have he := c.endAddrOffset.toNat_lt
  simp only [regionBytes, mbSubRegionHeaderSz]
  omega

/-- The exact ranges of an accepted configuration are those of a mailbox if and
only if no sub-region's item bytes wrap the size that the check compares. -/
theorem boundaryCheck_exactRanges_iff (mbCfg : MbConfig) (subregionCfg : List MbSubRgnConfig)
    (h : libMBBoundaryCheck mbCfg subregionCfg = true ∨
      ∃ mb m, ((libMBCreate mb (some mbCfg) (some subregionCfg)).run memHandler m).1 =
        mbESuccess) :
    ExactRanges mbCfg subregionCfg ↔
      ∀ i < mbCfg.numSubRegions.toNat,
        itemBytes (subregionCfgAt subregionCfg i) + 55 < 4294967296 := by
  have hcheck : libMBBoundaryCheck mbCfg subregionCfg = true :=
    h.elim id fun ⟨mb, m, hm⟩ => (libMBCreate_success mb mbCfg subregionCfg m hm).2
  have hc := (checked_iff mbCfg subregionCfg).mp hcheck
  constructor
  · intro hex i hi
    exact (covered_exact_iff _ (hc.covered i hi)).mp (hex.covered i hi)
  · intro hsize
    exact exactRanges_of_covered mbCfg subregionCfg hc fun i hi =>
      (covered_exact_iff _ (hc.covered i hi)).mpr (hsize i hi)

/-- One sub-region of `num` items of `size` bytes between the two offsets. -/
def oneSubRegion (start end' num size : UInt32) : List MbSubRgnConfig :=
  [{ (default : MbSubRgnConfig) with
      startAddrOffset := start
      endAddrOffset := end'
      itemMaxNum := num
      itemMaxSize := size }]

def oneRegionMailbox (size : UInt32) : MbConfig :=
  { name := Vector.replicate _ 0, mbSize := size, mbPrio := 0, numSubRegions := 1 }

theorem boundaryCheck_exactRanges_small :
    libMBBoundaryCheck (oneRegionMailbox 1024) (oneSubRegion 44 900 16 32) = true ∧
      ExactRanges (oneRegionMailbox 1024) (oneSubRegion 44 900 16 32) :=
  ⟨by decide, (boundaryCheck_exactRanges_iff _ _ (Or.inl (by decide))).mpr (by decide)⟩

/-- Two items of 2147483621 bytes are accepted in a sub-region of two bytes. -/
theorem boundaryCheck_wraps :
    libMBBoundaryCheck (oneRegionMailbox 46) (oneSubRegion 44 45 2 2147483621) = true ∧
      ¬ ExactRanges (oneRegionMailbox 46) (oneSubRegion 44 45 2 2147483621) :=
  ⟨by decide, fun h => absurd (h.covered 0 (by decide)) (by decide)⟩

end RtssMailbox
