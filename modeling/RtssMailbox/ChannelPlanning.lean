import RtssMailbox.ConfigurationBounds
import Mathlib.Data.List.Basic

/-!
`LibMB_ChanMapInit` lays the sub-regions out one after the other;
`LibMB_Boundary_Check` later judges the offsets. The planned offsets have a
closed form over unbounded numbers, from which both the planner's own test and
the check's comparisons are read.
-/
namespace RtssMailbox
open Effects ByteMemory

/-- The exact offset at which the planner's recurrence starts sub-region `i`. -/
def plannedStart (mbCfg : MbConfig) (subregionCfg : List MbSubRgnConfig) : Nat → Nat
  | 0 => 36 + 8 * mbCfg.numSubRegions.toNat
  | i + 1 => plannedStart mbCfg subregionCfg i + regionBytes (subregionCfgAt subregionCfg i)

def plannedEntry (mbCfg : MbConfig) (subregionCfg : List MbSubRgnConfig) (i : Nat)
    (c : MbSubRgnConfig) : MbSubRgnConfig :=
  { c with
    startAddrOffset := UInt32.ofNat (plannedStart mbCfg subregionCfg i)
    endAddrOffset := UInt32.ofNat (plannedStart mbCfg subregionCfg (i + 1) - 1) }

/-- The array after the first `k` turns of the planner's loop. -/
def plannedPrefix (mbCfg : MbConfig) (subregionCfg : List MbSubRgnConfig) (k : Nat) :
    List MbSubRgnConfig :=
  subregionCfg.mapIdx fun i c => if i < k then plannedEntry mbCfg subregionCfg i c else c

theorem plannedEntry_step (mbCfg : MbConfig) (subregionCfg : List MbSubRgnConfig) (i : Nat)
    (c : MbSubRgnConfig) (hc : subregionCfg[i]? = some c) (start : UInt32)
    (hstart : start = UInt32.ofNat (plannedStart mbCfg subregionCfg i)) :
    { c with
      startAddrOffset := start
      endAddrOffset :=
        start + (mbSubRegionHeaderSz.toUInt32 - 1) + c.itemMaxNum * c.itemMaxSize } =
      plannedEntry mbCfg subregionCfg i c := by
  have hat : subregionCfgAt subregionCfg i = c := by simp [subregionCfgAt, hc]
  subst hstart
  rw [plannedEntry]
  congr 1
  apply UInt32.toNat.inj
  simp only [UInt32.toNat_add, UInt32.toNat_mul, UInt32.toNat_ofNat', plannedStart, hat,
    regionBytes, itemBytes, mbSubRegionHeaderSz]
  have hheader : (Nat.toUInt32 56 - 1).toNat = 55 := rfl
  omega

theorem chanMapStep_planned (mbCfg : MbConfig) (subregionCfg : List MbSubRgnConfig) (k : Nat)
    (hk : k < subregionCfg.length) (hpos : 0 < mbCfg.numSubRegions.toNat)
    (hle : mbCfg.numSubRegions.toNat ≤ 253) :
    chanMapStep (mailboxHeaderSz mbCfg) (plannedPrefix mbCfg subregionCfg k) k =
      some (plannedPrefix mbCfg subregionCfg (k + 1)) := by
  have hget : (plannedPrefix mbCfg subregionCfg k)[k]? = some subregionCfg[k] := by
    simp [plannedPrefix, hk]
  have hset : (plannedPrefix mbCfg subregionCfg k).set k
      (plannedEntry mbCfg subregionCfg k subregionCfg[k]) =
        plannedPrefix mbCfg subregionCfg (k + 1) := by
    apply List.ext_getElem
    · simp [plannedPrefix]
    · intro j hj hj'
      simp only [plannedPrefix, List.getElem_set, List.getElem_mapIdx]
      grind
  have hc : subregionCfg[k]? = some subregionCfg[k] := List.getElem?_eq_getElem hk
  by_cases h0 : k = 0
  · have hstart : mailboxHeaderSz mbCfg + 4 =
        UInt32.ofNat (plannedStart mbCfg subregionCfg k) := by
      apply UInt32.toNat.inj
      rw [UInt32.toNat_add, mailboxHeaderSz_eq mbCfg hpos hle, h0, UInt32.toNat_ofNat']
      simp only [plannedStart, UInt32.toNat_ofNat]
      omega
    simp only [chanMapStep, if_pos h0, hget, Option.bind_eq_bind, Option.bind_some,
      plannedEntry_step mbCfg subregionCfg k _ hc _ hstart, hset]
  · have hbefore : (plannedPrefix mbCfg subregionCfg k)[k - 1]? =
        some (plannedEntry mbCfg subregionCfg (k - 1) subregionCfg[k - 1]) := by
      simp [plannedPrefix, show k - 1 < subregionCfg.length by omega, show k - 1 < k by omega]
    have hstart : (plannedEntry mbCfg subregionCfg (k - 1) subregionCfg[k - 1]).endAddrOffset + 1 =
        UInt32.ofNat (plannedStart mbCfg subregionCfg k) := by
      obtain ⟨i, rfl⟩ := Nat.exists_eq_succ_of_ne_zero h0
      apply UInt32.toNat.inj
      simp only [plannedEntry, Nat.succ_eq_add_one, Nat.add_sub_cancel, UInt32.toNat_add,
        UInt32.toNat_ofNat', plannedStart, regionBytes, mbSubRegionHeaderSz, UInt32.toNat_one]
      omega
    simp only [chanMapStep, if_neg h0, hbefore, hget, Option.bind_eq_bind, Option.bind_some,
      plannedEntry_step mbCfg subregionCfg k _ hc _ hstart, hset]

theorem chanMap_loop (mbCfg : MbConfig) (subregionCfg : List MbSubRgnConfig) (k : Nat)
    (hk : k ≤ subregionCfg.length) (hpos : 0 < mbCfg.numSubRegions.toNat)
    (hle : mbCfg.numSubRegions.toNat ≤ 253) :
    (List.range k).foldlM (chanMapStep (mailboxHeaderSz mbCfg)) subregionCfg =
      some (plannedPrefix mbCfg subregionCfg k) := by
  induction k with
  | zero =>
      simp only [List.range_zero, List.foldlM_nil, plannedPrefix, Nat.not_lt_zero, if_false]
      exact congrArg some (List.ext_getElem (by simp) (by simp))
  | succ k ih =>
      rw [List.range_succ, List.foldlM_append, ih (by omega)]
      simpa using chanMapStep_planned mbCfg subregionCfg k (by omega) hpos hle

/-- The array that a call with enough elements leaves behind. -/
def planned (mbCfg : MbConfig) (subregionCfg : List MbSubRgnConfig) : List MbSubRgnConfig :=
  subregionCfg.mapIdx (plannedEntry mbCfg subregionCfg)

/-- The end offset of the last planned sub-region, as a number. -/
def plannedEnd (mbCfg : MbConfig) (subregionCfg : List MbSubRgnConfig) : Nat :=
  plannedStart mbCfg subregionCfg mbCfg.numSubRegions.toNat - 1

theorem planned_at (mbCfg : MbConfig) (subregionCfg : List MbSubRgnConfig) (i : Nat)
    (hi : i < subregionCfg.length) :
    subregionCfgAt (planned mbCfg subregionCfg) i =
      plannedEntry mbCfg subregionCfg i (subregionCfgAt subregionCfg i) := by
  simp [subregionCfgAt, planned, hi]

/-- The planner never leaves the array of a mailbox with sub-regions, and
compares only the 32-bit end of the last one with the mailbox size. -/
theorem libMBChanMapInit_result (mbCfg : MbConfig) (subregionCfg : List MbSubRgnConfig)
    (hlen : subregionCfg.length = mbCfg.numSubRegions.toNat)
    (hpos : 0 < mbCfg.numSubRegions.toNat) (hle : mbCfg.numSubRegions.toNat ≤ 253) :
    libMBChanMapInit (some mbCfg) (some subregionCfg) =
      some (if mbCfg.mbSize.toNat < plannedEnd mbCfg subregionCfg % 4294967296
        then mbEInvalidCfg else mbESuccess, some (planned mbCfg subregionCfg)) := by
  have hfull : plannedPrefix mbCfg subregionCfg mbCfg.numSubRegions.toNat =
      planned mbCfg subregionCfg := by
    refine List.ext_getElem (by simp [plannedPrefix, planned]) fun i hi _ => ?_
    simp only [plannedPrefix, List.length_mapIdx] at hi
    simp [plannedPrefix, planned, show i < mbCfg.numSubRegions.toNat by omega]
  have hindex := toNat_sub_one mbCfg.numSubRegions hpos
  have hlast : (planned mbCfg subregionCfg)[mbCfg.numSubRegions.toNat - 1]? =
      some (plannedEntry mbCfg subregionCfg (mbCfg.numSubRegions.toNat - 1)
        (subregionCfgAt subregionCfg (mbCfg.numSubRegions.toNat - 1))) := by
    simp [planned, subregionCfgAt, show mbCfg.numSubRegions.toNat - 1 < subregionCfg.length by
      omega]
  have hguard : mbCfg.numSubRegions ≤ mbMaxSubRegionNum := UInt32.le_iff_toNat_le.mpr hle
  have hend : mbCfg.numSubRegions.toNat - 1 + 1 = mbCfg.numSubRegions.toNat := by omega
  simp only [libMBChanMapInit, if_pos hguard, Option.bind_eq_bind,
    chanMap_loop mbCfg subregionCfg _ (Nat.le_of_eq hlen.symm) hpos hle, hfull, Option.bind_some,
    hindex, hlast, UInt32.lt_iff_toNat_lt, plannedEntry, UInt32.toNat_ofNat', hend]
  rfl

/-- Without sub-regions the planner reads element `2 ^ 32 - 1` of an empty array. -/
theorem libMBChanMapInit_empty (mbCfg : MbConfig) (h : mbCfg.numSubRegions = 0) :
    libMBChanMapInit (some mbCfg) (some []) = none := by
  simp [libMBChanMapInit, h]

/-- The bytes that the check's 32-bit sum gives a sub-region. -/
def wrappedBytes (c : MbSubRgnConfig) : Nat := (itemBytes c + 55) % 4294967296 + 1

def wrappedStart (mbCfg : MbConfig) (subregionCfg : List MbSubRgnConfig) : Nat → Nat
  | 0 => 36 + 8 * mbCfg.numSubRegions.toNat
  | i + 1 => wrappedStart mbCfg subregionCfg i + wrappedBytes (subregionCfgAt subregionCfg i)

/-- The end of the last sub-region when every sub-region's size is taken modulo `2 ^ 32`. -/
def wrappedEnd (mbCfg : MbConfig) (subregionCfg : List MbSubRgnConfig) : Nat :=
  wrappedStart mbCfg subregionCfg mbCfg.numSubRegions.toNat - 1

theorem plannedStart_mod (mbCfg : MbConfig) (subregionCfg : List MbSubRgnConfig) (i : Nat) :
    plannedStart mbCfg subregionCfg i % 4294967296 =
      wrappedStart mbCfg subregionCfg i % 4294967296 := by
  induction i with
  | zero => rfl
  | succ i ih =>
      simp only [plannedStart, wrappedStart, regionBytes, mbSubRegionHeaderSz, wrappedBytes]
      omega

theorem wrappedStart_mono (mbCfg : MbConfig) (subregionCfg : List MbSubRgnConfig) (i j : Nat)
    (h : i ≤ j) : wrappedStart mbCfg subregionCfg i ≤ wrappedStart mbCfg subregionCfg j := by
  induction h with
  | refl => exact Nat.le_refl _
  | step _ ih => exact Nat.le_trans ih (Nat.le_add_right _ _)

theorem planned_offsets (mbCfg : MbConfig) (subregionCfg : List MbSubRgnConfig) (i : Nat)
    (hi : i < subregionCfg.length) :
    (subregionCfgAt (planned mbCfg subregionCfg) i).startAddrOffset.toNat =
      wrappedStart mbCfg subregionCfg i % 4294967296 ∧
    (subregionCfgAt (planned mbCfg subregionCfg) i).endAddrOffset.toNat =
      (wrappedStart mbCfg subregionCfg i +
        (itemBytes (subregionCfgAt subregionCfg i) + 55)) % 4294967296 := by
  have hmod := plannedStart_mod mbCfg subregionCfg i
  rw [planned_at mbCfg subregionCfg i hi]
  simp only [plannedEntry, UInt32.toNat_ofNat', plannedStart, regionBytes, mbSubRegionHeaderSz]
  omega

theorem planned_items (mbCfg : MbConfig) (subregionCfg : List MbSubRgnConfig) (i : Nat)
    (hi : i < subregionCfg.length) :
    (subregionCfgAt (planned mbCfg subregionCfg) i).itemMaxNum =
      (subregionCfgAt subregionCfg i).itemMaxNum ∧
    itemBytes (subregionCfgAt (planned mbCfg subregionCfg) i) =
      itemBytes (subregionCfgAt subregionCfg i) := by
  rw [planned_at mbCfg subregionCfg i hi]
  exact ⟨rfl, rfl⟩

/-- Neither the product nor the sum of the check's first loop loses the sub-region. -/
def SizesAdmitted (mbCfg : MbConfig) (subregionCfg : List MbSubRgnConfig) : Prop :=
  ∀ i < mbCfg.numSubRegions.toNat, itemBytes (subregionCfgAt subregionCfg i) < 4294967296 ∧
    (itemBytes (subregionCfgAt subregionCfg i) + 55) % 4294967296 ≠ 0

section Check
variable (mbCfg : MbConfig) (subregionCfg : List MbSubRgnConfig)
  (hlen : subregionCfg.length = mbCfg.numSubRegions.toNat)

include hlen in
/-- On planned offsets the check passes only where no offset has wrapped. -/
theorem planned_checked_starts (h : Checked mbCfg (planned mbCfg subregionCfg)) (i : Nat)
    (hi : i < mbCfg.numSubRegions.toNat) :
    (itemBytes (subregionCfgAt subregionCfg i) < 4294967296 ∧
      (itemBytes (subregionCfgAt subregionCfg i) + 55) % 4294967296 ≠ 0) ∧
    (subregionCfgAt (planned mbCfg subregionCfg) i).startAddrOffset.toNat =
      wrappedStart mbCfg subregionCfg i ∧
    (subregionCfgAt (planned mbCfg subregionCfg) i).endAddrOffset.toNat + 1 =
      wrappedStart mbCfg subregionCfg (i + 1) := by
  have hstart : (subregionCfgAt (planned mbCfg subregionCfg) i).startAddrOffset.toNat =
      wrappedStart mbCfg subregionCfg i := by
    induction i with
    | zero =>
        rw [(planned_offsets mbCfg subregionCfg 0 (by omega)).1]
        have hle := h.bounded
        simp only [wrappedStart]
        omega
    | succ i ih =>
        have hi' : i < subregionCfg.length := by omega
        have hbefore := ih (by omega)
        have hapart := h.apart i hi
        obtain ⟨-, -, -, hwrap, -⟩ := (subRegionCovered_iff _).mp (h.covered i (by omega))
        rw [(planned_items mbCfg subregionCfg i hi').2] at hwrap
        obtain ⟨-, hend⟩ := planned_offsets mbCfg subregionCfg i hi'
        obtain ⟨hnext, -⟩ := planned_offsets mbCfg subregionCfg (i + 1) (by omega)
        simp only [wrappedStart, wrappedBytes] at hnext ⊢
        omega
  have hi' : i < subregionCfg.length := by omega
  obtain ⟨-, -, hprod, hwrap, -⟩ := (subRegionCovered_iff _).mp (h.covered i hi)
  rw [(planned_items mbCfg subregionCfg i hi').2] at hprod hwrap
  obtain ⟨-, hend⟩ := planned_offsets mbCfg subregionCfg i hi'
  simp only [wrappedStart, wrappedBytes]
  omega

include hlen in
/-- The check accepts planned offsets if the sizes, as it sees them, end inside the mailbox. -/
theorem planned_checked (hpos : 0 < mbCfg.numSubRegions.toNat)
    (hle : mbCfg.numSubRegions.toNat ≤ 253)
    (hitems : ∀ i < mbCfg.numSubRegions.toNat,
      (subregionCfgAt subregionCfg i).itemMaxNum ≤ mbMaxItemNum)
    (hsizes : SizesAdmitted mbCfg subregionCfg)
    (hend : wrappedEnd mbCfg subregionCfg < mbCfg.mbSize.toNat) :
    Checked mbCfg (planned mbCfg subregionCfg) := by
  have hsize := mbCfg.mbSize.toNat_lt
  have hbound : ∀ i ≤ mbCfg.numSubRegions.toNat,
      wrappedStart mbCfg subregionCfg i ≤ mbCfg.mbSize.toNat := fun i hi => by
    have hmono := wrappedStart_mono mbCfg subregionCfg i _ hi
    unfold wrappedEnd at hend
    omega
  have hoffsets : ∀ i < mbCfg.numSubRegions.toNat,
      (subregionCfgAt (planned mbCfg subregionCfg) i).startAddrOffset.toNat =
        wrappedStart mbCfg subregionCfg i ∧
      (subregionCfgAt (planned mbCfg subregionCfg) i).endAddrOffset.toNat + 1 =
        wrappedStart mbCfg subregionCfg (i + 1) := fun i hi => by
    obtain ⟨hs, he⟩ := planned_offsets mbCfg subregionCfg i (by omega)
    have hb := hbound i (by omega)
    have hb' := hbound (i + 1) (by omega)
    have hprod := (hsizes i hi).1
    simp only [wrappedStart, wrappedBytes] at hb' ⊢
    omega
  refine ⟨hpos, hle, fun i hi => ?_, ?_, fun i hi => ?_, fun i hi => ?_, ?_⟩
  · obtain ⟨hs, he⟩ := hoffsets i hi
    obtain ⟨hnum, hbytes⟩ := planned_items mbCfg subregionCfg i (by omega)
    obtain ⟨hprod, hne⟩ := hsizes i hi
    have hb' := hbound (i + 1) (by omega)
    rw [subRegionCovered_iff, hnum, hbytes, UInt32.lt_iff_toNat_lt]
    simp only [wrappedStart, wrappedBytes] at he hb'
    refine ⟨hitems i hi, ?_, hprod, ?_, ?_⟩ <;> omega
  · rw [(hoffsets 0 hpos).1]
    simp only [wrappedStart]
    omega
  · rw [(hoffsets (i + 1) hi).1]
    have he := (hoffsets i (by omega)).2
    omega
  · rw [(hoffsets i hi).1]
    exact hbound i (by omega)
  · have he := (hoffsets (mbCfg.numSubRegions.toNat - 1) (by omega)).2
    rw [Nat.sub_add_cancel hpos] at he
    unfold wrappedEnd at hend
    omega

include hlen in
theorem planned_check_iff (hpos : 0 < mbCfg.numSubRegions.toNat)
    (hle : mbCfg.numSubRegions.toNat ≤ 253)
    (hitems : ∀ i < mbCfg.numSubRegions.toNat,
      (subregionCfgAt subregionCfg i).itemMaxNum ≤ mbMaxItemNum) :
    libMBBoundaryCheck mbCfg (planned mbCfg subregionCfg) = true ↔
      SizesAdmitted mbCfg subregionCfg ∧
        wrappedEnd mbCfg subregionCfg < mbCfg.mbSize.toNat := by
  rw [checked_iff]
  constructor
  · intro h
    refine ⟨fun i hi => (planned_checked_starts mbCfg subregionCfg hlen h i hi).1, ?_⟩
    have hlast := h.lastInside
    have he := (planned_checked_starts mbCfg subregionCfg hlen h
      (mbCfg.numSubRegions.toNat - 1) (by omega)).2.2
    rw [Nat.sub_add_cancel hpos] at he
    unfold wrappedEnd
    omega
  · rintro ⟨hsizes, hend⟩
    exact planned_checked mbCfg subregionCfg hlen hpos hle hitems hsizes hend

end Check

/-- The planner stays inside its array, and creation accepts the offsets that it reports good. -/
def PlannerAgrees (mbCfg : MbConfig) (subregionCfg : List MbSubRgnConfig) : Prop :=
  ∃ ret subregionCfg',
    libMBChanMapInit (some mbCfg) (some subregionCfg) = some (ret, some subregionCfg') ∧
    (ret = mbESuccess → ∀ mb m,
      ((libMBCreate mb (some mbCfg) (some subregionCfg')).run memHandler m).1 ≠ mbEInvalidCfg)

theorem libMBCreate_accepts_iff (mbCfg : MbConfig) (subregionCfg : List MbSubRgnConfig) :
    (∀ mb m, ((libMBCreate mb (some mbCfg) (some subregionCfg)).run memHandler m).1 ≠
      mbEInvalidCfg) ↔ libMBBoundaryCheck mbCfg subregionCfg = true := by
  constructor
  · intro h
    have hone := h 1 fun _ => 0
    rw [libMBCreate_result 1 mbCfg subregionCfg _ (by decide)] at hone
    by_contra hb
    exact hone (if_neg hb)
  · intro hb mb m
    by_cases hmb : mb = null
    · simp [libMBCreate, hmb, mbENullInput, mbEInvalidCfg]
    · rw [libMBCreate_result _ _ _ _ hmb, if_pos hb]
      decide

/-- Planner and validator agree exactly on the non-empty arrays that the
planner refuses or whose sizes end strictly inside the mailbox without losing
one to the 32-bit arithmetic. -/
theorem planner_agrees_iff (mbCfg : MbConfig) (subregionCfg : List MbSubRgnConfig)
    (hnum : mbCfg.numSubRegions ≤ mbMaxSubRegionNum)
    (hlen : subregionCfg.length = mbCfg.numSubRegions.toNat)
    (hitems : ∀ i < mbCfg.numSubRegions.toNat,
      (subregionCfgAt subregionCfg i).itemMaxNum ≤ mbMaxItemNum) :
    PlannerAgrees mbCfg subregionCfg ↔
      0 < mbCfg.numSubRegions.toNat ∧
      (mbCfg.mbSize.toNat < plannedEnd mbCfg subregionCfg % 4294967296 ∨
        SizesAdmitted mbCfg subregionCfg ∧
          wrappedEnd mbCfg subregionCfg < mbCfg.mbSize.toNat) := by
  have hle : mbCfg.numSubRegions.toNat ≤ 253 := UInt32.le_iff_toNat_le.mp hnum
  rcases Nat.eq_zero_or_pos mbCfg.numSubRegions.toNat with h0 | hpos
  · have hnone := libMBChanMapInit_empty mbCfg (UInt32.toNat.inj h0)
    have hnil : subregionCfg = [] := List.eq_nil_of_length_eq_zero (hlen.trans h0)
    simp [PlannerAgrees, hnil, hnone, h0]
  · rw [PlannerAgrees, libMBChanMapInit_result mbCfg subregionCfg hlen hpos hle]
    simp only [Option.some.injEq, Prod.mk.injEq, ← planned_check_iff mbCfg subregionCfg hlen hpos
      hle hitems, ← libMBCreate_accepts_iff]
    constructor
    · rintro ⟨ret, cfg, ⟨rfl, rfl⟩, hagree⟩
      refine ⟨hpos, ?_⟩
      by_cases hlt : mbCfg.mbSize.toNat < plannedEnd mbCfg subregionCfg % 4294967296
      · exact Or.inl hlt
      · exact Or.inr (hagree (if_neg hlt))
    · rintro ⟨-, hcase⟩
      refine ⟨_, _, ⟨rfl, rfl⟩, fun hret => ?_⟩
      rcases hcase with hlt | hok
      · rw [if_pos hlt] at hret
        exact absurd hret (by decide)
      · exact hok

theorem planner_agrees_small :
    PlannerAgrees (oneRegionMailbox 1024) (oneSubRegion 0 0 16 32) :=
  (planner_agrees_iff _ _ (by decide) (by decide) (by decide)).mpr
    ⟨by decide, Or.inr ⟨by unfold SizesAdmitted; decide, by decide⟩⟩

/-- A mailbox that ends at the end offset of its last sub-region is planned and then refused. -/
theorem planner_disagrees_at_end :
    ¬ PlannerAgrees (oneRegionMailbox 100) (oneSubRegion 0 0 1 1) := by
  rintro ⟨ret, cfg, hplan, hagree⟩
  rw [libMBChanMapInit_result _ _ (by decide) (by decide) (by decide)] at hplan
  simp only [Option.some.injEq, Prod.mk.injEq] at hplan
  obtain ⟨rfl, rfl⟩ := hplan
  have hcheck := (libMBCreate_accepts_iff _ _).mp (hagree (by decide))
  exact absurd hcheck (by decide)

end RtssMailbox
