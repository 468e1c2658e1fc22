import RtssMailbox.ConfigurationBounds
import RtssMailbox.RingQueue

/-!
What a created mailbox holds. The loop of `LibMB_Init_Mailbox` sets every
sub-region up in turn; because the sub-regions lie apart from one another and
from the descriptor, no later turn disturbs an earlier one.
-/
namespace RtssMailbox
open Effects ByteMemory CyclicBuffer Refinement

/-- The words of a sub-region that has just been set up. -/
structure Initialised (mb : Nat) (c : MbSubRgnConfig) (i : Nat) (m : Mem) : Prop where
  start : load32 m (mb + MbDesc.subRegionStartOffset i) = c.startAddrOffset
  num : load32 m (mb + c.startAddrOffset.toNat + MbSubRgnDesc.maxItemNum) = c.itemMaxNum
  size : load32 m (mb + c.startAddrOffset.toNat + MbSubRgnDesc.maxItemSize) = c.itemMaxSize
  inIndex : load32 m (mb + c.startAddrOffset.toNat + MbSubRgnDesc.itemInIndex) = 0
  outIndex : load32 m (mb + c.startAddrOffset.toNat + MbSubRgnDesc.itemOutIndex) = 0

/-- The bytes that setting a sub-region up may change. -/
def SetUpBytes (mb : Nat) (c : MbSubRgnConfig) (i p : Nat) : Prop :=
  (mb + MbDesc.subRegionStartOffset i ≤ p ∧ p < mb + MbDesc.subRegionStartOffset (i + 1)) ∨
  (mb + c.startAddrOffset.toNat ≤ p ∧
    p < mb + c.startAddrOffset.toNat + mbSubRegionHeaderSz)

theorem Initialised.of_agree {mb : Nat} {c : MbSubRgnConfig} {i : Nat} {m m' : Mem}
    (h : Initialised mb c i m) (hsame : ∀ p, SetUpBytes mb c i p → m' p = m p) :
    Initialised mb c i m' := by
  have hword : ∀ a, (∀ k < 4, SetUpBytes mb c i (a + k)) → load32 m' a = load32 m a :=
    fun a ha => load32_congr m' m a fun k hk => hsame _ (ha k hk)
  refine ⟨?_, ?_, ?_, ?_, ?_⟩
  · rw [hword _ fun k hk => Or.inl (by simp only [MbDesc.subRegionStartOffset]; omega), h.start]
  · rw [hword _ fun k hk => Or.inr (by
      simp only [MbSubRgnDesc.maxItemNum, mbSubRegionHeaderSz]; omega), h.num]
  · rw [hword _ fun k hk => Or.inr (by
      simp only [MbSubRgnDesc.maxItemSize, mbSubRegionHeaderSz]; omega), h.size]
  · rw [hword _ fun k hk => Or.inr (by
      simp only [MbSubRgnDesc.itemInIndex, mbSubRegionHeaderSz]; omega), h.inIndex]
  · rw [hword _ fun k hk => Or.inr (by
      simp only [MbSubRgnDesc.itemOutIndex, mbSubRegionHeaderSz]; omega), h.outIndex]

theorem initHeader_outside (base : Nat) (c : MbSubRgnConfig) (m : Mem) (p : Nat)
    (hp : p < base ∨ base + mbSubRegionHeaderSz ≤ p) :
    ((initHeader base c).run memHandler m).2 p = m p := by
  have hname : ∀ m, storeBytes m (base + 0) c.name.toList p = m p := fun m =>
    storeBytes_outside _ _ _ _ (by
      rw [Vector.length_toList]
      simp only [mbNameSz, mbSubRegionHeaderSz] at *
      omega)
  have hword : ∀ (m : Mem) (i : Nat) (v : UInt32), i + 4 ≤ mbSubRegionHeaderSz →
      store32 m (base + i) v p = m p := fun m i v hi =>
    store32_outside _ _ _ _ (by omega)
  simp only [initHeader, Prog.run_bind, run_setReg, run_putBytes]
  simp (disch := decide) only [hword]
  exact hname m

theorem initHeader_words (base : Nat) (c : MbSubRgnConfig) (m : Mem) :
    let m' := ((initHeader base c).run memHandler m).2
    load32 m' (base + MbSubRgnDesc.maxItemNum) = c.itemMaxNum ∧
      load32 m' (base + MbSubRgnDesc.maxItemSize) = c.itemMaxSize ∧
      load32 m' (base + MbSubRgnDesc.itemInIndex) = 0 ∧
      load32 m' (base + MbSubRgnDesc.itemOutIndex) = 0 := by
  have hapart : ∀ (m : Mem) (i j : Nat) (v : UInt32), i + 4 ≤ j ∨ j + 4 ≤ i →
      load32 (store32 m (base + j) v) (base + i) = load32 m (base + i) := fun m i j v h =>
    load32_store32_disjoint _ _ _ _ (by unfold RangeDisjoint; omega)
  simp only [initHeader, Prog.run_bind, run_setReg, run_putBytes, MbSubRgnDesc.maxItemNum,
    MbSubRgnDesc.maxItemSize, MbSubRgnDesc.itemInIndex, MbSubRgnDesc.itemOutIndex,
    MbSubRgnDesc.sender, MbSubRgnDesc.receiver, MbSubRgnDesc.prot, MbSubRgnDesc.sig,
    MbSubRgnDesc.mode, MbSubRgnDesc.prio]
  simp (disch := omega) only [hapart, load32_store32_same, and_self]

section SetUp
variable (mb : Nat) (c : MbSubRgnConfig) (i : Nat) (m : Mem) (hmb : mb ≠ null)

/-- The table entry as the loop body leaves it before it sets the header up. -/
def tableStored : Mem :=
  store32 (store32 m (mb + MbDesc.subRegionStartOffset i) c.startAddrOffset)
    (mb + MbDesc.subRegionEndOffset i) c.endAddrOffset

theorem tableStored_start :
    load32 (tableStored mb c i m) (mb + MbDesc.subRegionStartOffset i) = c.startAddrOffset := by
  rw [tableStored, load32_store32_disjoint _ _ _ _
    (Or.inl (by simp only [MbDesc.subRegionStartOffset, MbDesc.subRegionEndOffset]; omega)),
    load32_store32_same]

include hmb in
theorem initSubRegion_run :
    ((initSubRegion mb c i).run memHandler m).2 =
      ((initHeader (mb + c.startAddrOffset.toNat) c).run memHandler (tableStored mb c i m)).2 := by
  have hbase : mb + c.startAddrOffset.toNat ≠ null := by simp only [null] at *; omega
  have hstart := tableStored_start mb c i m
  simp only [tableStored] at hstart ⊢
  simp only [initSubRegion, Prog.run_bind, run_setReg, run_getReg, hstart, hbase, ne_eq,
    not_false_eq_true, if_true, Prog.pure_eq, Prog.run_ret]

include hmb in
theorem initSubRegion_outside (p : Nat) (hp : ¬ SetUpBytes mb c i p) :
    ((initSubRegion mb c i).run memHandler m).2 p = m p := by
  simp only [SetUpBytes, not_or, MbDesc.subRegionStartOffset] at hp
  rw [initSubRegion_run mb c i m hmb, initHeader_outside _ _ _ _ (by omega), tableStored,
    store32_outside _ _ _ _ (by simp only [MbDesc.subRegionEndOffset]; omega),
    store32_outside _ _ _ _ (by simp only [MbDesc.subRegionStartOffset]; omega)]

include hmb in
theorem initSubRegion_initialised
    (hbehind : MbDesc.subRegionStartOffset (i + 1) ≤ c.startAddrOffset.toNat) :
    Initialised mb c i ((initSubRegion mb c i).run memHandler m).2 := by
  obtain ⟨hnum, hsize, hin, hout⟩ :=
    initHeader_words (mb + c.startAddrOffset.toNat) c (tableStored mb c i m)
  rw [initSubRegion_run mb c i m hmb]
  refine ⟨?_, hnum, hsize, hin, hout⟩
  refine (load32_congr _ _ _ fun k hk => initHeader_outside _ _ _ _ (Or.inl ?_)).trans
    (tableStored_start mb c i m)
  simp only [MbDesc.subRegionStartOffset] at *
  omega

end SetUp

section Loop
variable (mb n : Nat) (subregionCfg : List MbSubRgnConfig) (hmb : mb ≠ null)
  (hbehind : ∀ i < n, MbDesc.subRegionStartOffset n ≤
    (subregionCfgAt subregionCfg i).startAddrOffset.toNat)
  (hapart : ∀ i < n, ∀ j < n, i ≠ j →
    RangeDisjoint (subregionCfgAt subregionCfg i).startAddrOffset.toNat mbSubRegionHeaderSz
      (subregionCfgAt subregionCfg j).startAddrOffset.toNat mbSubRegionHeaderSz)

include hbehind hapart in
theorem setUpBytes_apart (i j : Nat) (hi : i < n) (hj : j < n) (hij : i ≠ j) (p : Nat)
    (hp : SetUpBytes mb (subregionCfgAt subregionCfg i) i p) :
    ¬ SetUpBytes mb (subregionCfgAt subregionCfg j) j p := by
  have hbi := hbehind i hi
  have hbj := hbehind j hj
  have hd := hapart i hi j hj hij
  simp only [SetUpBytes, RangeDisjoint, MbDesc.subRegionStartOffset] at *
  omega

include hmb hbehind hapart in
/-- From turn `i` on the loop sets up the remaining sub-regions and nothing else. -/
theorem initSubRegions_spec (fuel i : Nat) (m : Mem) (hfuel : n < fuel + i) (hi : i ≤ n)
    (hnum : (load32 m (mb + MbDesc.numOfSubRegion)).toNat = n) :
    let m' := ((initSubRegions mb subregionCfg fuel i).run memHandler m).2
    (∀ j, i ≤ j → j < n → Initialised mb (subregionCfgAt subregionCfg j) j m') ∧
      ∀ p, (∀ j, i ≤ j → j < n → ¬ SetUpBytes mb (subregionCfgAt subregionCfg j) j p) →
        m' p = m p := by
  induction fuel generalizing i m with
  | zero => omega
  | succ fuel ih =>
      simp only [initSubRegions, Prog.run_bind, run_getReg, Prog.run_ite, hnum]
      by_cases hlt : i < n
      · rw [if_pos hlt, initSubRegion_result _ _ _ _ hmb, if_pos rfl]
        have hkeep : ∀ p, ¬ SetUpBytes mb (subregionCfgAt subregionCfg i) i p →
            ((initSubRegion mb (subregionCfgAt subregionCfg i) i).run memHandler m).2 p = m p :=
          initSubRegion_outside mb _ i m hmb
        have hnum' : (load32 ((initSubRegion mb (subregionCfgAt subregionCfg i) i).run
            memHandler m).2 (mb + MbDesc.numOfSubRegion)).toNat = n := by
          rw [← hnum]
          refine congrArg _ (load32_congr _ _ _ fun k hk => hkeep _ ?_)
          have hb := hbehind i hlt
          simp only [SetUpBytes, MbDesc.subRegionStartOffset, MbDesc.numOfSubRegion] at *
          omega
        obtain ⟨hinit, hout⟩ := ih (i + 1) _ (by omega) (by omega) hnum'
        refine ⟨fun j hij hj => ?_, fun p hp => ?_⟩
        · by_cases heq : j = i
          · subst heq
            have hb := hbehind j hj
            refine (initSubRegion_initialised mb _ j m hmb ?_).of_agree fun p hp =>
              hout p fun k hk hkn =>
                setUpBytes_apart mb n subregionCfg hbehind hapart j k hj hkn (by omega) p hp
            simp only [MbDesc.subRegionStartOffset] at *
            omega
          · exact hinit j (by omega) hj
        · rw [hout p fun j hj hjn => hp j (by omega) hjn]
          exact hkeep p (hp i (Nat.le_refl _) hlt)
      · rw [if_neg hlt]
        exact ⟨fun j hij hj => by omega, fun p _ => rfl⟩

end Loop

theorem libMBInitMailbox_spec (mb : Nat) (mbCfg : MbConfig) (subregionCfg : List MbSubRgnConfig)
    (m : Mem) (hmb : mb ≠ null)
    (hbehind : ∀ i < mbCfg.numSubRegions.toNat,
      MbDesc.subRegionStartOffset mbCfg.numSubRegions.toNat ≤
        (subregionCfgAt subregionCfg i).startAddrOffset.toNat)
    (hapart : ∀ i < mbCfg.numSubRegions.toNat, ∀ j < mbCfg.numSubRegions.toNat, i ≠ j →
      RangeDisjoint (subregionCfgAt subregionCfg i).startAddrOffset.toNat mbSubRegionHeaderSz
        (subregionCfgAt subregionCfg j).startAddrOffset.toNat mbSubRegionHeaderSz) :
    let m' := ((libMBInitMailbox mb mbCfg subregionCfg).run memHandler m).2
    load32 m' (mb + MbDesc.numOfSubRegion) = mbCfg.numSubRegions ∧
      ∀ i < mbCfg.numSubRegions.toNat, Initialised mb (subregionCfgAt subregionCfg i) i m' := by
  have hn := mbCfg.numSubRegions.toNat_lt
  have hword : ∀ (m : Mem) (i j : Nat) (v : UInt32), i + 4 ≤ j ∨ j + 4 ≤ i →
      load32 (store32 m (mb + j) v) (mb + i) = load32 m (mb + i) := fun m i j v h =>
    load32_store32_disjoint _ _ _ _ (by unfold RangeDisjoint; omega)
  simp only [libMBInitMailbox, ne_eq, hmb, not_false_eq_true, if_true, Prog.run_bind,
    run_putBytes, run_setReg]
  generalize hstart : store32 (store32 (store32 (storeBytes m (mb + MbDesc.name)
    mbCfg.name.toList) (mb + MbDesc.numOfSubRegion) mbCfg.numSubRegions)
    (mb + MbDesc.mbSize) mbCfg.mbSize) (mb + MbDesc.mbPrio) mbCfg.mbPrio = m0
  have hnum : load32 m0 (mb + MbDesc.numOfSubRegion) = mbCfg.numSubRegions := by
    rw [← hstart, hword _ _ _ _ (by decide), hword _ _ _ _ (by decide), load32_store32_same]
  obtain ⟨hall, hout⟩ := initSubRegions_spec mb _ subregionCfg hmb hbehind hapart (2 ^ 32) 0 m0
    (by omega) (Nat.zero_le _) (congrArg _ hnum)
  refine ⟨?_, fun i hi => hall i (Nat.zero_le _) hi⟩
  refine (load32_congr _ _ _ fun k hk => hout _ fun j _ hj => ?_).trans hnum
  have hb := hbehind j hj
  simp only [SetUpBytes, MbDesc.subRegionStartOffset, MbDesc.numOfSubRegion] at *
  omega

/-- The memory of a created mailbox: its descriptor and every sub-region. -/
structure Created (mb : Nat) (mbCfg : MbConfig) (subregionCfg : List MbSubRgnConfig)
    (m : Mem) : Prop where
  magic : load32 m (mb + MbDesc.magic) = mbMagicNumber
  num : load32 m (mb + MbDesc.numOfSubRegion) = mbCfg.numSubRegions
  subRegions : ∀ i < mbCfg.numSubRegions.toNat,
    Initialised mb (subregionCfgAt subregionCfg i) i m

theorem libMBCreate_created (mb : Nat) (mbCfg : MbConfig) (subregionCfg : List MbSubRgnConfig)
    (m : Mem) (hmb : mb ≠ null) (hcheck : libMBBoundaryCheck mbCfg subregionCfg = true)
    (hapart : ∀ i < mbCfg.numSubRegions.toNat, ∀ j < mbCfg.numSubRegions.toNat, i ≠ j →
      RangeDisjoint (subregionCfgAt subregionCfg i).startAddrOffset.toNat mbSubRegionHeaderSz
        (subregionCfgAt subregionCfg j).startAddrOffset.toNat mbSubRegionHeaderSz) :
    Created mb mbCfg subregionCfg
      ((libMBCreate mb (some mbCfg) (some subregionCfg)).run memHandler m).2 := by
  have hc := (checked_iff mbCfg subregionCfg).mp hcheck
  have hbehind : ∀ i < mbCfg.numSubRegions.toNat,
      MbDesc.subRegionStartOffset mbCfg.numSubRegions.toNat ≤
        (subregionCfgAt subregionCfg i).startAddrOffset.toNat := fun i hi =>
    Nat.le_of_lt (hc.header_lt_start i hi)
  have hret := libMBInitMailbox_result mb mbCfg subregionCfg m hmb
  obtain ⟨hnum, hsub⟩ := libMBInitMailbox_spec mb mbCfg subregionCfg m hmb hbehind hapart
  simp only [libMBCreate, ne_eq, hmb, not_false_eq_true, if_true, hcheck, Prog.run_bind, hret,
    run_setReg, Prog.pure_eq, Prog.run_ret]
  refine ⟨load32_store32_same _ _ _, ?_, fun i hi => (hsub i hi).of_agree fun p hp => ?_⟩
  · rw [load32_store32_disjoint _ _ _ _ (Or.inr (by
      simp only [MbDesc.magic, MbDesc.numOfSubRegion]; omega)), hnum]
  · have hb := hbehind i hi
    apply store32_outside
    simp only [SetUpBytes, MbDesc.subRegionStartOffset, MbDesc.magic] at *
    omega

/-- What a freshly created sub-region owes its users. -/
structure UsableEmptyRing (mb : Nat) (index : UInt32) (c : MbSubRgnConfig) (m : Mem) : Prop where
  sane : ((libMBMailboxSanityCheck (mb + c.startAddrOffset.toNat)).run memHandler m).1 = true
  chanInfo : ∀ chaninfo,
    ((libMBGetChanInfo mb index (some chaninfo)).run memHandler m).1.1 = mbESuccess
  valid : ((libMBGetValidItemNum mb index).run memHandler m).1 = 0
  free : ((libMBGetFreeItemNum mb index).run memHandler m).1 = c.itemMaxNum.toNat - 1
  write : ∀ source (itemNum : UInt32),
    ((libMBWrite mb (some source) itemNum index).run memHandler m).1 = itemNum.toNat →
      ((libMBGetValidItemNum mb index).run memHandler
        ((libMBWrite mb (some source) itemNum index).run memHandler m).2).1 = itemNum.toNat

namespace Initialised
variable {mb : Nat} {c : MbSubRgnConfig} {i : Nat} {m : Mem}

theorem sane_iff (h : Initialised mb c i m) (hmb : mb ≠ null) :
    sane m (mb + c.startAddrOffset.toNat) = true ↔
      0 < c.itemMaxNum ∧ c.itemMaxNum ≤ mbMaxItemNum ∧ c.itemMaxSize ≤ mbMaxSize := by
  have hbase : mb + c.startAddrOffset.toNat ≠ null := by simp only [null] at *; omega
  simp only [sane, h.num, h.size, h.inIndex, h.outIndex]
  simp [hbase]
  grind

theorem counters (h : Initialised mb c i m) :
    validItem m (mb + c.startAddrOffset.toNat) = 0 ∧
      freeItem m (mb + c.startAddrOffset.toNat) = c.itemMaxNum - 1 := by
  simp [validItem, freeItem, h.num, h.inIndex, h.outIndex]

/-- On items without bytes the copy routine returns before it moves the index. -/
theorem write_without_bytes (h : Initialised mb c i m) (hsize : c.itemMaxSize = 0)
    (source : Mem) (itemNum : UInt32) :
    (libMBWriteItem (mb + c.startAddrOffset.toNat) source itemNum).run memHandler m =
      ((), m) := by
  simp [libMBWriteItem, h.size, hsize]

end Initialised

section Usable
variable (mb : Nat) (mbCfg : MbConfig) (subregionCfg : List MbSubRgnConfig) (m : Mem)
  (hmb : mb ≠ null) (hcreated : Created mb mbCfg subregionCfg m) (index : UInt32)
  (hindex : index.toNat < mbCfg.numSubRegions.toNat) (c : MbSubRgnConfig)
  (hc : c = subregionCfgAt subregionCfg index.toNat)

include hcreated hindex hc in
theorem created_subRegionAt : subRegionAt mb index m =
    if sane m (mb + c.startAddrOffset.toNat) then .ok (mb + c.startAddrOffset.toNat)
    else .error mbECorruptMailbox := by
  have hi := hcreated.subRegions _ hindex
  rw [← hc] at hi
  have hlt : index < load32 m (mb + MbDesc.numOfSubRegion) := by
    rw [hcreated.num]
    exact UInt32.lt_iff_toNat_lt.mpr hindex
  simp only [subRegionAt, if_pos hcreated.magic, if_pos hlt, hi.start]

include hmb hcreated hindex hc in
/-- A write on a fresh sub-region with bytes in its items is counted. -/
theorem created_write (hpos : 0 < c.itemMaxNum.toNat)
    (hu : c.itemMaxNum ≤ mbMaxItemNum ∧ c.itemMaxSize ≤ mbMaxSize)
    (hbytes : itemBytes c < 4294967296)
    (hbehind : MbDesc.subRegionEndOffset index.toNat ≤ c.startAddrOffset.toNat)
    (hsize : c.itemMaxSize ≠ 0) (source : Mem) (itemNum : UInt32)
    (hret : ((libMBWrite mb (some source) itemNum index).run memHandler m).1 = itemNum.toNat) :
    ((libMBGetValidItemNum mb index).run memHandler
      ((libMBWrite mb (some source) itemNum index).run memHandler m).2).1 = itemNum.toNat := by
  have hi := hcreated.subRegions _ hindex
  rw [← hc] at hi
  have hsizePos : 0 < c.itemMaxSize.toNat :=
    Nat.pos_of_ne_zero fun h0 => hsize (UInt32.toNat.inj h0)
  let ch : Channel := ⟨mb, index, mb + c.startAddrOffset.toNat, c.itemMaxNum, c.itemMaxSize, hmb,
    Nat.add_le_add_left hbehind mb, hpos, hsizePos, hbytes⟩
  have hin : ch.inIndex m = 0 := congrArg UInt32.toNat hi.inIndex
  have hout : ch.outIndex m = 0 := congrArg UInt32.toNat hi.outIndex
  have hcons : ch.Consistent m := by
    refine ⟨⟨hcreated.magic, ?_, ?_, hi.num, hi.size⟩, ?_, ?_⟩
    · rw [hcreated.num]
      exact UInt32.lt_iff_toNat_lt.mpr hindex
    · rw [hi.start]
    · rw [hin]
      exact hpos
    · rw [hout]
      exact hpos
  have hrep : Represents ch m .empty := ⟨hcons, by
    rw [Channel.items, hin, hout, queue_self]
    rfl⟩
  obtain ⟨hans, hnext⟩ := hrep.run_write hu source itemNum
  have hcount := (hnext.run_counter hu).2
  simp only [RingCall.run, RingCall.prog, Prog.run_bind, Prog.pure_eq, Prog.run_ret] at hans hcount
  have hvalue := congrArg (fun x => x.1.1) hcount
  simp only at hvalue
  refine hvalue.trans ?_
  rw [RingCall.spec] at hans ⊢
  cases hoffer : (BoundedQueue.empty : BoundedQueue (List UInt8) (ch.num.toNat - 1)).offer
      (bufferItems ch.size.toNat source itemNum.toNat) with
  | none =>
      rw [hoffer] at hans
      have hfail := (congrArg Prod.fst hans).symm.trans hret
      simp only [mbENoEnoughBuf] at hfail
      omega
  | some q =>
      rw [BoundedQueue.offer] at hoffer
      split at hoffer
      · cases hoffer
        simp [BoundedQueue.empty]
      · cases hoffer

include hmb hcreated hindex hc in
theorem usable_of_admitted (hpos : 0 < c.itemMaxNum) (hle : c.itemMaxNum ≤ mbMaxItemNum)
    (hsize : c.itemMaxSize ≤ mbMaxSize) (hbytes : itemBytes c < 4294967296)
    (hbehind : MbDesc.subRegionEndOffset index.toNat ≤ c.startAddrOffset.toNat)
    (hone : c.itemMaxSize = 0 → c.itemMaxNum = 1) :
    UsableEmptyRing mb index c m := by
  have hi := hcreated.subRegions _ hindex
  rw [← hc] at hi
  have hsane : sane m (mb + c.startAddrOffset.toNat) = true :=
    (hi.sane_iff hmb).mpr ⟨hpos, hle, hsize⟩
  have hat := created_subRegionAt mb mbCfg subregionCfg m hcreated index hindex c hc
  rw [if_pos hsane] at hat
  obtain ⟨hvalid, hfree⟩ := hi.counters
  have hposNat : 0 < c.itemMaxNum.toNat := UInt32.lt_iff_toNat_lt.mp hpos
  have hleNat : c.itemMaxNum.toNat ≤ 1048576 := UInt32.le_iff_toNat_le.mp hle
  have hfreeNat := toNat_sub_one c.itemMaxNum hposNat
  have hvalidRun : (libMBGetValidItemNum mb index).run memHandler m = (0, m) := by
    simp only [libMBGetValidItemNum, ne_eq, hmb, not_false_eq_true, if_true, run_onSubRegion, hat,
      Prog.run_bind, run_libMBValidItem, hvalid, Prog.pure_eq, Prog.run_ret]
    rfl
  refine ⟨?_, fun chaninfo => ?_, ?_, ?_, fun source itemNum hret => ?_⟩
  · rw [run_libMBMailboxSanityCheck, hsane]
  · simp only [libMBGetChanInfo, ne_eq, hmb, not_false_eq_true, if_true, run_onSubRegion, hat,
      Prog.run_bind, Prog.pure_eq, Prog.run_ret]
  · rw [hvalidRun]
  · simp only [libMBGetFreeItemNum, ne_eq, hmb, not_false_eq_true, if_true, run_onSubRegion, hat,
      Prog.run_bind, run_libMBFreeItem, hfree, Prog.pure_eq, Prog.run_ret, hfreeNat]
    rw [int32_of_lt _ (by omega)]
    omega
  · by_cases hzero : c.itemMaxSize = 0
    · simp only [libMBWrite, ne_eq, hmb, not_false_eq_true, if_true, run_onSubRegion, hat,
        Prog.run_bind, run_libMBFreeItem, hfree, hone hzero, Prog.run_ite, Prog.pure_eq,
        Prog.run_ret, hi.write_without_bytes hzero] at hret ⊢
      by_cases hk : itemNum ≤ 1 - 1
      · have hk0 : itemNum.toNat = 0 := Nat.eq_zero_of_le_zero (UInt32.le_iff_toNat_le.mp hk)
        rw [if_pos hk, hvalidRun, hk0]
        rfl
      · rw [if_neg hk] at hret
        simp only [mbENoEnoughBuf] at hret
        omega
    · exact created_write mb mbCfg subregionCfg m hmb hcreated index hindex c hc hposNat
        ⟨hle, hsize⟩ hbytes hbehind hzero source itemNum hret

include hmb hcreated hindex hc in
/-- Where the copy routine cannot fail its guard on sizes, it needs items with bytes or no items. -/
theorem admitted_of_usable (h : UsableEmptyRing mb index c m) :
    0 < c.itemMaxNum ∧ c.itemMaxSize ≤ mbMaxSize ∧
      (c.itemMaxSize = 0 → c.itemMaxNum = 1) := by
  have hi := hcreated.subRegions _ hindex
  rw [← hc] at hi
  have hsane : sane m (mb + c.startAddrOffset.toNat) = true := by
    have hrun := h.sane
    rwa [run_libMBMailboxSanityCheck] at hrun
  obtain ⟨hpos, -, hsize⟩ := (hi.sane_iff hmb).mp hsane
  refine ⟨hpos, hsize, fun hzero => ?_⟩
  by_contra hone
  have hat := created_subRegionAt mb mbCfg subregionCfg m hcreated index hindex c hc
  rw [if_pos hsane] at hat
  obtain ⟨hvalid, hfree⟩ := hi.counters
  have hroom : (1 : UInt32) ≤ c.itemMaxNum - 1 := by
    have hposNat : 0 < c.itemMaxNum.toNat := UInt32.lt_iff_toNat_lt.mp hpos
    have honeNat : c.itemMaxNum.toNat ≠ 1 := fun h1 => hone (UInt32.toNat.inj h1)
    rw [UInt32.le_iff_toNat_le, toNat_sub_one _ hposNat, UInt32.toNat_one]
    omega
  have hwrite : (libMBWrite mb (some fun _ => 0) 1 index).run memHandler m = (1, m) := by
    simp only [libMBWrite, ne_eq, hmb, not_false_eq_true, if_true, run_onSubRegion, hat,
      Prog.run_bind, run_libMBFreeItem, hfree, Prog.pure_eq, Prog.run_ret,
      hi.write_without_bytes hzero, if_pos hroom]
    rfl
  have hcount := h.write (fun _ => 0) 1 (by rw [hwrite]; rfl)
  rw [hwrite, h.valid] at hcount
  exact absurd hcount (by decide)

end Usable

/-- After a successful creation with sub-regions that do not overlap, all of
them are usable if and only if each has at least one item, an item size that the
sanity check admits, and bytes in its items unless the one item is the reserved
one. -/
theorem create_usable_iff (mb : Nat) (mbCfg : MbConfig) (subregionCfg : List MbSubRgnConfig)
    (m : Mem)
    (hcreate : ((libMBCreate mb (some mbCfg) (some subregionCfg)).run memHandler m).1 =
      mbESuccess)
    (hapart : ∀ i < mbCfg.numSubRegions.toNat, ∀ j < mbCfg.numSubRegions.toNat, i ≠ j →
      RangeDisjoint (subregionCfgAt subregionCfg i).startAddrOffset.toNat
        (regionBytes (subregionCfgAt subregionCfg i))
        (subregionCfgAt subregionCfg j).startAddrOffset.toNat
        (regionBytes (subregionCfgAt subregionCfg j))) :
    (∀ index : UInt32, index < mbCfg.numSubRegions →
      UsableEmptyRing mb index (subregionCfgAt subregionCfg index.toNat)
        ((libMBCreate mb (some mbCfg) (some subregionCfg)).run memHandler m).2) ↔
      ∀ i < mbCfg.numSubRegions.toNat,
        0 < (subregionCfgAt subregionCfg i).itemMaxNum ∧
          (subregionCfgAt subregionCfg i).itemMaxSize ≤ mbMaxSize ∧
          ((subregionCfgAt subregionCfg i).itemMaxSize = 0 →
            (subregionCfgAt subregionCfg i).itemMaxNum = 1) := by
  obtain ⟨hmb, hcheck⟩ := libMBCreate_success mb mbCfg subregionCfg m hcreate
  have hc := (checked_iff mbCfg subregionCfg).mp hcheck
  have hheaders : ∀ i < mbCfg.numSubRegions.toNat, ∀ j < mbCfg.numSubRegions.toNat, i ≠ j →
      RangeDisjoint (subregionCfgAt subregionCfg i).startAddrOffset.toNat mbSubRegionHeaderSz
        (subregionCfgAt subregionCfg j).startAddrOffset.toNat mbSubRegionHeaderSz :=
    fun i hi j hj hij => by
      have hd := hapart i hi j hj hij
      simp only [RangeDisjoint, regionBytes] at *
      omega
  have hcreated := libMBCreate_created mb mbCfg subregionCfg m hmb hcheck hheaders
  constructor
  · intro h i hi
    have hn := mbCfg.numSubRegions.toNat_lt
    have hnat : (UInt32.ofNat i).toNat = i := by
      rw [UInt32.toNat_ofNat']
      exact Nat.mod_eq_of_lt (by omega)
    have hring := h (UInt32.ofNat i) (UInt32.lt_iff_toNat_lt.mpr (by rw [hnat]; exact hi))
    exact admitted_of_usable mb mbCfg subregionCfg _ hmb hcreated (UInt32.ofNat i)
      (by rw [hnat]; exact hi) _ (by rw [hnat]) (by rwa [hnat] at hring)
  · intro h index hindex
    have hi := UInt32.lt_iff_toNat_lt.mp hindex
    obtain ⟨hle, -, hbytes, -⟩ := (subRegionCovered_iff _).mp (hc.covered _ hi)
    obtain ⟨hpos, hsize, hone⟩ := h _ hi
    have hheader := hc.header_lt_start _ hi
    exact usable_of_admitted mb mbCfg subregionCfg _ hmb hcreated index hi _ rfl hpos hle hsize
      hbytes (by simp only [MbDesc.subRegionEndOffset]; omega) hone

theorem create_usable_small :
    UsableEmptyRing 4096 0 (subregionCfgAt (oneSubRegion 44 900 16 32) 0)
      ((libMBCreate 4096 (some (oneRegionMailbox 1024))
        (some (oneSubRegion 44 900 16 32))).run memHandler fun _ => 0).2 :=
  (create_usable_iff 4096 (oneRegionMailbox 1024) (oneSubRegion 44 900 16 32) (fun _ => 0)
    (by rw [libMBCreate_result _ _ _ _ (by decide)]; decide)
    (fun i hi j hj hij => by
      simp only [oneRegionMailbox, UInt32.toNat_one] at hi hj
      omega)).mpr (by decide) 0 (by decide)

/-- Creation accepts four items without bytes, of which no write is ever counted. -/
theorem create_unusable_without_bytes :
    ((libMBCreate 4096 (some (oneRegionMailbox 1024)) (some (oneSubRegion 44 900 4 0))).run
      memHandler fun _ => 0).1 = mbESuccess ∧
    ¬ UsableEmptyRing 4096 0 (subregionCfgAt (oneSubRegion 44 900 4 0) 0)
      ((libMBCreate 4096 (some (oneRegionMailbox 1024)) (some (oneSubRegion 44 900 4 0))).run
        memHandler fun _ => 0).2 := by
  have hcreated := libMBCreate_created 4096 (oneRegionMailbox 1024) (oneSubRegion 44 900 4 0)
    (fun _ => 0) (by decide) (by decide) fun i hi j hj hij => by
      simp only [oneRegionMailbox, UInt32.toNat_one] at hi hj
      omega
  refine ⟨by rw [libMBCreate_result _ _ _ _ (by decide)]; decide, fun h => ?_⟩
  have hadmitted := admitted_of_usable _ _ _ _ (by decide) hcreated 0 (by decide) _ rfl h
  exact absurd (hadmitted.2.2 rfl) (by decide)

end RtssMailbox
