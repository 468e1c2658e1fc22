import RtssMailbox.MailboxSystem
import RtssMailbox.ChannelOpen

/-!
Finding a channel of a created mailbox by its name. The owner's creation writes all
fields of a sub-region's header; the client's open searches the sub-regions in order and
takes them over, with the owner's mode turned round.
-/
namespace RtssMailbox
open Effects ByteMemory CyclicBuffer Refinement

/-- The bytes of a name up to its terminator, if it has one. -/
def nameOf (bs : List UInt8) : List UInt8 := bs.takeWhile (· ≠ 0)

/-- `strncmp` compares the names as far as `n` bytes reach. -/
theorem strncmpEq_iff (n : Nat) (s t : List UInt8) (hs : 0 ∉ s) :
    strncmpEq n s t = true ↔ nameOf (t.take n) = s.take n := by
  induction n generalizing s t with
  | zero => simp [strncmpEq, nameOf]
  | succ n ih =>
      cases s with
      | nil =>
          cases t with
          | nil => simp [strncmpEq, nameOf]
          | cons b t =>
              by_cases hb : b = 0
              · simp [strncmpEq, nameOf, hb]
              · simp [strncmpEq, nameOf, hb, Ne.symm hb]
      | cons a s =>
          have ha : a ≠ 0 := fun h => hs (h ▸ List.mem_cons_self)
          have hrest : 0 ∉ s := fun h => hs (List.mem_cons_of_mem _ h)
          cases t with
          | nil => simp [strncmpEq, nameOf, ha]
          | cons b t =>
              have hnext := ih s t hrest
              simp only [nameOf] at hnext
              by_cases hb : b = 0
              · simp [strncmpEq, nameOf, hb, ha]
              · simp [strncmpEq, nameOf, hb, ha, hnext, eq_comm (a := a)]

/-- The fields of a sub-region's header besides its size and its indices. -/
structure Described (base : Nat) (c : MbSubRgnConfig) (m : Mem) : Prop where
  name : loadBytes m (base + MbSubRgnDesc.name) mbNameSz = c.name.toList
  sender : load32 m (base + MbSubRgnDesc.sender) = c.sender
  receiver : load32 m (base + MbSubRgnDesc.receiver) = c.receiver
  prot : load32 m (base + MbSubRgnDesc.prot) = c.prot
  sig : load32 m (base + MbSubRgnDesc.sig) = c.sig
  mode : load32 m (base + MbSubRgnDesc.mode) = c.mode
  prio : load32 m (base + MbSubRgnDesc.prio) = c.prio

theorem Described.of_agree {base : Nat} {c : MbSubRgnConfig} {m m' : Mem}
    (h : Described base c m)
    (hsame : ∀ p, base ≤ p → p < base + MbSubRgnDesc.maxItemNum → m' p = m p) :
    Described base c m' := by
  have hword : ∀ f, f + 4 ≤ MbSubRgnDesc.maxItemNum →
      load32 m' (base + f) = load32 m (base + f) := fun f hf =>
    load32_congr _ _ _ fun k hk => hsame _ (by omega) (by omega)
  have hname : loadBytes m' (base + MbSubRgnDesc.name) mbNameSz =
      loadBytes m (base + MbSubRgnDesc.name) mbNameSz :=
    loadBytes_congr _ _ _ _ fun k hk => hsame _ (by omega) (by
      simp only [MbSubRgnDesc.name, MbSubRgnDesc.maxItemNum, mbNameSz] at *
      omega)
  refine ⟨hname.trans h.name, ?_, ?_, ?_, ?_, ?_, ?_⟩
  · rw [hword _ (by decide), h.sender]
  · rw [hword _ (by decide), h.receiver]
  · rw [hword _ (by decide), h.prot]
  · rw [hword _ (by decide), h.sig]
  · rw [hword _ (by decide), h.mode]
  · rw [hword _ (by decide), h.prio]

theorem initHeader_described (base : Nat) (c : MbSubRgnConfig) (m : Mem) :
    Described base c ((initHeader base c).run memHandler m).2 := by
  have hapart : ∀ (m : Mem) (i j : Nat) (v : UInt32), i + 4 ≤ j ∨ j + 4 ≤ i →
      load32 (store32 m (base + j) v) (base + i) = load32 m (base + i) := fun m i j v h =>
    load32_store32_disjoint _ _ _ _ (by unfold RangeDisjoint; omega)
  have hname : ∀ (m : Mem) (j : Nat) (v : UInt32), mbNameSz ≤ j →
      loadBytes (store32 m (base + j) v) (base + MbSubRgnDesc.name) mbNameSz =
        loadBytes m (base + MbSubRgnDesc.name) mbNameSz := fun m j v hj =>
    loadBytes_congr _ _ _ _ fun k hk => store32_outside _ _ _ _ (by
      simp only [MbSubRgnDesc.name]
      omega)
  have hstored : ∀ m, loadBytes (storeBytes m (base + MbSubRgnDesc.name) c.name.toList)
      (base + MbSubRgnDesc.name) mbNameSz = c.name.toList := fun m => by
    have hlen : c.name.toList.length = mbNameSz := Vector.length_toList
    have hsame := loadBytes_storeBytes_same m (base + MbSubRgnDesc.name) c.name.toList
    rwa [hlen] at hsame
  simp only [initHeader, Prog.run_bind, run_setReg, run_putBytes]
  constructor
  · simp (disch := decide) only [hname]
    exact hstored m
  all_goals
    simp only [MbSubRgnDesc.maxItemNum, MbSubRgnDesc.maxItemSize, MbSubRgnDesc.itemInIndex,
      MbSubRgnDesc.itemOutIndex, MbSubRgnDesc.sender, MbSubRgnDesc.receiver, MbSubRgnDesc.prot,
      MbSubRgnDesc.sig, MbSubRgnDesc.mode, MbSubRgnDesc.prio]
    simp (disch := omega) only [hapart, load32_store32_same]

section Loop
variable (mb n : Nat) (subregionCfg : List MbSubRgnConfig) (hmb : mb ≠ null)
  (hbehind : ∀ i < n, MbDesc.subRegionStartOffset n ≤
    (subregionCfgAt subregionCfg i).startAddrOffset.toNat)
  (hapart : ∀ i < n, ∀ j < n, i ≠ j →
    RangeDisjoint (subregionCfgAt subregionCfg i).startAddrOffset.toNat mbSubRegionHeaderSz
      (subregionCfgAt subregionCfg j).startAddrOffset.toNat mbSubRegionHeaderSz)

include hmb hbehind hapart in
/-- What one turn of the loop establishes of its sub-region holds at the end. -/
theorem initSubRegions_described (fuel i : Nat) (m : Mem) (hfuel : n < fuel + i) (hi : i ≤ n)
    (hnum : (load32 m (mb + MbDesc.numOfSubRegion)).toNat = n) (j : Nat) (hij : i ≤ j)
    (hj : j < n) :
    Described (mb + (subregionCfgAt subregionCfg j).startAddrOffset.toNat)
      (subregionCfgAt subregionCfg j)
      ((initSubRegions mb subregionCfg fuel i).run memHandler m).2 := by
  induction fuel generalizing i m with
  | zero => omega
  | succ fuel ih =>
      have hlt : i < n := by omega
      simp only [initSubRegions, Prog.run_bind, run_getReg, Prog.run_ite, hnum]
      rw [if_pos hlt, initSubRegion_result _ _ _ _ hmb, if_pos rfl]
      have hnum' : (load32 ((initSubRegion mb (subregionCfgAt subregionCfg i) i).run
          memHandler m).2 (mb + MbDesc.numOfSubRegion)).toNat = n := by
        rw [← hnum]
        refine congrArg _ (load32_congr _ _ _ fun k hk => initSubRegion_outside mb _ i m hmb _ ?_)
        have hb := hbehind i hlt
        simp only [SetUpBytes, MbDesc.subRegionStartOffset, MbDesc.numOfSubRegion] at *
        omega
      by_cases heq : j = i
      · subst heq
        obtain ⟨-, hrest⟩ := initSubRegions_spec mb n subregionCfg hmb hbehind hapart fuel (j + 1)
          _ (by omega) (by omega) hnum'
        refine Described.of_agree (m := ((initSubRegion mb (subregionCfgAt subregionCfg j) j).run
          memHandler m).2) ?_ fun p hle hp => hrest p fun k hk hkn => ?_
        · rw [initSubRegion_run mb _ j m hmb]
          exact initHeader_described _ _ _
        · exact setUpBytes_apart mb n subregionCfg hbehind hapart j k hj hkn (by omega) p
            (Or.inr ⟨hle, Nat.lt_of_lt_of_le hp (Nat.add_le_add_left (by decide) _)⟩)
      · exact ih (i + 1) _ (by omega) (by omega) hnum' (by omega)

end Loop

theorem libMBCreate_described (mb : Nat) (mbCfg : MbConfig) (subregionCfg : List MbSubRgnConfig)
    (m : Mem) (hmb : mb ≠ null) (hcheck : libMBBoundaryCheck mbCfg subregionCfg = true)
    (hapart : ∀ i < mbCfg.numSubRegions.toNat, ∀ j < mbCfg.numSubRegions.toNat, i ≠ j →
      RangeDisjoint (subregionCfgAt subregionCfg i).startAddrOffset.toNat mbSubRegionHeaderSz
        (subregionCfgAt subregionCfg j).startAddrOffset.toNat mbSubRegionHeaderSz)
    (i : Nat) (hi : i < mbCfg.numSubRegions.toNat) :
    Described (mb + (subregionCfgAt subregionCfg i).startAddrOffset.toNat)
      (subregionCfgAt subregionCfg i)
      ((libMBCreate mb (some mbCfg) (some subregionCfg)).run memHandler m).2 := by
  have hc := (checked_iff mbCfg subregionCfg).mp hcheck
  have hbehind : ∀ i < mbCfg.numSubRegions.toNat,
      MbDesc.subRegionStartOffset mbCfg.numSubRegions.toNat ≤
        (subregionCfgAt subregionCfg i).startAddrOffset.toNat := fun i hi =>
    Nat.le_of_lt (hc.header_lt_start i hi)
  have hn := mbCfg.numSubRegions.toNat_lt
  have hword : ∀ (m : Mem) (i j : Nat) (v : UInt32), i + 4 ≤ j ∨ j + 4 ≤ i →
      load32 (store32 m (mb + j) v) (mb + i) = load32 m (mb + i) := fun m i j v h =>
    load32_store32_disjoint _ _ _ _ (by unfold RangeDisjoint; omega)
  have hret := libMBInitMailbox_result mb mbCfg subregionCfg m hmb
  simp only [libMBCreate, ne_eq, hmb, not_false_eq_true, if_true, hcheck, Prog.run_bind, hret,
    run_setReg, Prog.pure_eq, Prog.run_ret]
  -- the magic number is stored last, in front of all sub-regions
  refine Described.of_agree (m := ((libMBInitMailbox mb mbCfg subregionCfg).run memHandler m).2) ?_
    fun p hle _ => store32_outside _ _ _ _ (Or.inr ?_)
  · simp only [libMBInitMailbox, ne_eq, hmb, not_false_eq_true, if_true, Prog.run_bind,
      run_putBytes, run_setReg]
    refine initSubRegions_described mb _ subregionCfg hmb hbehind hapart (2 ^ 32) 0 _ (by omega)
      (Nat.zero_le _) (congrArg _ ?_) i (Nat.zero_le _) hi
    rw [hword _ _ _ _ (by decide), hword _ _ _ _ (by decide), load32_store32_same]
  · have hb := hbehind i hi
    simp only [MbDesc.subRegionStartOffset, MbDesc.magic] at *
    omega

/-- What the client is told of a sub-region: its owner's fields, with the mode turned round. -/
def MbSubRgnConfig.chanDesc (c : MbSubRgnConfig) : MbChanDesc :=
  ⟨c.name.toList, c.sender, c.receiver, c.prot, c.sig,
    if mbChanRdMode = c.mode then mbChanWrMode else mbChanRdMode, c.prio, c.itemMaxNum,
    c.itemMaxSize⟩

/-- The handle of a channel that was found by its name. -/
def RtssMbHandle.found (handle : RtssMbHandle) (mb : Nat) (dev : List UInt8) (index : UInt32)
    (desc : MbChanDesc) : RtssMbHandle :=
  { handle with
    dev := dev
    pMbBaseAddr := mb
    subregionIndex := index
    clientId := desc.receiver
    sender := desc.sender
    prot := desc.prot
    signalId := desc.sig
    mode := desc.mode
    priority := desc.prio
    subchanItemSize := desc.maxItemSize }

/-- The search ends at a sub-region that fails its sanity check or carries the name. -/
def EndsSearch (mbCfg : MbConfig) (subregionCfg : List MbSubRgnConfig) (dev : List UInt8)
    (i : Nat) : Prop :=
  ¬ Serves mbCfg (subregionCfgAt subregionCfg i) (UInt32.ofNat i) ∨
    nameOf (subregionCfgAt subregionCfg i).name.toList = dev.take mbNameSz

instance endsSearch_decidable (mbCfg : MbConfig) (subregionCfg : List MbSubRgnConfig)
    (dev : List UInt8) (i : Nat) : Decidable (EndsSearch mbCfg subregionCfg dev i) :=
  inferInstanceAs (Decidable (_ ∨ _))

/-- The first sub-region from `i` on at which the search for a name ends. -/
def searchEnd (mbCfg : MbConfig) (subregionCfg : List MbSubRgnConfig) (dev : List UInt8)
    (i : Nat) : Option Nat :=
  (List.range' i (mbCfg.numSubRegions.toNat - i)).find? (EndsSearch mbCfg subregionCfg dev ·)

theorem searchEnd_of_lt (mbCfg : MbConfig) (subregionCfg : List MbSubRgnConfig) (dev : List UInt8)
    {i : Nat} (hi : i < mbCfg.numSubRegions.toNat) :
    searchEnd mbCfg subregionCfg dev i =
      if EndsSearch mbCfg subregionCfg dev i then some i
      else searchEnd mbCfg subregionCfg dev (i + 1) := by
  have hsplit : List.range' i (mbCfg.numSubRegions.toNat - i) =
      i :: List.range' (i + 1) (mbCfg.numSubRegions.toNat - (i + 1)) := by
    rw [show mbCfg.numSubRegions.toNat - i =
      mbCfg.numSubRegions.toNat - (i + 1) + 1 by omega, List.range'_succ]
  rw [searchEnd, hsplit, List.find?_cons]
  by_cases hends : EndsSearch mbCfg subregionCfg dev i
  · simp only [hends, decide_true, if_true]
  · simp only [hends, decide_false, if_false]
    rfl

theorem searchEnd_all (mbCfg : MbConfig) (subregionCfg : List MbSubRgnConfig) (dev : List UInt8) :
    searchEnd mbCfg subregionCfg dev mbCfg.numSubRegions.toNat = none := by
  rw [searchEnd, Nat.sub_self]
  rfl

/-- At a sub-region that serves calls the search compares the names. -/
theorem endsSearch_iff (mbCfg : MbConfig) (subregionCfg : List MbSubRgnConfig) {dev : List UInt8}
    (hdev : 0 ∉ dev) {i : Nat}
    (hs : Serves mbCfg (subregionCfgAt subregionCfg i) (UInt32.ofNat i)) :
    EndsSearch mbCfg subregionCfg dev i ↔
      strncmpEq mbNameSz dev (subregionCfgAt subregionCfg i).name.toList = true := by
  have hname : (subregionCfgAt subregionCfg i).name.toList.length = mbNameSz :=
    Vector.length_toList
  rw [strncmpEq_iff _ _ _ hdev, List.take_of_length_le (Nat.le_of_eq hname), EndsSearch,
    or_iff_right (not_not.mpr hs)]

/-- The outcome of the search that ends there. -/
def searchResult (mb : Nat) (mbCfg : MbConfig) (subregionCfg : List MbSubRgnConfig)
    (dev : List UInt8) (handle : RtssMbHandle) : Option Nat → Int × RtssMbHandle
  | none => (-enoent, handle)
  | some i =>
      if ¬ Serves mbCfg (subregionCfgAt subregionCfg i) (UInt32.ofNat i) then
        (-eio, handle)
      else if dev.length ≥ rtssMailboxNameSize then
        (-enametoolong, handle)
      else
        (rtssMbReturnSuccess,
          handle.found mb dev (UInt32.ofNat i) (subregionCfgAt subregionCfg i).chanDesc)

/-- A memory in which the client still sees every sub-region as it was configured: it is let
through to those that serve calls and to no other. -/
structure Discoverable (mb : Nat) (mbCfg : MbConfig) (subregionCfg : List MbSubRgnConfig)
    (m : Mem) : Prop where
  magic : load32 m (mb + MbDesc.magic) = mbMagicNumber
  num : load32 m (mb + MbDesc.numOfSubRegion) = mbCfg.numSubRegions
  located : ∀ index : UInt32, index.toNat < mbCfg.numSubRegions.toNat →
    subRegionAt mb index m =
      if Serves mbCfg (subregionCfgAt subregionCfg index.toNat) index then
        .ok (mb + (subregionCfgAt subregionCfg index.toNat).startAddrOffset.toNat)
      else
        .error mbECorruptMailbox
  described : ∀ i < mbCfg.numSubRegions.toNat,
    Described (mb + (subregionCfgAt subregionCfg i).startAddrOffset.toNat)
      (subregionCfgAt subregionCfg i) m
  maxItemNum : ∀ i < mbCfg.numSubRegions.toNat,
    load32 m (mb + (subregionCfgAt subregionCfg i).startAddrOffset.toNat +
      MbSubRgnDesc.maxItemNum) = (subregionCfgAt subregionCfg i).itemMaxNum
  maxItemSize : ∀ i < mbCfg.numSubRegions.toNat,
    load32 m (mb + (subregionCfgAt subregionCfg i).startAddrOffset.toNat +
      MbSubRgnDesc.maxItemSize) = (subregionCfgAt subregionCfg i).itemMaxSize

theorem Created.discoverable {mb : Nat} {mbCfg : MbConfig} {subregionCfg : List MbSubRgnConfig}
    {m : Mem} (hcreated : Created mb mbCfg subregionCfg m) (hmb : mb ≠ null)
    (hdescribed : ∀ i < mbCfg.numSubRegions.toNat,
      Described (mb + (subregionCfgAt subregionCfg i).startAddrOffset.toNat)
        (subregionCfgAt subregionCfg i) m)
    (hnum : ∀ i < mbCfg.numSubRegions.toNat,
      (subregionCfgAt subregionCfg i).itemMaxNum ≤ mbMaxItemNum) :
    Discoverable mb mbCfg subregionCfg m := by
  refine ⟨hcreated.magic, hcreated.num, fun index hindex => ?_, hdescribed,
    fun i hi => (hcreated.subRegions i hi).num, fun i hi => (hcreated.subRegions i hi).size⟩
  have hi := hcreated.subRegions _ hindex
  have hle := hnum _ hindex
  have hsane : sane m (mb + (subregionCfgAt subregionCfg index.toNat).startAddrOffset.toNat) =
      true ↔ Serves mbCfg (subregionCfgAt subregionCfg index.toNat) index := by
    rw [hi.sane_iff hmb, Serves, UInt32.lt_iff_toNat_lt]
    exact ⟨fun h => ⟨hindex, h.1, h.2.2⟩, fun h => ⟨h.2.1, hle, h.2.2⟩⟩
  rw [created_subRegionAt mb mbCfg subregionCfg m hcreated index hindex _ rfl]
  exact if_congr hsane rfl rfl

namespace Discoverable
variable {mb : Nat} {mbCfg : MbConfig} {subregionCfg : List MbSubRgnConfig} {m : Mem}
  (hmb : mb ≠ null) (hm : Discoverable mb mbCfg subregionCfg m)

include hmb hm

/-- The client's view of a sub-region, or the error of its sanity check. -/
theorem chanInfo (index : UInt32) (hindex : index.toNat < mbCfg.numSubRegions.toNat)
    (chaninfo : MbChanDesc) :
    (libMBGetChanInfo mb index (some chaninfo)).run memHandler m =
      (if Serves mbCfg (subregionCfgAt subregionCfg index.toNat) index then
        (mbESuccess, some (subregionCfgAt subregionCfg index.toNat).chanDesc)
      else (mbECorruptMailbox, some chaninfo), m) := by
  have hd := hm.described _ hindex
  have hat := hm.located index hindex
  by_cases hs : Serves mbCfg (subregionCfgAt subregionCfg index.toNat) index
  · rw [if_pos hs] at hat
    simp only [libMBGetChanInfo, ne_eq, hmb, not_false_eq_true, if_true, run_onSubRegion, hat,
      Prog.run_bind, run_getReg, run_getBytes, Prog.pure_eq, Prog.run_ret, hd.name, hd.sender,
      hd.receiver, hd.prot, hd.sig, hd.mode, hd.prio, hm.maxItemNum _ hindex,
      hm.maxItemSize _ hindex, if_pos hs]
    rfl
  · rw [if_neg hs] at hat
    simp only [libMBGetChanInfo, ne_eq, hmb, not_false_eq_true, if_true, run_onSubRegion, hat,
      Prog.pure_eq, if_neg hs]

theorem run_findChannel (env : SysEnv) (dev : List UInt8) (hdev : 0 ∉ dev)
    (handle : RtssMbHandle) (fuel i : Nat) (hfuel : mbCfg.numSubRegions.toNat < fuel + i)
    (hi : i ≤ mbCfg.numSubRegions.toNat) :
    (findChannel mb dev handle fuel (UInt32.ofNat i)).run (devHandler env) m =
      (searchResult mb mbCfg subregionCfg dev handle (searchEnd mbCfg subregionCfg dev i), m) := by
  have hlt := mbCfg.numSubRegions.toNat_lt
  induction fuel generalizing i with
  | zero => omega
  | succ fuel ih =>
      have hnat : (UInt32.ofNat i).toNat = i := by
        rw [UInt32.toNat_ofNat']
        exact Nat.mod_eq_of_lt (by omega)
      simp only [findChannel, Prog.run_bind, run_numOfSubRegion, hm.num, Prog.run_ite,
        UInt32.lt_iff_toNat_lt, hnat]
      by_cases hmore : i < mbCfg.numSubRegions.toNat
      · have hnext : UInt32.ofNat i + 1 = UInt32.ofNat (i + 1) := (UInt32.ofNat_add i 1).symm
        have hinfo := chanInfo hmb hm (UInt32.ofNat i) (by rw [hnat]; exact hmore)
          ⟨[], 0, 0, 0, 0, 0, 0, 0, 0⟩
        rw [hnat] at hinfo
        rw [if_pos hmore, run_getChanInfo, hinfo, searchEnd_of_lt _ _ _ hmore]
        by_cases hs : Serves mbCfg (subregionCfgAt subregionCfg i) (UInt32.ofNat i)
        · have hok : ¬ (mbESuccess ≠ rtssMbReturnSuccess) := by decide
          have hends := endsSearch_iff mbCfg subregionCfg hdev hs
          simp only [if_pos hs, Prog.run_ite, if_neg hok, MbSubRgnConfig.chanDesc, ← hends]
          by_cases hsame : EndsSearch mbCfg subregionCfg dev i
          · simp only [if_pos hsame, searchResult, not_not.mpr hs, if_false]
            split <;> rfl
          · simp only [if_neg hsame, hnext]
            exact ih (i + 1) (by omega) hmore
        · have hends : EndsSearch mbCfg subregionCfg dev i := Or.inl hs
          simp only [if_pos hends, searchResult, hs, not_false_eq_true, if_true]
          rfl
      · have hdone : i = mbCfg.numSubRegions.toNat := by omega
        rw [if_neg hmore, hdone, searchEnd_all]
        rfl

theorem run_libMBValidate : (libMBValidate mb).run memHandler m = (mbESuccess, m) := by
  simp [libMBValidate, hmb, hm.magic]

end Discoverable

/-- An environment in which every system call of an open succeeds and the mailbox is mapped. -/
structure OpensAt (env : SysEnv) (mb : Nat) : Prop where
  calloc : env.calloc = true
  open' : env.open'.ret ≠ -1
  region : env.getMbRegion.1.ret = 0
  size : env.getMbRegion.2 ≠ 0
  mapped : env.mmap.1 = mb
  mb_ne_failed : mb ≠ mapFailed
  eventfd : env.eventfd.ret ≠ -1
  setEventFd : env.setEventFd.ret = 0

/-- The outcome of an open whose search had the given outcome. -/
def openResult (env : SysEnv) (found : Int × RtssMbHandle) : Int × Option RtssMbHandle :=
  if found.1 = rtssMbReturnSuccess then
    (rtssMbReturnSuccess, some { found.2 with
      mbSize := env.getMbRegion.2
      fd := env.open'.ret
      eventFd := if found.2.mode = rtssMbModeRx then env.eventfd.ret else -1 })
  else
    (found.1, none)

/-- A found channel is open for reading or for writing. -/
theorem searchResult_mode (mb : Nat) (mbCfg : MbConfig) (subregionCfg : List MbSubRgnConfig)
    (dev : List UInt8) (handle : RtssMbHandle) (e : Option Nat)
    (hfound : (searchResult mb mbCfg subregionCfg dev handle e).1 = rtssMbReturnSuccess) :
    (searchResult mb mbCfg subregionCfg dev handle e).2.mode = rtssMbModeRx ∨
      (searchResult mb mbCfg subregionCfg dev handle e).2.mode = rtssMbModeTx := by
  cases e with
  | none => exact absurd hfound (show ¬ -enoent = rtssMbReturnSuccess by decide)
  | some i =>
      rw [searchResult] at hfound ⊢
      split
      · rename_i hs
        rw [if_pos hs] at hfound
        exact absurd hfound (show ¬ -eio = rtssMbReturnSuccess by decide)
      · rename_i hs
        rw [if_neg hs] at hfound
        split
        · rename_i hlong
          rw [if_pos hlong] at hfound
          exact absurd hfound (show ¬ -enametoolong = rtssMbReturnSuccess by decide)
        · simp only [RtssMbHandle.found, MbSubRgnConfig.chanDesc]
          split
          · exact Or.inr rfl
          · exact Or.inl rfl

/-- An open finds the channel as the search does, and changes no byte. -/
theorem Discoverable.run_rtssMbOpen {mb : Nat} {mbCfg : MbConfig}
    {subregionCfg : List MbSubRgnConfig} {m : Mem} (hmb : mb ≠ null)
    (hm : Discoverable mb mbCfg subregionCfg m) (hbounded : mbCfg.numSubRegions.toNat < 2 ^ 32)
    (env : SysEnv) (henv : OpensAt env mb) (dev : List UInt8) (hdev : 0 ∉ dev) :
    (rtssMbOpen false (some dev)).run (devHandler env) m =
      (openResult env (searchResult mb mbCfg subregionCfg dev RtssMbHandle.blank
        (searchEnd mbCfg subregionCfg dev 0)), m) := by
  have hsearch : (findChannel mb dev RtssMbHandle.blank (2 ^ 32) 0).run (devHandler env) m = _ :=
    run_findChannel hmb hm env dev hdev RtssMbHandle.blank (2 ^ 32) 0 hbounded (Nat.zero_le _)
  have hvalid := run_libMBValidate hmb hm
  have hmode := searchResult_mode mb mbCfg subregionCfg dev RtssMbHandle.blank
    (searchEnd mbCfg subregionCfg dev 0)
  generalize searchResult mb mbCfg subregionCfg dev RtssMbHandle.blank
    (searchEnd mbCfg subregionCfg dev 0) = found at hsearch hmode ⊢
  obtain ⟨hcalloc, hopen, hregion, hsize, rfl, hfailed, hevent, hset⟩ := henv
  have hok : ¬ (mbESuccess ≠ rtssMbReturnSuccess) := by decide
  simp only [rtssMbOpen, Bool.false_eq_true, if_false, Prog.run_bind, Prog.run_ite, run_calloc,
    hcalloc, Bool.not_true, run_open, if_neg hopen, run_getMbRegion, hregion, ne_eq,
    not_true_eq_false, if_neg hsize, run_mmap, hmb, hfailed, or_self, run_validate, hvalid,
    hok, rtssmbGetdevctx, hsearch, run_eventfd, run_setEventFd, run_munmap, run_close, run_free,
    Prog.pure_eq, Prog.run_ret, hset, if_neg hevent]
  by_cases hfound : found.1 = rtssMbReturnSuccess
  · rw [if_neg (not_not.mpr hfound), openResult, if_pos hfound]
    by_cases hrx : found.2.mode = rtssMbModeRx
    · rw [if_pos hrx, if_pos hrx]
    · rw [if_neg hrx, if_neg hrx, if_pos ((hmode hfound).resolve_left hrx)]
  · rw [if_pos hfound, openResult, if_neg hfound]

/-- A created mailbox is one that the client can search. -/
theorem libMBCreate_discoverable (mb : Nat) (mbCfg : MbConfig)
    (subregionCfg : List MbSubRgnConfig) (m : Mem) (hmb : mb ≠ null)
    (hc : Checked mbCfg subregionCfg)
    (hsizes : ∀ i < mbCfg.numSubRegions.toNat,
      itemBytes (subregionCfgAt subregionCfg i) + 55 < 4294967296) :
    Discoverable mb mbCfg subregionCfg
      ((libMBCreate mb (some mbCfg) (some subregionCfg)).run memHandler m).2 := by
  have hcheck := (checked_iff _ _).mpr hc
  have hranges := exactRanges_of_covered _ _ hc fun i hi =>
    (covered_exact_iff _ (hc.covered i hi)).mpr (hsizes i hi)
  have hapart : ∀ i < mbCfg.numSubRegions.toNat, ∀ j < mbCfg.numSubRegions.toNat, i ≠ j →
      RangeDisjoint (subregionCfgAt subregionCfg i).startAddrOffset.toNat mbSubRegionHeaderSz
        (subregionCfgAt subregionCfg j).startAddrOffset.toNat mbSubRegionHeaderSz :=
    fun i hi j hj hij => by
      have hd := hranges.disjoint i hi j hj hij
      simp only [RangeDisjoint, regionBytes] at *
      omega
  exact (libMBCreate_created mb mbCfg subregionCfg m hmb hcheck hapart).discoverable hmb
    (libMBCreate_described mb mbCfg subregionCfg m hmb hcheck hapart)
    fun i hi => ((subRegionCovered_iff _).mp (hc.covered i hi)).1

/-- The open of a name on a created mailbox ends at the first sub-region that carries the
name or fails its check, with the fields of its configuration, and changes no byte. -/
theorem open_created (mb : Nat) (mbCfg : MbConfig) (subregionCfg : List MbSubRgnConfig) (m : Mem)
    (hcreate : ((libMBCreate mb (some mbCfg) (some subregionCfg)).run memHandler m).1 =
      mbESuccess)
    (hsizes : ∀ i < mbCfg.numSubRegions.toNat,
      itemBytes (subregionCfgAt subregionCfg i) + 55 < 4294967296)
    (env : SysEnv) (henv : OpensAt env mb) (dev : List UInt8) (hdev : 0 ∉ dev) :
    let created := ((libMBCreate mb (some mbCfg) (some subregionCfg)).run memHandler m).2
    (rtssMbOpen false (some dev)).run (devHandler env) created =
      (openResult env (searchResult mb mbCfg subregionCfg dev RtssMbHandle.blank
        (searchEnd mbCfg subregionCfg dev 0)), created) := by
  intro created
  obtain ⟨hmb, hcheck⟩ := libMBCreate_success mb mbCfg subregionCfg m hcreate
  have hc := (checked_iff _ _).mp hcheck
  have hbounded := hc.bounded
  exact (libMBCreate_discoverable mb mbCfg subregionCfg m hmb hc hsizes).run_rtssMbOpen hmb
    (by omega) env henv dev hdev

/-- The two sub-regions with the names "a" and "b"; the owner writes the first one. -/
def namedSubRegions : List MbSubRgnConfig :=
  (twoSubRegions.zip [(97, mbChanWrMode), (98, mbChanRdMode)]).map fun x =>
    { x.1 with name := (Vector.replicate mbNameSz 0).set 0 x.2.1, mode := x.2.2 }

/-- A system in which everything succeeds and the mailbox is mapped at the address. -/
def openingSystem (mb : Nat) : SysEnv where
  calloc := true
  open' := ⟨3, 0⟩
  getMbRegion := (⟨0, 0⟩, 1024)
  mmap := (mb, 0)
  eventfd := ⟨4, 0⟩
  setEventFd := ⟨0, 0⟩
  sendInterrupt := ⟨0, 0⟩
  poll := ⟨⟨0, 0⟩, false, false⟩
  eventfdRead := ⟨0, 0⟩

/-- The second channel is found by its name, for writing. -/
theorem open_created_sample :
    (((rtssMbOpen false (some [98])).run (devHandler (openingSystem 4096))
      ((libMBCreate 4096 (some { oneRegionMailbox 1024 with numSubRegions := 2 })
        (some namedSubRegions)).run memHandler fun _ => 0).2).1.2.map
          fun h => (h.subregionIndex, h.mode, h.fd, h.subchanItemSize)) =
      some (1, rtssMbModeTx, 3, 3) := by
  rw [open_created 4096 { oneRegionMailbox 1024 with numSubRegions := 2 } namedSubRegions
    (fun _ => 0) (by rw [libMBCreate_result _ _ _ _ (by decide)]; decide) (by decide)
    (openingSystem 4096)
    ⟨rfl, by decide, rfl, by decide, rfl, by decide, by decide, rfl⟩ [98] (by decide)]
  decide

end RtssMailbox
