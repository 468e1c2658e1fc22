import RtssMailbox.MailboxCreation
import RtssMailbox.ChannelIsolation

/-!
A created mailbox as a whole. Its descriptor and its sub-regions lie apart, so each
index of the table is a bounded queue of its own: every call answers as the queue of
its index does, from the first call after the creation on.
-/
namespace RtssMailbox
open Effects ByteMemory CyclicBuffer Refinement

/-- A configuration that creation accepts, with bytes in every item and no size that wraps
the guard of the boundary check, and the address that the mailbox is created at. -/
structure MailboxPlan where
  mb : Nat
  mbCfg : MbConfig
  subregionCfg : List MbSubRgnConfig
  mb_ne_null : mb ≠ null
  checked : Checked mbCfg subregionCfg
  size_ne : ∀ i < mbCfg.numSubRegions.toNat, (subregionCfgAt subregionCfg i).itemMaxSize ≠ 0
  bytes_lt : ∀ i < mbCfg.numSubRegions.toNat,
    itemBytes (subregionCfgAt subregionCfg i) + 55 < 4294967296

/-- The sub-regions that the sanity check lets calls through to. -/
def Serves (mbCfg : MbConfig) (c : MbSubRgnConfig) (index : UInt32) : Prop :=
  index.toNat < mbCfg.numSubRegions.toNat ∧ 0 < c.itemMaxNum.toNat ∧ c.itemMaxSize ≤ mbMaxSize

instance serves_decidable (mbCfg : MbConfig) (c : MbSubRgnConfig) (index : UInt32) :
    Decidable (Serves mbCfg c index) :=
  inferInstanceAs (Decidable (_ ∧ _))

/-- The answer of a call that reports an error. -/
def RingCall.refused (e : Int) : RingCall → RingAnswer
  | .read dest _ => (e, some dest)
  | .write _ _ | .chanReset | .getFreeItemNum | .getValidItemNum => (e, none)

/-- One item of a sub-region stays reserved. -/
def channelRoom (subregionCfg : List MbSubRgnConfig) (index : UInt32) : Nat :=
  (subregionCfgAt subregionCfg index.toNat).itemMaxNum.toNat - 1

/-- What an index of the mailbox is for: a queue, or nothing but an error. -/
def channelSpec (mbCfg : MbConfig) (subregionCfg : List MbSubRgnConfig) (index : UInt32)
    (c : RingCall) (q : BoundedQueue (List UInt8) (channelRoom subregionCfg index)) :
    RingAnswer × BoundedQueue (List UInt8) (channelRoom subregionCfg index) :=
  if Serves mbCfg (subregionCfgAt subregionCfg index.toNat) index then
    c.spec (subregionCfgAt subregionCfg index.toNat).itemMaxSize.toNat q
  else if index < mbCfg.numSubRegions then
    (c.refused mbECorruptMailbox, q)
  else
    (c.refused mbEInvalidIndex, q)

theorem RingCall.run_refused {mb : Nat} {index : UInt32} {m : Mem} {e : Int} (hmb : mb ≠ null)
    (hat : subRegionAt mb index m = .error e) (c : RingCall) :
    c.run mb index m = (c.refused e, m) := by
  cases c <;>
    simp only [RingCall.run, RingCall.prog, RingCall.refused, libMBWrite, libMBRead,
      libMBChanReset, libMBGetFreeItemNum, libMBGetValidItemNum, ne_eq, hmb, not_false_eq_true,
      if_true, Prog.run_bind, run_onSubRegion, hat, Prog.pure_eq, Prog.run_ret, id_eq]

/-- A channel is kept by whatever leaves its descriptor and its sub-region alone. -/
theorem Represents.of_visible {ch : Channel} {m m' : Mem}
    {q : BoundedQueue (List UInt8) (ch.num.toNat - 1)} (h : Represents ch m q)
    (hsame : ∀ p, Visible ch.mb ch.index m p → m' p = m p) : Represents ch m' q := by
  have hindex := h.index_lt
  have hbase : subRegionBase ch.mb ch.index m = ch.base := h.start
  have hfixed : ∀ f, f + 4 ≤ 32 → load32 m' (ch.mb + f) = load32 m (ch.mb + f) := fun f hf =>
    load32_congr _ _ _ fun k hk => hsame _ (visible_fixed hf _ (by omega) (by omega))
  have hstart : load32 m' (ch.mb + MbDesc.subRegionStartOffset ch.index.toNat) =
      load32 m (ch.mb + MbDesc.subRegionStartOffset ch.index.toNat) :=
    load32_congr _ _ _ fun k hk => hsame _ (visible_start hindex _ (by omega) (by omega))
  have hword : ∀ f, f + 4 ≤ mbSubRegionHeaderSz →
      load32 m' (ch.base + f) = load32 m (ch.base + f) := fun f hf =>
    load32_congr _ _ _ fun k hk => hsame _ (by
      rw [← hbase]
      exact visible_header hindex hf _ (by omega) (by omega))
  have hin : ch.inIndex m' = ch.inIndex m := congrArg UInt32.toNat (hword _ (by decide))
  have hout : ch.outIndex m' = ch.outIndex m := congrArg UInt32.toNat (hword _ (by decide))
  have hitems : ch.items m' = ch.items m := items_of_subRegion h.toConsistent fun p hp =>
    hsame p (Or.inr ⟨hindex, by rwa [hbase]⟩)
  refine ⟨⟨⟨?_, ?_, ?_, ?_, ?_⟩, ?_, ?_⟩, hitems.trans h.items_eq⟩
  · rw [hfixed _ (by decide), h.magic]
  · rw [hfixed _ (by decide)]
    exact hindex
  · rw [hstart, h.start]
  · rw [hword _ (by decide), h.num]
  · rw [hword _ (by decide), h.size]
  · rw [hin]
    exact h.in_lt
  · rw [hout]
    exact h.out_lt

namespace MailboxPlan
variable (pl : MailboxPlan)

def num : Nat := pl.mbCfg.numSubRegions.toNat

abbrev cfg (index : UInt32) : MbSubRgnConfig := subregionCfgAt pl.subregionCfg index.toNat

/-- The memory that `LibMB_Create` leaves. -/
def created (m : Mem) : Mem :=
  ((libMBCreate pl.mb (some pl.mbCfg) (some pl.subregionCfg)).run memHandler m).2

section Fields
variable (index : UInt32) (h : Serves pl.mbCfg (pl.cfg index) index)
include h

theorem channel_behind : pl.mb + MbDesc.subRegionEndOffset index.toNat ≤
    pl.mb + (pl.cfg index).startAddrOffset.toNat := by
  have hheader := pl.checked.header_lt_start _ h.1
  have hindex := h.1
  simp only [MbDesc.subRegionEndOffset, cfg]
  omega

theorem channel_num_pos : 0 < (pl.cfg index).itemMaxNum.toNat := h.2.1

theorem channel_size_pos : 0 < (pl.cfg index).itemMaxSize.toNat :=
  Nat.pos_of_ne_zero fun h0 => pl.size_ne _ h.1 (UInt32.toNat.inj h0)

theorem channel_bytes_lt :
    (pl.cfg index).itemMaxNum.toNat * (pl.cfg index).itemMaxSize.toNat < 4294967296 := by
  have hbytes := pl.bytes_lt _ h.1
  simp only [itemBytes, cfg] at *
  omega

end Fields

def channel (index : UInt32) (h : Serves pl.mbCfg (pl.cfg index) index) : Channel where
  mb := pl.mb
  index := index
  base := pl.mb + (pl.cfg index).startAddrOffset.toNat
  num := (pl.cfg index).itemMaxNum
  size := (pl.cfg index).itemMaxSize
  mb_ne_null := pl.mb_ne_null
  behind := pl.channel_behind index h
  num_pos := pl.channel_num_pos index h
  size_pos := pl.channel_size_pos index h
  bytes_lt := pl.channel_bytes_lt index h

theorem ranges : ExactRanges pl.mbCfg pl.subregionCfg :=
  exactRanges_of_covered _ _ pl.checked fun i hi =>
    (covered_exact_iff _ (pl.checked.covered i hi)).mpr (pl.bytes_lt i hi)

theorem created_created (m : Mem) :
    Created pl.mb pl.mbCfg pl.subregionCfg (pl.created m) := by
  refine libMBCreate_created pl.mb pl.mbCfg pl.subregionCfg m pl.mb_ne_null
    ((checked_iff _ _).mpr pl.checked) fun i hi j hj hij => ?_
  have hapart := pl.ranges.disjoint i hi j hj hij
  simp only [RangeDisjoint, regionBytes] at *
  omega

variable {pl} {m : Mem}

theorem index_iff (h : Created pl.mb pl.mbCfg pl.subregionCfg m) (index : UInt32) :
    index < load32 m (pl.mb + MbDesc.numOfSubRegion) ↔ index.toNat < pl.num := by
  rw [h.num, UInt32.lt_iff_toNat_lt]
  rfl

theorem base_eq (h : Created pl.mb pl.mbCfg pl.subregionCfg m) {index : UInt32}
    (hindex : index.toNat < pl.num) :
    subRegionBase pl.mb index m = pl.mb + (pl.cfg index).startAddrOffset.toNat := by
  rw [subRegionBase, (h.subRegions _ hindex).start]

theorem inSubRegion_iff (h : Created pl.mb pl.mbCfg pl.subregionCfg m) {index : UInt32}
    (hindex : index.toNat < pl.num) (q : Nat) :
    InSubRegion m (subRegionBase pl.mb index m) q ↔
      pl.mb + (pl.cfg index).startAddrOffset.toNat ≤ q ∧
        q < pl.mb + (pl.cfg index).startAddrOffset.toNat + regionBytes (pl.cfg index) := by
  have hi := h.subRegions _ hindex
  rw [InSubRegion, base_eq h hindex, subRegionSize, capacity, slotSize, cfg, hi.num, hi.size]
  rfl

/-- The exact ranges of the configuration are those of the created memory. -/
theorem isolated (h : Created pl.mb pl.mbCfg pl.subregionCfg m) : Isolated pl.mb m := by
  constructor
  · exact h.magic
  · intro i hi
    have hindex := (index_iff h i).mp hi
    have hsub := h.subRegions _ hindex
    have hbytes := pl.bytes_lt _ hindex
    rw [base_eq h hindex, capacity, slotSize, cfg, hsub.num, hsub.size]
    simp only [itemBytes] at hbytes
    omega
  · intro i hi q hq hdesc
    have hindex := (index_iff h i).mp hi
    have hbehind := pl.ranges.descriptor _ hindex
    rw [inSubRegion_iff h hindex] at hq
    rw [InDescriptor, h.num] at hdesc
    simp only [RangeDisjoint, descriptorBytes, cfg] at *
    omega
  · intro i hi j hj hij q hq hq'
    have hiNum := (index_iff h i).mp hi
    have hjNum := (index_iff h j).mp hj
    have hapart := pl.ranges.disjoint _ hiNum _ hjNum fun heq => hij (UInt32.toNat.inj heq)
    rw [inSubRegion_iff h hiNum] at hq
    rw [inSubRegion_iff h hjNum] at hq'
    simp only [RangeDisjoint, cfg] at *
    omega

theorem channel_represents (h : Created pl.mb pl.mbCfg pl.subregionCfg m) (index : UInt32)
    (hs : Serves pl.mbCfg (pl.cfg index) index) :
    Represents (pl.channel index hs) m .empty := by
  have hi := h.subRegions _ hs.1
  have hin : (pl.channel index hs).inIndex m = 0 := congrArg UInt32.toNat hi.inIndex
  have hout : (pl.channel index hs).outIndex m = 0 := congrArg UInt32.toNat hi.outIndex
  refine ⟨⟨⟨h.magic, (index_iff h index).mpr hs.1, ?_, hi.num, hi.size⟩, ?_, ?_⟩, ?_⟩
  · exact base_eq h hs.1
  · rw [hin]
    exact hs.2.1
  · rw [hout]
    exact hs.2.1
  · rw [Channel.items, hin, hout, queue_self]
    rfl

theorem channel_usable (index : UInt32) (hs : Serves pl.mbCfg (pl.cfg index) index) :
    (pl.channel index hs).Usable :=
  ⟨((subRegionCovered_iff _).mp (pl.checked.covered _ hs.1)).1, hs.2.2⟩

/-- An index that serves no queue is refused with its reason. -/
theorem subRegionAt_refused (h : Created pl.mb pl.mbCfg pl.subregionCfg m) {m' : Mem}
    (hlayout : SameLayout pl.mb m m') (index : UInt32)
    (hs : ¬ Serves pl.mbCfg (pl.cfg index) index) :
    subRegionAt pl.mb index m' = .error
      (if index < pl.mbCfg.numSubRegions then mbECorruptMailbox else mbEInvalidIndex) := by
  rw [subRegionAt, hlayout.magic, if_pos h.magic, hlayout.num, h.num]
  by_cases hindex : index < pl.mbCfg.numSubRegions
  · have hnum : index.toNat < pl.num := UInt32.lt_iff_toNat_lt.mp hindex
    have hlt := (index_iff h index).mpr hnum
    have hsub := h.subRegions _ hnum
    have hbase : pl.mb + (load32 m' (pl.mb + MbDesc.subRegionStartOffset index.toNat)).toNat =
        subRegionBase pl.mb index m := hlayout.base index hlt
    have hcap := hlayout.capacity index hlt
    have hslot := hlayout.slotSize index hlt
    rw [if_pos hindex, if_pos hindex, hbase]
    have hinsane : ¬ sane m' (subRegionBase pl.mb index m) = true := by
      intro hsane
      obtain ⟨-, -, hsize, hin, -⟩ := (sane_iff _ _).mp hsane
      refine hs ⟨hnum, ?_, ?_⟩
      · rw [capacity, capacity, base_eq h hnum, cfg, hsub.num] at hcap
        rw [base_eq h hnum, cfg, hcap] at hin
        exact Nat.zero_lt_of_lt hin
      · rw [slotSize, slotSize, base_eq h hnum, cfg, hsub.size] at hslot
        rw [base_eq h hnum, cfg, hslot] at hsize
        exact UInt32.le_iff_toNat_le.mpr hsize
    rw [if_neg hinsane]
  · rw [if_neg hindex, if_neg hindex]

/-- A call on its own index is a call of that index's queue. -/
theorem call_own (h : Created pl.mb pl.mbCfg pl.subregionCfg m) {m' : Mem}
    (hlayout : SameLayout pl.mb m m') (index : UInt32) (c : RingCall)
    (q : BoundedQueue (List UInt8) (channelRoom pl.subregionCfg index))
    (hq : ∀ hs, Represents (pl.channel index hs) m' q) :
    (mailboxCall pl.mb (index, c) m').1 =
        (channelSpec pl.mbCfg pl.subregionCfg index c q).1 ∧
      ∀ hs, Represents (pl.channel index hs) (mailboxCall pl.mb (index, c) m').2
        (channelSpec pl.mbCfg pl.subregionCfg index c q).2 := by
  by_cases hs : Serves pl.mbCfg (pl.cfg index) index
  · obtain ⟨hans, hnext⟩ := (hq hs).run_call (channel_usable index hs) c
    have hspec : channelSpec pl.mbCfg pl.subregionCfg index c q =
        c.spec (pl.channel index hs).size.toNat q := if_pos hs
    rw [hspec]
    exact ⟨hans, fun _ => hnext⟩
  · have hrun := RingCall.run_refused pl.mb_ne_null (subRegionAt_refused h hlayout index hs) c
    have hspec : channelSpec pl.mbCfg pl.subregionCfg index c q =
        (c.refused (if index < pl.mbCfg.numSubRegions then mbECorruptMailbox
          else mbEInvalidIndex), q) := by
      rw [channelSpec, if_neg hs]
      split <;> rfl
    rw [mailboxCall, hrun, hspec]
    exact ⟨rfl, fun hs' => absurd hs' hs⟩

/-- A call on one index leaves the queues of the others as they are. -/
theorem call_other {m' : Mem} (hm' : Isolated pl.mb m') {i j : UInt32} (hij : j ≠ i)
    (c : RingCall) {hs : Serves pl.mbCfg (pl.cfg i) i}
    {q : BoundedQueue (List UInt8) (channelRoom pl.subregionCfg i)}
    (hq : Represents (pl.channel i hs) m' q) :
    Represents (pl.channel i hs) (mailboxCall pl.mb (j, c) m').2 q := by
  refine hq.of_visible fun p hp => ?_
  by_contra hchanged
  obtain ⟨hj, hle, hlt⟩ := call_changed hm' c hchanged
  have hin : InSubRegion m' (subRegionBase pl.mb j m') p :=
    ⟨Nat.le_trans (Nat.le_add_right _ _) hle, hlt⟩
  cases hp with
  | inl hdesc => exact hm'.behind j hj p hin hdesc
  | inr hsub => exact hm'.apart j hj i hsub.1 hij p hin hsub.2

theorem runAll_queues (h : Created pl.mb pl.mbCfg pl.subregionCfg m)
    (calls : List (UInt32 × RingCall)) :
    (runAll (mailboxCall pl.mb) calls m).1 =
        (runAll (updateCall (channelSpec pl.mbCfg pl.subregionCfg)) calls
          fun _ => BoundedQueue.empty).1 ∧
      ∀ index hs, Represents (pl.channel index hs) (runAll (mailboxCall pl.mb) calls m).2
        ((runAll (updateCall (channelSpec pl.mbCfg pl.subregionCfg)) calls
          fun _ => BoundedQueue.empty).2 index) := by
  have hisolated := isolated h
  exact updateCall_simulates (mailboxCall pl.mb) (channelSpec pl.mbCfg pl.subregionCfg)
    (SameLayout pl.mb m) (fun index m' q => ∀ hs, Represents (pl.channel index hs) m' q)
    (fun x m' hm' => hm'.trans (call_sameLayout (hm'.isolated hisolated) x.2))
    (fun index c m' q hm' hq => call_own h hm' index c q hq)
    (fun i j c m' q hij hm' hq hs => call_other (hm'.isolated hisolated) hij c (hq hs))
    calls m _ (SameLayout.refl m) fun index hs => channel_represents h index hs

/-- A channel of the created mailbox is the one that the plan gives its index. -/
theorem channel_eq (h : Created pl.mb pl.mbCfg pl.subregionCfg m) {ch : Channel}
    (hmb : ch.mb = pl.mb) (hu : ch.Usable) (hcons : ch.Consistent m) :
    ∃ hs : Serves pl.mbCfg (pl.cfg ch.index) ch.index, ch = pl.channel ch.index hs := by
  have hnum : ch.index.toNat < pl.num := (index_iff h _).mp (hmb ▸ hcons.index_lt)
  have hsub := h.subRegions _ hnum
  have hbase : ch.base = pl.mb + (pl.cfg ch.index).startAddrOffset.toNat := by
    rw [← hcons.start, hmb, hsub.start]
  have hcap : ch.num = (pl.cfg ch.index).itemMaxNum := by
    rw [← hcons.num, hbase]
    exact hsub.num
  have hsize : ch.size = (pl.cfg ch.index).itemMaxSize := by
    rw [← hcons.size, hbase]
    exact hsub.size
  refine ⟨⟨hnum, by rw [← hcap]; exact ch.num_pos, by rw [← hsize]; exact hu.2⟩, ?_⟩
  obtain ⟨mb, index, base, num, size, h₁, h₂, h₃, h₄, h₅⟩ := ch
  simp only at hmb hbase hcap hsize
  subst hmb hbase hcap hsize
  rfl

end MailboxPlan

/-- After a successful creation, any sequence of calls on any indices answers as one
bounded queue for each sub-region, all empty at first, with an error for every index that
has none; and the items of each channel are those of its queue. -/
theorem mailbox_refines_queues (mb : Nat) (mbCfg : MbConfig) (subregionCfg : List MbSubRgnConfig)
    (m : Mem)
    (hcreate : ((libMBCreate mb (some mbCfg) (some subregionCfg)).run memHandler m).1 =
      mbESuccess)
    (hsizes : ∀ i < mbCfg.numSubRegions.toNat,
      (subregionCfgAt subregionCfg i).itemMaxSize ≠ 0 ∧
        itemBytes (subregionCfgAt subregionCfg i) + 55 < 4294967296)
    (calls : List (UInt32 × RingCall)) :
    let created := ((libMBCreate mb (some mbCfg) (some subregionCfg)).run memHandler m).2
    let queues := runAll (updateCall (channelSpec mbCfg subregionCfg)) calls
      fun _ => BoundedQueue.empty
    (runAll (mailboxCall mb) calls created).1 = queues.1 ∧
      ∀ ch : Channel, ch.mb = mb → ch.Usable → ch.Consistent created →
        ch.items (runAll (mailboxCall mb) calls created).2 = (queues.2 ch.index).items := by
  obtain ⟨hmb, hcheck⟩ := libMBCreate_success mb mbCfg subregionCfg m hcreate
  let pl : MailboxPlan := ⟨mb, mbCfg, subregionCfg, hmb, (checked_iff _ _).mp hcheck,
    fun i hi => (hsizes i hi).1, fun i hi => (hsizes i hi).2⟩
  have hcreated := pl.created_created m
  obtain ⟨hanswers, hqueues⟩ := MailboxPlan.runAll_queues hcreated calls
  refine ⟨hanswers, fun ch hch hu hcons => ?_⟩
  obtain ⟨hs, heq⟩ := MailboxPlan.channel_eq hcreated hch hu hcons
  exact (congrArg (Channel.items · _) heq).trans (hqueues ch.index hs).items_eq

/-- Two sub-regions of four items, one of two bytes and one of three. -/
def twoSubRegions : List MbSubRgnConfig := oneSubRegion 52 120 4 2 ++ oneSubRegion 124 200 4 3

/-- Writes on one index do not fill the queue of another one, and the third index has none. -/
theorem mailbox_refines_queues_sample :
    (runAll (mailboxCall 4096)
      [(0, .write (fun i => UInt8.ofNat i) 3), (1, .write (fun _ => 7) 2),
        (0, .write (fun _ => 9) 1), (2, .write (fun _ => 9) 1), (0, .read (fun _ => 0) 2),
        (1, .getFreeItemNum)]
      ((libMBCreate 4096 (some { oneRegionMailbox 1024 with numSubRegions := 2 })
        (some twoSubRegions)).run memHandler fun _ => 0).2).1.map Prod.fst =
      [3, 2, mbENoEnoughBuf, mbEInvalidIndex, 2, 1] := by
  have hrefines := mailbox_refines_queues 4096 { oneRegionMailbox 1024 with numSubRegions := 2 }
    twoSubRegions (fun _ => 0) (by rw [libMBCreate_result _ _ _ _ (by decide)]; decide) (by decide)
    [(0, .write (fun i => UInt8.ofNat i) 3), (1, .write (fun _ => 7) 2),
      (0, .write (fun _ => 9) 1), (2, .write (fun _ => 9) 1), (0, .read (fun _ => 0) 2),
      (1, .getFreeItemNum)]
  rw [hrefines.1]
  decide

end RtssMailbox
