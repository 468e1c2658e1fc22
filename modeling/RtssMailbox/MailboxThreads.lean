import RtssMailbox.Library.ThreadPool
import RtssMailbox.MailboxSystem
import RtssMailbox.RingInterleaving

/-!
Any number of threads that call a created mailbox at once, with no agreement about who
writes, reads or resets what. Messages may then be lost or torn, but each register access
and each piece of a copy stays in the descriptor or in the sub-region that its call names.
-/
namespace RtssMailbox
open Effects ByteMemory CyclicBuffer RelyGuarantee Monitoring

/-- A thread that makes calls on any indices; copies are made in pieces of `g` bytes. -/
def mailboxClient (mb g : Nat) : Client MemSig Mem where
  Call := UInt32 × RingCall
  Res := RingAnswer
  prog x := (x.2.prog mb x.1).expand (slotwise g)
  finish _ _ m := m

namespace MailboxPlan
variable (pl : MailboxPlan)

def base (index : UInt32) : Nat := pl.mb + (pl.cfg index).startAddrOffset.toNat

/-- The two index words and the ring of a sub-region that serves calls. -/
def Shared (q : Nat) : Prop :=
  ∃ index, Serves pl.mbCfg (pl.cfg index) index ∧
    pl.base index + MbSubRgnDesc.itemInIndex ≤ q ∧
      q < pl.base index + regionBytes (pl.cfg index)

/-- What a memory keeps of the created one, and what its indices satisfy. -/
structure Intact (m₀ m : Mem) : Prop where
  same : ∀ q, ¬ pl.Shared q → m q = m₀ q
  in_lt : ∀ index, Serves pl.mbCfg (pl.cfg index) index →
    (load32 m (pl.base index + MbSubRgnDesc.itemInIndex)).toNat < (pl.cfg index).itemMaxNum.toNat
  out_lt : ∀ index, Serves pl.mbCfg (pl.cfg index) index →
    (load32 m (pl.base index + MbSubRgnDesc.itemOutIndex)).toNat < (pl.cfg index).itemMaxNum.toNat

/-- A copy that lies in the ring of the sub-region. -/
def InRing (index : UInt32) (a n : Nat) : Prop :=
  Serves pl.mbCfg (pl.cfg index) index ∧ pl.base index + mbSubRegionHeaderSz ≤ a ∧
    a + n ≤ pl.base index + regionBytes (pl.cfg index)

/-- What a call on an index may do: look at the descriptor and at the header of its
sub-region, set one of the two indices to a slot of the ring, and copy in the ring. -/
def Permits (index : UInt32) : MemOp → Prop
  | .getReg a => (pl.mb ≤ a ∧ a + 4 ≤ pl.mb + descriptorBytes pl.mbCfg) ∨
      index.toNat < pl.num ∧ pl.base index ≤ a ∧ a + 4 ≤ pl.base index + mbSubRegionHeaderSz
  | .setReg a v => Serves pl.mbCfg (pl.cfg index) index ∧
      (a = pl.base index + MbSubRgnDesc.itemInIndex ∨
        a = pl.base index + MbSubRgnDesc.itemOutIndex) ∧
      v.toNat < (pl.cfg index).itemMaxNum.toNat
  | .copyIn a bs => pl.InRing index a bs.length
  | .copyOut a n => pl.InRing index a n

/-- The values of the registers that locate a sub-region and say how large it is. -/
structure Answers (index : UInt32) (a : Nat) (v : UInt32) : Prop where
  num : a = pl.mb + MbDesc.numOfSubRegion → v = pl.mbCfg.numSubRegions
  start : index.toNat < pl.num → a = pl.mb + MbDesc.subRegionStartOffset index.toNat →
    v = (pl.cfg index).startAddrOffset
  maxItemNum : index.toNat < pl.num → a = pl.base index + MbSubRgnDesc.maxItemNum →
    v = (pl.cfg index).itemMaxNum
  maxItemSize : index.toNat < pl.num → a = pl.base index + MbSubRgnDesc.maxItemSize →
    v = (pl.cfg index).itemMaxSize
  indices : Serves pl.mbCfg (pl.cfg index) index →
    a = pl.base index + MbSubRgnDesc.itemInIndex ∨
      a = pl.base index + MbSubRgnDesc.itemOutIndex → v.toNat < (pl.cfg index).itemMaxNum.toNat

/-- The monitor of a call on an index. -/
def monitor (index : UInt32) : Monitor MemSig Unit where
  next _ _ := ()
  allows _ o := pl.Permits index o
  assumes
    | _, ⟨.getReg a, v⟩ => pl.Answers index a v
    | _, _ => True

variable {pl} {m₀ m : Mem}

/-- The descriptor and every header lie outside what calls may change. -/
theorem not_shared_descriptor {q : Nat} (hlt : q < pl.mb + descriptorBytes pl.mbCfg) :
    ¬ pl.Shared q := by
  rintro ⟨index, hs, hq, -⟩
  have hheader := pl.checked.header_lt_start _ hs.1
  simp only [descriptorBytes, MbDesc.subRegionStartOffset, base, cfg] at *
  omega

theorem not_shared_header {index : UInt32} (hindex : index.toNat < pl.num) {q : Nat}
    (hle : pl.base index ≤ q) (hlt : q < pl.base index + MbSubRgnDesc.itemInIndex) :
    ¬ pl.Shared q := by
  rintro ⟨j, hs, hq, hq'⟩
  by_cases hj : j = index
  · subst hj
    omega
  · have hapart := pl.ranges.disjoint _ hindex _ hs.1 fun h => hj (UInt32.toNat.inj h.symm)
    simp only [RangeDisjoint, regionBytes, mbSubRegionHeaderSz, MbSubRgnDesc.itemInIndex, base,
      cfg] at *
    omega

/-- Two sub-regions share no byte of what calls may change. -/
theorem regions_apart {i j : UInt32} (hi : Serves pl.mbCfg (pl.cfg i) i)
    (hj : Serves pl.mbCfg (pl.cfg j) j) (hij : i ≠ j) :
    RangeDisjoint (pl.base i) (regionBytes (pl.cfg i)) (pl.base j) (regionBytes (pl.cfg j)) := by
  have hapart := pl.ranges.disjoint _ hi.1 _ hj.1 fun h => hij (UInt32.toNat.inj h)
  simp only [RangeDisjoint, base, cfg] at *
  omega

theorem created_intact (h : Created pl.mb pl.mbCfg pl.subregionCfg m₀) : pl.Intact m₀ m₀ := by
  refine ⟨fun _ _ => rfl, fun index hs => ?_, fun index hs => ?_⟩
  · have hzero : load32 m₀ (pl.base index + MbSubRgnDesc.itemInIndex) = 0 :=
      (h.subRegions _ hs.1).inIndex
    rw [hzero]
    exact hs.2.1
  · have hzero : load32 m₀ (pl.base index + MbSubRgnDesc.itemOutIndex) = 0 :=
      (h.subRegions _ hs.1).outIndex
    rw [hzero]
    exact hs.2.1

/-- A register that no call changes still has the value that creation gave it. -/
theorem Intact.answers (h : Created pl.mb pl.mbCfg pl.subregionCfg m₀) (hm : pl.Intact m₀ m)
    (index : UInt32) (a : Nat) : pl.Answers index a (load32 m a) := by
  have hword : ∀ a, (∀ k < 4, ¬ pl.Shared (a + k)) → load32 m a = load32 m₀ a := fun a ha =>
    load32_congr _ _ _ fun k hk => hm.same _ (ha k hk)
  have hheader : index.toNat < pl.num → ∀ f, f + 4 ≤ MbSubRgnDesc.itemInIndex →
      load32 m (pl.base index + f) = load32 m₀ (pl.base index + f) := fun hi f hf =>
    hword _ fun k hk => not_shared_header hi (by omega) (by omega)
  refine ⟨?_, ?_, ?_, ?_, ?_⟩
  · rintro rfl
    rw [hword _ fun k hk => not_shared_descriptor ?_, h.num]
    simp only [descriptorBytes, MbDesc.subRegionStartOffset, MbDesc.numOfSubRegion]
    omega
  · rintro hi rfl
    rw [hword _ fun k hk => not_shared_descriptor ?_, (h.subRegions _ hi).start]
    simp only [num, descriptorBytes, MbDesc.subRegionStartOffset] at *
    omega
  · rintro hi rfl
    rw [hheader hi _ (by decide)]
    exact (h.subRegions _ hi).num
  · rintro hi rfl
    rw [hheader hi _ (by decide)]
    exact (h.subRegions _ hi).size
  · rintro hs (rfl | rfl)
    · exact hm.in_lt index hs
    · exact hm.out_lt index hs

/-- Whatever a memory has besides shared bytes stays, if the bytes that change are shared;
the indices stay slots, if no changed byte is one of theirs. -/
theorem Intact.storeBytes (hm : pl.Intact m₀ m) {index : UInt32} {a : Nat} {bs : List UInt8}
    (hring : pl.InRing index a bs.length) : pl.Intact m₀ (storeBytes m a bs) := by
  obtain ⟨hs, hle, hend⟩ := hring
  have hword : ∀ j, Serves pl.mbCfg (pl.cfg j) j → ∀ f, MbSubRgnDesc.itemInIndex ≤ f →
      f + 4 ≤ mbSubRegionHeaderSz →
      load32 (ByteMemory.storeBytes m a bs) (pl.base j + f) = load32 m (pl.base j + f) := by
    intro j hj f hf hf'
    refine load32_congr _ _ _ fun k hk => storeBytes_outside _ _ _ _ ?_
    by_cases hij : j = index
    · subst hij
      omega
    · have hapart := regions_apart hj hs hij
      simp only [RangeDisjoint, regionBytes] at hapart hend
      omega
  refine ⟨fun q hq => ?_, fun j hj => ?_, fun j hj => ?_⟩
  · refine (storeBytes_outside _ _ _ _ ?_).trans (hm.same q hq)
    by_contra hin
    refine hq ⟨index, hs, ?_, by omega⟩
    simp only [MbSubRgnDesc.itemInIndex, mbSubRegionHeaderSz] at *
    omega
  · rw [hword j hj _ (by decide) (by decide)]
    exact hm.in_lt j hj
  · rw [hword j hj _ (by decide) (by decide)]
    exact hm.out_lt j hj

theorem Intact.store32 (hm : pl.Intact m₀ m) {index : UInt32} {a : Nat} {v : UInt32}
    (hs : Serves pl.mbCfg (pl.cfg index) index)
    (ha : a = pl.base index + MbSubRgnDesc.itemInIndex ∨
      a = pl.base index + MbSubRgnDesc.itemOutIndex)
    (hv : v.toNat < (pl.cfg index).itemMaxNum.toNat) : pl.Intact m₀ (store32 m a v) := by
  have hrange : pl.base index + MbSubRgnDesc.itemInIndex ≤ a ∧
      a + 4 ≤ pl.base index + mbSubRegionHeaderSz := by
    simp only [MbSubRgnDesc.itemInIndex, MbSubRgnDesc.itemOutIndex, mbSubRegionHeaderSz] at *
    omega
  have hword : ∀ j, Serves pl.mbCfg (pl.cfg j) j → ∀ f,
      f = MbSubRgnDesc.itemInIndex ∨ f = MbSubRgnDesc.itemOutIndex →
      (load32 m (pl.base j + f)).toNat < (pl.cfg j).itemMaxNum.toNat →
      (load32 (ByteMemory.store32 m a v) (pl.base j + f)).toNat <
        (pl.cfg j).itemMaxNum.toNat := by
    intro j hj f hf hlt
    by_cases hsame : pl.base j + f = a
    · by_cases hij : j = index
      · subst hij
        rw [hsame, load32_store32_same]
        exact hv
      · have hapart := regions_apart hj hs hij
        simp only [RangeDisjoint, regionBytes, MbSubRgnDesc.itemInIndex,
          MbSubRgnDesc.itemOutIndex, mbSubRegionHeaderSz] at *
        omega
    · rw [load32_store32_disjoint]
      · exact hlt
      · by_cases hij : j = index
        · subst hij
          simp only [RangeDisjoint, MbSubRgnDesc.itemInIndex, MbSubRgnDesc.itemOutIndex] at *
          omega
        · have hapart := regions_apart hj hs hij
          simp only [RangeDisjoint, regionBytes, MbSubRgnDesc.itemInIndex,
            MbSubRgnDesc.itemOutIndex, mbSubRegionHeaderSz] at *
          omega
  refine ⟨fun q hq => ?_, fun j hj => hword j hj _ (.inl rfl) (hm.in_lt j hj),
    fun j hj => hword j hj _ (.inr rfl) (hm.out_lt j hj)⟩
  refine (store32_outside _ _ _ _ ?_).trans (hm.same q hq)
  by_contra hin
  refine hq ⟨index, hs, by omega, ?_⟩
  simp only [regionBytes]
  omega

/-- A permitted operation is answered as the layout says, and keeps memory intact. -/
theorem Intact.step (h : Created pl.mb pl.mbCfg pl.subregionCfg m₀) (index : UInt32) (o : MemOp)
    (hm : pl.Intact m₀ m) (ho : pl.Permits index o) :
    (pl.monitor index).assumes () ⟨o, (memHandler o m).1⟩ ∧ pl.Intact m₀ (memHandler o m).2 := by
  cases o with
  | getReg a => exact ⟨hm.answers h index a, hm⟩
  | setReg a v => exact ⟨trivial, hm.store32 ho.1 ho.2.1 ho.2.2⟩
  | copyIn a bs => exact ⟨trivial, hm.storeBytes ho⟩
  | copyOut a n => exact ⟨trivial, hm⟩

section Calls
variable {index : UInt32} {α : Type} {Q : α → Unit → Prop}

theorem keeps_getReg {a : Nat} {f : UInt32 → Prog MemSig α} (ha : pl.Permits index (.getReg a))
    (hf : ∀ v, pl.Answers index a v → (pl.monitor index).Keeps Q (f v) ()) :
    (pl.monitor index).Keeps Q (getReg a >>= f) () :=
  ⟨ha, fun v hv => hf v hv⟩

theorem slotCount_lt (g len : Nat) (hg : 0 < g) : slotCount g len * g < len + g := by
  have hle := Nat.div_mul_le_self (len + (g - 1)) g
  rw [slotCount]
  omega

/-- The pieces of a copy lie where the copy lies. -/
theorem keeps_putSlots (g n a : Nat) (bs : List UInt8) (hn : n * g < bs.length + g)
    (hring : pl.InRing index a bs.length) :
    (pl.monitor index).Keeps (fun _ _ => True) (putSlots g n a bs) () := by
  induction n generalizing a bs with
  | zero => trivial
  | succ n ih =>
      obtain ⟨hs, hle, hend⟩ := hring
      rw [Nat.add_mul, Nat.one_mul] at hn
      refine ⟨⟨hs, hle, ?_⟩, fun _ _ => ?_⟩
      · rw [List.length_take]
        omega
      · cases n with
        | zero => trivial
        | succ n =>
            rw [Nat.add_mul, Nat.one_mul] at hn
            refine ih _ _ ?_ ⟨hs, by omega, ?_⟩
            · rw [List.length_drop, Nat.add_mul, Nat.one_mul]
              omega
            · rw [List.length_drop]
              omega

theorem keeps_getSlots (g n a len : Nat) (hn : n * g < len + g)
    (hring : pl.InRing index a len) :
    (pl.monitor index).Keeps (fun _ _ => True) (getSlots g n a len) () := by
  induction n generalizing a len with
  | zero => trivial
  | succ n ih =>
      obtain ⟨hs, hle, hend⟩ := hring
      rw [Nat.add_mul, Nat.one_mul] at hn
      have hrest : (pl.monitor index).Keeps (fun _ _ => True)
          (getSlots g n (a + g) (len - g)) () := by
        cases n with
        | zero => trivial
        | succ n =>
            rw [Nat.add_mul, Nat.one_mul] at hn
            refine ih _ _ ?_ ⟨hs, by omega, by omega⟩
            rw [Nat.add_mul, Nat.one_mul]
            omega
      exact ⟨⟨hs, hle, by omega⟩, fun bs _ => hrest.then fun _ _ _ => trivial⟩

/-- The copies of a transfer stay in the ring, from any slot and for any count that a pair
of indices can give. -/
theorem spans_inRing (hs : Serves pl.mbCfg (pl.cfg index) index) {first itemNum : UInt32}
    (hfirst : first.toNat < (pl.cfg index).itemMaxNum.toNat)
    (hnum : itemNum.toNat ≤ (pl.cfg index).itemMaxNum.toNat) {sp : Span}
    (hsp : sp ∈ ringSpans first itemNum (pl.cfg index).itemMaxNum (pl.cfg index).itemMaxSize) :
    pl.InRing index (pl.base index + mbSubRegionHeaderSz + sp.slot) sp.len := by
  have hmax := ((subRegionCovered_iff _).mp (pl.checked.covered _ hs.1)).1
  have hbytes := pl.bytes_lt _ hs.1
  have htiles := ringSpans_tiles first itemNum _ (pl.cfg index).itemMaxSize
    (UInt32.lt_iff_toNat_lt.mpr hfirst) (UInt32.le_iff_toNat_le.mpr hnum) hmax (by
      simp only [itemBytes] at hbytes
      simp only [cfg]
      omega)
  have hinside : ∀ (spans : List Span) (off total : Nat),
      Tiles ((pl.cfg index).itemMaxNum.toNat * (pl.cfg index).itemMaxSize.toNat)
        (first.toNat * (pl.cfg index).itemMaxSize.toNat) off spans total → ∀ sp ∈ spans,
      sp.slot + sp.len ≤ (pl.cfg index).itemMaxNum.toNat * (pl.cfg index).itemMaxSize.toNat := by
    intro spans
    induction spans with
    | nil => exact fun _ _ _ sp hsp => absurd hsp List.not_mem_nil
    | cons s rest ih =>
        rintro off total ⟨-, -, hfit, hrest⟩ sp hsp
        cases List.mem_cons.mp hsp with
        | inl heq => exact heq ▸ hfit
        | inr hin => exact ih _ _ hrest sp hin
  have hfit := hinside _ _ _ htiles sp hsp
  exact ⟨hs, Nat.le_add_right _ _, by simp only [regionBytes, itemBytes]; omega⟩

theorem keeps_copyIntoRing (g : Nat) (hg : 0 < g) (source : Mem) (spans : List Span)
    (hspans : ∀ sp ∈ spans,
      pl.InRing index (pl.base index + mbSubRegionHeaderSz + sp.slot) sp.len) :
    (pl.monitor index).Keeps (fun _ _ => True)
      ((copyIntoRing (pl.base index + mbSubRegionHeaderSz) source spans).expand (slotwise g))
      () := by
  induction spans with
  | nil => trivial
  | cons sp rest ih =>
      simp only [copyIntoRing, copyIn, Prog.expand_bind, expand_putBytes, loadBytes_length]
      refine (keeps_putSlots g _ _ _ ?_ ?_).then fun _ _ _ =>
        ih fun sp' hsp' => hspans sp' (List.mem_cons_of_mem _ hsp')
      · rw [loadBytes_length]
        exact slotCount_lt g _ hg
      · rw [loadBytes_length]
        exact hspans sp List.mem_cons_self

theorem keeps_copyFromRing (g : Nat) (hg : 0 < g) (dest : Mem) (spans : List Span)
    (hspans : ∀ sp ∈ spans,
      pl.InRing index (pl.base index + mbSubRegionHeaderSz + sp.slot) sp.len) :
    (pl.monitor index).Keeps (fun _ _ => True)
      ((copyFromRing (pl.base index + mbSubRegionHeaderSz) dest spans).expand (slotwise g))
      () := by
  induction spans generalizing dest with
  | nil => trivial
  | cons sp rest ih =>
      simp only [copyFromRing, copyOut, Prog.expand_bind, expand_getBytes, Prog.pure_eq,
        Prog.expand_ret, Prog.bind_bind]
      refine (keeps_getSlots g _ _ _ (slotCount_lt g _ hg) (hspans sp List.mem_cons_self)).then
        fun bs _ _ => ih _ fun sp' hsp' => hspans sp' (List.mem_cons_of_mem _ hsp')

theorem permits_fixed {f : Nat} (hf : f + 4 ≤ 32) : pl.Permits index (.getReg (pl.mb + f)) := by
  refine .inl ⟨Nat.le_add_right _ _, ?_⟩
  simp only [descriptorBytes, MbDesc.subRegionStartOffset]
  omega

theorem permits_header (hindex : index.toNat < pl.num) {f : Nat}
    (hf : f + 4 ≤ mbSubRegionHeaderSz) : pl.Permits index (.getReg (pl.base index + f)) :=
  .inr ⟨hindex, Nat.le_add_right _ _, by omega⟩

/-- The sanity check passes on no sub-region but one that serves calls. -/
theorem keeps_sanityCheck (g : Nat) (hindex : index.toNat < pl.num) :
    (pl.monitor index).Keeps
      (fun b _ => b = true → Serves pl.mbCfg (pl.cfg index) index)
      ((libMBMailboxSanityCheck (pl.base index)).expand (slotwise g)) () := by
  have hmb := pl.mb_ne_null
  have hbase : pl.base index ≠ null := by
    simp only [base, null] at *
    omega
  rw [libMBMailboxSanityCheck, if_pos hbase]
  simp only [Prog.expand_bind, expand_getReg, Prog.pure_eq, Prog.expand_ret]
  refine keeps_getReg (permits_header hindex (by decide)) fun num hnum => ?_
  refine keeps_getReg (permits_header hindex (by decide)) fun size hsize => ?_
  refine keeps_getReg (permits_header hindex (by decide)) fun w _ => ?_
  refine keeps_getReg (permits_header hindex (by decide)) fun r _ => ?_
  have hnum := hnum.maxItemNum hindex rfl
  have hsize := hsize.maxItemSize hindex rfl
  subst hnum hsize
  intro hb
  simp only [Bool.not_eq_true', Bool.or_eq_false_iff, decide_eq_false_iff_not, ge_iff_le,
    UInt32.not_le, UInt32.not_lt, gt_iff_lt] at hb
  exact ⟨hindex, Nat.zero_lt_of_lt (UInt32.lt_iff_toNat_lt.mp hb.2), hb.1.1.2⟩

theorem keeps_onSubRegion (g : Nat) (fail : Int → α) (body : Nat → Prog MemSig α)
    (hbody : Serves pl.mbCfg (pl.cfg index) index →
      (pl.monitor index).Keeps (fun _ _ => True) ((body (pl.base index)).expand (slotwise g)) ()) :
    (pl.monitor index).Keeps (fun _ _ => True)
      ((onSubRegion pl.mb index fail body).expand (slotwise g)) () := by
  simp only [onSubRegion, Prog.expand_bind, expand_getReg, Prog.expand_ite]
  refine keeps_getReg (permits_fixed (by decide)) fun magic _ => .guard (fun _ => ?_) fun _ => ?_
  · refine keeps_getReg (permits_fixed (by decide)) fun num hnum =>
      .guard (fun hlt => ?_) fun _ => ?_
    · have hnum := hnum.num rfl
      subst hnum
      have hindex : index.toNat < pl.num := UInt32.lt_iff_toNat_lt.mp hlt
      refine keeps_getReg (.inl ⟨Nat.le_add_right _ _, ?_⟩) fun start hstart => ?_
      · simp only [num, descriptorBytes, MbDesc.subRegionStartOffset] at *
        omega
      · have hstart := hstart.start hindex rfl
        subst hstart
        refine (keeps_sanityCheck g hindex).then fun b _ hb => .guard (fun hsane => ?_) fun _ => ?_
        · exact hbody (hb hsane)
        · trivial
    · trivial
  · trivial

section Served
variable (hs : Serves pl.mbCfg (pl.cfg index) index)
include hs

theorem header_answer {f : Nat} (hf : f + 4 ≤ mbSubRegionHeaderSz)
    {p : UInt32 → Prog MemSig α} (hp : ∀ v, pl.Answers index (pl.base index + f) v →
      (pl.monitor index).Keeps Q (p v) ()) :
    (pl.monitor index).Keeps Q (getReg (pl.base index + f) >>= p) () :=
  keeps_getReg (permits_header hs.1 hf) hp

/-- A count of free items is less than the ring has slots, however stale its indices. -/
theorem keeps_freeItem (g : Nat) :
    (pl.monitor index).Keeps (fun f _ => f.toNat ≤ (pl.cfg index).itemMaxNum.toNat)
      ((libMBFreeItem (pl.base index)).expand (slotwise g)) () := by
  simp only [libMBFreeItem, Prog.expand_bind, expand_getReg, Prog.expand_ite, Prog.pure_eq,
    Prog.expand_ret]
  refine header_answer hs (by decide) fun w hw => header_answer hs (by decide) fun r hr => ?_
  have hw := hw.indices hs (.inl rfl)
  have hr := hr.indices hs (.inr rfl)
  have hcount := vacant_toNat (pl.cfg index).itemMaxNum w r hw hr
  refine .guard (fun hle => header_answer hs (by decide) fun num hnum => ?_) fun hle => ?_
  · have hnum := hnum.maxItemNum hs.1 rfl
    subst hnum
    rw [if_pos hle] at hcount
    change (_ - w + r - 1 : UInt32).toNat ≤ _
    omega
  · rw [if_neg hle] at hcount
    change (r - w - 1 : UInt32).toNat ≤ _
    omega

theorem keeps_validItem (g : Nat) :
    (pl.monitor index).Keeps (fun v _ => v.toNat ≤ (pl.cfg index).itemMaxNum.toNat)
      ((libMBValidItem (pl.base index)).expand (slotwise g)) () := by
  simp only [libMBValidItem, Prog.expand_bind, expand_getReg, Prog.expand_ite, Prog.pure_eq,
    Prog.expand_ret]
  refine header_answer hs (by decide) fun w hw => header_answer hs (by decide) fun r hr => ?_
  have hw := hw.indices hs (.inl rfl)
  have hr := hr.indices hs (.inr rfl)
  have hcount := occupied_toNat (pl.cfg index).itemMaxNum w r hr
  have hlt := count_lt _ _ _ hw hr
  refine .guard (fun hle => ?_) fun hle => header_answer hs (by decide) fun num hnum => ?_
  · rw [if_pos hle] at hcount
    change (w - r : UInt32).toNat ≤ _
    omega
  · have hnum := hnum.maxItemNum hs.1 rfl
    subst hnum
    rw [if_neg hle] at hcount
    change (_ - r + w : UInt32).toNat ≤ _
    omega

/-- An index that is stored is a slot of the ring again. -/
theorem keeps_setIndex {f : Nat} (hf : f = MbSubRgnDesc.itemInIndex ∨ f = MbSubRgnDesc.itemOutIndex)
    (v : UInt32) (hv : v.toNat < (pl.cfg index).itemMaxNum.toNat) {p : Unit → Prog MemSig α}
    (hp : (pl.monitor index).Keeps Q (p ()) ()) :
    (pl.monitor index).Keeps Q (setReg (pl.base index + f) v >>= p) () :=
  ⟨⟨hs, hf.imp (congrArg _) (congrArg _), hv⟩, fun _ _ => hp⟩

theorem advance_lt (first itemNum : UInt32) :
    ((first + itemNum) % (pl.cfg index).itemMaxNum).toNat < (pl.cfg index).itemMaxNum.toNat := by
  rw [UInt32.toNat_mod]
  exact Nat.mod_lt _ hs.2.1

theorem keeps_writeItem (g : Nat) (hg : 0 < g) (source : Mem) (itemNum : UInt32)
    (hnum : itemNum.toNat ≤ (pl.cfg index).itemMaxNum.toNat) :
    (pl.monitor index).Keeps (fun _ _ => True)
      ((libMBWriteItem (pl.base index) source itemNum).expand (slotwise g)) () := by
  simp only [libMBWriteItem, Prog.expand_bind, expand_getReg, Prog.expand_ite, Prog.pure_eq,
    Prog.expand_ret, expand_setReg]
  refine header_answer hs (by decide) fun size hsize => ?_
  refine header_answer hs (by decide) fun w hw => ?_
  refine header_answer hs (by decide) fun num hnumReg => .guard (fun _ => trivial) fun _ => ?_
  have hsize := hsize.maxItemSize hs.1 rfl
  have hw := hw.indices hs (.inl rfl)
  have hnumReg := hnumReg.maxItemNum hs.1 rfl
  subst hsize hnumReg
  refine (keeps_copyIntoRing g hg source _ fun sp hsp => spans_inRing hs hw hnum hsp).then
    fun _ _ _ => ?_
  exact keeps_setIndex hs (.inl rfl) _ (advance_lt hs w itemNum) trivial

theorem keeps_readItem (g : Nat) (hg : 0 < g) (dest : Mem) (itemNum : UInt32)
    (hnum : itemNum.toNat ≤ (pl.cfg index).itemMaxNum.toNat) :
    (pl.monitor index).Keeps (fun _ _ => True)
      ((libMBReadItem (pl.base index) dest itemNum).expand (slotwise g)) () := by
  simp only [libMBReadItem, Prog.expand_bind, expand_getReg, Prog.expand_ite, Prog.pure_eq,
    Prog.expand_ret, expand_setReg]
  refine header_answer hs (by decide) fun size hsize => ?_
  refine header_answer hs (by decide) fun r hr => ?_
  refine header_answer hs (by decide) fun num hnumReg => .guard (fun _ => trivial) fun _ => ?_
  have hsize := hsize.maxItemSize hs.1 rfl
  have hr := hr.indices hs (.inr rfl)
  have hnumReg := hnumReg.maxItemNum hs.1 rfl
  subst hsize hnumReg
  refine (keeps_copyFromRing g hg dest _ fun sp hsp => spans_inRing hs hr hnum hsp).then
    fun _ _ _ => ?_
  exact keeps_setIndex hs (.inr rfl) _ (advance_lt hs r itemNum) trivial

end Served

/-- Every call stays with the index that it names. -/
theorem keeps_call (g : Nat) (hg : 0 < g) (index : UInt32) (c : RingCall) :
    (pl.monitor index).Keeps (fun _ _ => True)
      ((mailboxClient pl.mb g).prog (index, c)) () := by
  have hcounted : ∀ count : Nat → Prog MemSig UInt32,
      (∀ _ : Serves pl.mbCfg (pl.cfg index) index, (pl.monitor index).Keeps
        (fun v _ => v.toNat ≤ (pl.cfg index).itemMaxNum.toNat)
        ((count (pl.base index)).expand (slotwise g)) ()) →
      (pl.monitor index).Keeps (fun _ _ => True)
        ((onSubRegion pl.mb index id fun base => do
          let n ← count base
          pure (int32 n.toNat)).expand (slotwise g)) () := fun count hcount =>
    keeps_onSubRegion g _ _ fun hs => by
      simp only [Prog.expand_bind, Prog.pure_eq, Prog.expand_ret]
      exact (hcount hs).then fun _ _ _ => trivial
  cases c with
  | write source itemNum =>
      simp only [mailboxClient, RingCall.prog, libMBWrite, if_pos pl.mb_ne_null, Prog.expand_bind,
        Prog.pure_eq, Prog.expand_ret]
      refine (keeps_onSubRegion g _ _ fun hs => ?_).then fun _ _ _ => trivial
      simp only [Prog.expand_bind, Prog.expand_ite, Prog.expand_ret]
      refine (keeps_freeItem hs g).then fun free _ hfree => .guard (fun hle => ?_) fun _ => trivial
      have hnum := Nat.le_trans (UInt32.le_iff_toNat_le.mp hle) hfree
      exact (keeps_writeItem hs g hg source itemNum hnum).then fun _ _ _ => trivial
  | read dest itemNum =>
      simp only [mailboxClient, RingCall.prog, libMBRead, if_pos pl.mb_ne_null]
      refine keeps_onSubRegion g _ _ fun hs => ?_
      simp only [Prog.expand_bind, Prog.expand_ite, Prog.pure_eq, Prog.expand_ret]
      refine (keeps_validItem hs g).then fun valid _ hvalid => .guard (fun _ => ?_) fun _ => trivial
      have hnum : (if valid < itemNum then valid else itemNum).toNat ≤
          (pl.cfg index).itemMaxNum.toNat := by
        split
        · exact hvalid
        · exact Nat.le_trans (UInt32.le_iff_toNat_le.mp (UInt32.not_lt.mp ‹_›)) hvalid
      exact (keeps_readItem hs g hg dest _ hnum).then fun _ _ _ => trivial
  | chanReset =>
      simp only [mailboxClient, RingCall.prog, libMBChanReset, if_pos pl.mb_ne_null,
        Prog.expand_bind, Prog.pure_eq, Prog.expand_ret]
      refine (keeps_onSubRegion g _ _ fun hs => ?_).then fun _ _ _ => trivial
      simp only [Prog.expand_ite, Prog.expand_bind, expand_setReg, Prog.expand_ret]
      exact .guard (fun _ => keeps_setIndex hs (.inl rfl) 0 hs.2.1
        (keeps_setIndex hs (.inr rfl) 0 hs.2.1 trivial)) fun _ => trivial
  | getFreeItemNum =>
      simp only [mailboxClient, RingCall.prog, libMBGetFreeItemNum, if_pos pl.mb_ne_null,
        Prog.expand_bind, Prog.pure_eq, Prog.expand_ret]
      exact (hcounted _ fun hs => keeps_freeItem hs g).then fun _ _ _ => trivial
  | getValidItemNum =>
      simp only [mailboxClient, RingCall.prog, libMBGetValidItemNum, if_pos pl.mb_ne_null,
        Prog.expand_bind, Prog.pure_eq, Prog.expand_ret]
      exact (hcounted _ fun hs => keeps_validItem hs g).then fun _ _ _ => trivial

end Calls

/-- The channel of a sub-region stays one that calls are let through to. -/
theorem Intact.consistent (h : Created pl.mb pl.mbCfg pl.subregionCfg m₀) (hm : pl.Intact m₀ m)
    (index : UInt32) (hs : Serves pl.mbCfg (pl.cfg index) index) :
    (pl.channel index hs).Consistent m := by
  have hanswer := fun a => hm.answers h index a
  refine ⟨⟨?_, ?_, ?_, ?_, ?_⟩, hm.in_lt index hs, hm.out_lt index hs⟩
  · have hmagic : load32 m (pl.mb + MbDesc.magic) = load32 m₀ (pl.mb + MbDesc.magic) :=
      load32_congr _ _ _ fun k hk => hm.same _ (not_shared_descriptor (by
        simp only [descriptorBytes, MbDesc.subRegionStartOffset, MbDesc.magic]
        omega))
    exact hmagic.trans h.magic
  · change index < load32 m (pl.mb + MbDesc.numOfSubRegion)
    rw [(hanswer _).num rfl]
    exact UInt32.lt_iff_toNat_lt.mpr hs.1
  · exact congrArg (pl.mb + UInt32.toNat ·) ((hanswer _).start hs.1 rfl)
  · exact (hanswer _).maxItemNum hs.1 rfl
  · exact (hanswer _).maxItemSize hs.1 rfl

end MailboxPlan

/-- However the calls of any number of threads interleave, piece by piece, no byte outside
the shared ones changes, every channel stays one that serves calls, and each thread is
about to do nothing but what the index of its call permits. -/
theorem mailbox_threads_safe (pl : MailboxPlan) {ι : Type} [DecidableEq ι] (g : Nat)
    (hg : 0 < g) (m : Mem) (x : Pool Unit fun _ : ι => mailboxClient pl.mb g)
    (hx : Pool.Reachable memHandler (fun _ => []) (pl.created m) x) :
    (∀ q, ¬ pl.Shared q → x.state q = pl.created m q) ∧
      (∀ index hs, (pl.channel index hs).Consistent x.state) ∧
        ∀ i, (x.threads i).Next fun (call : UInt32 × RingCall) o => pl.Permits call.1 o := by
  have hcreated := pl.created_created m
  have hop : ∀ (_ : ι) (call : UInt32 × RingCall) (o : MemOp) (s : Mem),
      pl.Intact (pl.created m) s → (pl.monitor call.1).allows () o →
      (pl.monitor call.1).assumes () ⟨o, (memHandler o s).1⟩ ∧
        pl.Intact (pl.created m) (memHandler o s).2 :=
    fun _ call o _ hs ho => hs.step hcreated call.1 o ho
  obtain ⟨hintact, hnext⟩ := hx.safe hop (fun _ _ _ _ hs => hs)
    (fun _ (call : UInt32 × RingCall) => MailboxPlan.keeps_call g hg call.1 call.2)
    (MailboxPlan.created_intact hcreated)
  exact ⟨hintact.same, fun index hs => hintact.consistent hcreated index hs, hnext⟩

/-- A mailbox of two sub-regions. -/
def twoRegionPlan : MailboxPlan where
  mb := 4096
  mbCfg := { oneRegionMailbox 1024 with numSubRegions := 2 }
  subregionCfg := twoSubRegions
  mb_ne_null := Channel.sample.mb_ne_null
  checked := (checked_iff _ _).mp (by decide)
  size_ne := by decide
  bytes_lt := by decide

/-- A reset by one thread, which has one more index to store, amid the second piece of a
write to the same index by another one. -/
theorem mailbox_threads_safe_sample :
    ∃ x : Pool Unit fun _ : Bool => mailboxClient twoRegionPlan.mb 1,
      Pool.Reachable memHandler (fun _ => []) (twoRegionPlan.created fun _ => 0) x ∧
        x.threads true ≠ .idle ∧ x.threads false ≠ .idle ∧
          x.state 4205 = 7 ∧ x.state 4206 = 0 ∧
            ∀ q, ¬ twoRegionPlan.Shared q → x.state q = twoRegionPlan.created (fun _ => 0) q := by
  have hstart : Pool.Reachable memHandler (fun _ => []) (twoRegionPlan.created fun _ => 0)
      (⟨fun _ => .idle, twoRegionPlan.created fun _ => 0⟩ :
        Pool Unit fun _ : Bool => mailboxClient twoRegionPlan.mb 1) := .refl
  have hwrite := Relation.ReflTransGen.tail hstart
    (Pool.Step.thread _ true (.start ((0, .write (fun _ => 7) 2) : UInt32 × RingCall) _))
  have hreset := Relation.ReflTransGen.tail hwrite
    (Pool.Step.thread _ false (.start ((0, .chanReset) : UInt32 × RingCall) _))
  have hreach := Pool.Reachable.turns hreset
    [true, false, true, false, true, false, true, false, true, false, true, false, true, false,
      true, false, true, true, true, true, true, true, true]
  refine ⟨_, hreach, ?_, ?_, ?_, ?_, ?_⟩
  · rintro ⟨⟩
  · rintro ⟨⟩
  · decide
  · decide
  · exact (mailbox_threads_safe twoRegionPlan 1 (by decide) (fun _ => 0) _ hreach).1

end RtssMailbox
