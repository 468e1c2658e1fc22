import RtssMailbox.RingQueue
import RtssMailbox.MappedBounds

/-!
All channels of a mailbox lie in one memory, at offsets that the memory itself holds.
What a call accesses is bounded by the descriptor and one sub-region, and what it
writes by the words and slots of its kind, so that calls on other sub-regions cannot
be told from no calls.
-/
namespace RtssMailbox
open Effects ByteMemory CyclicBuffer Refinement

/-- Alone, the program accesses only addresses of `A` and writes only those of `W`. -/
def Confined {α : Type} (A W : Nat → Prop) (p : Prog MemSig α) (m : Mem) : Prop :=
  ∀ o : MemOp, o ∈ trace p m → (∀ q ∈ o.bytes, A q) ∧ ∀ q ∈ o.written, W q

namespace Confined
variable {α β : Type} {A W : Nat → Prop} {m m' : Mem}

theorem mono {W' : Nat → Prop} {p : Prog MemSig α} (hp : Confined A W p m)
    (hW : ∀ q, W q → W' q) : Confined A W' p m :=
  fun o ho => ⟨(hp o ho).1, fun q hq => hW q ((hp o ho).2 q hq)⟩

theorem ret (a : α) : Confined A W (.ret a) m := fun _ ho => nomatch ho

theorem bind {p : Prog MemSig α} {f : α → Prog MemSig β} (hp : Confined A W p m)
    (hf : Confined A W (f (p.run memHandler m).1) (p.run memHandler m).2) :
    Confined A W (p >>= f) m := by
  intro o ho
  rw [trace, Prog.ops_bind] at ho
  cases List.mem_append.mp ho with
  | inl hin => exact hp o hin
  | inr hin => exact hf o hin

theorem getReg {a : Nat} (ha : ∀ q, a ≤ q → q < a + 4 → A q) :
    Confined A W (RtssMailbox.getReg a) m := by
  intro o ho
  cases List.mem_singleton.mp ho
  refine ⟨fun q hq => ?_, fun _ hq => nomatch hq⟩
  obtain ⟨hle, hlt⟩ := (mem_byteRange a 4 q).mp hq
  exact ha q hle hlt

theorem getReg_bind {a : Nat} {f : UInt32 → Prog MemSig β}
    (ha : ∀ q, a ≤ q → q < a + 4 → A q) (hf : Confined A W (f (load32 m a)) m) :
    Confined A W (RtssMailbox.getReg a >>= f) m :=
  .bind (.getReg ha) (by rwa [run_getReg])

theorem setReg {a : Nat} {v : UInt32} (ha : ∀ q, a ≤ q → q < a + 4 → A q ∧ W q) :
    Confined A W (RtssMailbox.setReg a v) m := by
  intro o ho
  cases List.mem_singleton.mp ho
  constructor
  · intro q hq
    obtain ⟨hle, hlt⟩ := (mem_byteRange a 4 q).mp hq
    exact (ha q hle hlt).1
  · intro q hq
    obtain ⟨hle, hlt⟩ := (mem_byteRange a 4 q).mp hq
    exact (ha q hle hlt).2

theorem guard {c : Prop} [Decidable c] {p q : Prog MemSig α} (hp : c → Confined A W p m)
    (hq : ¬ c → Confined A W q m) : Confined A W (if c then p else q) m := by
  split
  · exact hp ‹_›
  · exact hq ‹_›

theorem run_outside {p : Prog MemSig α} (hp : Confined A W p m) {q : Nat} (hq : ¬ W q) :
    (p.run memHandler m).2 q = m q := by
  induction p generalizing m with
  | ret a => rfl
  | op o k ih =>
      have hrest : Confined A W (k (memHandler o m).1) (memHandler o m).2 :=
        fun o' ho' => hp o' (List.mem_cons_of_mem _ ho')
      have hfirst := (hp o List.mem_cons_self).2
      refine (ih _ hrest).trans ?_
      cases o with
      | getReg a | copyOut a n => rfl
      | setReg a v =>
          refine storeBytes_outside _ _ _ _ ?_
          by_contra hin
          exact hq (hfirst q ((mem_byteRange a 4 q).mpr (by rw [le32_length] at hin; omega)))
      | copyIn a bs =>
          refine storeBytes_outside _ _ _ _ ?_
          by_contra hin
          exact hq (hfirst q ((mem_byteRange a bs.length q).mpr (by omega)))

/-- An operation answers the same in memories that agree where it looks, and they
agree as far as before. -/
theorem memHandler_agree (o : MemOp) (ho : ∀ q ∈ o.bytes, A q) (hagree : ∀ q, A q → m' q = m q) :
    (memHandler o m').1 = (memHandler o m).1 ∧
      ∀ q, A q → (memHandler o m').2 q = (memHandler o m).2 q := by
  cases o with
  | getReg a =>
      refine ⟨load32_congr _ _ _ fun i hi => hagree _ (ho _ ?_), hagree⟩
      exact (mem_byteRange a 4 _).mpr ⟨Nat.le_add_right a i, Nat.add_lt_add_left hi a⟩
  | copyOut a n =>
      refine ⟨loadBytes_congr _ _ _ _ fun i hi => hagree _ (ho _ ?_), hagree⟩
      exact (mem_byteRange a n _).mpr ⟨Nat.le_add_right a i, Nat.add_lt_add_left hi a⟩
  | setReg a v =>
      refine ⟨rfl, fun q hq => ?_⟩
      simp only [memHandler, store32, storeBytes, hagree q hq]
  | copyIn a bs =>
      refine ⟨rfl, fun q hq => ?_⟩
      simp only [memHandler, storeBytes, hagree q hq]

/-- The run depends on nothing outside of what the program accesses. -/
theorem run_agree {p : Prog MemSig α} (hp : Confined A W p m) (hagree : ∀ q, A q → m' q = m q) :
    (p.run memHandler m').1 = (p.run memHandler m).1 ∧
      ∀ q, A q → (p.run memHandler m').2 q = (p.run memHandler m).2 q := by
  induction p generalizing m m' with
  | ret a => exact ⟨rfl, hagree⟩
  | op o k ih =>
      have hrest : Confined A W (k (memHandler o m).1) (memHandler o m).2 :=
        fun o' ho' => hp o' (List.mem_cons_of_mem _ ho')
      obtain ⟨hres, hnext⟩ := memHandler_agree o (hp o List.mem_cons_self).1 hagree
      obtain ⟨hval, hend⟩ := ih _ hrest hnext
      simp only [Prog.run]
      rw [hres]
      exact ⟨hval, hend⟩

end Confined

def InDescriptor (mb : Nat) (m : Mem) (q : Nat) : Prop :=
  mb ≤ q ∧ q < mb + MbDesc.subRegionStartOffset (load32 m (mb + MbDesc.numOfSubRegion)).toNat

/-- The size of a sub-region: its header and all its slots. -/
def subRegionSize (m : Mem) (base : Nat) : Nat :=
  mbSubRegionHeaderSz + (capacity m base).toNat * (slotSize m base).toNat

def InSubRegion (m : Mem) (base q : Nat) : Prop := base ≤ q ∧ q < base + subRegionSize m base

/-- The descriptor and the sub-regions share no byte. -/
structure Isolated (mb : Nat) (m : Mem) : Prop where
  magic : load32 m (mb + MbDesc.magic) = mbMagicNumber
  bytes_lt : ∀ i < load32 m (mb + MbDesc.numOfSubRegion),
    (capacity m (subRegionBase mb i m)).toNat * (slotSize m (subRegionBase mb i m)).toNat <
      4294967296
  behind : ∀ i < load32 m (mb + MbDesc.numOfSubRegion), ∀ q,
    InSubRegion m (subRegionBase mb i m) q → ¬ InDescriptor mb m q
  apart : ∀ i < load32 m (mb + MbDesc.numOfSubRegion),
    ∀ j < load32 m (mb + MbDesc.numOfSubRegion), i ≠ j → ∀ q,
    InSubRegion m (subRegionBase mb i m) q → ¬ InSubRegion m (subRegionBase mb j m) q

/-- The bytes that a call on the sub-region at `base` may change. -/
def RingCall.Changes (m : Mem) (base : Nat) : RingCall → Nat → Prop
  | .write _ itemNum, q => q ∈ byteRange (base + MbSubRgnDesc.itemInIndex) 4 ∨
      q ∈ slotBytes (base + mbSubRegionHeaderSz) (capacity m base).toNat (slotSize m base).toNat
        (load32 m (base + MbSubRgnDesc.itemInIndex)).toNat itemNum.toNat
  | .read _ _, q => q ∈ byteRange (base + MbSubRgnDesc.itemOutIndex) 4
  | .chanReset, q => q ∈ byteRange (base + MbSubRgnDesc.itemInIndex) 4 ∨
      q ∈ byteRange (base + MbSubRgnDesc.itemOutIndex) 4
  | .getFreeItemNum, _ | .getValidItemNum, _ => False

/-- What a call on a sub-region may look at: the descriptor, and the sub-region if there is one. -/
def Visible (mb : Nat) (index : UInt32) (m : Mem) (q : Nat) : Prop :=
  InDescriptor mb m q ∨ index < load32 m (mb + MbDesc.numOfSubRegion) ∧
    InSubRegion m (subRegionBase mb index m) q

section Calls
variable {mb : Nat} {index : UInt32} {m : Mem} {W : Nat → Prop}

theorem visible_fixed {f : Nat} (hf : f + 4 ≤ 32) :
    ∀ q, mb + f ≤ q → q < mb + f + 4 → Visible mb index m q := by
  intro q hle hlt
  refine .inl ⟨by omega, ?_⟩
  simp only [MbDesc.subRegionStartOffset]
  omega

theorem visible_start (hindex : index < load32 m (mb + MbDesc.numOfSubRegion)) :
    ∀ q, mb + MbDesc.subRegionStartOffset index.toNat ≤ q →
      q < mb + MbDesc.subRegionStartOffset index.toNat + 4 → Visible mb index m q := by
  intro q hle hlt
  rw [UInt32.lt_iff_toNat_lt] at hindex
  simp only [MbDesc.subRegionStartOffset] at hle hlt
  exact .inl ⟨by omega, by simp only [MbDesc.subRegionStartOffset]; omega⟩

theorem visible_header (hindex : index < load32 m (mb + MbDesc.numOfSubRegion)) {f : Nat}
    (hf : f + 4 ≤ mbSubRegionHeaderSz) :
    ∀ q, subRegionBase mb index m + f ≤ q → q < subRegionBase mb index m + f + 4 →
      Visible mb index m q := by
  intro q hle hlt
  refine .inr ⟨hindex, by omega, ?_⟩
  rw [subRegionSize]
  omega

theorem slot_inSubRegion {base first k q : Nat} (hcap : 0 < (capacity m base).toNat)
    (hq : q ∈ slotBytes (base + mbSubRegionHeaderSz) (capacity m base).toNat
      (slotSize m base).toNat first k) :
    base + mbSubRegionHeaderSz ≤ q ∧ q < base + subRegionSize m base := by
  obtain ⟨j, -, hle, hlt⟩ := (mem_slotBytes _ _ _ _ _ _).mp hq
  have hslot : ((first + j) % (capacity m base).toNat + 1) * (slotSize m base).toNat ≤
      (capacity m base).toNat * (slotSize m base).toNat :=
    Nat.mul_le_mul_right _ (Nat.mod_lt _ hcap)
  rw [Nat.add_mul, Nat.one_mul] at hslot
  rw [subRegionSize]
  omega

theorem visible_slot (hindex : index < load32 m (mb + MbDesc.numOfSubRegion))
    (hcap : 0 < (capacity m (subRegionBase mb index m)).toNat) {first k q : Nat}
    (hq : q ∈ slotBytes (subRegionBase mb index m + mbSubRegionHeaderSz)
      (capacity m (subRegionBase mb index m)).toNat
      (slotSize m (subRegionBase mb index m)).toNat first k) : Visible mb index m q := by
  obtain ⟨hle, hlt⟩ := slot_inSubRegion hcap hq
  exact .inr ⟨hindex, Nat.le_trans (Nat.le_add_right _ _) hle, hlt⟩

theorem confined_sanityCheck (hindex : index < load32 m (mb + MbDesc.numOfSubRegion)) :
    Confined (Visible mb index m) W (libMBMailboxSanityCheck (subRegionBase mb index m)) m := by
  refine .guard (fun _ => ?_) fun _ => .ret _
  refine .getReg_bind (visible_header hindex (by decide)) ?_
  refine .getReg_bind (visible_header hindex (by decide)) ?_
  refine .getReg_bind (visible_header hindex (by decide)) ?_
  exact .getReg_bind (visible_header hindex (by decide)) (.ret _)

/-- The checks of a call look at the descriptor and at the header of its sub-region. -/
theorem confined_onSubRegion {α : Type} {fail : Int → α} {body : Nat → Prog MemSig α}
    (hbody : subRegionAt mb index m = .ok (subRegionBase mb index m) →
      Confined (Visible mb index m) W (body (subRegionBase mb index m)) m) :
    Confined (Visible mb index m) W (onSubRegion mb index fail body) m := by
  refine .getReg_bind (visible_fixed (by decide)) (.guard (fun hmagic => ?_) fun _ => .ret _)
  refine .getReg_bind (visible_fixed (by decide)) (.guard (fun hindex => ?_) fun _ => .ret _)
  refine .getReg_bind (visible_start hindex) (.bind (confined_sanityCheck hindex) ?_)
  rw [run_libMBMailboxSanityCheck]
  refine .guard (fun hsane => hbody ?_) fun _ => .ret _
  rw [subRegionAt, if_pos hmagic, if_pos hindex, if_pos hsane]
  rfl

theorem confined_freeItem (hindex : index < load32 m (mb + MbDesc.numOfSubRegion)) :
    Confined (Visible mb index m) W (libMBFreeItem (subRegionBase mb index m)) m := by
  refine .getReg_bind (visible_header hindex (by decide)) ?_
  refine .getReg_bind (visible_header hindex (by decide)) (.guard (fun _ => ?_) fun _ => .ret _)
  exact .getReg_bind (visible_header hindex (by decide)) (.ret _)

theorem confined_validItem (hindex : index < load32 m (mb + MbDesc.numOfSubRegion)) :
    Confined (Visible mb index m) W (libMBValidItem (subRegionBase mb index m)) m := by
  refine .getReg_bind (visible_header hindex (by decide)) ?_
  refine .getReg_bind (visible_header hindex (by decide)) (.guard (fun _ => .ret _) fun _ => ?_)
  exact .getReg_bind (visible_header hindex (by decide)) (.ret _)

/-- The copies of a transfer stay in the slots that it uses, at any wrap point. -/
theorem span_slots {base : Nat} {first itemNum : UInt32}
    (hfirst : first.toNat < (capacity m base).toNat)
    (hnum : itemNum.toNat ≤ (capacity m base).toNat)
    (hmax : (capacity m base).toNat ≤ 1048576)
    (hbytes : (capacity m base).toNat * (slotSize m base).toNat < 4294967296) {sp : Span}
    (hsp : sp ∈ ringSpans first itemNum (capacity m base) (slotSize m base)) {q : Nat}
    (hq : q ∈ byteRange (base + mbSubRegionHeaderSz + sp.slot) sp.len) :
    q ∈ slotBytes (base + mbSubRegionHeaderSz) (capacity m base).toNat (slotSize m base).toNat
      first.toNat itemNum.toNat := by
  have hmin : min (first.toNat + itemNum.toNat) (capacity m base).toNat *
      (slotSize m base).toNat < 4294967296 :=
    Nat.lt_of_le_of_lt (Nat.mul_le_mul_right _ (Nat.min_le_right _ _)) hbytes
  rw [← ringSpans_bytes _ _ _ _ _ hfirst hnum hmax hmin]
  exact List.mem_flatMap.mpr ⟨sp, hsp, hq⟩

theorem confined_copyIntoRing {A : Nat → Prop} {ring : Nat} {source : Mem} {spans : List Span}
    (h : ∀ sp ∈ spans, ∀ q ∈ byteRange (ring + sp.slot) sp.len, A q ∧ W q) :
    Confined A W (copyIntoRing ring source spans) m := by
  intro o ho
  rw [trace, ops_copyIntoRing] at ho
  obtain ⟨sp, hsp, rfl⟩ := List.mem_map.mp ho
  simp only [MemOp.bytes, MemOp.written, loadBytes_length]
  exact ⟨fun q hq => (h sp hsp q hq).1, fun q hq => (h sp hsp q hq).2⟩

theorem confined_copyFromRing {A : Nat → Prop} {ring : Nat} {dest : Mem} {spans : List Span}
    (h : ∀ sp ∈ spans, ∀ q ∈ byteRange (ring + sp.slot) sp.len, A q) :
    Confined A W (copyFromRing ring dest spans) m := by
  intro o ho
  rw [trace, ops_copyFromRing] at ho
  obtain ⟨sp, hsp, rfl⟩ := List.mem_map.mp ho
  exact ⟨h sp hsp, fun _ hq => absurd hq List.not_mem_nil⟩

theorem confined_writeItem (h : Isolated mb m)
    (hat : subRegionAt mb index m = .ok (subRegionBase mb index m)) (source : Mem)
    (itemNum : UInt32) (hfit : itemNum ≤ freeItem m (subRegionBase mb index m)) :
    Confined (Visible mb index m)
      ((RingCall.write source itemNum).Changes m (subRegionBase mb index m))
      (libMBWriteItem (subRegionBase mb index m) source itemNum) m := by
  obtain ⟨-, hindex, -, hsane⟩ := subRegionAt_ok _ _ _ _ hat
  obtain ⟨hmax, hin, -⟩ := sane_indices hsane
  have hnum : itemNum.toNat ≤ (capacity m (subRegionBase mb index m)).toNat := by
    rw [UInt32.le_iff_toNat_le, freeItem_toNat hsane] at hfit
    omega
  refine .getReg_bind (visible_header hindex (by decide)) ?_
  refine .getReg_bind (visible_header hindex (by decide)) ?_
  refine .getReg_bind (visible_header hindex (by decide)) (.guard (fun _ => .ret _) fun _ => ?_)
  refine .bind (confined_copyIntoRing fun sp hsp q hq => ?_) (.setReg fun q hle hlt => ?_)
  · have hslot := span_slots hin hnum hmax (h.bytes_lt index hindex) hsp hq
    exact ⟨visible_slot hindex (Nat.zero_lt_of_lt hin) hslot, Or.inr hslot⟩
  · exact ⟨visible_header hindex (by decide) q hle hlt,
      Or.inl ((mem_byteRange _ _ _).mpr ⟨hle, hlt⟩)⟩

theorem confined_readItem (h : Isolated mb m)
    (hat : subRegionAt mb index m = .ok (subRegionBase mb index m)) (dest : Mem)
    (itemNum readNum : UInt32) (hfit : readNum ≤ validItem m (subRegionBase mb index m)) :
    Confined (Visible mb index m)
      ((RingCall.read dest itemNum).Changes m (subRegionBase mb index m))
      (libMBReadItem (subRegionBase mb index m) dest readNum) m := by
  obtain ⟨-, hindex, -, hsane⟩ := subRegionAt_ok _ _ _ _ hat
  obtain ⟨hmax, hin, hout⟩ := sane_indices hsane
  have hnum : readNum.toNat ≤ (capacity m (subRegionBase mb index m)).toNat := by
    rw [UInt32.le_iff_toNat_le, validItem_toNat hsane] at hfit
    exact Nat.le_trans hfit (Nat.le_of_lt (count_lt _ _ _ hin hout))
  refine .getReg_bind (visible_header hindex (by decide)) ?_
  refine .getReg_bind (visible_header hindex (by decide)) ?_
  refine .getReg_bind (visible_header hindex (by decide)) (.guard (fun _ => .ret _) fun _ => ?_)
  refine .bind (confined_copyFromRing fun sp hsp q hq => ?_)
    (.bind (.setReg fun q hle hlt => ?_) (.ret _))
  · exact visible_slot hindex (Nat.zero_lt_of_lt hout)
      (span_slots hout hnum hmax (h.bytes_lt index hindex) hsp hq)
  · exact ⟨visible_header hindex (by decide) q hle hlt, (mem_byteRange _ _ _).mpr ⟨hle, hlt⟩⟩

/-- A call looks at the descriptor and its own sub-region and changes what its kind may,
and nothing unless its checks pass. -/
theorem confined_call (h : Isolated mb m) (c : RingCall) :
    Confined (Visible mb index m)
      (fun q => subRegionAt mb index m = .ok (subRegionBase mb index m) ∧
        c.Changes m (subRegionBase mb index m) q) (c.prog mb index) m := by
  cases c with
  | write source itemNum =>
      refine .bind (.guard (fun _ => ?_) fun _ => .ret _) (.ret _)
      refine confined_onSubRegion fun hat => ?_
      refine .bind (confined_freeItem (subRegionAt_ok _ _ _ _ hat).2.1) ?_
      rw [run_libMBFreeItem]
      refine .guard (fun hfit => .bind ?_ (.ret _)) fun _ => .ret _
      exact (confined_writeItem h hat source itemNum hfit).mono fun q hq => ⟨hat, hq⟩
  | read dest itemNum =>
      refine .guard (fun _ => ?_) fun _ => .ret _
      refine confined_onSubRegion fun hat => ?_
      refine .bind (confined_validItem (subRegionAt_ok _ _ _ _ hat).2.1) ?_
      rw [run_libMBValidItem]
      refine .guard (fun _ => .bind ?_ (.ret _)) fun _ => .ret _
      refine (confined_readItem h hat dest itemNum _ ?_).mono fun q hq => ⟨hat, hq⟩
      split
      · exact UInt32.le_refl _
      · exact UInt32.not_lt.mp ‹_›
  | chanReset =>
      refine .bind (.guard (fun _ => ?_) fun _ => .ret _) (.ret _)
      refine confined_onSubRegion fun hat => .guard (fun _ => ?_) fun _ => .ret _
      have hindex := (subRegionAt_ok _ _ _ _ hat).2.1
      refine .bind (.setReg fun q hle hlt => ?_) (.bind (.setReg fun q hle hlt => ?_) (.ret _))
      · exact ⟨visible_header hindex (by decide) q hle hlt, hat,
          Or.inl ((mem_byteRange _ _ _).mpr ⟨hle, hlt⟩)⟩
      · exact ⟨visible_header hindex (by decide) q hle hlt, hat,
          Or.inr ((mem_byteRange _ _ _).mpr ⟨hle, hlt⟩)⟩
  | getFreeItemNum =>
      refine .bind (.guard (fun _ => ?_) fun _ => .ret _) (.ret _)
      refine confined_onSubRegion fun hat => ?_
      exact .bind (confined_freeItem (subRegionAt_ok _ _ _ _ hat).2.1) (.ret _)
  | getValidItemNum =>
      refine .bind (.guard (fun _ => ?_) fun _ => .ret _) (.ret _)
      refine confined_onSubRegion fun hat => ?_
      exact .bind (confined_validItem (subRegionAt_ok _ _ _ _ hat).2.1) (.ret _)

/-- What a call changes lies in its sub-region, behind the words that give its size. -/
theorem changes_inside (hat : subRegionAt mb index m = .ok (subRegionBase mb index m))
    (c : RingCall) {q : Nat} (hq : c.Changes m (subRegionBase mb index m) q) :
    subRegionBase mb index m + MbSubRgnDesc.itemInIndex ≤ q ∧
      q < subRegionBase mb index m + subRegionSize m (subRegionBase mb index m) := by
  obtain ⟨-, -, -, hsane⟩ := subRegionAt_ok _ _ _ _ hat
  have hcap := Nat.zero_lt_of_lt (sane_indices hsane).2.1
  have hin : q ∈ byteRange (subRegionBase mb index m + MbSubRgnDesc.itemInIndex) 4 →
      subRegionBase mb index m + MbSubRgnDesc.itemInIndex ≤ q ∧
        q < subRegionBase mb index m + subRegionSize m (subRegionBase mb index m) := by
    intro hword
    rw [mem_byteRange] at hword
    simp only [subRegionSize, MbSubRgnDesc.itemInIndex, mbSubRegionHeaderSz] at hword ⊢
    omega
  have hout : q ∈ byteRange (subRegionBase mb index m + MbSubRgnDesc.itemOutIndex) 4 →
      subRegionBase mb index m + MbSubRgnDesc.itemInIndex ≤ q ∧
        q < subRegionBase mb index m + subRegionSize m (subRegionBase mb index m) := by
    intro hword
    rw [mem_byteRange] at hword
    simp only [subRegionSize, MbSubRgnDesc.itemInIndex, MbSubRgnDesc.itemOutIndex,
      mbSubRegionHeaderSz] at hword ⊢
    omega
  cases c with
  | write source itemNum =>
      cases hq with
      | inl hword => exact hin hword
      | inr hslot =>
          obtain ⟨hle, hlt⟩ := slot_inSubRegion hcap hslot
          exact ⟨Nat.le_trans (Nat.add_le_add_left (by decide) _) hle, hlt⟩
  | read dest itemNum => exact hout hq
  | chanReset =>
      cases hq with
      | inl hword => exact hin hword
      | inr hword => exact hout hword
  | getFreeItemNum | getValidItemNum => exact hq.elim

theorem call_outside (h : Isolated mb m) (c : RingCall) {q : Nat}
    (hq : ¬ c.Changes m (subRegionBase mb index m) q) : (c.run mb index m).2 q = m q :=
  (confined_call h c).run_outside fun hchanged => hq hchanged.2

theorem call_changed (h : Isolated mb m) (c : RingCall) {q : Nat}
    (hq : (c.run mb index m).2 q ≠ m q) :
    index < load32 m (mb + MbDesc.numOfSubRegion) ∧
      subRegionBase mb index m + MbSubRgnDesc.itemInIndex ≤ q ∧
      q < subRegionBase mb index m + subRegionSize m (subRegionBase mb index m) := by
  by_contra hnot
  refine hq ((confined_call h c).run_outside fun ⟨hat, hchanged⟩ => hnot ?_)
  exact ⟨(subRegionAt_ok _ _ _ _ hat).2.1, changes_inside hat c hchanged⟩

theorem int32_count_nonneg {k : UInt32} (hk : k.toNat ≤ 1048576) : ¬ int32 k.toNat < 0 := by
  rw [int32_of_lt _ (by omega)]
  omega

/-- A call that reports an error has changed nothing. -/
theorem call_refused (c : RingCall) (hret : (c.run mb index m).1.1 < 0) :
    (c.run mb index m).2 = m := by
  by_cases hmb : mb = null
  · subst hmb
    cases c <;> rfl
  cases hat : subRegionAt mb index m with
  | error e =>
      cases c <;>
        simp only [RingCall.run, RingCall.prog, libMBWrite, libMBRead, libMBChanReset,
          libMBGetFreeItemNum, libMBGetValidItemNum, ne_eq, hmb, not_false_eq_true, if_true,
          Prog.run_bind, run_onSubRegion, hat, Prog.pure_eq, Prog.run_ret]
  | ok base =>
      obtain ⟨-, -, -, hsane⟩ := subRegionAt_ok _ _ _ _ hat
      obtain ⟨hmax, hin, hout⟩ := sane_indices hsane
      have hbase : base ≠ null := ((sane_iff m base).mp hsane).1
      have hcount := count_lt _ _ _ hin hout
      have hvalid := validItem_toNat hsane
      have hfree := freeItem_toNat hsane
      cases c with
      | write source itemNum =>
          simp only [RingCall.run, RingCall.prog, libMBWrite, ne_eq, hmb, not_false_eq_true,
            if_true, Prog.run_bind, run_onSubRegion, hat, run_libMBFreeItem, Prog.run_ite,
            Prog.pure_eq, Prog.run_ret] at hret ⊢
          by_cases hfit : itemNum ≤ freeItem m base
          · rw [if_pos hfit] at hret
            rw [UInt32.le_iff_toNat_le] at hfit
            exact absurd hret (int32_count_nonneg (by omega))
          · rw [if_neg hfit]
      | read dest itemNum =>
          simp only [RingCall.run, RingCall.prog, libMBRead, ne_eq, hmb, not_false_eq_true,
            if_true, Prog.run_bind, run_onSubRegion, hat, run_libMBValidItem, Prog.run_ite,
            Prog.pure_eq, Prog.run_ret] at hret ⊢
          generalize hn : (if validItem m base < itemNum then validItem m base else itemNum) = n
            at hret ⊢
          have hle : n.toNat ≤ (validItem m base).toNat := by
            rw [← hn, ← UInt32.le_iff_toNat_le]
            split
            · exact UInt32.le_refl _
            · exact UInt32.not_lt.mp ‹_›
          by_cases hpos : n > 0
          · rw [if_pos hpos] at hret
            exact absurd hret (int32_count_nonneg (by omega))
          · rw [if_neg hpos]
      | chanReset =>
          simp only [RingCall.run, RingCall.prog, libMBChanReset, ne_eq, hmb, not_false_eq_true,
            if_true, Prog.run_bind, run_onSubRegion, hat, hbase, run_setReg, Prog.pure_eq,
            Prog.run_ret] at hret
          exact absurd hret (by decide)
      | getFreeItemNum =>
          simp only [RingCall.run, RingCall.prog, libMBGetFreeItemNum, ne_eq, hmb,
            not_false_eq_true, if_true, Prog.run_bind, run_onSubRegion, hat, run_libMBFreeItem,
            Prog.pure_eq, Prog.run_ret]
      | getValidItemNum =>
          simp only [RingCall.run, RingCall.prog, libMBGetValidItemNum, ne_eq, hmb,
            not_false_eq_true, if_true, Prog.run_bind, run_onSubRegion, hat, run_libMBValidItem,
            Prog.pure_eq, Prog.run_ret]

/-- The words that say where the sub-regions lie are the same. -/
structure SameLayout (mb : Nat) (m m' : Mem) : Prop where
  magic : load32 m' (mb + MbDesc.magic) = load32 m (mb + MbDesc.magic)
  num : load32 m' (mb + MbDesc.numOfSubRegion) = load32 m (mb + MbDesc.numOfSubRegion)
  base : ∀ i < load32 m (mb + MbDesc.numOfSubRegion),
    subRegionBase mb i m' = subRegionBase mb i m
  capacity : ∀ i < load32 m (mb + MbDesc.numOfSubRegion),
    capacity m' (subRegionBase mb i m) = capacity m (subRegionBase mb i m)
  slotSize : ∀ i < load32 m (mb + MbDesc.numOfSubRegion),
    slotSize m' (subRegionBase mb i m) = slotSize m (subRegionBase mb i m)

namespace SameLayout
variable {m' : Mem}

theorem refl (m : Mem) : SameLayout mb m m :=
  ⟨rfl, rfl, fun _ _ => rfl, fun _ _ => rfl, fun _ _ => rfl⟩

theorem trans {m'' : Mem} (h : SameLayout mb m m') (h' : SameLayout mb m' m'') :
    SameLayout mb m m'' := by
  have hnext : ∀ i < load32 m (mb + MbDesc.numOfSubRegion),
      i < load32 m' (mb + MbDesc.numOfSubRegion) := fun i hi => by rwa [h.num]
  constructor
  · exact h'.magic.trans h.magic
  · exact h'.num.trans h.num
  · exact fun i hi => (h'.base i (hnext i hi)).trans (h.base i hi)
  · intro i hi
    have hthere := h'.capacity i (hnext i hi)
    rw [h.base i hi] at hthere
    exact hthere.trans (h.capacity i hi)
  · intro i hi
    have hthere := h'.slotSize i (hnext i hi)
    rw [h.base i hi] at hthere
    exact hthere.trans (h.slotSize i hi)

theorem descriptor (h : SameLayout mb m m') (q : Nat) :
    InDescriptor mb m' q ↔ InDescriptor mb m q := by
  rw [InDescriptor, InDescriptor, h.num]

theorem subRegion (h : SameLayout mb m m') {i : UInt32}
    (hi : i < load32 m (mb + MbDesc.numOfSubRegion)) (q : Nat) :
    InSubRegion m' (subRegionBase mb i m') q ↔ InSubRegion m (subRegionBase mb i m) q := by
  rw [InSubRegion, InSubRegion, subRegionSize, subRegionSize, h.base i hi, h.capacity i hi,
    h.slotSize i hi]

theorem visible (h : SameLayout mb m m') (q : Nat) :
    Visible mb index m' q ↔ Visible mb index m q := by
  rw [Visible, Visible, h.descriptor, h.num]
  exact or_congr_right (and_congr_right fun hi => h.subRegion hi q)

theorem isolated (h : SameLayout mb m m') (hm : Isolated mb m) : Isolated mb m' := by
  constructor
  · rw [h.magic]
    exact hm.magic
  · intro i hi
    rw [h.num] at hi
    rw [h.base i hi, h.capacity i hi, h.slotSize i hi]
    exact hm.bytes_lt i hi
  · intro i hi q hq
    rw [h.num] at hi
    rw [h.descriptor]
    exact hm.behind i hi q ((h.subRegion hi q).mp hq)
  · intro i hi j hj hne q hq
    rw [h.num] at hi hj
    rw [h.subRegion hj]
    exact hm.apart i hi j hj hne q ((h.subRegion hi q).mp hq)

end SameLayout

theorem call_sameLayout (h : Isolated mb m) (c : RingCall) :
    SameLayout mb m (c.run mb index m).2 := by
  have hdesc : ∀ q, InDescriptor mb m q → (c.run mb index m).2 q = m q := by
    intro q hq
    by_contra hchanged
    obtain ⟨hindex, hle, hlt⟩ := call_changed h c hchanged
    exact h.behind index hindex q ⟨Nat.le_trans (Nat.le_add_right _ _) hle, hlt⟩ hq
  have hheader : ∀ i < load32 m (mb + MbDesc.numOfSubRegion), ∀ q,
      InSubRegion m (subRegionBase mb i m) q →
      q < subRegionBase mb i m + MbSubRgnDesc.itemInIndex → (c.run mb index m).2 q = m q := by
    intro i hi q hq hfront
    by_contra hchanged
    obtain ⟨hindex, hle, hlt⟩ := call_changed h c hchanged
    by_cases hsame : i = index
    · subst hsame
      exact absurd hfront (Nat.not_lt.mpr hle)
    · exact h.apart i hi index hindex hsame q hq ⟨Nat.le_trans (Nat.le_add_right _ _) hle, hlt⟩
  constructor
  · refine load32_congr _ _ _ fun k hk => hdesc _ ⟨by omega, ?_⟩
    simp only [MbDesc.magic, MbDesc.subRegionStartOffset]
    omega
  · refine load32_congr _ _ _ fun k hk => hdesc _ ⟨by omega, ?_⟩
    simp only [MbDesc.subRegionStartOffset]
    simp only [MbDesc.numOfSubRegion]
    omega
  · intro i hi
    refine congrArg (mb + UInt32.toNat ·) (load32_congr _ _ _ fun k hk => hdesc _ ⟨by omega, ?_⟩)
    rw [UInt32.lt_iff_toNat_lt] at hi
    simp only [MbDesc.subRegionStartOffset]
    omega
  · intro i hi
    refine load32_congr _ _ _ fun k hk => hheader i hi _ ⟨by omega, ?_⟩ ?_
    · simp only [subRegionSize, MbSubRgnDesc.maxItemNum, mbSubRegionHeaderSz]
      omega
    · simp only [MbSubRgnDesc.maxItemNum, MbSubRgnDesc.itemInIndex]
      omega
  · intro i hi
    refine load32_congr _ _ _ fun k hk => hheader i hi _ ⟨by omega, ?_⟩ ?_
    · simp only [subRegionSize, MbSubRgnDesc.maxItemSize, mbSubRegionHeaderSz]
      omega
    · simp only [MbSubRgnDesc.maxItemSize, MbSubRgnDesc.itemInIndex]
      omega

end Calls

def mailboxCall (mb : Nat) (x : UInt32 × RingCall) (m : Mem) : RingAnswer × Mem :=
  x.2.run mb x.1 m

/-- Two memories that a caller of one sub-region cannot tell apart; the first has the
layout of `start`. -/
structure SameChannel (mb : Nat) (index : UInt32) (start m m' : Mem) : Prop where
  layout : SameLayout mb start m
  agree : ∀ q, Visible mb index start q → m' q = m q

namespace SameChannel
variable {mb : Nat} {index : UInt32} {start m m' : Mem}

theorem own_call (h : SameChannel mb index start m m') (hstart : Isolated mb start)
    (c : RingCall) :
    (mailboxCall mb (index, c) m).1 = (mailboxCall mb (index, c) m').1 ∧
      SameChannel mb index start (mailboxCall mb (index, c) m).2
        (mailboxCall mb (index, c) m').2 := by
  have hisolated := h.layout.isolated hstart
  obtain ⟨hanswer, hagree⟩ := (confined_call hisolated c).run_agree fun q hq =>
    h.agree q ((h.layout.visible q).mp hq)
  refine ⟨hanswer.symm, h.layout.trans (call_sameLayout hisolated c), fun q hq => ?_⟩
  exact hagree q ((h.layout.visible q).mpr hq)

theorem other_call (h : SameChannel mb index start m m') (hstart : Isolated mb start)
    {j : UInt32} (hj : j ≠ index) (c : RingCall) :
    SameChannel mb index start (mailboxCall mb (j, c) m).2 m' := by
  have hisolated := h.layout.isolated hstart
  refine ⟨h.layout.trans (call_sameLayout hisolated c), fun q hq => ?_⟩
  refine (h.agree q hq).trans ?_
  by_contra hchanged
  have hcall : (c.run mb j m).2 q ≠ m q := Ne.symm hchanged
  obtain ⟨hindex, hle, hlt⟩ := call_changed hisolated c hcall
  have hin : InSubRegion m (subRegionBase mb j m) q :=
    ⟨Nat.le_trans (Nat.le_add_right _ _) hle, hlt⟩
  cases (h.layout.visible q).mpr hq with
  | inl hdesc => exact hisolated.behind j hindex q hin hdesc
  | inr hsub => exact hisolated.apart j hindex index hsub.1 hj q hin hsub.2

end SameChannel

/-- The items of a channel are bytes of its sub-region. -/
theorem items_of_subRegion {ch : Channel} {start m m' : Mem} (h : ch.Consistent start)
    (hsame : ∀ q, InSubRegion start ch.base q → m' q = m q) : ch.items m' = ch.items m := by
  have hsize : subRegionSize start ch.base =
      mbSubRegionHeaderSz + ch.num.toNat * ch.size.toNat := by
    rw [subRegionSize, capacity, slotSize, h.num, h.size]
  have hword : ∀ f, f + 4 ≤ mbSubRegionHeaderSz →
      load32 m' (ch.base + f) = load32 m (ch.base + f) := fun f hf =>
    load32_congr _ _ _ fun k hk => hsame _ ⟨by omega, by rw [hsize]; omega⟩
  refine Channel.items_congr (congrArg UInt32.toNat (hword _ (by decide)))
    (congrArg UInt32.toNat (hword _ (by decide))) fun k _ => hsame _ ⟨?_, ?_⟩
  · rw [Channel.ring]
    omega
  · have hmod := Nat.mod_lt (ch.outIndex m * ch.size.toNat + k)
      (Nat.mul_pos ch.num_pos ch.size_pos)
    rw [Channel.ring, hsize]
    omega

/-- Each call changes only the words and slots of its kind, and nothing if it reports an
error; so in any sequence of calls each channel answers, and its sub-region and its items
end up, as if only its own calls had run. -/
theorem channels_isolated (mb : Nat) (m : Mem) (h : Isolated mb m) :
    (∀ (index : UInt32) (c : RingCall) (q : Nat),
      ¬ c.Changes m (subRegionBase mb index m) q → (c.run mb index m).2 q = m q) ∧
    (∀ (index : UInt32) (c : RingCall), (c.run mb index m).1.1 < 0 → (c.run mb index m).2 = m) ∧
    ∀ (calls : List (UInt32 × RingCall)) (index : UInt32),
      index < load32 m (mb + MbDesc.numOfSubRegion) →
      let all := runAll (mailboxCall mb) calls m
      let own := runAll (mailboxCall mb) (calls.filter fun x => x.1 = index) m
      answersOn index calls all.1 = own.1 ∧
        (∀ q, InSubRegion m (subRegionBase mb index m) q → all.2 q = own.2 q) ∧
        ∀ ch : Channel, ch.mb = mb → ch.index = index → ch.Consistent m →
          ch.items all.2 = ch.items own.2 := by
  refine ⟨fun index c q hq => call_outside h c hq, fun index c => call_refused c,
    fun calls index hindex => ?_⟩
  intro all own
  have hproject := runAll_project (mailboxCall mb) index (SameChannel mb index m)
    (fun c s s' hs => hs.own_call h c) (fun j c s s' hj hs => hs.other_call h hj c)
    calls m m ⟨.refl m, fun _ _ => rfl⟩
  obtain ⟨hanswers, -, hagree⟩ := hproject
  have hbytes : ∀ q, InSubRegion m (subRegionBase mb index m) q → all.2 q = own.2 q :=
    fun q hq => (hagree q (Or.inr ⟨hindex, hq⟩)).symm
  refine ⟨hanswers, hbytes, fun ch hmb hch hcons => ?_⟩
  have hbase : subRegionBase mb index m = ch.base := by
    rw [subRegionBase, ← hmb, ← hch]
    exact hcons.start
  rw [hbase] at hbytes
  exact (items_of_subRegion hcons fun q hq => (hbytes q hq).symm).symm

/-- A mailbox with two channels of four items of two bytes. -/
def twoChannels : Mem :=
  [(4096 + MbDesc.magic, mbMagicNumber), (4096 + MbDesc.numOfSubRegion, 2),
    (4096 + MbDesc.subRegionStartOffset 0, 48), (4096 + MbDesc.subRegionStartOffset 1, 112),
    (4144 + MbSubRgnDesc.maxItemNum, 4), (4144 + MbSubRgnDesc.maxItemSize, 2),
    (4208 + MbSubRgnDesc.maxItemNum, 4), (4208 + MbSubRgnDesc.maxItemSize, 2)].foldl
      (fun m w => store32 m w.1 w.2) fun _ => 0

def secondChannel : Channel where
  mb := 4096
  index := 1
  base := 4208
  num := 4
  size := 2
  mb_ne_null := Channel.sample.mb_ne_null
  behind := by decide
  num_pos := Channel.sample.num_pos
  size_pos := Channel.sample.size_pos
  bytes_lt := Channel.sample.bytes_lt

theorem twoChannels_isolated : Isolated 4096 twoChannels := by
  have hnum : load32 twoChannels (4096 + MbDesc.numOfSubRegion) = 2 := by decide
  have hindex : ∀ i < load32 twoChannels (4096 + MbDesc.numOfSubRegion), i = 0 ∨ i = 1 := by
    intro i hi
    rw [hnum, UInt32.lt_iff_toNat_lt] at hi
    rw [← UInt32.toNat_inj, ← UInt32.toNat_inj]
    change i.toNat < 2 at hi
    change i.toNat = 0 ∨ i.toNat = 1
    omega
  have hfirst : subRegionBase 4096 0 twoChannels = 4144 := by decide
  have hsecond : subRegionBase 4096 1 twoChannels = 4208 := by decide
  have hsizes : subRegionSize twoChannels 4144 = 64 ∧ subRegionSize twoChannels 4208 = 64 := by
    decide
  constructor
  · decide
  · intro i hi
    rcases hindex i hi with rfl | rfl <;> decide
  · intro i hi q hq
    rw [InDescriptor, hnum, MbDesc.subRegionStartOffset]
    change ¬ (4096 ≤ q ∧ q < 4096 + (32 + 8 * 2))
    rcases hindex i hi with rfl | rfl
    · rw [InSubRegion, hfirst] at hq
      omega
    · rw [InSubRegion, hsecond] at hq
      omega
  · intro i hi j hj hne q hq
    rcases hindex i hi with rfl | rfl <;> rcases hindex j hj with rfl | rfl
    · exact absurd rfl hne
    · rw [InSubRegion, hfirst, hsizes.1] at hq
      rw [InSubRegion, hsecond]
      omega
    · rw [InSubRegion, hsecond] at hq
      rw [InSubRegion, hfirst, hsizes.1]
      omega
    · exact absurd rfl hne

/-- Writes and a reset of the first channel between the calls on the second one leave
its queue alone. -/
theorem channels_isolated_sample :
    secondChannel.items
        (runAll (mailboxCall 4096)
          [(0, .write (fun i => UInt8.ofNat i) 3), (1, .write (fun i => UInt8.ofNat i) 2),
            (0, .chanReset), (1, .read (fun _ => 0) 1), (0, .write (fun _ => 9) 1)]
          twoChannels).2 = [[2, 3]] :=
  (((channels_isolated 4096 twoChannels twoChannels_isolated).2.2 _ 1 (by decide)).2.2
    secondChannel rfl rfl
    ⟨⟨by decide, by decide, by decide, by decide, by decide⟩, by decide, by decide⟩).trans
    (by decide)

end RtssMailbox
