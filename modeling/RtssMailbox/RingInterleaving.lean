import RtssMailbox.Library.RelyGuarantee
import RtssMailbox.ChannelState

/-!
One writer and one reader of a channel that run at the same time. Each register
access and each copy of one item slot is a step of its own, and the steps of the
two calls interleave in any order over one memory.
-/
namespace RtssMailbox
open Effects ByteMemory CyclicBuffer RelyGuarantee

/-- A copy into the mailbox as `n` copies of at most `g` bytes. -/
def putSlots (g : Nat) : (n a : Nat) → List UInt8 → Prog MemSig Unit
  | 0, _, _ => pure ()
  | n + 1, a, bs => do
      putBytes a (bs.take g)
      putSlots g n (a + g) (bs.drop g)

/-- A copy out of the mailbox as `n` copies of at most `g` bytes. -/
def getSlots (g : Nat) : (n a len : Nat) → Prog MemSig (List UInt8)
  | 0, _, _ => pure []
  | n + 1, a, len => do
      let bs ← getBytes a (min g len)
      let rest ← getSlots g n (a + g) (len - g)
      pure (bs ++ rest)

/-- How many copies of at most `g` bytes make a copy of `len` bytes. -/
def slotCount (g len : Nat) : Nat := (len + (g - 1)) / g

/-- The steps of the library's operations, with copies split into slots of `g` bytes. -/
def slotwise (g : Nat) : (o : MemSig.Op) → Prog MemSig (MemSig.Res o)
  | MemOp.getReg a => getReg a
  | MemOp.setReg a v => setReg a v
  | MemOp.copyIn a bs => putSlots g (slotCount g bs.length) a bs
  | MemOp.copyOut a n => getSlots g (slotCount g n) a n

theorem slotCount_enough (g len : Nat) (hg : 0 < g) : len ≤ slotCount g len * g := by
  have hdiv := Nat.div_add_mod (len + (g - 1)) g
  have hmod := Nat.mod_lt (len + (g - 1)) hg
  rw [slotCount, Nat.mul_comm]
  omega

theorem run_putSlots (g n a : Nat) (bs : List UInt8) (m : Mem) (h : bs.length ≤ n * g) :
    (putSlots g n a bs).run memHandler m = ((), storeBytes m a bs) := by
  induction n generalizing a bs m with
  | zero =>
      have hnil : bs = [] := List.eq_nil_of_length_eq_zero (by omega)
      simp [putSlots, hnil]
  | succ n ih =>
      rw [Nat.add_mul, Nat.one_mul] at h
      simp only [putSlots, Prog.run_bind, run_putBytes]
      rw [ih _ _ _ (by rw [List.length_drop]; omega)]
      by_cases hle : bs.length ≤ g
      · rw [List.drop_eq_nil_of_le hle, List.take_of_length_le hle, storeBytes_nil]
      · have htake : (bs.take g).length = g := by
          rw [List.length_take]
          omega
        conv_rhs => rw [← List.take_append_drop g bs, storeBytes_append, htake]

theorem run_getSlots (g n a len : Nat) (m : Mem) (h : len ≤ n * g) :
    (getSlots g n a len).run memHandler m = (loadBytes m a len, m) := by
  induction n generalizing a len with
  | zero =>
      have hzero : len = 0 := by omega
      simp [getSlots, hzero]
  | succ n ih =>
      rw [Nat.add_mul, Nat.one_mul] at h
      simp only [getSlots, Prog.run_bind, run_getBytes, Prog.pure_eq, Prog.run_ret]
      rw [ih _ _ (by omega)]
      by_cases hle : len ≤ g
      · rw [Nat.min_eq_right hle, Nat.sub_eq_zero_of_le hle, loadBytes_zero, List.append_nil]
      · rw [Nat.min_eq_left (by omega), ← loadBytes_append, Nat.add_sub_of_le (by omega)]

/-- Alone, the smaller steps do what the library's operations do. -/
theorem run_slotwise {α : Type} (g : Nat) (hg : 0 < g) (p : Prog MemSig α) (m : Mem) :
    (p.expand (slotwise g)).run memHandler m = p.run memHandler m := by
  refine Prog.run_expand memHandler memHandler (slotwise g) (fun o m => ?_) p m
  cases o with
  | getReg a => exact run_getReg a m
  | setReg a v => exact run_setReg a v m
  | copyIn a bs => exact run_putSlots g _ a bs m (slotCount_enough g _ hg)
  | copyOut a n => exact run_getSlots g _ a n m (slotCount_enough g _ hg)

section Expand
variable (g : Nat)

@[simp] theorem expand_getReg (a : Nat) : (getReg a).expand (slotwise g) = getReg a :=
  (Prog.expand_perform (S := MemSig) (slotwise g) (.getReg a)).trans rfl

@[simp] theorem expand_setReg (a : Nat) (v : UInt32) :
    (setReg a v).expand (slotwise g) = setReg a v :=
  (Prog.expand_perform (S := MemSig) (slotwise g) (.setReg a v)).trans rfl

@[simp] theorem expand_putBytes (a : Nat) (bs : List UInt8) :
    (putBytes a bs).expand (slotwise g) = putSlots g (slotCount g bs.length) a bs :=
  (Prog.expand_perform (S := MemSig) (slotwise g) (.copyIn a bs)).trans rfl

@[simp] theorem expand_getBytes (a n : Nat) :
    (getBytes a n).expand (slotwise g) = getSlots g (slotCount g n) a n :=
  (Prog.expand_perform (S := MemSig) (slotwise g) (.copyOut a n)).trans rfl

end Expand

/-- The memory with what an observer knows of the two parties: the items of the
writes that were accepted, and the items that reads have delivered. -/
structure RingState where
  mem : Mem
  accepted : List (List UInt8)
  received : List (List UInt8)

def ringHandler : Handler MemSig RingState := fun o s =>
  ((memHandler o s.mem).1, { s with mem := (memHandler o s.mem).2 })

/-- What a step notes of itself: the addresses that it copies. -/
def copiedBytes : MemSig.Op → List Nat := MemOp.copied

/-- The items of a buffer that a call reports with its return value. -/
def reportedItems (size : Nat) (buf : Option Mem) (ret : Int) : List (List UInt8) :=
  match buf with
  | some buf => bufferItems size buf ret.toNat
  | none => []

structure TransferCall where
  buf : Option Mem
  itemNum : UInt32

def writer (ch : Channel) : Client MemSig RingState where
  Call := TransferCall
  Res := Int
  prog c := (libMBWrite ch.mb c.buf c.itemNum ch.index).expand (slotwise ch.size.toNat)
  finish c ret s :=
    { s with accepted := s.accepted ++ reportedItems ch.size.toNat c.buf ret }

def reader (ch : Channel) : Client MemSig RingState where
  Call := TransferCall
  Res := Int × Option Mem
  prog c := (libMBRead ch.mb c.buf c.itemNum ch.index).expand (slotwise ch.size.toNat)
  finish _ r s :=
    { s with received := s.received ++ reportedItems ch.size.toNat r.2 r.1 }

/-- What holds between any two steps: the accepted items are the received ones
followed by those in the ring. -/
structure RingInv (ch : Channel) (s : RingState) : Prop extends ch.Consistent s.mem where
  accepted_eq : s.accepted = s.received ++ ch.items s.mem

namespace Channel
variable (ch : Channel)

/-- The address of the `i`-th byte behind slot `w` of the ring. -/
def position (w i : Nat) : Nat :=
  ch.ring + (w * ch.size.toNat + i) % (ch.num.toNat * ch.size.toNat)

def FreeByte (m : Mem) (p : Nat) : Prop :=
  ∃ i < (ch.num.toNat - 1 - ch.len m) * ch.size.toNat, p = ch.position (ch.inIndex m) i

def ItemByte (m : Mem) (p : Nat) : Prop :=
  ∃ j < ch.len m * ch.size.toNat, p = ch.position (ch.outIndex m) j

variable {ch}

theorem Consistent.free_not_item {m : Mem} (h : ch.Consistent m) {p : Nat}
    (hfree : ch.FreeByte m p) : ¬ ch.ItemByte m p := by
  rintro ⟨j, hj, hitem⟩
  obtain ⟨i, hi, hp⟩ := hfree
  have hlen := h.len_lt
  refine free_byte_ne h (ch.num.toNat - 1 - ch.len m) (by omega) i hi j hj ?_
  simp only [position] at hp hitem
  omega

end Channel

/-- What a step of the writer leaves to the reader: the bytes of the items in the
ring, and perhaps more items behind them. -/
structure WriterStep (ch : Channel) (s s' : RingState) : Prop where
  inv : RingInv ch s'
  out_eq : ch.outIndex s'.mem = ch.outIndex s.mem
  received_eq : s'.received = s.received
  len_le : ch.len s.mem ≤ ch.len s'.mem
  item_eq : ∀ p, ch.ItemByte s.mem p → s'.mem p = s.mem p

/-- What a step of the reader leaves to the writer: every byte of the ring, and
at most as many items in it. -/
structure ReaderStep (ch : Channel) (s s' : RingState) : Prop where
  inv : RingInv ch s'
  in_eq : ch.inIndex s'.mem = ch.inIndex s.mem
  accepted_eq : s'.accepted = s.accepted
  len_le : ch.len s'.mem ≤ ch.len s.mem
  ring_eq : ∀ p, ch.ring ≤ p → s'.mem p = s.mem p

namespace WriterStep
variable {ch : Channel} {s s' s'' : RingState}

theorem refl (h : RingInv ch s) : WriterStep ch s s :=
  ⟨h, rfl, rfl, Nat.le_refl _, fun _ _ => rfl⟩

theorem itemByte (h : WriterStep ch s s') {p : Nat} (hp : ch.ItemByte s.mem p) :
    ch.ItemByte s'.mem p := by
  obtain ⟨j, hj, hpos⟩ := hp
  refine ⟨j, Nat.lt_of_lt_of_le hj (Nat.mul_le_mul_right _ h.len_le), ?_⟩
  rw [h.out_eq]
  exact hpos

theorem trans (h : WriterStep ch s s') (h' : WriterStep ch s' s'') : WriterStep ch s s'' :=
  ⟨h'.inv, h'.out_eq.trans h.out_eq, h'.received_eq.trans h.received_eq,
    Nat.le_trans h.len_le h'.len_le,
    fun p hp => (h'.item_eq p (h.itemByte hp)).trans (h.item_eq p hp)⟩

end WriterStep

namespace ReaderStep
variable {ch : Channel} {s s' s'' : RingState}

theorem refl (h : RingInv ch s) : ReaderStep ch s s :=
  ⟨h, rfl, rfl, Nat.le_refl _, fun _ _ => rfl⟩

theorem trans (h : ReaderStep ch s s') (h' : ReaderStep ch s' s'') : ReaderStep ch s s'' :=
  ⟨h'.inv, h'.in_eq.trans h.in_eq, h'.accepted_eq.trans h.accepted_eq,
    Nat.le_trans h'.len_le h.len_le, fun p hp => (h'.ring_eq p hp).trans (h.ring_eq p hp)⟩

end ReaderStep

/-- What the checks of a call need of a party: the other party keeps the invariant,
and a register may be read at any time. -/
structure Party (ch : Channel) (rely guar : RingState → RingState → Prop)
    (safe : List Nat → RingState → Prop) : Prop where
  rely_inv : ∀ s s', rely s s' → RingInv ch s'
  guar_refl : ∀ s, RingInv ch s → guar s s
  safe_nil : ∀ s, safe [] s

namespace Party
variable {ch : Channel} {rely guar : RingState → RingState → Prop}
  {safe : List Nat → RingState → Prop}

theorem getReg (hp : Party ch rely guar safe) {P : RingState → Prop}
    (hP : ∀ s, P s → RingInv ch s) (hstable : ∀ s s', P s → rely s s' → P s') (a : Nat) :
    Spec ringHandler copiedBytes rely guar safe (fun past s => past = [] ∧ P s) (getReg a)
      fun past v s => past = [] ∧ P s ∧ v = load32 s.mem a := by
  refine Spec.perform (S := MemSig) (o := MemOp.getReg a) ?_ ?_ ?_
  · intro past s s' hpast hs
    exact ⟨hpast.1, hstable s s' hpast.2 hs⟩
  · intro past s hpast
    rw [hpast.1]
    exact hp.safe_nil s
  · intro past s hpast
    rw [hpast.1]
    exact ⟨hp.guar_refl s (hP s hpast.2), rfl, hpast.2, rfl⟩

theorem getReg_inv (hp : Party ch rely guar safe) (a : Nat) :
    Spec ringHandler copiedBytes rely guar safe (fun past s => past = [] ∧ RingInv ch s)
      (RtssMailbox.getReg a) fun past v s => past = [] ∧ RingInv ch s ∧ v = load32 s.mem a :=
  hp.getReg (fun _ h => h) (fun s s' _ hs => hp.rely_inv s s' hs) a

/-- After a register read, what the invariant says of its value is all that is left. -/
theorem getReg_bind (hp : Party ch rely guar safe) {α : Type} {a : Nat} {f : UInt32 → Prog MemSig α}
    {φ : UInt32 → Prop} {Q : List Nat → α → RingState → Prop}
    (hvalue : ∀ s, RingInv ch s → φ (load32 s.mem a))
    (hf : ∀ v, φ v → Spec ringHandler copiedBytes rely guar safe
      (fun past s => past = [] ∧ RingInv ch s) (f v) Q) :
    Spec ringHandler copiedBytes rely guar safe (fun past s => past = [] ∧ RingInv ch s)
      (RtssMailbox.getReg a >>= f) Q := by
  refine Spec.bind (hp.getReg_inv a) fun v past s₀ s hguar hv => ?_
  obtain ⟨hpast, hinv, rfl⟩ := hv
  exact hf _ (hvalue s hinv) past s₀ s hguar ⟨hpast, hinv⟩

/-- The sanity check passes exactly on a usable channel, whatever the indices are. -/
theorem sanityCheck (hp : Party ch rely guar safe) (g : Nat) :
    Spec ringHandler copiedBytes rely guar safe (fun past s => past = [] ∧ RingInv ch s)
      ((libMBMailboxSanityCheck ch.base).expand (slotwise g))
      fun past b s => past = [] ∧ RingInv ch s ∧ (b = true ↔ ch.Usable) := by
  rw [libMBMailboxSanityCheck, if_pos Channel.base_ne_null]
  simp only [Prog.expand_bind, expand_getReg, Prog.pure_eq, Prog.expand_ret]
  refine hp.getReg_bind (φ := (· = ch.num)) (fun s h => h.num) fun num hnum => ?_
  refine hp.getReg_bind (φ := (· = ch.size)) (fun s h => h.size) fun size hsize => ?_
  refine hp.getReg_bind (φ := (·.toNat < ch.num.toNat)) (fun s h => h.in_lt) fun w hw => ?_
  refine hp.getReg_bind (φ := (·.toNat < ch.num.toNat)) (fun s h => h.out_lt) fun r hr => ?_
  refine Spec.ret fun past s hs => ⟨hs.1, hs.2, ?_⟩
  rw [← UInt32.lt_iff_toNat_lt] at hw hr
  simp [hnum, hsize, hw, hr, Channel.Usable]

/-- The checks of a call lead to its own work on a usable channel, and to an error
on any other. -/
theorem onSubRegion (hp : Party ch rely guar safe) {α : Type} (g : Nat) (fail : Int → α)
    (body : Nat → Prog MemSig α) {Q : List Nat → α → RingState → RingState → Prop}
    (hfail : ∀ s₀ s, guar s₀ s → RingInv ch s → Q [] (fail mbECorruptMailbox) s₀ s)
    (hbody : ch.Usable → ∀ s₀ s, guar s₀ s → RingInv ch s →
      Wp ringHandler copiedBytes rely guar safe Q ((body ch.base).expand (slotwise g)) [] s₀ s)
    {s : RingState} (hs : RingInv ch s) :
    Wp ringHandler copiedBytes rely guar safe Q
      ((RtssMailbox.onSubRegion ch.mb ch.index fail body).expand (slotwise g)) [] s s := by
  simp only [RtssMailbox.onSubRegion, Prog.expand_bind, expand_getReg, Prog.expand_ite]
  refine (hp.getReg_inv _).then (fun past magic s₀ s hguar hmagic => ?_) (hp.guar_refl s hs)
    ⟨rfl, hs⟩
  obtain ⟨rfl, hinv, rfl⟩ := hmagic
  rw [if_pos hinv.magic]
  refine (hp.getReg_inv _).then (fun past num s₀ s hguar hnum => ?_) hguar ⟨rfl, hinv⟩
  obtain ⟨rfl, hinv, rfl⟩ := hnum
  rw [if_pos hinv.index_lt]
  refine (hp.getReg_inv _).then (fun past start s₀ s hguar hstart => ?_) hguar ⟨rfl, hinv⟩
  obtain ⟨rfl, hinv, rfl⟩ := hstart
  rw [hinv.start]
  refine (hp.sanityCheck g).then (fun past b s₀ s hguar hb => ?_) hguar ⟨rfl, hinv⟩
  obtain ⟨rfl, hinv, hb⟩ := hb
  cases b with
  | true => exact hbody (hb.mp rfl) s₀ s hguar hinv
  | false => exact hfail s₀ s hguar hinv

end Party

end RtssMailbox
