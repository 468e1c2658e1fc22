import RtssMailbox.Library.Refinement
import RtssMailbox.ChannelState

/-!
The ring of a sub-region as a bounded queue of items. Every call of the library
on a consistent channel answers as the queue does and leaves the memory that
stands for the queue after the call.
-/
namespace RtssMailbox
open Effects ByteMemory CyclicBuffer Refinement

inductive RingCall where
  | write (source : Mem) (itemNum : UInt32)
  | read (dest : Mem) (itemNum : UInt32)
  | chanReset
  | getFreeItemNum
  | getValidItemNum

/-- The return value of a call and, for a read, the destination buffer after it. -/
abbrev RingAnswer := Int × Option Mem

def RingCall.prog (mb : Nat) (index : UInt32) : RingCall → Prog MemSig RingAnswer
  | .write source itemNum => do
      let ret ← libMBWrite mb (some source) itemNum index
      pure (ret, none)
  | .read dest itemNum => libMBRead mb (some dest) itemNum index
  | .chanReset => do
      let ret ← libMBChanReset mb index
      pure (ret, none)
  | .getFreeItemNum => do
      let ret ← libMBGetFreeItemNum mb index
      pure (ret, none)
  | .getValidItemNum => do
      let ret ← libMBGetValidItemNum mb index
      pure (ret, none)

def RingCall.run (mb : Nat) (index : UInt32) (c : RingCall) (m : Mem) : RingAnswer × Mem :=
  (c.prog mb index).run memHandler m

/-- The queue's answer: a write takes all its items or none, a read delivers the
oldest items at the start of its buffer. -/
def RingCall.spec (size : Nat) {capacity : Nat} :
    RingCall → BoundedQueue (List UInt8) capacity →
      RingAnswer × BoundedQueue (List UInt8) capacity
  | .write source itemNum, q =>
      match q.offer (bufferItems size source itemNum.toNat) with
      | some q' => ((itemNum.toNat, none), q')
      | none => ((mbENoEnoughBuf, none), q)
  | .read dest itemNum, q =>
      (((min itemNum.toNat q.items.length : Nat),
        some (storeBytes dest 0 (q.oldest itemNum.toNat).flatten)), q.drop itemNum.toNat)
  | .chanReset, _ => ((mbESuccess, none), .empty)
  | .getFreeItemNum, q => (((capacity - q.items.length : Nat), none), q)
  | .getValidItemNum, q => ((q.items.length, none), q)

theorem bufferItems_flatten (size : Nat) (buf : Mem) (k : Nat) :
    (bufferItems size buf k).flatten = loadBytes buf 0 (k * size) := by
  induction k with
  | zero => simp [bufferItems]
  | succ k ih =>
      have hsnoc : bufferItems size buf (k + 1) =
          bufferItems size buf k ++ [loadBytes buf (k * size) size] := by
        simp [bufferItems, List.range_succ]
      rw [hsnoc, List.flatten_append, ih, Nat.add_mul, Nat.one_mul, loadBytes_append]
      simp

theorem storeBytes_prefix (dest dest' : Mem) (n : Nat) (h : ∀ i, n ≤ i → dest' i = dest i) :
    storeBytes dest 0 (loadBytes dest' 0 n) = dest' := by
  funext i
  rcases Nat.lt_or_ge i n with hi | hi
  · have hin := storeBytes_inside dest 0 (loadBytes dest' 0 n) i
      (by rw [loadBytes_length]; exact hi)
    rw [Nat.zero_add] at hin
    rw [hin]
    simp [loadBytes]
  · rw [storeBytes_outside _ _ _ _ (Or.inr (by rw [loadBytes_length]; omega)), h i hi]

/-- A memory stands for the queue of the items between its indices. -/
structure Represents (ch : Channel) (m : Mem)
    (q : BoundedQueue (List UInt8) (ch.num.toNat - 1)) : Prop extends ch.Consistent m where
  items_eq : ch.items m = q.items

namespace Represents
variable {ch : Channel} {m : Mem} {q : BoundedQueue (List UInt8) (ch.num.toNat - 1)}

theorem len_eq (h : Represents ch m q) : ch.len m = q.items.length := by
  rw [← Channel.items_length, h.items_eq]

theorem run_write (h : Represents ch m q) (hu : ch.Usable) (source : Mem) (itemNum : UInt32) :
    ((RingCall.write source itemNum).run ch.mb ch.index m).1 =
        ((RingCall.write source itemNum).spec ch.size.toNat q).1 ∧
      Represents ch ((RingCall.write source itemNum).run ch.mb ch.index m).2
        ((RingCall.write source itemNum).spec ch.size.toNat q).2 := by
  have hfree := h.toConsistent.freeItem_toNat
  have hlen := h.len_eq
  have hlt := h.toConsistent.len_lt
  have hnum : ch.num.toNat ≤ 1048576 := UInt32.le_iff_toNat_le.mp hu.1
  simp only [RingCall.run, RingCall.prog, libMBWrite, ne_eq, ch.mb_ne_null, not_false_eq_true,
    if_true, Prog.run_bind, run_onSubRegion, h.toConsistent.subRegionAt_eq, if_pos hu,
    run_libMBFreeItem, Prog.run_ite, h.toConsistent.run_libMBWriteItem, Prog.pure_eq,
    Prog.run_ret, RingCall.spec, BoundedQueue.offer, bufferItems_length]
  by_cases hfit : itemNum ≤ freeItem m ch.base
  · have hk : itemNum.toNat ≤ ch.num.toNat - 1 - q.items.length := by
      rw [UInt32.le_iff_toNat_le, hfree, hlen] at hfit
      exact hfit
    obtain ⟨hcons, -, hitems⟩ :=
      Channel.written_spec h.toConsistent hu source itemNum (by omega)
    rw [if_pos hfit, dif_pos hk]
    refine ⟨by rw [int32_of_lt _ (by omega)], hcons, ?_⟩
    rw [hitems, h.items_eq]
  · have hk : ¬ itemNum.toNat ≤ ch.num.toNat - 1 - q.items.length := by
      rw [UInt32.le_iff_toNat_le, hfree, hlen] at hfit
      exact hfit
    rw [if_neg hfit, dif_neg hk]
    exact ⟨rfl, h⟩

theorem run_read (h : Represents ch m q) (hu : ch.Usable) (dest : Mem) (itemNum : UInt32) :
    ((RingCall.read dest itemNum).run ch.mb ch.index m).1 =
        ((RingCall.read dest itemNum).spec ch.size.toNat q).1 ∧
      Represents ch ((RingCall.read dest itemNum).run ch.mb ch.index m).2
        ((RingCall.read dest itemNum).spec ch.size.toNat q).2 := by
  have hvalid := h.toConsistent.validItem_toNat
  have hlen := h.len_eq
  have hlt := h.toConsistent.len_lt
  have hnum : ch.num.toNat ≤ 1048576 := UInt32.le_iff_toNat_le.mp hu.1
  simp only [RingCall.run, RingCall.prog, libMBRead, ne_eq, ch.mb_ne_null, not_false_eq_true,
    if_true, Prog.run_bind, run_onSubRegion, h.toConsistent.subRegionAt_eq, if_pos hu,
    run_libMBValidItem, Prog.run_ite, Prog.pure_eq, Prog.run_ret, RingCall.spec]
  generalize hn : (if validItem m ch.base < itemNum then validItem m ch.base else itemNum) = n
  have hmin : n.toNat = min itemNum.toNat q.items.length := by
    rw [← hn, apply_ite UInt32.toNat, hvalid, hlen]
    simp only [UInt32.lt_iff_toNat_lt, hvalid, hlen]
    split <;> omega
  have htake : q.oldest itemNum.toNat = q.items.take n.toNat := by
    rw [BoundedQueue.oldest, hmin, List.take_eq_take_iff]
    omega
  have hdrop : (q.drop itemNum.toNat).items = q.items.drop n.toNat := by
    rw [hmin]
    change q.items.drop itemNum.toNat = _
    rcases Nat.le_total itemNum.toNat q.items.length with hle | hle
    · rw [Nat.min_eq_left hle]
    · rw [Nat.min_eq_right hle, List.drop_eq_nil_of_le hle, List.drop_length]
  by_cases hpos : n > 0
  · rw [if_pos hpos, h.toConsistent.run_libMBReadItem hu dest n (by omega)]
    obtain ⟨hcons, -, hitems, hrest⟩ :=
      Channel.readOut_spec h.toConsistent hu dest n (by omega)
    rw [h.items_eq] at hitems
    have hsplit : (bufferItems ch.size.toNat (ch.readOut m dest n).1 n.toNat).length = n.toNat :=
      bufferItems_length _ _ _
    refine ⟨?_, hcons, ?_⟩
    · have hbuf : storeBytes dest 0 (q.oldest itemNum.toNat).flatten =
          (ch.readOut m dest n).1 := by
        rw [htake, hitems, List.take_left' hsplit, bufferItems_flatten,
          storeBytes_prefix dest _ _ hrest]
      rw [int32_of_lt _ (by omega), hbuf, ← hmin]
    · rw [hdrop, hitems, List.drop_left' hsplit]
  · have hzero : n.toNat = 0 := by
      rw [gt_iff_lt, UInt32.lt_iff_toNat_lt] at hpos
      exact Nat.eq_zero_of_not_pos hpos
    rw [if_neg hpos]
    refine ⟨?_, h.toConsistent, ?_⟩
    · have hbuf : storeBytes dest 0 (q.oldest itemNum.toNat).flatten = dest := by
        rw [htake, hzero, List.take_zero, List.flatten_nil, storeBytes_nil]
      rw [hbuf, ← hmin, hzero]
      rfl
    · rw [hdrop, hzero, List.drop_zero]
      exact h.items_eq

theorem run_chanReset (h : Represents ch m q) (hu : ch.Usable) :
    (RingCall.chanReset.run ch.mb ch.index m).1 =
        (RingCall.chanReset.spec ch.size.toNat q).1 ∧
      Represents ch (RingCall.chanReset.run ch.mb ch.index m).2
        (RingCall.chanReset.spec ch.size.toNat q).2 := by
  simp only [RingCall.run, RingCall.prog, libMBChanReset, ne_eq, ch.mb_ne_null,
    not_false_eq_true, if_true, Prog.run_bind, run_onSubRegion, h.toConsistent.subRegionAt_eq,
    if_pos hu, Channel.base_ne_null, run_setReg, Prog.pure_eq, Prog.run_ret, RingCall.spec,
    true_and]
  generalize hm' : store32 (store32 m (ch.base + MbSubRgnDesc.itemInIndex) 0)
    (ch.base + MbSubRgnDesc.itemOutIndex) 0 = m'
  have hin : ch.inIndex m' = 0 := by
    rw [← hm', Channel.inIndex, load32_store32_disjoint _ _ _ _
      (Or.inl (by simp only [MbSubRgnDesc.itemInIndex, MbSubRgnDesc.itemOutIndex]; omega)),
      load32_store32_same]
    rfl
  have hout : ch.outIndex m' = 0 := by
    rw [← hm', Channel.outIndex, load32_store32_same]
    rfl
  have hheader : ch.Header m' := h.toHeader.of_agree fun p hp => by
    simp only [MbSubRgnDesc.itemInIndex] at hp
    rw [← hm', store32_outside _ _ _ _
      (Or.inl (by simp only [MbSubRgnDesc.itemOutIndex]; omega)),
      store32_outside _ _ _ _ (Or.inl (by simp only [MbSubRgnDesc.itemInIndex]; omega))]
  refine ⟨⟨hheader, ?_, ?_⟩, ?_⟩
  · rw [hin]
    exact ch.num_pos
  · rw [hout]
    exact ch.num_pos
  · rw [Channel.items, hin, hout, queue_self]
    rfl

theorem run_counter (h : Represents ch m q) (hu : ch.Usable) :
    (RingCall.getFreeItemNum.run ch.mb ch.index m) =
        ((((ch.num.toNat - 1 - q.items.length : Nat) : Int), none), m) ∧
      (RingCall.getValidItemNum.run ch.mb ch.index m) = (((q.items.length : Int), none), m) := by
  have hlen := h.len_eq
  constructor
  · simp only [RingCall.run, RingCall.prog, Prog.run_bind,
      h.toConsistent.run_libMBGetFreeItemNum hu, Prog.pure_eq, Prog.run_ret, hlen]
  · simp only [RingCall.run, RingCall.prog, Prog.run_bind,
      h.toConsistent.run_libMBGetValidItemNum hu, Prog.pure_eq, Prog.run_ret, hlen]

/-- Every call answers as the queue does and leaves the queue's memory. -/
theorem run_call (h : Represents ch m q) (hu : ch.Usable) (c : RingCall) :
    (c.run ch.mb ch.index m).1 = (c.spec ch.size.toNat q).1 ∧
      Represents ch (c.run ch.mb ch.index m).2 (c.spec ch.size.toNat q).2 := by
  cases c with
  | write source itemNum => exact h.run_write hu source itemNum
  | read dest itemNum => exact h.run_read hu dest itemNum
  | chanReset => exact h.run_chanReset hu
  | getFreeItemNum =>
      rw [(h.run_counter hu).1]
      exact ⟨rfl, h⟩
  | getValidItemNum =>
      rw [(h.run_counter hu).2]
      exact ⟨rfl, h⟩

end Represents

/-- From an empty ring, every sequence of calls gives the answers of a queue
with room for one item less than the ring, and leaves the queue's items. -/
theorem ring_refines_queue (ch : Channel) (hu : ch.Usable) (m : Mem) (h : ch.Consistent m)
    (hempty : ch.items m = []) (calls : List RingCall) :
    (runAll (RingCall.run ch.mb ch.index) calls m).1 =
        (runAll (RingCall.spec ch.size.toNat) calls
          (BoundedQueue.empty : BoundedQueue (List UInt8) (ch.num.toNat - 1))).1 ∧
      ch.items (runAll (RingCall.run ch.mb ch.index) calls m).2 =
        (runAll (RingCall.spec ch.size.toNat) calls
          (BoundedQueue.empty : BoundedQueue (List UInt8) (ch.num.toNat - 1))).2.items := by
  have hsim := runAll_simulates (RingCall.run ch.mb ch.index) (RingCall.spec ch.size.toNat)
    (Represents ch) (fun c m q hq => hq.run_call hu c) calls m .empty ⟨h, hempty⟩
  exact ⟨hsim.1, hsim.2.items_eq⟩

/-- Two items are written and one is read; a write that does not fit changes nothing. -/
theorem ring_refines_queue_sample :
    Channel.sample.items
        (runAll (RingCall.run Channel.sample.mb Channel.sample.index)
          [.write (fun i => UInt8.ofNat i) 2, .write (fun _ => 9) 2, .read (fun _ => 0) 1]
          Channel.sampleMem).2 = [[2, 3]] :=
  (ring_refines_queue Channel.sample (by decide) Channel.sampleMem Channel.sampleMem_consistent
    (by decide) _).2.trans (by decide)

end RtssMailbox
