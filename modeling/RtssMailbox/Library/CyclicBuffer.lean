import Mathlib.Data.Nat.ModEq
import Mathlib.Data.List.Basic

/-!
A ring of slots read through two wrapping indices, and the bounded queue that
it stands for. One slot stays unused, so the indices alone tell an empty ring
from a full one.
-/
namespace CyclicBuffer
variable {α : Type}

/-- The contents of `len` slots from index `r` on, in ring order. -/
def window (slots : Nat → α) (cap r len : Nat) : List α :=
  (List.range len).map fun j => slots ((r + j) % cap)

/-- The number of occupied slots between a read index and a write index. -/
def count (cap w r : Nat) : Nat := if r ≤ w then w - r else cap - r + w

/-- The slots between the indices are the queue. -/
def queue (slots : Nat → α) (cap w r : Nat) : List α := window slots cap r (count cap w r)

@[simp] theorem window_length (slots : Nat → α) (cap r len : Nat) :
    (window slots cap r len).length = len := by
  simp [window]

@[simp] theorem queue_length (slots : Nat → α) (cap w r : Nat) :
    (queue slots cap w r).length = count cap w r := window_length _ _ _ _

@[simp] theorem count_self (cap w : Nat) : count cap w w = 0 := by
  simp [count]

theorem queue_self (slots : Nat → α) (cap w : Nat) : queue slots cap w w = [] := by
  simp [queue, window]

theorem count_lt (cap w r : Nat) (hw : w < cap) (hr : r < cap) : count cap w r < cap := by
  unfold count
  split <;> omega

theorem advance_eq (cap i k : Nat) (hi : i < cap) (hk : k ≤ cap) :
    (i + k) % cap = if i + k < cap then i + k else i + k - cap := by
  split
  · exact Nat.mod_eq_of_lt ‹_›
  · rw [Nat.mod_eq_sub_mod (by omega), Nat.mod_eq_of_lt (by omega)]

theorem advance_count (cap w r : Nat) (hw : w < cap) (hr : r < cap) :
    (r + count cap w r) % cap = w := by
  rw [advance_eq cap r _ hr (Nat.le_of_lt (count_lt cap w r hw hr))]
  unfold count
  split <;> split <;> omega

theorem count_push (cap w r k : Nat) (hw : w < cap) (hr : r < cap)
    (hk : count cap w r + k < cap) :
    count cap ((w + k) % cap) r = count cap w r + k := by
  rw [advance_eq cap w k hw (by omega)]
  unfold count at *
  grind

theorem count_pop (cap w r n : Nat) (hw : w < cap) (hr : r < cap)
    (hn : n ≤ count cap w r) :
    count cap w ((r + n) % cap) = count cap w r - n := by
  have hlt := count_lt cap w r hw hr
  rw [advance_eq cap r n hr (by omega)]
  unfold count at *
  grind

theorem window_add (slots : Nat → α) (cap r a b : Nat) :
    window slots cap r (a + b) =
      window slots cap r a ++ window slots cap ((r + a) % cap) b := by
  simp only [window, List.range_add, List.map_append, List.map_map]
  congr 1
  refine List.map_congr_left fun j _ => congrArg slots ?_
  simp only [Nat.mod_add_mod, Nat.add_assoc]

theorem window_congr (slots slots' : Nat → α) (cap r len : Nat)
    (h : ∀ j < len, slots ((r + j) % cap) = slots' ((r + j) % cap)) :
    window slots cap r len = window slots' cap r len :=
  List.map_congr_left fun j hj => h j (List.mem_range.mp hj)

/-- Positions less than one turn apart from the same index are different slots. -/
theorem position_inj (cap r i j : Nat) (hi : i < cap) (hj : j < cap)
    (h : (r + i) % cap = (r + j) % cap) : i = j := by
  have hmod : i ≡ j [MOD cap] := Nat.ModEq.add_left_cancel' r h
  exact Nat.ModEq.eq_of_lt_of_lt hmod hi hj

/-- Filling free slots and moving the write index appends to the queue. -/
theorem queue_push (slots slots' : Nat → α) (cap w r : Nat) (xs : List α) (hw : w < cap)
    (hr : r < cap) (hroom : count cap w r + xs.length < cap)
    (hnew : window slots' cap w xs.length = xs)
    (hold : ∀ j < count cap w r, slots' ((r + j) % cap) = slots ((r + j) % cap)) :
    queue slots' cap ((w + xs.length) % cap) r = queue slots cap w r ++ xs := by
  rw [queue, count_push cap w r _ hw hr hroom, window_add, advance_count cap w r hw hr, hnew,
    queue, window_congr slots' slots cap r _ hold]

/-- Moving the read index removes the oldest items. -/
theorem queue_pop (slots : Nat → α) (cap w r n : Nat) (hw : w < cap) (hr : r < cap)
    (hn : n ≤ count cap w r) :
    queue slots cap w r = window slots cap r n ++ queue slots cap w ((r + n) % cap) := by
  rw [queue, queue, count_pop cap w r n hw hr hn, ← window_add, Nat.add_sub_of_le hn]

end CyclicBuffer

/-- A queue that never holds more than `capacity` items. -/
structure BoundedQueue (α : Type) (capacity : Nat) where
  items : List α
  bounded : items.length ≤ capacity

namespace BoundedQueue
variable {α : Type} {capacity : Nat}

@[ext] theorem ext (q q' : BoundedQueue α capacity) (h : q.items = q'.items) : q = q' := by
  cases q
  cases q'
  cases h
  rfl

def empty : BoundedQueue α capacity := ⟨[], Nat.zero_le _⟩

/-- Append all the items, or none if they do not all fit. -/
def offer (q : BoundedQueue α capacity) (xs : List α) : Option (BoundedQueue α capacity) :=
  if h : xs.length ≤ capacity - q.items.length then
    some ⟨q.items ++ xs, by
      have hq := q.bounded
      rw [List.length_append]
      omega⟩
  else
    none

/-- The oldest items, at most `n` of them. -/
def oldest (q : BoundedQueue α capacity) (n : Nat) : List α := q.items.take n

def drop (q : BoundedQueue α capacity) (n : Nat) : BoundedQueue α capacity :=
  ⟨q.items.drop n, by
    have hq := q.bounded
    rw [List.length_drop]
    omega⟩

end BoundedQueue
