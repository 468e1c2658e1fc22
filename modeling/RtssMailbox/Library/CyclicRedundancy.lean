import Mathlib.Data.List.Basic

/-!
Cyclic redundancy checks over any width and polynomial. The division bit by bit is
the definition; it runs with the most or with the least significant bit first, and
the two are images of each other under bit reversal. Several bits at a time, what
is left of the division depends on the bits alone, which a table may hold.
-/
namespace CyclicRedundancy
variable {w : Nat}

/-- One bit of the division, most significant bit first. -/
def shiftIn (poly c : BitVec w) (b : Bool) : BitVec w :=
  if c.msb ^^ b then (c <<< 1) ^^^ poly else c <<< 1

/-- One bit of the division, least significant bit first. -/
def shiftInReflected (poly c : BitVec w) (b : Bool) : BitVec w :=
  if c.getLsbD 0 ^^ b then (c >>> 1) ^^^ poly else c >>> 1

/-- The first `n` bits of a vector, least significant first. -/
def lowBits (x : BitVec w) (n : Nat) : List Bool := (List.range n).map x.getLsbD

/-- What `n` zero bits make of a remainder, least significant bit first. -/
def zeros (poly : BitVec w) : Nat → BitVec w → BitVec w
  | 0, c => c
  | n + 1, c => zeros poly n (shiftInReflected poly c false)

theorem reverse_xor (x y : BitVec w) : (x ^^^ y).reverse = x.reverse ^^^ y.reverse := by
  apply BitVec.eq_of_getLsbD_eq
  intro i hi
  simp only [BitVec.getLsbD_reverse, BitVec.getLsbD_xor, BitVec.getMsbD_xor]

theorem reverse_shiftLeft (x : BitVec w) (n : Nat) : (x <<< n).reverse = x.reverse >>> n := by
  apply BitVec.eq_of_getLsbD_eq
  intro i hi
  rw [BitVec.getLsbD_reverse, BitVec.getMsbD_shiftLeft, BitVec.getLsbD_ushiftRight,
    BitVec.getLsbD_reverse, Nat.add_comm]

theorem reverse_shiftIn (poly c : BitVec w) (b : Bool) :
    (shiftIn poly c b).reverse = shiftInReflected poly.reverse c.reverse b := by
  have hlow : c.reverse.getLsbD 0 = c.msb := BitVec.getLsbD_reverse
  simp only [shiftIn, shiftInReflected, hlow]
  split
  · rw [reverse_xor, reverse_shiftLeft]
  · rw [reverse_shiftLeft]

theorem reverse_foldl_shiftIn (poly c : BitVec w) (bits : List Bool) :
    (bits.foldl (shiftIn poly) c).reverse =
      bits.foldl (shiftInReflected poly.reverse) c.reverse := by
  induction bits generalizing c with
  | nil => rfl
  | cons b bits ih => rw [List.foldl_cons, ih, reverse_shiftIn, List.foldl_cons]

theorem shiftInReflected_xor (poly c d : BitVec w) (b : Bool) :
    shiftInReflected poly (c ^^^ d) b =
      shiftInReflected poly c (d.getLsbD 0 ^^ b) ^^^ (d >>> 1) := by
  simp only [shiftInReflected, BitVec.getLsbD_xor, Bool.xor_assoc, BitVec.ushiftRight_xor_distrib]
  split
  · rw [BitVec.xor_assoc, BitVec.xor_assoc, BitVec.xor_comm poly]
  · rfl

/-- Feeding the low bits of a vector is feeding zeros to the remainder with these bits. -/
theorem foldl_lowBits (poly : BitVec w) (n : Nat) (x c : BitVec w)
    (hx : ∀ i, n ≤ i → x.getLsbD i = false) :
    (lowBits x n).foldl (shiftInReflected poly) c = zeros poly n (c ^^^ x) := by
  induction n generalizing x c with
  | zero =>
      have hzero : x = 0 := BitVec.eq_of_getLsbD_eq fun i _ => by
        rw [hx i (Nat.zero_le i)]
        exact BitVec.getLsbD_zero.symm
      rw [hzero]
      exact BitVec.xor_zero.symm
  | succ n ih =>
      have hbits : lowBits x (n + 1) = x.getLsbD 0 :: lowBits (x >>> 1) n := by
        simp only [lowBits, List.range_succ_eq_map, List.map_cons, List.map_map]
        refine congrArg _ (List.map_congr_left fun i _ => ?_)
        rw [BitVec.getLsbD_ushiftRight, Nat.add_comm]
        rfl
      rw [hbits, List.foldl_cons, ih (x >>> 1) _ fun i hi => ?_]
      · rw [zeros, shiftInReflected_xor, Bool.xor_false]
      · rw [BitVec.getLsbD_ushiftRight]
        exact hx _ (by omega)

/-- Zeros see the low bits of a remainder; the rest only moves down. -/
theorem zeros_split (poly : BitVec w) (n : Nat) (low high : BitVec w)
    (hhigh : ∀ i < n, high.getLsbD i = false) :
    zeros poly n (low ^^^ high) = zeros poly n low ^^^ (high >>> n) := by
  induction n generalizing low high with
  | zero => simp only [zeros, BitVec.ushiftRight_zero]
  | succ n ih =>
      simp only [zeros]
      rw [shiftInReflected_xor, hhigh 0 (Nat.succ_pos n), Bool.false_xor, ih _ (high >>> 1)]
      · rw [← BitVec.shiftRight_add, Nat.add_comm]
      · intro i hi
        rw [BitVec.getLsbD_ushiftRight]
        exact hhigh _ (by omega)

/-- Several bits at a time: the entry of the low bits of the remainder with the bits
fed, and the rest of the remainder moved down. -/
theorem foldl_lowBits_table (poly : BitVec w) (n : Nat) (x c : BitVec w)
    (hx : ∀ i, n ≤ i → x.getLsbD i = false) (low : BitVec w)
    (hlow : ∀ i < w, low.getLsbD i = (decide (i < n) && (c ^^^ x).getLsbD i)) :
    (lowBits x n).foldl (shiftInReflected poly) c = (c >>> n) ^^^ zeros poly n low := by
  have hsplit : c ^^^ x = low ^^^ (low ^^^ (c ^^^ x)) := by
    rw [← BitVec.xor_assoc, BitVec.xor_self, BitVec.zero_xor]
  have hclear : ∀ i < n, (low ^^^ (c ^^^ x)).getLsbD i = false := by
    intro i hi
    by_cases hw : i < w
    · rw [BitVec.getLsbD_xor, hlow i hw, decide_eq_true hi, Bool.true_and, Bool.xor_self]
    · exact BitVec.getLsbD_of_ge _ _ (Nat.le_of_not_lt hw)
  have hrest : (low ^^^ (c ^^^ x)) >>> n = c >>> n := by
    apply BitVec.eq_of_getLsbD_eq
    intro i hi
    simp only [BitVec.getLsbD_ushiftRight, BitVec.getLsbD_xor]
    by_cases hw : n + i < w
    · have hge : ¬ n + i < n := Nat.not_lt.mpr (Nat.le_add_right n i)
      simp [hlow _ hw, hx (n + i) (Nat.le_add_right n i), hge]
    · simp [BitVec.getLsbD_of_ge _ _ (Nat.le_of_not_lt hw)]
  rw [foldl_lowBits poly n x c hx, hsplit, zeros_split poly n low _ hclear, hrest, BitVec.xor_comm]

section Injective
variable {poly : BitVec w} (htop : poly.getLsbD (w - 1) = true)
include htop

/-- The top bit after a step says whether the polynomial was added. -/
theorem getLsbD_shiftInReflected_top (c : BitVec w) (b : Bool) :
    (shiftInReflected poly c b).getLsbD (w - 1) = (c.getLsbD 0 ^^ b) := by
  have hpos : 0 < w := Nat.lt_of_le_of_lt (Nat.zero_le _) (BitVec.lt_of_getLsbD htop)
  have hclear : (c >>> 1).getLsbD (w - 1) = false := by
    rw [BitVec.getLsbD_ushiftRight]
    exact BitVec.getLsbD_of_ge _ _ (by omega)
  rw [shiftInReflected]
  cases c.getLsbD 0 ^^ b with
  | false => rw [if_neg Bool.false_ne_true, hclear]
  | true => rw [if_pos rfl, BitVec.getLsbD_xor, hclear, htop, Bool.false_xor]

theorem shiftInReflected_injective (b : Bool) :
    Function.Injective fun c => shiftInReflected poly c b := by
  intro c d h
  have hlow : c.getLsbD 0 = d.getLsbD 0 := by
    have hbit := congrArg (BitVec.getLsbD · (w - 1)) h
    simpa only [getLsbD_shiftInReflected_top htop, Bool.xor_left_inj] using hbit
  have hrest : c >>> 1 = d >>> 1 := by
    simp only [shiftInReflected, hlow] at h
    split at h
    · exact (BitVec.xor_left_inj _).mp h
    · exact h
  apply BitVec.eq_of_getLsbD_eq
  intro i _
  cases i with
  | zero => exact hlow
  | succ i =>
      have hbit := congrArg (BitVec.getLsbD · i) hrest
      simpa only [BitVec.getLsbD_ushiftRight, Nat.add_comm 1] using hbit

theorem foldl_shiftInReflected_injective (bits : List Bool) :
    Function.Injective fun c => bits.foldl (shiftInReflected poly) c := by
  induction bits with
  | nil => exact fun c d h => h
  | cons b bits ih => exact fun c d h => shiftInReflected_injective htop b (ih h)

theorem zeros_injective (n : Nat) : Function.Injective (zeros poly n) := by
  induction n with
  | zero => exact fun c d h => h
  | succ n ih => exact fun c d h => shiftInReflected_injective htop false (ih h)

/-- As many bits as the remainder has are determined by what they make of it. -/
theorem foldl_bits_injective {bits bits' : List Bool} {c : BitVec w}
    (hlen : bits.length = bits'.length) (hw : bits.length ≤ w)
    (h : bits.foldl (shiftInReflected poly) c = bits'.foldl (shiftInReflected poly) c) :
    bits = bits' := by
  have hvector : ∀ l : List Bool, l.length ≤ w → ∃ x : BitVec w,
      lowBits x l.length = l ∧ ∀ i, l.length ≤ i → x.getLsbD i = false := by
    intro l hl
    have hbit : ∀ i < w, ((BitVec.ofBoolListLE l).setWidth w).getLsbD i = l.getD i false := by
      intro i hi
      rw [BitVec.getLsbD_setWidth, decide_eq_true hi, Bool.true_and, BitVec.getLsbD_ofBoolListLE]
    refine ⟨(BitVec.ofBoolListLE l).setWidth w, ?_, ?_⟩
    · apply List.ext_getElem
      · simp only [lowBits, List.length_map, List.length_range]
      · intro i _ hi
        simp only [lowBits, List.getElem_map, List.getElem_range]
        rw [hbit i (by omega), List.getD_eq_getElem?_getD, List.getElem?_eq_getElem hi,
          Option.getD_some]
    · intro i hi
      rw [BitVec.getLsbD_setWidth, BitVec.getLsbD_of_ge _ _ hi, Bool.and_false]
  obtain ⟨x, hbits, hx⟩ := hvector bits hw
  obtain ⟨x', hbits', hx'⟩ := hvector bits' (hlen ▸ hw)
  rw [← hbits, ← hbits', foldl_lowBits poly _ x c hx, foldl_lowBits poly _ x' c hx', ← hlen] at h
  have hsame : c ^^^ x = c ^^^ x' := zeros_injective htop _ h
  rw [← hbits, ← hbits', (BitVec.xor_right_inj _).mp hsame, hlen]

/-- A burst of errors that is no longer than the remainder changes the remainder, whatever
stands before it and behind it. -/
theorem burst_detected {before burst burst' behind : List Bool} {c : BitVec w}
    (hlen : burst.length = burst'.length) (hw : burst.length ≤ w) (hne : burst ≠ burst') :
    (before ++ burst ++ behind).foldl (shiftInReflected poly) c ≠
      (before ++ burst' ++ behind).foldl (shiftInReflected poly) c := by
  intro h
  simp only [List.foldl_append] at h
  exact hne (foldl_bits_injective htop hlen hw (foldl_shiftInReflected_injective htop behind h))

end Injective

end CyclicRedundancy
