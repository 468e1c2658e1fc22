import Mathlib.Algebra.Group.Nat.Defs
import Mathlib.Data.List.Basic

/-!
Byte-addressed memory with little-endian 32-bit words. A byte range is given by
its first address and its length; every lemma about an access says which other
accesses it leaves alone.
-/
namespace ByteMemory

abbrev Mem := Nat → UInt8

def loadBytes (m : Mem) (a n : Nat) : List UInt8 :=
  (List.range n).map fun i => m (a + i)

def storeBytes (m : Mem) (a : Nat) (bs : List UInt8) : Mem := fun p =>
  if a ≤ p ∧ p < a + bs.length then bs.getD (p - a) 0 else m p

/-- The four bytes of a word, least significant first. -/
def le32 (v : UInt32) : List UInt8 :=
  (List.range 4).map fun i => UInt8.ofNat (v.toNat / 256 ^ i)

def ofLe32 (bs : List UInt8) : UInt32 :=
  UInt32.ofNat (bs.foldr (fun b n => b.toNat + 256 * n) 0)

/-- The number whose digits to the base 256 are these bytes, least significant first. -/
def ofLe (bs : List UInt8) : Nat := bs.foldr (fun b n => b.toNat + 256 * n) 0

/-- The `n` digits of a number to the base 256, least significant first. -/
def leBytes (n v : Nat) : List UInt8 := (List.range n).map fun i => UInt8.ofNat (v / 256 ^ i)

def load16 (m : Mem) (a : Nat) : UInt16 := UInt16.ofNat (ofLe (loadBytes m a 2))

def load32 (m : Mem) (a : Nat) : UInt32 := ofLe32 (loadBytes m a 4)

def load64 (m : Mem) (a : Nat) : UInt64 := UInt64.ofNat (ofLe (loadBytes m a 8))

def store32 (m : Mem) (a : Nat) (v : UInt32) : Mem := storeBytes m a (le32 v)

/-- The addresses of a range of `n` bytes. -/
def byteRange (a n : Nat) : List Nat := (List.range n).map (a + ·)

/-- The ranges of `n` bytes at `a` and of `k` bytes at `b` share no address. -/
def RangeDisjoint (a n b k : Nat) : Prop := a + n ≤ b ∨ b + k ≤ a

@[simp] theorem loadBytes_length (m : Mem) (a n : Nat) : (loadBytes m a n).length = n := by
  simp [loadBytes]

@[simp] theorem loadBytes_zero (m : Mem) (a : Nat) : loadBytes m a 0 = [] := rfl

@[simp] theorem le32_length (v : UInt32) : (le32 v).length = 4 := rfl

@[simp] theorem ofLe32_le32 (v : UInt32) : ofLe32 (le32 v) = v := by
  have hv := v.toNat_lt
  apply UInt32.toNat.inj
  simp only [ofLe32, le32, List.range, List.range.loop, List.map_cons, List.map_nil,
    List.foldr_cons, List.foldr_nil, UInt8.toNat_ofNat', UInt32.toNat_ofNat']
  omega

@[simp] theorem leBytes_length (n v : Nat) : (leBytes n v).length = n := by
  simp [leBytes]

theorem leBytes_succ (n v : Nat) :
    leBytes (n + 1) v = UInt8.ofNat v :: leBytes n (v / 256) := by
  rw [leBytes, List.range_succ_eq_map, List.map_cons, List.map_map, Nat.pow_zero, Nat.div_one]
  refine congrArg _ (List.map_congr_left fun i _ => congrArg UInt8.ofNat ?_)
  rw [Nat.succ_eq_add_one, Nat.pow_succ', Nat.div_div_eq_div_mul]

theorem ofLe_leBytes (n v : Nat) : ofLe (leBytes n v) = v % 256 ^ n := by
  induction n generalizing v with
  | zero => simp [leBytes, ofLe, Nat.mod_one]
  | succ n ih =>
      have hrest : ofLe (leBytes n (v / 256)) = v / 256 % 256 ^ n := ih _
      rw [leBytes_succ, Nat.pow_succ', Nat.mod_mul, ← hrest]
      rfl

theorem leBytes_ofLe (bs : List UInt8) : leBytes bs.length (ofLe bs) = bs := by
  induction bs with
  | nil => rfl
  | cons b bs ih =>
      have hval : ofLe (b :: bs) = b.toNat + 256 * ofLe bs := rfl
      have hb := b.toNat_lt
      rw [List.length_cons, leBytes_succ, hval, show (b.toNat + 256 * ofLe bs) / 256 = ofLe bs by
        omega, ih]
      congr 1
      apply UInt8.toNat.inj
      rw [UInt8.toNat_ofNat']
      omega

theorem ofLe_lt (bs : List UInt8) : ofLe bs < 256 ^ bs.length := by
  have hdigits := ofLe_leBytes bs.length (ofLe bs)
  rw [leBytes_ofLe] at hdigits
  rw [hdigits]
  exact Nat.mod_lt _ (Nat.pow_pos (by decide))

@[simp] theorem leBytes_load16 (m : Mem) (a : Nat) :
    leBytes 2 (load16 m a).toNat = loadBytes m a 2 := by
  have hlt := ofLe_lt (loadBytes m a 2)
  have hback := leBytes_ofLe (loadBytes m a 2)
  rw [loadBytes_length] at hlt hback
  rw [load16, UInt16.toNat_ofNat_of_lt' hlt, hback]

@[simp] theorem le32_load32 (m : Mem) (a : Nat) : le32 (load32 m a) = loadBytes m a 4 := by
  have hlt := ofLe_lt (loadBytes m a 4)
  have hback := leBytes_ofLe (loadBytes m a 4)
  rw [loadBytes_length] at hlt hback
  change leBytes 4 (UInt32.ofNat (ofLe (loadBytes m a 4))).toNat = _
  rw [UInt32.toNat_ofNat_of_lt' hlt, hback]

@[simp] theorem leBytes_load64 (m : Mem) (a : Nat) :
    leBytes 8 (load64 m a).toNat = loadBytes m a 8 := by
  have hlt := ofLe_lt (loadBytes m a 8)
  have hback := leBytes_ofLe (loadBytes m a 8)
  rw [loadBytes_length] at hlt hback
  rw [load64, UInt64.toNat_ofNat_of_lt' hlt, hback]

theorem getElem?_loadBytes (m : Mem) (a n i : Nat) (h : i < n) :
    (loadBytes m a n)[i]? = some (m (a + i)) := by
  simp [loadBytes, h]

theorem loadBytes_append (m : Mem) (a n k : Nat) :
    loadBytes m a (n + k) = loadBytes m a n ++ loadBytes m (a + n) k := by
  simp only [loadBytes, List.range_add, List.map_append, List.map_map]
  congr 1
  exact List.map_congr_left fun i _ => congrArg m (by simp; omega)

theorem take_loadBytes (m : Mem) (a n g : Nat) :
    (loadBytes m a n).take g = loadBytes m a (min g n) := by
  rw [loadBytes, ← List.map_take, List.take_range]
  rfl

theorem drop_loadBytes (m : Mem) (a n g : Nat) :
    (loadBytes m a n).drop g = loadBytes m (a + min g n) (n - g) := by
  have hsplit : loadBytes m a n = loadBytes m a (min g n) ++ loadBytes m (a + min g n) (n - g) := by
    rw [← loadBytes_append]
    congr 1
    omega
  by_cases hle : g ≤ n
  · rw [hsplit, Nat.min_eq_left hle]
    exact List.drop_left' (loadBytes_length m a g)
  · rw [Nat.sub_eq_zero_of_le (by omega), loadBytes_zero]
    exact List.drop_eq_nil_of_le (by rw [loadBytes_length]; omega)

theorem loadBytes_congr (m m' : Mem) (a n : Nat) (h : ∀ i < n, m (a + i) = m' (a + i)) :
    loadBytes m a n = loadBytes m' a n :=
  List.map_congr_left fun i hi => h i (List.mem_range.mp hi)

theorem loadBytes_eq_replicate {m : Mem} {a n : Nat} {b : UInt8} (h : ∀ i < n, m (a + i) = b) :
    loadBytes m a n = List.replicate n b := by
  refine List.eq_replicate_iff.mpr ⟨loadBytes_length m a n, fun c hc => ?_⟩
  obtain ⟨i, hi, rfl⟩ := List.mem_map.mp hc
  exact h i (List.mem_range.mp hi)

theorem ofFn_eq_loadBytes (m : Mem) (a n : Nat) :
    List.ofFn (fun i : Fin n => m (a + i)) = loadBytes m a n := by
  refine List.ext_getElem (by rw [List.length_ofFn, loadBytes_length]) fun i hi hi' => ?_
  simp only [loadBytes, List.getElem_ofFn, List.getElem_map, List.getElem_range]

theorem load32_congr (m m' : Mem) (a : Nat) (h : ∀ i < 4, m (a + i) = m' (a + i)) :
    load32 m a = load32 m' a :=
  congrArg ofLe32 (loadBytes_congr m m' a 4 h)

theorem storeBytes_outside (m : Mem) (a : Nat) (bs : List UInt8) (p : Nat)
    (h : p < a ∨ a + bs.length ≤ p) : storeBytes m a bs p = m p :=
  if_neg (by omega)

theorem storeBytes_inside (m : Mem) (a : Nat) (bs : List UInt8) (i : Nat)
    (h : i < bs.length) : storeBytes m a bs (a + i) = bs[i] := by
  rw [storeBytes, if_pos (by omega), Nat.add_sub_cancel_left, List.getD_eq_getElem?_getD,
    List.getElem?_eq_getElem h, Option.getD_some]

@[simp] theorem storeBytes_nil (m : Mem) (a : Nat) : storeBytes m a [] = m :=
  funext fun p => storeBytes_outside m a [] p (by simp only [List.length_nil]; omega)

theorem storeBytes_append (m : Mem) (a : Nat) (bs cs : List UInt8) :
    storeBytes m a (bs ++ cs) = storeBytes (storeBytes m a bs) (a + bs.length) cs := by
  funext p
  rcases Nat.lt_or_ge p (a + bs.length) with hp | hp
  · rw [storeBytes_outside (storeBytes m a bs) _ _ _ (Or.inl hp)]
    rcases Nat.lt_or_ge p a with hpa | hpa
    · rw [storeBytes_outside _ _ _ _ (Or.inl hpa), storeBytes_outside _ _ _ _ (Or.inl hpa)]
    · obtain ⟨i, rfl⟩ := Nat.exists_eq_add_of_le hpa
      have hi : i < bs.length := by omega
      rw [storeBytes_inside _ _ _ _ hi, storeBytes_inside _ _ _ _ (by simp; omega),
        List.getElem_append_left hi]
  · obtain ⟨i, rfl⟩ := Nat.exists_eq_add_of_le hp
    rcases Nat.lt_or_ge i cs.length with hi | hi
    · rw [storeBytes_inside _ _ _ _ hi, Nat.add_assoc,
        storeBytes_inside _ _ _ _ (by simp; omega), List.getElem_append_right (by omega)]
      simp only [Nat.add_sub_cancel_left]
    · rw [storeBytes_outside _ _ _ _ (by simp; omega),
        storeBytes_outside _ _ _ _ (by omega), storeBytes_outside _ _ _ _ (by omega)]

theorem loadBytes_storeBytes_same (m : Mem) (a : Nat) (bs : List UInt8) :
    loadBytes (storeBytes m a bs) a bs.length = bs := by
  refine List.ext_getElem (by simp) fun i _ h => ?_
  simp only [loadBytes, List.getElem_map, List.getElem_range]
  exact storeBytes_inside m a bs i h

theorem loadBytes_storeBytes_inside (m : Mem) (a : Nat) (bs : List UInt8) (o n : Nat)
    (h : o + n ≤ bs.length) :
    loadBytes (storeBytes m a bs) (a + o) n = (bs.drop o).take n := by
  refine List.ext_getElem (by simp; omega) fun i hi _ => ?_
  rw [loadBytes_length] at hi
  simp only [loadBytes, List.getElem_map, List.getElem_range, List.getElem_take,
    List.getElem_drop, Nat.add_assoc]
  exact storeBytes_inside m a bs (o + i) (by omega)

theorem loadBytes_storeBytes_across (m : Mem) (a : Nat) (bs : List UInt8) (n : Nat)
    (h : bs.length ≤ n) :
    loadBytes (storeBytes m a bs) a n =
      bs ++ loadBytes m (a + bs.length) (n - bs.length) := by
  obtain ⟨k, rfl⟩ := Nat.exists_eq_add_of_le h
  rw [loadBytes_append, loadBytes_storeBytes_same, Nat.add_sub_cancel_left,
    loadBytes_congr (storeBytes m a bs) m _ _ fun i hi =>
      storeBytes_outside m a bs _ (Or.inr (Nat.le_add_right _ _))]

theorem storeBytes_storeBytes_same (m : Mem) (a : Nat) (bs cs : List UInt8)
    (h : bs.length = cs.length) : storeBytes (storeBytes m a bs) a cs = storeBytes m a cs := by
  funext p
  simp only [storeBytes, h]
  split <;> rfl

theorem loadBytes_storeBytes_disjoint (m : Mem) (a n b : Nat) (bs : List UInt8)
    (h : RangeDisjoint a n b bs.length) :
    loadBytes (storeBytes m b bs) a n = loadBytes m a n :=
  loadBytes_congr _ _ a n fun i hi =>
    storeBytes_outside m b bs (a + i) (by unfold RangeDisjoint at h; omega)

theorem load32_storeBytes_disjoint (m : Mem) (a b : Nat) (bs : List UInt8)
    (h : RangeDisjoint a 4 b bs.length) : load32 (storeBytes m b bs) a = load32 m a :=
  congrArg ofLe32 (loadBytes_storeBytes_disjoint m a 4 b bs h)

@[simp] theorem load32_store32_same (m : Mem) (a : Nat) (v : UInt32) :
    load32 (store32 m a v) a = v :=
  (congrArg ofLe32 (loadBytes_storeBytes_same m a (le32 v))).trans (ofLe32_le32 v)

@[simp] theorem store32_store32_same (m : Mem) (a : Nat) (v w : UInt32) :
    store32 (store32 m a v) a w = store32 m a w :=
  storeBytes_storeBytes_same m a (le32 v) (le32 w) rfl

/-- Storing what is there changes nothing. -/
@[simp] theorem store32_load32 (m : Mem) (a : Nat) : store32 m a (load32 m a) = m := by
  funext p
  rw [store32, le32_load32]
  by_cases hp : a ≤ p ∧ p < a + 4
  · obtain ⟨i, rfl⟩ := Nat.exists_eq_add_of_le hp.1
    rw [storeBytes_inside _ _ _ _ (by rw [loadBytes_length]; omega)]
    simp [loadBytes]
  · exact storeBytes_outside _ _ _ _ (by rw [loadBytes_length]; omega)

theorem load32_store32_disjoint (m : Mem) (a b : Nat) (v : UInt32) (h : RangeDisjoint a 4 b 4) :
    load32 (store32 m b v) a = load32 m a :=
  load32_storeBytes_disjoint m a b (le32 v) h

theorem loadBytes_store32_disjoint (m : Mem) (a n b : Nat) (v : UInt32)
    (h : RangeDisjoint a n b 4) : loadBytes (store32 m b v) a n = loadBytes m a n :=
  loadBytes_storeBytes_disjoint m a n b (le32 v) h

theorem store32_outside (m : Mem) (a : Nat) (v : UInt32) (p : Nat)
    (h : p < a ∨ a + 4 ≤ p) : store32 m a v p = m p :=
  storeBytes_outside m a (le32 v) p h

theorem mem_byteRange (a n p : Nat) : p ∈ byteRange a n ↔ a ≤ p ∧ p < a + n := by
  simp only [byteRange, List.mem_map, List.mem_range]
  constructor
  · rintro ⟨i, hi, rfl⟩
    omega
  · intro h
    exact ⟨p - a, by omega, by omega⟩

theorem byteRange_append (a n k : Nat) :
    byteRange a (n + k) = byteRange a n ++ byteRange (a + n) k := by
  simp only [byteRange, List.range_add, List.map_append, List.map_map]
  congr 1
  exact List.map_congr_left fun i _ => by simp; omega

end ByteMemory
