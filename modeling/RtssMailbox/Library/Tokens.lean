import Mathlib.Data.List.TakeWhile

/-!
Words of a list between separators, taken one after the other from its start. Runs of
separators count as one, and those before the first word and behind the last one are skipped.
-/
namespace Tokens
variable {α : Type} [DecidableEq α]

/-- The next word, and what follows the separator behind it. -/
def next (sep : α) (s : List α) : Option (List α) × List α :=
  let s := s.dropWhile (· = sep)
  if s = [] then (none, [])
  else (some (s.takeWhile (· ≠ sep)), (s.dropWhile (· ≠ sep)).drop 1)

structure Word (sep : α) (w : List α) : Prop where
  ne_nil : w ≠ []
  free : sep ∉ w

/-- Two words with separators between them, and maybe around them. -/
def TwoWords (sep : α) (s a b : List α) : Prop :=
  Word sep a ∧ Word sep b ∧ ∃ i k j, s = List.replicate i sep ++ (a ++
    sep :: (List.replicate k sep ++ (b ++ List.replicate j sep)))

variable {sep : α} {s w rest a b : List α}

theorem dropWhile_separators (i : Nat) (s : List α) :
    (List.replicate i sep ++ s).dropWhile (· = sep) = s.dropWhile (· = sep) := by
  induction i with
  | zero => rfl
  | succ i ih =>
      rw [List.replicate_succ, List.cons_append, List.dropWhile_cons_of_pos (by simp)]
      exact ih

theorem Word.dropWhile_eq (hw : Word sep w) (rest : List α) :
    (w ++ rest).dropWhile (· = sep) = w ++ rest := by
  obtain ⟨b, w', rfl⟩ := List.exists_cons_of_ne_nil hw.ne_nil
  have hb : b ≠ sep := fun hb => hw.free (hb ▸ List.mem_cons_self)
  exact List.dropWhile_cons_of_neg (by simpa using hb)

theorem Word.all_ne (hw : Word sep w) : ∀ b ∈ w, decide (b ≠ sep) = true := by
  intro b hb
  exact decide_eq_true fun heq => hw.free (heq ▸ hb)

theorem Word.next_eq (hw : Word sep w) (i : Nat) (tail : List α)
    (htail : tail = [] ∨ ∃ rest, tail = sep :: rest) :
    next sep (List.replicate i sep ++ (w ++ tail)) = (some w, tail.drop 1) := by
  have hne : w ++ tail ≠ [] := fun h => hw.ne_nil (List.append_eq_nil_iff.mp h).1
  have hend : tail.takeWhile (· ≠ sep) = [] ∧ tail.dropWhile (· ≠ sep) = tail := by
    rcases htail with rfl | ⟨rest, rfl⟩
    · exact ⟨rfl, rfl⟩
    · exact ⟨List.takeWhile_cons_of_neg (by simp), List.dropWhile_cons_of_neg (by simp)⟩
  rw [next, dropWhile_separators, hw.dropWhile_eq, if_neg hne,
    List.takeWhile_append_of_pos hw.all_ne, List.dropWhile_append_of_pos hw.all_ne, hend.1,
    hend.2, List.append_nil]

omit [DecidableEq α] in
theorem dropWhile_head {p : α → Bool} {x : α} {t : List α} (h : s.dropWhile p = x :: t) :
    p x = false := by
  have hhead := List.head?_dropWhile_not p s
  rw [h] at hhead
  exact hhead

theorem next_none : (next sep s).1 = none ↔ ∃ j, s = List.replicate j sep := by
  constructor
  · intro h
    have hdrop : s.dropWhile (· = sep) = [] := by
      by_contra hne
      rw [next, if_neg hne] at h
      cases h
    refine ⟨s.length, List.eq_replicate_iff.mpr ⟨rfl, fun b hb => ?_⟩⟩
    exact of_decide_eq_true (List.dropWhile_eq_nil_iff.mp hdrop b hb)
  · rintro ⟨j, rfl⟩
    have hdrop : (List.replicate j sep ++ []).dropWhile (· = sep) = _ := dropWhile_separators j []
    rw [List.append_nil] at hdrop
    rw [next, hdrop]
    rfl

/-- What is in front of a word are separators, and it ends with the list or a separator. -/
theorem next_some (h : next sep s = (some w, rest)) :
    Word sep w ∧ ∃ i, s = List.replicate i sep ++ w ∧ rest = [] ∨
      s = List.replicate i sep ++ (w ++ sep :: rest) := by
  have hsplit : s.takeWhile (· = sep) ++ s.dropWhile (· = sep) = s :=
    List.takeWhile_append_dropWhile
  have hfront : s.takeWhile (· = sep) = List.replicate (s.takeWhile (· = sep)).length sep :=
    List.eq_replicate_iff.mpr ⟨rfl, fun b hb => by simpa using List.mem_takeWhile_imp hb⟩
  by_cases hnil : s.dropWhile (· = sep) = []
  · rw [next, if_pos hnil] at h
    cases h
  · rw [next, if_neg hnil] at h
    obtain ⟨b, t, hcons⟩ := List.exists_cons_of_ne_nil hnil
    have hb : b ≠ sep := by simpa using dropWhile_head hcons
    rw [hcons] at h hsplit
    cases h
    refine ⟨⟨?_, ?_⟩, (s.takeWhile (· = sep)).length, ?_⟩
    · rw [List.takeWhile_cons_of_pos (by simpa using hb)]
      exact List.cons_ne_nil _ _
    · intro hmem
      simpa using List.mem_takeWhile_imp hmem
    · have hword : (b :: t).takeWhile (· ≠ sep) ++ (b :: t).dropWhile (· ≠ sep) = b :: t :=
        List.takeWhile_append_dropWhile
      cases htail : (b :: t).dropWhile (· ≠ sep) with
      | nil =>
          rw [htail, List.append_nil] at hword
          refine Or.inl ⟨?_, rfl⟩
          rw [← hfront, hword, hsplit]
      | cons x rest =>
          have hx : x = sep := by simpa using dropWhile_head htail
          rw [htail, hx] at hword
          refine Or.inr ?_
          rw [← hfront, List.drop_succ_cons, List.drop_zero, hword, hsplit]

/-- Two words and no third, taken one after the other. -/
theorem twoWords_iff : TwoWords sep s a b ↔
    ∃ rest rest', next sep s = (some a, rest) ∧ next sep rest = (some b, rest') ∧
      (next sep rest').1 = none := by
  constructor
  · rintro ⟨ha, hb, i, k, j, rfl⟩
    have hfirst := ha.next_eq i _
      (Or.inr ⟨List.replicate k sep ++ (b ++ List.replicate j sep), rfl⟩)
    cases j with
    | zero => exact ⟨_, _, hfirst, hb.next_eq k _ (Or.inl rfl), rfl⟩
    | succ j =>
        exact ⟨_, _, hfirst, hb.next_eq k _ (Or.inr ⟨_, List.replicate_succ⟩),
          next_none.mpr ⟨j, rfl⟩⟩
  · rintro ⟨rest, rest', hfirst, hsecond, hend⟩
    obtain ⟨ha, i, ⟨rfl, rfl⟩ | rfl⟩ := next_some hfirst
    · cases hsecond
    · obtain ⟨hb, k, ⟨rfl, rfl⟩ | rfl⟩ := next_some hsecond
      · exact ⟨ha, hb, i, k, 0, by rw [List.replicate_zero, List.append_nil]⟩
      · obtain ⟨j, rfl⟩ := next_none.mp hend
        exact ⟨ha, hb, i, k, j + 1, by rw [List.replicate_succ]⟩

theorem TwoWords.unique {a' b' : List α} (h : TwoWords sep s a b) (h' : TwoWords sep s a' b') :
    a = a' ∧ b = b' := by
  obtain ⟨rest, _, hfirst, hsecond, -⟩ := twoWords_iff.mp h
  obtain ⟨rest', _, hfirst', hsecond', -⟩ := twoWords_iff.mp h'
  cases hfirst.symm.trans hfirst'
  cases hsecond.symm.trans hsecond'
  exact ⟨rfl, rfl⟩

end Tokens
