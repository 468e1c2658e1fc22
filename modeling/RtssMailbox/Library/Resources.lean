import Mathlib.Data.List.Induction
import Mathlib.Data.Multiset.AddSub
import RtssMailbox.Library.Monitor

/-!
Resources that are acquired and released. What is held follows from the history of
both; a history is proper if each release is of something that is held then, so that
nothing is released twice or by another name than it was acquired by.
-/
namespace Resources
variable {R : Type} [DecidableEq R]

inductive Change (R : Type) where
  | acquired (r : R)
  | released (r : R)
deriving DecidableEq

def Change.after (held : Multiset R) : Change R → Multiset R
  | .acquired r => r ::ₘ held
  | .released r => held.erase r

def held (history : List (Change R)) : Multiset R := history.foldl Change.after 0

/-- Every release is of something that is held. -/
def Proper (history : List (Change R)) : Prop :=
  ∀ past r rest, history = past ++ .released r :: rest → r ∈ held past

@[simp] theorem held_nil : held ([] : List (Change R)) = 0 := rfl

@[simp] theorem held_concat (history : List (Change R)) (e : Change R) :
    held (history ++ [e]) = e.after (held history) := by
  rw [held, List.foldl_append]
  rfl

theorem Proper.nil : Proper ([] : List (Change R)) := by
  intro past r rest h
  cases past <;> cases h

/-- A history that goes on is proper if it was and its last change is. -/
theorem Proper.concat {history : List (Change R)} {e : Change R} (h : Proper history)
    (he : ∀ r, e = .released r → r ∈ held history) : Proper (history ++ [e]) := by
  intro past r rest hsplit
  rcases List.eq_nil_or_concat rest with rfl | ⟨rest, last, rfl⟩
  · obtain ⟨rfl, hlast⟩ := List.append_inj' hsplit rfl
    exact he r (List.cons.inj hlast).1
  · have hsplit' : history ++ [e] = (past ++ .released r :: rest) ++ [last] := by
      rw [hsplit, List.concat_eq_append, List.append_assoc]
      rfl
    exact h past r rest (List.append_inj' hsplit' rfl).1

theorem Proper.acquire {history : List (Change R)} (h : Proper history) (r : R) :
    Proper (history ++ [.acquired r]) := h.concat fun _ hr => nomatch hr

theorem Proper.release {history : List (Change R)} (h : Proper history) {r : R}
    (hr : r ∈ held history) : Proper (history ++ [.released r]) := by
  refine h.concat fun r' heq => ?_
  cases heq
  exact hr

theorem Proper.of_concat {history : List (Change R)} {e : Change R} (h : Proper (history ++ [e])) :
    Proper history := by
  intro past r rest hsplit
  exact h past r (rest ++ [e]) (by rw [hsplit, List.append_assoc]; rfl)

/-- Everything was released as often as it was acquired, but for what is held. -/
theorem Proper.count {history : List (Change R)} (h : Proper history) (r : R) :
    history.count (.acquired r) = history.count (.released r) + (held history).count r := by
  induction history using List.reverseRecOn with
  | nil => rfl
  | append_singleton history e ih =>
      have hpast := ih h.of_concat
      rw [held_concat, List.count_append, List.count_append]
      cases e with
      | acquired r' =>
          by_cases hr : r = r'
          · subst hr
            simp only [Change.after, Multiset.count_cons_self, List.count_singleton_self]
            simp
            omega
          · simp [Change.after, Multiset.count_cons_of_ne hr, Ne.symm hr, hpast]
      | released r' =>
          have hheld : r' ∈ held history := h history r' [] rfl
          by_cases hr : r = r'
          · subst hr
            have hpos := Multiset.count_pos.mpr hheld
            simp [Change.after, Multiset.count_erase_self]
            omega
          · simp [Change.after, Multiset.count_erase_of_ne hr, Ne.symm hr, hpast]

/-! Programs some of whose operations acquire or release. -/

open Effects Monitoring

variable {S : Signature} {α : Type} (acquires : Event S → Option R) (releases : S.Op → Option R)
  (assumes : Event S → Prop)

/-- A monitor of the history, which allows the release of what is held. -/
def monitor : Monitor S (List (Change R)) where
  next history e :=
    match releases e.op, acquires e with
    | some r, _ => history ++ [.released r]
    | none, some r => history ++ [.acquired r]
    | none, none => history
  allows history o := ∀ r ∈ releases o, r ∈ held history
  assumes _ e := assumes e

/-- The history is proper, and this is what is held after it. -/
def Holding (X : Multiset R) (history : List (Change R)) : Prop :=
  Proper history ∧ held history = X

/-- What is held after an operation that may acquire. -/
def gain (X : Multiset R) : Option R → Multiset R
  | some r => r ::ₘ X
  | none => X

omit [DecidableEq R] in
theorem gain_failed {c : Prop} [Decidable c] (h : c) (X : Multiset R) (r : R) :
    gain X (if c then none else some r) = X := by
  rw [if_pos h]
  rfl

omit [DecidableEq R] in
theorem gain_succeeded {c : Prop} [Decidable c] (h : ¬ c) (X : Multiset R) (r : R) :
    gain X (if c then none else some r) = r ::ₘ X := by
  rw [if_neg h]
  rfl

variable {X : Multiset R} {history : List (Change R)} {o : S.Op}
  {f : S.Res o → Prog S α} {Q : α → List (Change R) → Prop}

/-- What is held after an operation that gives back what is held. -/
theorem Holding.release {r : R} (h : Holding (r ::ₘ X) history) (ho : releases o = some r)
    (a : S.Res o) : Holding X ((monitor acquires releases assumes).next history ⟨o, a⟩) := by
  have hr : r ∈ held history := h.2 ▸ Multiset.mem_cons_self r X
  simp only [monitor, ho]
  refine ⟨h.1.release hr, ?_⟩
  rw [held_concat, h.2]
  exact Multiset.erase_cons_head r X

theorem Holding.acquire (h : Holding X history) (ho : releases o = none) (a : S.Res o) :
    Holding (gain X (acquires ⟨o, a⟩))
      ((monitor acquires releases assumes).next history ⟨o, a⟩) := by
  simp only [monitor, ho]
  cases acquires ⟨o, a⟩ with
  | none => exact h
  | some r =>
      refine ⟨h.1.acquire r, ?_⟩
      rw [held_concat, h.2]
      rfl

theorem keeps_release {r : R} (ho : releases o = some r) (hheld : Holding (r ::ₘ X) history)
    (hf : ∀ a history', Holding X history' →
      (monitor acquires releases assumes).Keeps Q (f a) history') :
    (monitor acquires releases assumes).Keeps Q (Prog.perform o >>= f) history := by
  refine ⟨fun r' hr' => ?_, fun a _ => hf a _ (hheld.release acquires releases assumes ho a)⟩
  cases ho.symm.trans hr'
  exact hheld.2 ▸ Multiset.mem_cons_self r X

theorem keeps_acquire (ho : releases o = none) (hheld : Holding X history)
    (hf : ∀ a history', assumes ⟨o, a⟩ → Holding (gain X (acquires ⟨o, a⟩)) history' →
      (monitor acquires releases assumes).Keeps Q (f a) history') :
    (monitor acquires releases assumes).Keeps Q (Prog.perform o >>= f) history := by
  refine ⟨fun r hr => ?_,
    fun a ha => hf a _ ha (hheld.acquire acquires releases assumes ho a)⟩
  cases ho.symm.trans hr

end Resources
