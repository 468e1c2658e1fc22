import Mathlib.Logic.Function.Basic

/-!
Sequences of calls on two levels of one design. A relation that every call
keeps, with equal answers, makes whole sequences give equal answers.
-/
namespace Refinement
variable {γ ρ σ τ : Type}

/-- The answers of a sequence of calls, and the state after it. -/
def runAll (call : γ → σ → ρ × σ) : List γ → σ → List ρ × σ
  | [], s => ([], s)
  | c :: cs, s =>
      ((call c s).1 :: (runAll call cs (call c s).2).1, (runAll call cs (call c s).2).2)

theorem runAll_simulates (concrete : γ → σ → ρ × σ) (abstract : γ → τ → ρ × τ)
    (R : σ → τ → Prop)
    (hcall : ∀ c s t, R s t →
      (concrete c s).1 = (abstract c t).1 ∧ R (concrete c s).2 (abstract c t).2)
    (cs : List γ) (s : σ) (t : τ) (h : R s t) :
    (runAll concrete cs s).1 = (runAll abstract cs t).1 ∧
      R (runAll concrete cs s).2 (runAll abstract cs t).2 := by
  induction cs generalizing s t with
  | nil => exact ⟨rfl, h⟩
  | cons c cs ih =>
      obtain ⟨hans, hnext⟩ := hcall c s t h
      obtain ⟨hrest, hend⟩ := ih _ _ hnext
      exact ⟨by simp only [runAll, hans, hrest], hend⟩

/-- A sequence of calls that need not answer, or may answer in several ways. -/
inductive RunsAll (step : γ → σ → ρ × σ → Prop) : List γ → σ → List ρ × σ → Prop
  | nil (s : σ) : RunsAll step [] s ([], s)
  | cons (c : γ) (cs : List γ) (s : σ) (r : ρ × σ) (rs : List ρ × σ) (hstep : step c s r)
      (hrest : RunsAll step cs r.2 rs) : RunsAll step (c :: cs) s (r.1 :: rs.1, rs.2)

/-- If every call answers, and only as the abstract one does, then a sequence has an outcome,
and every outcome has the abstract answers. -/
theorem runsAll_simulates (step : γ → σ → ρ × σ → Prop) (abstract : γ → τ → ρ × τ)
    (R : σ → τ → Prop)
    (hcall : ∀ c s t, R s t → (∃ r, step c s r) ∧
      ∀ r, step c s r → r.1 = (abstract c t).1 ∧ R r.2 (abstract c t).2)
    (cs : List γ) (s : σ) (t : τ) (h : R s t) :
    (∃ rs, RunsAll step cs s rs) ∧ ∀ rs, RunsAll step cs s rs →
      rs.1 = (runAll abstract cs t).1 ∧ R rs.2 (runAll abstract cs t).2 := by
  induction cs generalizing s t with
  | nil =>
      refine ⟨⟨_, .nil s⟩, fun rs hrun => ?_⟩
      cases hrun
      exact ⟨rfl, h⟩
  | cons c cs ih =>
      obtain ⟨⟨r, hstep⟩, honly⟩ := hcall c s t h
      obtain ⟨⟨rs, hrest⟩, -⟩ := ih _ _ (honly r hstep).2
      refine ⟨⟨_, .cons c cs s r rs hstep hrest⟩, fun rs hrun => ?_⟩
      cases hrun with
      | cons _ _ _ r rs hstep hrest =>
          obtain ⟨hans, hnext⟩ := honly r hstep
          obtain ⟨hanswers, hend⟩ := (ih _ _ hnext).2 rs hrest
          exact ⟨by simp only [runAll, hans, hanswers], hend⟩

/-! Calls on the parts of a state. -/

/-- The answers of those calls that are on part `i`. -/
def answersOn {ι : Type} [DecidableEq ι] (i : ι) (cs : List (ι × γ)) (answers : List ρ) : List ρ :=
  ((cs.zip answers).filter fun x => x.1.1 = i).map Prod.snd

/-- If a call on one part neither sees nor touches another part, a sequence of calls on
all parts does to each part what the calls on that part do alone. -/
theorem runAll_project {ι : Type} [DecidableEq ι] (call : ι × γ → σ → ρ × σ) (i : ι)
    (Same : σ → σ → Prop)
    (hown : ∀ c s s', Same s s' → (call (i, c) s).1 = (call (i, c) s').1 ∧
      Same (call (i, c) s).2 (call (i, c) s').2)
    (hother : ∀ j c s s', j ≠ i → Same s s' → Same (call (j, c) s).2 s')
    (cs : List (ι × γ)) (s s' : σ) (h : Same s s') :
    answersOn i cs (runAll call cs s).1 = (runAll call (cs.filter fun x => x.1 = i) s').1 ∧
      Same (runAll call cs s).2 (runAll call (cs.filter fun x => x.1 = i) s').2 := by
  induction cs generalizing s s' with
  | nil => exact ⟨rfl, h⟩
  | cons x cs ih =>
      obtain ⟨j, c⟩ := x
      by_cases hj : j = i
      · subst hj
        obtain ⟨hans, hnext⟩ := hown c s s' h
        obtain ⟨hrest, hend⟩ := ih _ _ hnext
        simp only [answersOn] at hrest
        simp [runAll, answersOn, hans, hrest, hend]
      · obtain ⟨hrest, hend⟩ := ih _ _ (hother j c s s' hj h)
        simp only [answersOn] at hrest
        simp [runAll, answersOn, hj, hrest, hend]

/-- A call on one part of a family leaves the other parts as they are. -/
def updateCall {ι : Type} [DecidableEq ι] {κ : ι → Type} (part : (i : ι) → γ → κ i → ρ × κ i)
    (x : ι × γ) (ks : (i : ι) → κ i) : ρ × ((i : ι) → κ i) :=
  ((part x.1 x.2 (ks x.1)).1, Function.update ks x.1 (part x.1 x.2 (ks x.1)).2)

/-- A state that represents each part of a family simulates the whole family, if a call
refines its own part and keeps what represents the others. -/
theorem updateCall_simulates {ι : Type} [DecidableEq ι] {κ : ι → Type}
    (concrete : ι × γ → σ → ρ × σ) (part : (i : ι) → γ → κ i → ρ × κ i) (Inv : σ → Prop)
    (R : (i : ι) → σ → κ i → Prop)
    (hinv : ∀ x s, Inv s → Inv (concrete x s).2)
    (hown : ∀ i c s k, Inv s → R i s k →
      (concrete (i, c) s).1 = (part i c k).1 ∧ R i (concrete (i, c) s).2 (part i c k).2)
    (hother : ∀ i j c s k, j ≠ i → Inv s → R i s k → R i (concrete (j, c) s).2 k)
    (cs : List (ι × γ)) (s : σ) (ks : (i : ι) → κ i) (hs : Inv s) (h : ∀ i, R i s (ks i)) :
    (runAll concrete cs s).1 = (runAll (updateCall part) cs ks).1 ∧
      ∀ i, R i (runAll concrete cs s).2 ((runAll (updateCall part) cs ks).2 i) := by
  have hcall : ∀ x s ks, (Inv s ∧ ∀ i, R i s (ks i)) →
      (concrete x s).1 = (updateCall part x ks).1 ∧ Inv (concrete x s).2 ∧
        ∀ i, R i (concrete x s).2 ((updateCall part x ks).2 i) := by
    rintro ⟨j, c⟩ s ks ⟨hs, hks⟩
    obtain ⟨hans, hnext⟩ := hown j c s (ks j) hs (hks j)
    refine ⟨hans, hinv _ _ hs, fun i => ?_⟩
    by_cases hi : i = j
    · subst hi
      simp only [updateCall, Function.update_self]
      exact hnext
    · simp only [updateCall, Function.update_of_ne hi]
      exact hother i j c s (ks i) (Ne.symm hi) hs (hks i)
  obtain ⟨hans, -, hend⟩ := runAll_simulates concrete (updateCall part)
    (fun s ks => Inv s ∧ ∀ i, R i s (ks i)) hcall cs s ks ⟨hs, h⟩
  exact ⟨hans, hend⟩

end Refinement
