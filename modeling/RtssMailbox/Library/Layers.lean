import RtssMailbox.Library.Iteration
import RtssMailbox.Library.Monitor

/-!
Programs in layers. What a monitor knows of a program goes over to the program whose
operations are implemented by others, if each implementation does for one monitor what
its operation does for the other. A condition that every part of a program preserves is
preserved by the whole, and a program whose parts all complete completes. A call in an
environment is taken apart in the same way, by the pieces of its text and by what a monitor
knows of them.
-/
namespace Monitoring
open Effects Iteration

namespace Monitor
variable {S T : Signature} {σ τ α β : Type} {M : Monitor S σ} {N : Monitor T τ}

/-- The states of the two monitors are related before an operation and after what
implements it. -/
theorem Keeps.expand (R : σ → τ → Prop) (f : (o : S.Op) → Prog T (S.Res o))
    (hf : ∀ o s t, R s t → M.allows s o →
      N.Keeps (fun r t' => M.assumes s ⟨o, r⟩ ∧ R (M.next s ⟨o, r⟩) t') (f o) t)
    {Q : α → σ → Prop} {p : Prog S α} {s : σ} {t : τ} (hp : M.Keeps Q p s) (hst : R s t) :
    N.Keeps (fun a t' => ∃ s', R s' t' ∧ Q a s') (p.expand f) t := by
  induction p generalizing s t with
  | ret a => exact ⟨s, hst, hp⟩
  | op o k ih =>
      obtain ⟨hallows, hrest⟩ := hp
      exact (hf o s t hst hallows).then fun r t' ⟨hassumes, hst'⟩ => ih r (hrest r hassumes) hst'

variable (M) in
/-- The monitor that allows every operation. -/
def lax : Monitor S σ where
  next := M.next
  allows _ _ := True
  assumes := M.assumes

/-- What holds at the end, however the operations before it are judged, holds at the end of
a program all of whose operations are allowed. -/
theorem Keeps.and_lax {Q Q' : α → σ → Prop} {p : Prog S α} {s : σ} (hp : M.Keeps Q p s)
    (hp' : M.lax.Keeps Q' p s) : M.Keeps (fun a s' => Q a s' ∧ Q' a s') p s := by
  induction p generalizing s with
  | ret a => exact ⟨hp, hp'⟩
  | op o k ih => exact ⟨hp.1, fun r hr => ih r (hp.2 r hr) (hp'.2 r hr)⟩

/-- The monitor that asks nothing and assumes nothing. -/
def any : Monitor S Unit where
  next _ _ := ()
  allows _ _ := True
  assumes _ _ := True

theorem Keeps.any (p : Prog S α) : Monitor.any.Keeps (fun _ _ => True) p () := by
  induction p with
  | ret a => exact trivial
  | op o k ih => exact ⟨trivial, fun r _ => ih r⟩

/-- A loop whose control points make a number smaller, and keep what holds at them, ends with a
result within as many rounds. -/
theorem Keeps.unroll {γ : Type} (μ : γ → Nat) {Point : γ → σ → Prop} {Done : β → σ → Prop}
    {body : γ → Prog S (γ ⊕ β)}
    (hbody : ∀ a s, Point a s →
      M.Keeps (Sum.elim (fun a' s' => Point a' s' ∧ μ a' < μ a) Done) (body a) s)
    {fuel : Nat} {a : γ} {s : σ} (hs : Point a s) (hfuel : μ a < fuel) :
    M.Keeps (fun r s' => ∃ b ∈ r, Done b s') (unroll body fuel a) s := by
  induction fuel generalizing a s with
  | zero => exact absurd hfuel (Nat.not_lt_zero _)
  | succ fuel ih =>
      refine (hbody a s hs).then fun r s' hr => ?_
      cases r with
      | inl a' => exact ih hr.1 (Nat.lt_of_lt_of_le hr.2 (Nat.le_of_lt_succ hfuel))
      | inr b => exact ⟨b, rfl, hr⟩

variable (M) in
/-- What holds of the monitor's state before the program holds after it. -/
def Preserves (P : σ → Prop) (p : Prog S α) : Prop :=
  ∀ s, P s → M.Keeps (fun _ s' => P s') p s

namespace Preserves
variable {P : σ → Prop}

theorem ret (a : α) : M.Preserves P (.ret a) := fun _ hs => hs

theorem bind {p : Prog S α} {f : α → Prog S β} (hp : M.Preserves P p)
    (hf : ∀ a, M.Preserves P (f a)) : M.Preserves P (p >>= f) :=
  fun s hs => (hp s hs).then fun a s' hs' => hf a s' hs'

theorem ite {c : Prop} [Decidable c] {p q : Prog S α} (hp : c → M.Preserves P p)
    (hq : ¬ c → M.Preserves P q) : M.Preserves P (if c then p else q) :=
  fun s hs => .guard (fun hc => hp hc s hs) fun hc => hq hc s hs

theorem only {C : S.Op → Prop} {p : Prog S α} (hp : Only C p)
    (hC : ∀ o s, C o → P s → M.allows s o ∧ ∀ r, M.assumes s ⟨o, r⟩ → P (M.next s ⟨o, r⟩)) :
    M.Preserves P p :=
  fun _ hs => hp.keeps hC hs

/-! Programs that may stop without a result. -/

theorem failure : M.Preserves P (failure : OptionT (Prog S) α).run := .ret none

theorem pure (a : α) : M.Preserves P (pure a : OptionT (Prog S) α).run := .ret (some a)

theorem lift {p : Prog S α} (hp : M.Preserves P p) : M.Preserves P (OptionT.lift p).run :=
  hp.bind fun a => .ret (some a)

theorem next {p : OptionT (Prog S) α} {f : α → OptionT (Prog S) β} (hp : M.Preserves P p.run)
    (hf : ∀ a, M.Preserves P (f a).run) : M.Preserves P (p >>= f).run := by
  refine hp.bind fun r => ?_
  cases r with
  | none => exact .ret none
  | some a => exact hf a

theorem guard {c : Prop} [Decidable c] {p q : OptionT (Prog S) α} (hp : c → M.Preserves P p.run)
    (hq : ¬ c → M.Preserves P q.run) : M.Preserves P (if c then p else q).run := by
  split
  · exact hp ‹_›
  · exact hq ‹_›

/-- The condition is kept up to what goes on with another one. -/
theorem upTo {Q : Option β → σ → Prop} {p : OptionT (Prog S) α} {f : α → OptionT (Prog S) β}
    {s : σ} (hp : M.Preserves P p.run) (hs : P s) (hnone : ∀ s, P s → Q none s)
    (hf : ∀ a s, P s → M.Keeps Q (f a).run s) : M.Keeps Q (p >>= f).run s := by
  refine (hp s hs).then fun r s hs => ?_
  cases r with
  | none => exact hnone s hs
  | some a => exact hf a s hs

end Preserves

/-- A program that may stop without a result, but stops with one that meets `Q`. -/
def Completes (M : Monitor S σ) (Q : α → σ → Prop) (p : OptionT (Prog S) α) (s : σ) : Prop :=
  M.Keeps (fun r s' => ∃ a ∈ r, Q a s') p.run s

namespace Completes
variable {Q : α → σ → Prop} {s : σ}

theorem mono {Q' : α → σ → Prop} {p : OptionT (Prog S) α} (hp : M.Completes Q p s)
    (hQ : ∀ a s, Q a s → Q' a s) : M.Completes Q' p s :=
  Keeps.mono (fun _ s' ⟨a, hr, ha⟩ => ⟨a, hr, hQ a s' ha⟩) hp

theorem pure {a : α} (ha : Q a s) : M.Completes Q (pure a) s := ⟨a, rfl, ha⟩

theorem «then» {Q' : β → σ → Prop} {p : OptionT (Prog S) α} {f : α → OptionT (Prog S) β}
    (hp : M.Completes Q p s) (hf : ∀ a s, Q a s → M.Completes Q' (f a) s) :
    M.Completes Q' (p >>= f) s := by
  refine Keeps.then hp fun r s' hr => ?_
  obtain ⟨a, rfl, ha⟩ := hr
  exact hf a s' ha

theorem guard {c : Prop} [Decidable c] {p q : OptionT (Prog S) α} (hp : c → M.Completes Q p s)
    (hq : ¬ c → M.Completes Q q s) : M.Completes Q (if c then p else q) s := by
  split
  · exact hp ‹_›
  · exact hq ‹_›

theorem lift {p : Prog S α} (hp : M.Keeps Q p s) : M.Completes Q (OptionT.lift p) s :=
  Keeps.then hp fun a _ ha => ⟨a, rfl, ha⟩

end Completes

/-- Where the assumptions fail, there is a first answer that is not assumed. -/
theorem exists_unassumed {s : σ} {t : List (Event S)} (h : ¬ M.Assumed s t) :
    ∃ past e rest, t = past ++ e :: rest ∧ M.Assumed s past ∧ ¬ M.assumes (M.after s past) e := by
  induction t generalizing s with
  | nil => exact absurd (.nil s) h
  | cons e t ih =>
      by_cases he : M.assumes s e
      · obtain ⟨past, e', rest, rfl, hpast, he'⟩ := ih fun ht => h (assumed_cons.mpr ⟨he, ht⟩)
        exact ⟨e :: past, e', rest, rfl, assumed_cons.mpr ⟨he, hpast⟩, he'⟩
      · exact ⟨[], e, t, rfl, .nil s, he⟩

end Monitor
end Monitoring

namespace Iteration
open Effects Monitoring

section Pieces
variable {S T : Signature} {σ τ α β γ δ : Type} {env : Environment S σ} {env' : Environment T σ}
  {meets At : S.Op → σ → Prop} {meets' At' : T.Op → σ → Prop} {Q : γ ⊕ δ → σ → Prop}
  {Post : α ⊕ β → σ → Prop} {s : σ}

/-- A piece of a text and the rest of it. -/
theorem Always.bind {p : Prog S (γ ⊕ δ)} {f : γ ⊕ δ → Prog S (α ⊕ β)}
    (hp : Always env meets At Q p s) (hf : ∀ r s, Q r s → Always env meets At Post (f r) s) :
    Always env meets At Post (p >>= f) s := by
  induction p generalizing s with
  | ret a => exact hf a s (hp s .refl)
  | op o k ih =>
      intro s' hsteps
      obtain ⟨hAt, hrest⟩ := hp s' hsteps
      exact ⟨hAt, fun r s'' hmeets hanswer => ih r (hrest r s'' hmeets hanswer)⟩

/-- A piece whose operations are some of those of the whole text. -/
theorem Always.expand {ι : S.Op → T.Op} {ρ : (o : S.Op) → T.Res (ι o) → S.Res o}
    (hstep : ∀ s s', env'.step s s' → env.step s s') (hmeets : ∀ o s, meets' (ι o) s → meets o s)
    (hanswers : ∀ o s r s', env'.answers (ι o) s r s' → env.answers o s (ρ o r) s')
    (hAt : ∀ o s, At o s → At' (ι o) s) {p : Prog S (γ ⊕ δ)} (hp : Always env meets At Q p s) :
    Always env' meets' At' Q (p.expand fun o => .op (ι o) fun r => .ret (ρ o r)) s := by
  induction p generalizing s with
  | ret a => exact fun s' hsteps => hp s' (.mono hstep _ _ hsteps)
  | op o k ih =>
      intro s' hsteps
      obtain ⟨hop, hrest⟩ := hp s' (.mono hstep _ _ hsteps)
      exact ⟨hAt o s' hop, fun r s'' hm hanswer =>
        ih (ρ o r) (hrest _ s'' (hmeets o s' hm) (hanswers o s' r s'' hanswer))⟩

/-- What a monitor knows of a program holds of it in an environment whose answers it assumes. -/
theorem Always.of_keeps {M : Monitor S τ} {ι : S.Op → T.Op}
    {ρ : (o : S.Op) → T.Res (ι o) → S.Res o} (R : τ → σ → Prop)
    (hstep : ∀ t s s', R t s → env'.step s s' → R t s')
    (hAt : ∀ o t s, R t s → M.allows t o → At' (ι o) s)
    (hanswers : ∀ o t s r s', R t s → M.allows t o → env'.answers (ι o) s r s' →
      M.assumes t ⟨o, ρ o r⟩ ∧ R (M.next t ⟨o, ρ o r⟩) s')
    {P : γ → τ → Prop} {p : Prog S γ} {f : γ → Prog T (α ⊕ β)} {t : τ} (hp : M.Keeps P p t)
    (hts : R t s) (hf : ∀ a t s, P a t → R t s → Always env' meets' At' Post (f a) s) :
    Always env' meets' At' Post
      (p.expand (fun o => .op (ι o) fun r => .ret (ρ o r)) >>= f) s := by
  induction p generalizing s t with
  | ret a => exact hf a t s hp hts
  | op o k ih =>
      obtain ⟨hallows, hrest⟩ := hp
      refine .op (P := R t) (hstep t) hts (fun s hs => hAt o t s hs hallows) ?_
      intro s r s' hs _ hanswer
      obtain ⟨hassumes, hs'⟩ := hanswers o t s r s' hs hallows hanswer
      exact ih (ρ o r) (hrest _ hassumes) hs'

end Pieces

section Handled
variable {S : Signature} {σ α β γ : Type} {calls : Calls S γ α β} {env : Environment S σ}
  {meets : S.Op → σ → Prop} {h : Handler S σ} {call : γ} {s₀ s s' : σ} {p : Prog S (α ⊕ β)} {a : α}

/-- A handler whose outcomes the environment allows gives a run of a piece. -/
theorem During.run (hmeets : ∀ o s, meets o s)
    (hanswers : ∀ o s, env.answers o s (h o s).1 (h o s).2)
    (hp : During calls env meets call s₀ (p, s)) :
    During calls env meets call s₀ (.ret (p.run h s).1, (p.run h s).2) := by
  induction p generalizing s with
  | ret a => exact hp
  | op o k ih => exact ih _ (hp.tail (.op o k _ s _ (hmeets o s) (hanswers o s)))

/-- ... and of one piece after another. -/
theorem During.unroll (hmeets : ∀ o s, meets o s)
    (hanswers : ∀ o s, env.answers o s (h o s).1 (h o s).2) (fuel : Nat)
    (hp : During calls env meets call s₀ (calls.body call a, s)) :
    ∃ r, During calls env meets call s₀
      (.ret r, ((Iteration.unroll (calls.body call) (fuel + 1) a).run h s).2) := by
  induction fuel generalizing a s with
  | zero =>
      refine ⟨((calls.body call a).run h s).1, ?_⟩
      have hend := hp.run hmeets hanswers
      rw [Iteration.unroll, Prog.run_bind]
      split <;> exact hend
  | succ fuel ih =>
      have hend := hp.run hmeets hanswers
      rw [Iteration.unroll, Prog.run_bind]
      rcases hrun : (calls.body call a).run h s with ⟨a' | b, s'⟩
      · rw [hrun] at hend
        exact ih (hend.tail (.again a' s'))
      · rw [hrun] at hend
        exact ⟨_, hend⟩

end Handled
end Iteration
