import RtssMailbox.Library.Monitor

/-!
Programs that do the same while a monitor's assumptions hold. Such a program can stand for
another one: each of its runs whose answers are assumed is a run of the other.
-/
namespace Monitoring
open Effects

namespace Monitor
variable {S : Signature} {σ α β γ δ : Type} {M : Monitor S σ}

/-- While the answers are assumed, the two programs perform the same operations and come to
results that are related. -/
inductive Agrees (M : Monitor S σ) (R : α → β → Prop) : Prog S α → Prog S β → σ → Prop
  | ret (a : α) (b : β) (s : σ) (h : R a b) : Agrees M R (.ret a) (.ret b) s
  | op (o : S.Op) (k : S.Res o → Prog S α) (l : S.Res o → Prog S β) (s : σ)
      (h : ∀ r, M.assumes s ⟨o, r⟩ → Agrees M R (k r) (l r) (M.next s ⟨o, r⟩)) :
      Agrees M R (.op o k) (.op o l) s

namespace Agrees
variable {R : α → β → Prop} {R' : γ → δ → Prop} {s : σ}

theorem refl (p : Prog S α) (s : σ) : M.Agrees Eq p p s := by
  induction p generalizing s with
  | ret a => exact .ret a a s rfl
  | op o k ih => exact .op o k k s fun r _ => ih r _

theorem mono {R' : α → β → Prop} {p : Prog S α} {q : Prog S β} (hR : ∀ a b, R a b → R' a b)
    (h : M.Agrees R p q s) : M.Agrees R' p q s := by
  induction h with
  | ret a b s hab => exact .ret a b s (hR a b hab)
  | op o k l s _ ih => exact .op o k l s ih

theorem symm {p : Prog S α} {q : Prog S β} (h : M.Agrees R p q s) :
    M.Agrees (fun b a => R a b) q p s := by
  induction h with
  | ret a b s hab => exact .ret b a s hab
  | op o k l s _ ih => exact .op o l k s ih

theorem «then» {p : Prog S α} {q : Prog S β} {f : α → Prog S γ} {g : β → Prog S δ}
    (hp : M.Agrees R p q s) (hf : ∀ a b s, R a b → M.Agrees R' (f a) (g b) s) :
    M.Agrees R' (p >>= f) (q >>= g) s := by
  induction hp with
  | ret a b s hab => exact hf a b s hab
  | op o k l s _ ih => exact .op o _ _ s ih

/-- What is known after a common part can be used for what follows it. -/
theorem after {Q : α → σ → Prop} {p : Prog S α} {f : α → Prog S γ} {g : α → Prog S δ}
    (hp : M.Keeps Q p s) (hf : ∀ a s, Q a s → M.Agrees R' (f a) (g a) s) :
    M.Agrees R' (p >>= f) (p >>= g) s := by
  induction p generalizing s with
  | ret a => exact hf a s hp
  | op o k ih => exact .op o _ _ s fun r hr => ih r (hp.2 r hr)

theorem of_ret {a : α} {q : Prog S β} (h : M.Agrees R (.ret a) q s) : ∃ b, q = .ret b ∧ R a b := by
  cases h with
  | ret _ b _ hab => exact ⟨b, rfl, hab⟩

/-- A run of assumed answers is a run of the other program, which agrees with what is left. -/
theorem runs {p q : Prog S α} {p' : Prog S β} {t : List (Event S)} (h : M.Agrees R p p' s)
    (hruns : Runs p t q) (ht : M.Assumed s t) :
    ∃ q', Runs p' t q' ∧ M.Agrees R q q' (M.after s t) := by
  induction hruns generalizing p' s with
  | refl p => exact ⟨p', .refl p', h⟩
  | op o k r t q _ ih =>
      cases h with
      | op _ _ l _ hl =>
          obtain ⟨hr, ht⟩ := assumed_cons.mp ht
          obtain ⟨q', hruns, hq⟩ := ih (hl r hr) ht
          exact ⟨q', .op o l r t q' hruns, hq⟩

/-- ... and if it came to a result, then to the same one. -/
theorem runs_same {p p' q : Prog S α} {t : List (Event S)} (h : M.Agrees Eq p p' s)
    (hruns : Runs p t q) (ht : M.Assumed s t) :
    ∃ q', Runs p' t q' ∧ ∀ a, q = .ret a → q' = .ret a := by
  obtain ⟨q', hruns', hq⟩ := h.runs hruns ht
  refine ⟨q', hruns', fun a ha => ?_⟩
  subst ha
  obtain ⟨_, rfl, rfl⟩ := hq.of_ret
  rfl

/-- What a monitor knows of a program it knows of one that agrees with it. -/
theorem keeps {p p' : Prog S α} {Q : α → σ → Prop} (h : M.Agrees Eq p p' s)
    (hp' : M.Keeps Q p' s) : M.Keeps Q p s := by
  induction h with
  | ret a b s hab => exact hab ▸ hp'
  | op o k l s _ ih => exact ⟨hp'.1, fun r hr => ih r hr (hp'.2 r hr)⟩

end Agrees

/-- Agreement of programs that may stop without a result: both do, or none of them. -/
def AgreesT (M : Monitor S σ) (R : α → β → Prop) (p : OptionT (Prog S) α) (q : OptionT (Prog S) β)
    (s : σ) : Prop :=
  M.Agrees (Option.Rel R) p.run q.run s

namespace AgreesT
variable {R : α → β → Prop} {R' : γ → δ → Prop} {s : σ}

theorem refl (p : OptionT (Prog S) α) (s : σ) : M.AgreesT Eq p p s := by
  refine Agrees.mono (fun r r' hr => ?_) (Agrees.refl p.run s)
  subst hr
  cases r with
  | none => exact .none
  | some a => exact .some rfl

theorem pure {a : α} {b : β} (h : R a b) : M.AgreesT R (pure a) (pure b) s :=
  .ret _ _ s (.some h)

theorem next {p : OptionT (Prog S) α} {q : OptionT (Prog S) β} {f : α → OptionT (Prog S) γ}
    {g : β → OptionT (Prog S) δ} (hp : M.AgreesT R p q s)
    (hf : ∀ a b s, R a b → M.AgreesT R' (f a) (g b) s) : M.AgreesT R' (p >>= f) (q >>= g) s := by
  refine Agrees.then hp fun r r' s hr => ?_
  cases hr with
  | none => exact .ret _ _ s .none
  | some hab => exact hf _ _ s hab

theorem passed {Q : α → σ → Prop} {p : OptionT (Prog S) α} {f : α → OptionT (Prog S) γ}
    {g : α → OptionT (Prog S) δ} (hp : M.Passes Q p s)
    (hf : ∀ a s, Q a s → M.AgreesT R' (f a) (g a) s) : M.AgreesT R' (p >>= f) (p >>= g) s := by
  refine Agrees.after hp fun r s hr => ?_
  cases r with
  | none => exact .ret _ _ s .none
  | some a => exact hf a s (hr a rfl)

theorem guard {c : Prop} [Decidable c] {p p' : OptionT (Prog S) α} {q q' : OptionT (Prog S) β}
    (hp : c → M.AgreesT R p q s) (hq : ¬ c → M.AgreesT R p' q' s) :
    M.AgreesT R (if c then p else p') (if c then q else q') s := by
  split
  · exact hp ‹_›
  · exact hq ‹_›

end AgreesT
end Monitor
end Monitoring
