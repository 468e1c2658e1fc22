import RtssMailbox.Library.Monitor

/-!
Programs with marks. A mark is an operation without an effect that says what the program
does at that place; erasing the marks gives the program back. A monitor on programs with
marks is one on programs without them where there are no marks.
-/
namespace Effects

def Signature.marked (S : Signature) (M : Type) : Signature where
  Op := S.Op ⊕ M
  Res
    | .inl o => S.Res o
    | .inr _ => Unit

/-- The operations of a handler, and marks that do nothing. -/
def Handler.marked {S : Signature} {σ : Type} (M : Type) (h : Handler S σ) :
    Handler (S.marked M) σ
  | .inl o, s => h o s
  | .inr _, s => ((), s)

namespace Prog
variable {S : Signature} {M α β : Type}

def mark (m : M) : Prog (S.marked M) Unit := perform (S := S.marked M) (.inr m)

def unmarked (p : Prog S α) : Prog (S.marked M) α :=
  p.expand fun o => perform (S := S.marked M) (.inl o)

def eraseOp : (o : (S.marked M).Op) → Prog S ((S.marked M).Res o)
  | Sum.inl o => perform o
  | Sum.inr _ => ret ()

def erase (p : Prog (S.marked M) α) : Prog S α := p.expand eraseOp

@[simp] theorem erase_ret (a : α) : (ret a : Prog (S.marked M) α).erase = ret a := rfl

@[simp] theorem erase_bind (p : Prog (S.marked M) α) (f : α → Prog (S.marked M) β) :
    (p >>= f).erase = p.erase >>= fun a => (f a).erase := expand_bind _ p f

@[simp] theorem erase_mark (m : M) : (mark m : Prog (S.marked M) Unit).erase = ret () := rfl

@[simp] theorem erase_ite (c : Prop) [Decidable c] (p q : Prog (S.marked M) α) :
    (if c then p else q).erase = if c then p.erase else q.erase := expand_ite _ c p q

@[simp] theorem erase_unmarked (p : Prog S α) : (p.unmarked : Prog (S.marked M) α).erase = p := by
  induction p with
  | ret a => rfl
  | op o k ih => exact congrArg (op o) (funext ih)

end Prog

/-! Programs that may stop without a result. -/

section Stopping
variable {S : Signature} {M α β : Type}

def eraseT (p : OptionT (Prog (S.marked M)) α) : OptionT (Prog S) α := OptionT.mk p.run.erase

def unmarkedT (p : OptionT (Prog S) α) : OptionT (Prog (S.marked M)) α := OptionT.mk p.run.unmarked

def markT (m : M) : OptionT (Prog (S.marked M)) Unit := OptionT.lift (Prog.mark m)

@[simp] theorem eraseT_pure (a : α) :
    eraseT (pure a : OptionT (Prog (S.marked M)) α) = pure a := rfl

@[simp] theorem eraseT_unmarkedT (p : OptionT (Prog S) α) :
    eraseT (unmarkedT p : OptionT (Prog (S.marked M)) α) = p := Prog.erase_unmarked p.run

@[simp] theorem eraseT_markT (m : M) :
    eraseT (markT m : OptionT (Prog (S.marked M)) Unit) = pure () := rfl

@[simp] theorem eraseT_lift (p : Prog (S.marked M) α) :
    eraseT (OptionT.lift p) = OptionT.lift p.erase := Prog.erase_bind p _

@[simp] theorem eraseT_ite (c : Prop) [Decidable c] (p q : OptionT (Prog (S.marked M)) α) :
    eraseT (if c then p else q) = if c then eraseT p else eraseT q := by
  split <;> rfl

@[simp] theorem eraseT_bind (p : OptionT (Prog (S.marked M)) α)
    (f : α → OptionT (Prog (S.marked M)) β) :
    eraseT (p >>= f) = eraseT p >>= fun a => eraseT (f a) := by
  refine (Prog.erase_bind p.run _).trans (congrArg (p.run.erase >>= ·) (funext fun r => ?_))
  cases r <;> rfl

end Stopping

end Effects

namespace Monitoring.Monitor
open Effects
variable {S : Signature} {M σ α : Type}

/-- What a monitor asks where there are no marks. -/
def unmarked (N : Monitor (S.marked M) σ) : Monitor S σ where
  next s e := N.next s ⟨.inl e.op, e.res⟩
  allows s o := N.allows s (.inl o)
  assumes s e := N.assumes s ⟨.inl e.op, e.res⟩

/-- A monitor that allows everything is kept by every program. -/
theorem keeps_of_allows {N : Monitor S σ} (h : ∀ s o, N.allows s o) (p : Prog S α) (s : σ) :
    N.Keeps (fun _ _ => True) p s := by
  induction p generalizing s with
  | ret a => trivial
  | op o k ih => exact ⟨h s o, fun r _ => ih r _⟩

variable {N : Monitor (S.marked M) σ} {Q : α → σ → Prop} {s : σ}

theorem Keeps.unmarked {p : Prog S α} (hp : N.unmarked.Keeps Q p s) : N.Keeps Q p.unmarked s := by
  induction p generalizing s with
  | ret a => exact hp
  | op o k ih => exact ⟨hp.1, fun r hr => ih r (hp.2 r hr)⟩

theorem Passes.unmarked {p : OptionT (Prog S) α} (hp : N.unmarked.Passes Q p s) :
    N.Passes Q (unmarkedT p) s := Keeps.unmarked hp

end Monitoring.Monitor
