import Mathlib.Logic.Relation

/-!
Programs over a signature of operations. A program is the tree of the
operations it performs, each with the continuation of its result, so that one
text of a function can be run over a state, traced, refined into smaller steps
or interleaved with another program. Nothing here fixes what an operation does.
-/
namespace Effects

structure Signature where
  Op : Type
  Res : Op → Type

inductive Prog (S : Signature) (α : Type) : Type where
  | ret (a : α) : Prog S α
  | op (o : S.Op) (k : S.Res o → Prog S α) : Prog S α

/-- What every operation does to a state: its result and the state after it. -/
abbrev Handler (S : Signature) (σ : Type) :=
  (o : S.Op) → σ → S.Res o × σ

namespace Prog
variable {S T : Signature} {α β γ σ τ : Type}

def bind (p : Prog S α) (f : α → Prog S β) : Prog S β :=
  match p with
  | .ret a => f a
  | .op o k => .op o fun r => (k r).bind f

instance : Monad (Prog S) where
  pure := .ret
  bind := bind

def perform (o : S.Op) : Prog S (S.Res o) := .op o .ret

@[simp] theorem pure_eq (a : α) : (pure a : Prog S α) = .ret a := rfl

@[simp] theorem ret_bind (a : α) (f : α → Prog S β) : (ret a >>= f) = f a := rfl

@[simp] theorem op_bind (o : S.Op) (k : S.Res o → Prog S α) (f : α → Prog S β) :
    (op o k >>= f) = op o fun r => k r >>= f := rfl

theorem bind_ret (p : Prog S α) : (p >>= .ret) = p := by
  induction p with
  | ret a => rfl
  | op o k ih => exact congrArg (op o) (funext ih)

theorem bind_bind (p : Prog S α) (f : α → Prog S β) (g : β → Prog S γ) :
    (p >>= f >>= g) = (p >>= fun a => f a >>= g) := by
  induction p with
  | ret a => rfl
  | op o k ih => exact congrArg (op o) (funext ih)

/-- ... and for programs that may stop without a result. -/
theorem bindT_bindT (p : OptionT (Prog S) α) (f : α → OptionT (Prog S) β)
    (g : β → OptionT (Prog S) γ) : (p >>= f >>= g) = (p >>= fun a => f a >>= g) := by
  refine (bind_bind p.run _ _).trans (congrArg (p.run >>= ·) (funext fun r => ?_))
  cases r <;> rfl

def run (h : Handler S σ) : Prog S α → σ → α × σ
  | .ret a, s => (a, s)
  | .op o k, s => (k (h o s).1).run h (h o s).2

def ops (h : Handler S σ) : Prog S α → σ → List S.Op
  | .ret _, _ => []
  | .op o k, s => o :: (k (h o s).1).ops h (h o s).2

/-- Replace every operation by a program that implements it. -/
def expand (f : (o : S.Op) → Prog T (S.Res o)) : Prog S α → Prog T α
  | .ret a => .ret a
  | .op o k => (f o).bind fun r => (k r).expand f

@[simp] theorem run_ret (h : Handler S σ) (a : α) (s : σ) :
    (ret a : Prog S α).run h s = (a, s) := rfl

@[simp] theorem run_bind (h : Handler S σ) (p : Prog S α) (f : α → Prog S β) (s : σ) :
    (p >>= f).run h s = (f (p.run h s).1).run h (p.run h s).2 := by
  induction p generalizing s with
  | ret a => rfl
  | op o k ih => exact ih _ _

@[simp] theorem run_perform (h : Handler S σ) (o : S.Op) (s : σ) :
    (perform o).run h s = h o s := rfl

@[simp] theorem run_ite (h : Handler S σ) (c : Prop) [Decidable c] (p q : Prog S α) (s : σ) :
    (if c then p else q).run h s = if c then p.run h s else q.run h s := by
  split <;> rfl

@[simp] theorem ops_ret (h : Handler S σ) (a : α) (s : σ) :
    (ret a : Prog S α).ops h s = [] := rfl

@[simp] theorem ops_bind (h : Handler S σ) (p : Prog S α) (f : α → Prog S β) (s : σ) :
    (p >>= f).ops h s = p.ops h s ++ (f (p.run h s).1).ops h (p.run h s).2 := by
  induction p generalizing s with
  | ret a => rfl
  | op o k ih => exact congrArg (o :: ·) (ih _ _)

@[simp] theorem ops_perform (h : Handler S σ) (o : S.Op) (s : σ) :
    (perform o).ops h s = [o] := rfl

@[simp] theorem ops_ite (h : Handler S σ) (c : Prop) [Decidable c] (p q : Prog S α) (s : σ) :
    (if c then p else q).ops h s = if c then p.ops h s else q.ops h s := by
  split <;> rfl

@[simp] theorem expand_ret (f : (o : S.Op) → Prog T (S.Res o)) (a : α) :
    (ret a : Prog S α).expand f = .ret a := rfl

@[simp] theorem expand_bind (f : (o : S.Op) → Prog T (S.Res o)) (p : Prog S α)
    (g : α → Prog S β) :
    (p >>= g).expand f = (p.expand f >>= fun a => (g a).expand f) := by
  induction p with
  | ret a => rfl
  | op o k ih =>
      have hk : (fun r => (k r >>= g).expand f) =
          fun r => (k r).expand f >>= fun a => (g a).expand f := funext ih
      calc (op o k >>= g).expand f
          = (f o >>= fun r => (k r >>= g).expand f) := rfl
        _ = (f o >>= fun r => (k r).expand f >>= fun a => (g a).expand f) := by rw [hk]
        _ = ((op o k).expand f >>= fun a => (g a).expand f) := (bind_bind _ _ _).symm

@[simp] theorem expand_perform (f : (o : S.Op) → Prog T (S.Res o)) (o : S.Op) :
    (perform o).expand f = f o := bind_ret (f o)

@[simp] theorem expand_ite (f : (o : S.Op) → Prog T (S.Res o)) (c : Prop) [Decidable c]
    (p q : Prog S α) :
    (if c then p else q).expand f = if c then p.expand f else q.expand f := by
  split <;> rfl

/-- Operations that are replaced by programs with the same effect leave the run as it is. -/
theorem run_expand (h : Handler S σ) (h' : Handler T σ) (f : (o : S.Op) → Prog T (S.Res o))
    (hf : ∀ o s, (f o).run h' s = h o s) (p : Prog S α) (s : σ) :
    (p.expand f).run h' s = p.run h s := by
  induction p generalizing s with
  | ret a => rfl
  | op o k ih =>
      have hbind : ((f o) >>= fun r => (k r).expand f).run h' s = _ := run_bind h' _ _ s
      rw [hf] at hbind
      exact hbind.trans (ih _ _)

/-- Every result that the program can return satisfies `φ`, whatever the operations answer. -/
def Returns (φ : α → Prop) : Prog S α → Prop
  | .ret a => φ a
  | .op _ k => ∀ r, (k r).Returns φ

section Returns
variable {φ : α → Prop} {ψ : β → Prop}

theorem Returns.mono {φ' : α → Prop} (hφ : ∀ a, φ a → φ' a) {p : Prog S α} (hp : p.Returns φ) :
    p.Returns φ' := by
  induction p with
  | ret a => exact hφ a hp
  | op o k ih => exact fun r => ih r (hp r)

theorem Returns.of_bind {p : Prog S α} {f : α → Prog S β} (hf : ∀ a, (f a).Returns ψ) :
    (p >>= f).Returns ψ := by
  induction p with
  | ret a => exact hf a
  | op o k ih => exact fun r => ih r

theorem Returns.ite {c : Prop} [Decidable c] {p q : Prog S α} (hp : c → p.Returns φ)
    (hq : ¬ c → q.Returns φ) : (if c then p else q).Returns φ := by
  split
  · exact hp ‹_›
  · exact hq ‹_›

theorem Returns.expand (f : (o : S.Op) → Prog T (S.Res o)) {p : Prog S α} (hp : p.Returns φ) :
    (p.expand f).Returns φ := by
  induction p with
  | ret a => exact hp
  | op o k ih => exact Returns.of_bind (p := f o) fun r => ih r (hp r)

end Returns

end Prog
end Effects
