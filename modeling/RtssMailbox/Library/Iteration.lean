import Mathlib.Logic.Relation
import RtssMailbox.Library.Program

/-!
Calls with loops in an environment. A call is a program from each of its control
points, which ends at the next point or with the result of the call, so that a
loop needs no bound. Between two operations the environment may step, and an
operation may have any of several outcomes.
-/
namespace Iteration
open Effects Relation

/-- The calls that a caller makes: what each does from a control point on. -/
structure Calls (S : Signature) (γ α β : Type) where
  start : α
  body : γ → α → Prog S (α ⊕ β)

/-- Between calls, or inside one with the rest of its program up to the next point. -/
inductive Caller (S : Signature) (γ α β : Type) where
  | idle
  | busy (call : γ) (rest : Prog S (α ⊕ β))

/-- The outcomes of operations, and what happens beside the caller. -/
structure Environment (S : Signature) (σ : Type) where
  answers : (o : S.Op) → σ → S.Res o → σ → Prop
  step : σ → σ → Prop

section Runs
variable {S : Signature} {σ γ α β : Type} (calls : Calls S γ α β) (env : Environment S σ)
  (meets : S.Op → σ → Prop)

/-- The steps of a caller in its environment whose operations all meet a condition. -/
inductive Step : Caller S γ α β × σ → Caller S γ α β × σ → Prop
  | start (call : γ) (s : σ) : Step (.idle, s) (.busy call (calls.body call calls.start), s)
  | op (call : γ) (o : S.Op) (k : S.Res o → Prog S (α ⊕ β)) (r : S.Res o) (s s' : σ)
      (hmeets : meets o s) (hanswer : env.answers o s r s') :
      Step (.busy call (.op o k), s) (.busy call (k r), s')
  | again (call : γ) (a : α) (s : σ) :
      Step (.busy call (.ret (.inl a)), s) (.busy call (calls.body call a), s)
  | done (call : γ) (b : β) (s : σ) : Step (.busy call (.ret (.inr b)), s) (.idle, s)
  | other (c : Caller S γ α β) (s s' : σ) (hstep : env.step s s') : Step (c, s) (c, s')

def Reachable (s : σ) : Caller S γ α β × σ → Prop :=
  ReflTransGen (Step calls env meets) (.idle, s)

/-- The steps of one call. -/
inductive CallStep (call : γ) : Prog S (α ⊕ β) × σ → Prog S (α ⊕ β) × σ → Prop
  | op (o : S.Op) (k : S.Res o → Prog S (α ⊕ β)) (r : S.Res o) (s s' : σ)
      (hmeets : meets o s) (hanswer : env.answers o s r s') :
      CallStep call (.op o k, s) (k r, s')
  | again (a : α) (s : σ) : CallStep call (.ret (.inl a), s) (calls.body call a, s)
  | other (p : Prog S (α ⊕ β)) (s s' : σ) (hstep : env.step s s') : CallStep call (p, s) (p, s')

/-- What one call gets to, with the rest of its program up to the next point. -/
def During (call : γ) (s : σ) : Prog S (α ⊕ β) × σ → Prop :=
  ReflTransGen (CallStep calls env meets call) (calls.body call calls.start, s)

/-- Before every operation of the program `At` holds, and at its end `Post`, whatever
the environment does before an operation and with it. -/
def Always (At : S.Op → σ → Prop) (Post : α ⊕ β → σ → Prop) : Prog S (α ⊕ β) → σ → Prop
  | .ret a, s => ∀ s', ReflTransGen env.step s s' → Post a s'
  | .op o k, s => ∀ s', ReflTransGen env.step s s' → At o s' ∧
      ∀ r s'', meets o s' → env.answers o s' r s'' → Always At Post (k r) s''

variable {calls env meets}

theorem stable_steps {P : σ → Prop} (hP : ∀ s s', P s → env.step s s' → P s') {s s' : σ}
    (hs : P s) (hsteps : ReflTransGen env.step s s') : P s' := by
  induction hsteps with
  | refl => exact hs
  | tail _ hstep ih => exact hP _ _ ih hstep

theorem Always.step {At : S.Op → σ → Prop} {Post : α ⊕ β → σ → Prop} {p : Prog S (α ⊕ β)}
    {s s' : σ} (hp : Always env meets At Post p s) (hs : env.step s s') :
    Always env meets At Post p s' := by
  cases p with
  | ret a => exact fun s'' hs'' => hp s'' (.head hs hs'')
  | op o k => exact fun s'' hs'' => hp s'' (.head hs hs'')

theorem Always.ret {At : S.Op → σ → Prop} {Post : α ⊕ β → σ → Prop} {a : α ⊕ β} {s : σ}
    (hPost : ∀ s s', Post a s → env.step s s' → Post a s') (hs : Post a s) :
    Always env meets At Post (.ret a) s :=
  fun _ hsteps => stable_steps hPost hs hsteps

theorem Always.guard {At : S.Op → σ → Prop} {Post : α ⊕ β → σ → Prop} {c : Prop} [Decidable c]
    {p q : Prog S (α ⊕ β)} {s : σ} (hp : c → Always env meets At Post p s)
    (hq : ¬ c → Always env meets At Post q s) :
    Always env meets At Post (if c then p else q) s := by
  split
  · exact hp ‹_›
  · exact hq ‹_›

theorem Always.op {At : S.Op → σ → Prop} {Post : α ⊕ β → σ → Prop} {P : σ → Prop} {o : S.Op}
    {k : S.Res o → Prog S (α ⊕ β)} {s : σ} (hP : ∀ s s', P s → env.step s s' → P s')
    (hs : P s) (hAt : ∀ s, P s → At o s)
    (hk : ∀ s r s', P s → meets o s → env.answers o s r s' →
      Always env meets At Post (k r) s') :
    Always env meets At Post (.op o k) s :=
  fun s' hsteps => ⟨hAt s' (stable_steps hP hs hsteps),
    fun r s'' => hk s' r s'' (stable_steps hP hs hsteps)⟩

theorem Always.perform_bind {At : S.Op → σ → Prop} {Post : α ⊕ β → σ → Prop} {P : σ → Prop}
    {o : S.Op} {f : S.Res o → Prog S (α ⊕ β)} {s : σ}
    (hP : ∀ s s', P s → env.step s s' → P s') (hs : P s) (hAt : ∀ s, P s → At o s)
    (hf : ∀ s r s', P s → meets o s → env.answers o s r s' →
      Always env meets At Post (f r) s') :
    Always env meets At Post (Prog.perform o >>= f) s :=
  Always.op hP hs hAt hf

/-- Where a program ends: at the next control point or between two calls. -/
def Next (Idle : σ → Prop) (Point : α → σ → Prop) : α ⊕ β → σ → Prop
  | .inl a, s => Point a s
  | .inr _, s => Idle s

/-- What the proof of the calls gives of a caller in a state. -/
def Holds (env : Environment S σ) (meets : S.Op → σ → Prop) (Idle : σ → Prop)
    (Point : γ → α → σ → Prop) (At : S.Op → σ → Prop) : Caller S γ α β → σ → Prop
  | .idle, s => Idle s
  | .busy call rest, s => Always env meets At (Next Idle (Point call)) rest s

/-- An invariant of the states between calls and one for each control point make a
proof of all runs, if the program from each point leads to such a state again. -/
theorem Reachable.holds {Idle : σ → Prop} {Point : γ → α → σ → Prop} {At : S.Op → σ → Prop}
    (hIdle : ∀ s s', Idle s → env.step s s' → Idle s')
    (hstart : ∀ call s, Idle s → Point call calls.start s)
    (hbody : ∀ call a s, Point call a s →
      Always env meets At (Next Idle (Point call)) (calls.body call a) s)
    {s : σ} (hs : Idle s) {x : Caller S γ α β × σ} (hx : Reachable calls env meets s x) :
    Holds env meets Idle Point At x.1 x.2 := by
  induction hx with
  | refl => exact hs
  | tail _ hstep ih =>
      cases hstep with
      | start call s => exact hbody call _ s (hstart call s ih)
      | op call o k r s s' hmeets hanswer => exact (ih s .refl).2 r s' hmeets hanswer
      | again call a s => exact hbody call a s (ih s .refl)
      | done call b s => exact ih s .refl
      | other c s s' hstep =>
          cases c with
          | idle => exact hIdle s s' ih hstep
          | busy call rest => exact Always.step ih hstep

/-- An invariant for each control point of a call makes a proof of what holds at its end. -/
theorem During.holds {call : γ} {Point : α → σ → Prop} {Done : β → σ → Prop}
    {At : S.Op → σ → Prop}
    (hbody : ∀ a s, Point a s → Always env meets At (Sum.elim Point Done) (calls.body call a) s)
    {s : σ} (hs : Point calls.start s) {x : Prog S (α ⊕ β) × σ}
    (hx : During calls env meets call s x) :
    Always env meets At (Sum.elim Point Done) x.1 x.2 := by
  induction hx with
  | refl => exact hbody _ s hs
  | tail _ hstep ih =>
      cases hstep with
      | op o k r s s' hmeets hanswer => exact (ih s .refl).2 r s' hmeets hanswer
      | again a s => exact hbody a s (ih s .refl)
      | other p s s' hstep => exact ih.step hstep

end Runs

/-- Conditions on the operations of a call, by the control point that it went on from,
and on what happens beside a call in progress. -/
structure Conditions (S : Signature) (σ γ α : Type) where
  meets : γ → α → S.Op → σ → Prop
  beside : γ → σ → σ → Prop

/-- A caller with the control point that its call went on from. -/
inductive Position (S : Signature) (γ α β : Type) where
  | idle
  | busy (call : γ) (a : α) (rest : Prog S (α ⊕ β))

def Position.caller {S : Signature} {γ α β : Type} : Position S γ α β → Caller S γ α β
  | .idle => .idle
  | .busy call _ rest => .busy call rest

/-- What may happen beside a call under the conditions; operations answer as before. -/
def Environment.beside {S : Signature} {σ γ α : Type} (env : Environment S σ)
    (cond : Conditions S σ γ α) (call : γ) : Environment S σ :=
  ⟨env.answers, fun s s' => env.step s s' ∧ cond.beside call s s'⟩

section ConditionedRuns
variable {S : Signature} {σ γ α β : Type} (calls : Calls S γ α β) (env : Environment S σ)
  (cond : Conditions S σ γ α)

/-- The steps of a caller in its environment that meet the conditions. -/
inductive Conditioned : Position S γ α β × σ → Position S γ α β × σ → Prop
  | start (call : γ) (s : σ) :
      Conditioned (.idle, s) (.busy call calls.start (calls.body call calls.start), s)
  | op (call : γ) (a : α) (o : S.Op) (k : S.Res o → Prog S (α ⊕ β)) (r : S.Res o) (s s' : σ)
      (hmeets : cond.meets call a o s) (hanswer : env.answers o s r s') :
      Conditioned (.busy call a (.op o k), s) (.busy call a (k r), s')
  | again (call : γ) (a a' : α) (s : σ) :
      Conditioned (.busy call a (.ret (.inl a')), s) (.busy call a' (calls.body call a'), s)
  | done (call : γ) (a : α) (b : β) (s : σ) :
      Conditioned (.busy call a (.ret (.inr b)), s) (.idle, s)
  | beside (call : γ) (a : α) (rest : Prog S (α ⊕ β)) (s s' : σ)
      (hstep : (env.beside cond call).step s s') :
      Conditioned (.busy call a rest, s) (.busy call a rest, s')
  | between (s s' : σ) (hstep : env.step s s') : Conditioned (.idle, s) (.idle, s')

def ConditionedRun (s : σ) : Position S γ α β × σ → Prop :=
  ReflTransGen (Conditioned calls env cond) (.idle, s)

variable {calls env cond}

/-- The conditions select steps of the caller and the environment, and add none. -/
theorem Conditioned.step {x y : Position S γ α β × σ} (h : Conditioned calls env cond x y) :
    Step calls env (fun _ _ => True) (x.1.caller, x.2) (y.1.caller, y.2) := by
  cases h with
  | start call s => exact .start call s
  | op call a o k r s s' hmeets hanswer => exact .op call o k r s s' trivial hanswer
  | again call a a' s => exact .again call a' s
  | done call a b s => exact .done call b s
  | beside call a rest s s' hstep => exact .other _ s s' hstep.1
  | between s s' hstep => exact .other _ s s' hstep

theorem ConditionedRun.reachable {s : σ} {x : Position S γ α β × σ}
    (h : ConditionedRun calls env cond s x) :
    Reachable calls env (fun _ _ => True) s (x.1.caller, x.2) := by
  induction h with
  | refl => exact .refl
  | tail _ hstep ih => exact ih.tail hstep.step

/-- What the proof of the calls gives of a caller at a position. -/
def HoldsUnder (env : Environment S σ) (cond : Conditions S σ γ α) (Idle : σ → Prop)
    (Point : γ → α → σ → Prop) (At : S.Op → σ → Prop) : Position S γ α β → σ → Prop
  | .idle, s => Idle s
  | .busy call a rest, s =>
      Always (env.beside cond call) (cond.meets call a) At (Next Idle (Point call)) rest s

/-- The proof of all runs that meet the conditions: each call is proved beside the steps
that its condition lets the environment take. -/
theorem ConditionedRun.holds {Idle : σ → Prop} {Point : γ → α → σ → Prop} {At : S.Op → σ → Prop}
    (hIdle : ∀ s s', Idle s → env.step s s' → Idle s')
    (hstart : ∀ call s, Idle s → Point call calls.start s)
    (hbody : ∀ call a s, Point call a s →
      Always (env.beside cond call) (cond.meets call a) At (Next Idle (Point call))
        (calls.body call a) s)
    {s : σ} (hs : Idle s) {x : Position S γ α β × σ}
    (hrun : ConditionedRun calls env cond s x) :
    HoldsUnder env cond Idle Point At x.1 x.2 := by
  induction hrun with
  | refl => exact hs
  | tail _ hstep ih =>
      cases hstep with
      | start call s => exact hbody call _ s (hstart call s ih)
      | op call a o k r s s' hmeets hanswer => exact (ih s .refl).2 r s' hmeets hanswer
      | again call a a' s => exact hbody call a' s (ih s .refl)
      | done call a b s => exact ih s .refl
      | beside call a rest s s' hstep => exact Always.step ih hstep
      | between s s' hstep => exact hIdle s s' ih hstep

end ConditionedRuns

section Alone
variable {S : Signature} {σ α β : Type}

/-- A call from a control point to its result, in a state that nothing beside it changes. -/
inductive Completes (h : Handler S σ) (body : α → Prog S (α ⊕ β)) : α → σ → β × σ → Prop
  | done (a : α) (s : σ) (r : β × σ) (hrun : (body a).run h s = (.inr r.1, r.2)) :
      Completes h body a s r
  | again (a a' : α) (s s' : σ) (r : β × σ) (hrun : (body a).run h s = (.inl a', s'))
      (hrest : Completes h body a' s' r) : Completes h body a s r

variable {h : Handler S σ} {body : α → Prog S (α ⊕ β)} {a a' : α} {b : β} {s s' : σ} {r : β × σ}

/-- A handler gives one outcome: at the last point it is the result, ... -/
theorem completes_done (hrun : (body a).run h s = (.inr b, s')) :
    Completes h body a s r ↔ r = (b, s') := by
  constructor
  · intro hcall
    cases hcall with
    | done _ _ _ hrun' =>
        cases hrun.symm.trans hrun'
        rfl
    | again _ _ _ _ _ hrun' _ => cases hrun.symm.trans hrun'
  · rintro rfl
    exact .done a s _ hrun

/-- ... and before that the result from the next point. -/
theorem completes_again (hrun : (body a).run h s = (.inl a', s')) :
    Completes h body a s r ↔ Completes h body a' s' r := by
  constructor
  · intro hcall
    cases hcall with
    | done _ _ _ hrun' => cases hrun.symm.trans hrun'
    | again _ _ _ _ _ hrun' hrest =>
        cases hrun.symm.trans hrun'
        exact hrest
  · exact .again a a' s s' r hrun

/-- What holds at the control points of a call makes a proof of what holds at its end. -/
theorem Completes.holds {Point : α → σ → Prop} {Done : β → σ → Prop}
    (hbody : ∀ a s, Point a s →
      Sum.elim Point Done ((body a).run h s).1 ((body a).run h s).2)
    (hcall : Completes h body a s r) (hs : Point a s) : Done r.1 r.2 := by
  induction hcall with
  | done a s r hrun =>
      have hdone := hbody a s hs
      rw [hrun] at hdone
      exact hdone
  | again a a' s s' r hrun _ ih =>
      have hnext := hbody a s hs
      rw [hrun] at hnext
      exact ih hnext

/-- A call completes if a number gets smaller from each of its control points to the next. -/
theorem completes_of_measure (μ : α → Nat) {Point : α → σ → Prop} {Done : β → σ → Prop}
    (hbody : ∀ a s, Point a s →
      Sum.elim (fun a' s' => Point a' s' ∧ μ a' < μ a) Done ((body a).run h s).1
        ((body a).run h s).2)
    (hs : Point a s) : ∃ r, Completes h body a s r := by
  induction hn : μ a using Nat.strongRecOn generalizing a s with
  | _ n ih =>
      have hnext := hbody a s hs
      rcases hrun : (body a).run h s with ⟨a' | b, s'⟩
      · rw [hrun] at hnext
        obtain ⟨r, hcall⟩ := ih _ (hn ▸ hnext.2) hnext.1 rfl
        exact ⟨r, .again a a' s s' r hrun hcall⟩
      · exact ⟨(b, s'), .done a s _ hrun⟩

/-- The call as one program, which goes round at most so many times. -/
def unroll (body : α → Prog S (α ⊕ β)) : Nat → α → Prog S (Option β)
  | 0, _ => .ret none
  | fuel + 1, a => body a >>= fun
      | .inl a' => unroll body fuel a'
      | .inr b => .ret (some b)

end Alone
end Iteration
