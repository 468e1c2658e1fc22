import Mathlib.Logic.Relation
import RtssMailbox.Library.Program

/-!
Two parties that run programs over one state, one operation at a time. Each
party is verified alone: before any of its operations the other may have made
steps of its own relation, and its own steps must stay in the relation on which
the other relies. The two proofs together give an invariant of every run.
-/
namespace RelyGuarantee
open Effects Relation

/-- A party that makes one call after the other. A completed call leaves its mark
on the state together with its last operation. -/
structure Client (S : Signature) (σ : Type) where
  Call : Type
  Res : Type
  prog : Call → Prog S Res
  finish : Call → Res → σ → σ

/-- Between calls, or inside one: what its operations have noted so far, the next
operation, and the rest of the program. -/
inductive Thread {S : Signature} {σ : Type} (ν : Type) (c : Client S σ) where
  | idle
  | busy (call : c.Call) (past : List ν) (o : S.Op) (k : S.Res o → Prog S c.Res)

section Wp
variable {S : Signature} {σ ν α β : Type} (h : Handler S σ) (note : S.Op → List ν)
  (rely guar : σ → σ → Prop) (safe : List ν → σ → Prop)

/-- The program is safe before each operation, under steps of the other party, and
its own steps stay in `guar`. The result is judged with the state before the last
operation, so that a completion can be part of it. -/
def Wp (Q : List ν → α → σ → σ → Prop) : Prog S α → List ν → σ → σ → Prop
  | .ret a, past, s₀, s => Q past a s₀ s
  | .op o k, past, s₀, s => guar s₀ s ∧ ∀ s', rely s s' →
      safe (past ++ note o) s' ∧ Wp Q (k (h o s').1) (past ++ note o) s' (h o s').2

variable {h note rely guar safe}

theorem Wp.mono {Q Q' : List ν → α → σ → σ → Prop} {p : Prog S α} {past : List ν} {s₀ s : σ}
    (hQ : ∀ past a s₀ s, Q past a s₀ s → Q' past a s₀ s)
    (hp : Wp h note rely guar safe Q p past s₀ s) :
    Wp h note rely guar safe Q' p past s₀ s := by
  induction p generalizing past s₀ s with
  | ret a => exact hQ _ _ _ _ hp
  | op o k ih => exact ⟨hp.1, fun s' hs' => ⟨(hp.2 s' hs').1, ih _ (hp.2 s' hs').2⟩⟩

theorem Wp.bind {Q : List ν → β → σ → σ → Prop} {p : Prog S α} {f : α → Prog S β}
    {past : List ν} {s₀ s : σ}
    (hp : Wp h note rely guar safe
      (fun past a s₀ s => Wp h note rely guar safe Q (f a) past s₀ s) p past s₀ s) :
    Wp h note rely guar safe Q (p >>= f) past s₀ s := by
  induction p generalizing past s₀ s with
  | ret a => exact hp
  | op o k ih => exact ⟨hp.1, fun s' hs' => ⟨(hp.2 s' hs').1, ih _ (hp.2 s' hs').2⟩⟩

/-- Two proofs of one program give a proof with what both of them establish, in every
state that satisfies what the other party keeps. -/
theorem Wp.both {R G V W : σ → σ → Prop} {safe₂ : List ν → σ → Prop}
    {J : σ → Prop} {Q₁ Q₂ Q : List ν → α → σ → σ → Prop} {p : Prog S α} {past : List ν} {s₀ s : σ}
    (hrely : ∀ s s', rely s s' → R s s' ∧ V s s' ∧ J s')
    (hguar : ∀ s₀ s, J s₀ → G s₀ s → W s₀ s → guar s₀ s)
    (hQ : ∀ past a s₀ s, J s₀ → Q₁ past a s₀ s → Q₂ past a s₀ s → Q past a s₀ s) (hJ : J s₀)
    (hp₁ : Wp h note R G safe Q₁ p past s₀ s)
    (hp₂ : Wp h note V W safe₂ Q₂ p past s₀ s) :
    Wp h note rely guar safe Q p past s₀ s := by
  induction p generalizing past s₀ s with
  | ret a => exact hQ past a s₀ s hJ hp₁ hp₂
  | op o k ih =>
      refine ⟨hguar s₀ s hJ hp₁.1 hp₂.1, fun s' hs' => ?_⟩
      obtain ⟨hs₁, hs₂, hJ'⟩ := hrely s s' hs'
      exact ⟨(hp₁.2 s' hs₁).1, ih _ hJ' (hp₁.2 s' hs₁).2 (hp₂.2 s' hs₂).2⟩

/-- What every operation keeps, and every result satisfies, needs no proof about states. -/
theorem Wp.of_returns {φ : α → Prop} (hop : ∀ o s, guar s (h o s).2) {p : Prog S α}
    (hp : p.Returns φ) {past : List ν} {s₀ s : σ} (hguar : guar s₀ s) :
    Wp h note rely guar (fun _ _ => True) (fun _ a s₀ s => guar s₀ s ∧ φ a) p past s₀ s := by
  induction p generalizing past s₀ s with
  | ret a => exact ⟨hguar, hp⟩
  | op o k ih => exact ⟨hguar, fun s' _ => ⟨trivial, ih _ (hp _) (hop o s')⟩⟩

variable (h note rely guar safe) in
/-- A program that is followed by more of the call, from a state with `P` to one with `Q`. -/
def Spec (P : List ν → σ → Prop) (p : Prog S α) (Q : List ν → α → σ → Prop) : Prop :=
  ∀ past s₀ s, guar s₀ s → P past s →
    Wp h note rely guar safe (fun past a s₀ s => guar s₀ s ∧ Q past a s) p past s₀ s

theorem Spec.ret {P : List ν → σ → Prop} {Q : List ν → α → σ → Prop} {a : α}
    (hQ : ∀ past s, P past s → Q past a s) : Spec h note rely guar safe P (.ret a) Q :=
  fun past _ s hguar hP => ⟨hguar, hQ past s hP⟩

theorem Spec.perform {P : List ν → σ → Prop} {o : S.Op} {Q : List ν → S.Res o → σ → Prop}
    (hstable : ∀ past s s', P past s → rely s s' → P past s')
    (hsafe : ∀ past s, P past s → safe (past ++ note o) s)
    (hstep : ∀ past s, P past s →
      guar s (h o s).2 ∧ Q (past ++ note o) (h o s).1 (h o s).2) :
    Spec h note rely guar safe P (Prog.perform o) Q := by
  intro past s₀ s hguar hP
  refine ⟨hguar, fun s' hs' => ?_⟩
  have hP' := hstable past s s' hP hs'
  exact ⟨hsafe past s' hP', hstep past s' hP'⟩

theorem Spec.bind {P : List ν → σ → Prop} {p : Prog S α} {Q : List ν → α → σ → Prop}
    {f : α → Prog S β} {Q' : List ν → β → σ → Prop}
    (hp : Spec h note rely guar safe P p Q)
    (hf : ∀ a, Spec h note rely guar safe (fun past s => Q past a s) (f a) Q') :
    Spec h note rely guar safe P (p >>= f) Q' := by
  intro past s₀ s hguar hP
  refine Wp.bind (Wp.mono ?_ (hp past s₀ s hguar hP))
  exact fun past a s₀ s hq => hf a past s₀ s hq.1 hq.2

theorem Spec.then {P : List ν → σ → Prop} {p : Prog S α} {Q : List ν → α → σ → Prop}
    {f : α → Prog S β} {Q' : List ν → β → σ → σ → Prop} {past : List ν} {s₀ s : σ}
    (hp : Spec h note rely guar safe P p Q)
    (hf : ∀ past a s₀ s, guar s₀ s → Q past a s →
      Wp h note rely guar safe Q' (f a) past s₀ s)
    (hguar : guar s₀ s) (hP : P past s) :
    Wp h note rely guar safe Q' (p >>= f) past s₀ s :=
  Wp.bind (Wp.mono (fun past a s₀ s hq => hf past a s₀ s hq.1 hq.2) (hp past s₀ s hguar hP))

theorem Spec.weaken {P P' : List ν → σ → Prop} {p : Prog S α} {Q Q' : List ν → α → σ → Prop}
    (hp : Spec h note rely guar safe P p Q) (hP : ∀ past s, P' past s → P past s)
    (hQ : ∀ past a s, Q past a s → Q' past a s) : Spec h note rely guar safe P' p Q' :=
  fun past s₀ s hguar hP' => Wp.mono (fun past a _ s hq => ⟨hq.1, hQ past a s hq.2⟩)
    (hp past s₀ s hguar (hP past s hP'))

end Wp

section Threads
variable {S : Signature} {σ ν : Type} (h : Handler S σ) (note : S.Op → List ν)

/-- The thread that has `p` left of a call; with nothing left the call completes. -/
def Client.enter (c : Client S σ) (call : c.Call) (past : List ν) :
    Prog S c.Res → σ → Thread ν c × σ
  | .ret a, s => (.idle, c.finish call a s)
  | .op o k, s => (.busy call past o k, s)

/-- A thread starts a call or performs the next operation of the one that it is in. -/
inductive ThreadStep (c : Client S σ) : Thread ν c → σ → Thread ν c → σ → Prop
  | start (call : c.Call) (s : σ) :
      ThreadStep c .idle s (c.enter call ([] : List ν) (c.prog call) s).1
        (c.enter call ([] : List ν) (c.prog call) s).2
  | op (call : c.Call) (past : List ν) (o : S.Op) (k : S.Res o → Prog S c.Res) (s : σ) :
      ThreadStep c (.busy call past o k) s
        (c.enter call (past ++ note o) (k (h o s).1) (h o s).2).1
        (c.enter call (past ++ note o) (k (h o s).1) (h o s).2).2

structure System (ν : Type) (c d : Client S σ) where
  left : Thread ν c
  right : Thread ν d
  state : σ

/-- One operation of either party, in any order. -/
inductive System.Step {c d : Client S σ} : System ν c d → System ν c d → Prop
  | left {t t' : Thread ν c} {s s' : σ} (u : Thread ν d) (hstep : ThreadStep h note c t s t' s') :
      System.Step ⟨t, u, s⟩ ⟨t', u, s'⟩
  | right {u u' : Thread ν d} {s s' : σ} (t : Thread ν c)
      (hstep : ThreadStep h note d u s u' s') : System.Step ⟨t, u, s⟩ ⟨t, u', s'⟩

/-- What any number of steps reaches from two idle parties. -/
def System.Reachable {c d : Client S σ} (s : σ) : System ν c d → Prop :=
  ReflTransGen (System.Step h note) ⟨.idle, .idle, s⟩

/-- The verified rest of a thread. -/
def Ready (c : Client S σ) (rely guar : σ → σ → Prop) (safe : List ν → σ → Prop) :
    Thread ν c → σ → Prop
  | .idle, _ => True
  | .busy call past o k, s => ∀ s', rely s s' → safe (past ++ note o) s' ∧
      Wp h note rely guar safe (fun _ a s₀ s => guar s₀ (c.finish call a s)) (k (h o s').1)
        (past ++ note o) s' (h o s').2

variable {h note}

theorem Ready.stable {c : Client S σ} {rely guar : σ → σ → Prop} {safe : List ν → σ → Prop}
    (htrans : ∀ s s' s'', rely s s' → rely s' s'' → rely s s'') {t : Thread ν c} {s s' : σ}
    (ht : Ready h note c rely guar safe t s) (hs : rely s s') :
    Ready h note c rely guar safe t s' := by
  cases t with
  | idle => trivial
  | busy call past o k => exact fun s'' hs'' => ht s'' (htrans s s' s'' hs hs'')

/-- Entering the rest of a call is a step of the party and leaves a verified thread. -/
theorem enter_ready {c : Client S σ} {rely guar : σ → σ → Prop} {safe : List ν → σ → Prop}
    {call : c.Call} {p : Prog S c.Res} {past : List ν} {s₀ s : σ}
    (hp : Wp h note rely guar safe (fun _ a s₀ s => guar s₀ (c.finish call a s)) p past s₀ s) :
    guar s₀ (c.enter call past p s).2 ∧
      Ready h note c rely guar safe (c.enter call past p s).1 (c.enter call past p s).2 := by
  cases p with
  | ret a => exact ⟨hp, trivial⟩
  | op o k => exact hp

/-- What one party's proof gives: every step is in its relation and leaves a verified thread. -/
theorem threadStep_ready {c : Client S σ} {rely guar : σ → σ → Prop} {safe : List ν → σ → Prop}
    {Inv : σ → Prop} (hrefl : ∀ s, Inv s → rely s s)
    (hcalls : ∀ call s, Inv s → Wp h note rely guar safe
      (fun _ a s₀ s => guar s₀ (c.finish call a s)) (c.prog call) [] s s)
    {t t' : Thread ν c} {s s' : σ} (hInv : Inv s) (ht : Ready h note c rely guar safe t s)
    (hstep : ThreadStep h note c t s t' s') :
    guar s s' ∧ Ready h note c rely guar safe t' s' := by
  cases hstep with
  | start call => exact enter_ready (hcalls call s hInv)
  | op call past o k => exact enter_ready (ht s (hrefl s hInv)).2

/-- A thread that runs alone completes its call with the result of the program's run. -/
theorem enter_completes (c : Client S σ) (call : c.Call) (p : Prog S c.Res) (past : List ν)
    (s : σ) :
    ReflTransGen (fun x y : Thread ν c × σ => ThreadStep h note c x.1 x.2 y.1 y.2)
      (c.enter call past p s) (.idle, c.finish call (p.run h s).1 (p.run h s).2) := by
  induction p generalizing past s with
  | ret a => exact .refl
  | op o k ih => exact .head (.op call past o k s) (ih _ _ _)

theorem System.Reachable.call_left {c d : Client S σ} {s₀ s : σ} {u : Thread ν d}
    (hx : System.Reachable h note s₀ (⟨.idle, u, s⟩ : System ν c d)) (call : c.Call) :
    System.Reachable h note s₀ (⟨.idle, u, c.finish call ((c.prog call).run h s).1
      ((c.prog call).run h s).2⟩ : System ν c d) :=
  (hx.tail (.left u (.start call s))).trans <|
    (enter_completes c call (c.prog call) [] s).lift (fun y => (⟨y.1, u, y.2⟩ : System ν c d))
      fun _ _ hstep => .left u hstep

variable (h note) in
/-- The next operation of a thread, which is none between two calls. -/
def Client.advance (c : Client S σ) : Thread ν c × σ → Thread ν c × σ
  | (.idle, s) => (.idle, s)
  | (.busy call past o k, s) => c.enter call (past ++ note o) (k (h o s).1) (h o s).2

variable (h note) in
theorem advance_steps (c : Client S σ) (x : Thread ν c × σ) :
    ReflTransGen (fun x y : Thread ν c × σ => ThreadStep h note c x.1 x.2 y.1 y.2) x
      (c.advance h note x) := by
  obtain ⟨_ | ⟨call, past, o, k⟩, s⟩ := x
  · exact .refl
  · exact .single (.op call past o k s)

variable (h note) in
/-- A turn of the left party, or of the right one. -/
def System.turn {c d : Client S σ} (x : System ν c d) : Bool → System ν c d
  | true => ⟨(c.advance h note (x.left, x.state)).1, x.right,
      (c.advance h note (x.left, x.state)).2⟩
  | false => ⟨x.left, (d.advance h note (x.right, x.state)).1,
      (d.advance h note (x.right, x.state)).2⟩

/-- What the two parties reach by turns, in any order of these. -/
theorem System.Reachable.turns {c d : Client S σ} {s₀ : σ} {x : System ν c d}
    (hx : System.Reachable h note s₀ x) (order : List Bool) :
    System.Reachable h note s₀ (order.foldl (System.turn h note) x) := by
  induction order generalizing x with
  | nil => exact hx
  | cons left order ih =>
      refine ih (hx.trans ?_)
      obtain ⟨t, u, s⟩ := x
      cases left with
      | true =>
          have hsteps := advance_steps h note c (t, s)
          exact hsteps.lift (fun y : Thread ν c × σ => (⟨y.1, u, y.2⟩ : System ν c d))
            fun _ _ hstep => .left u hstep
      | false =>
          have hsteps := advance_steps h note d (u, s)
          exact hsteps.lift (fun y : Thread ν d × σ => (⟨t, y.1, y.2⟩ : System ν c d))
            fun _ _ hstep => .right t hstep

section Composition
variable {c d : Client S σ} {stepC stepD : σ → σ → Prop} {safeC safeD : List ν → σ → Prop}
  {Inv : σ → Prop}

variable (h note c d stepC stepD safeC safeD Inv) in
/-- Two parties whose proofs fit together: each relies on the steps of the other. -/
structure Verified : Prop where
  reflC : ∀ s, Inv s → stepC s s
  reflD : ∀ s, Inv s → stepD s s
  transC : ∀ s s' s'', stepC s s' → stepC s' s'' → stepC s s''
  transD : ∀ s s' s'', stepD s s' → stepD s' s'' → stepD s s''
  invC : ∀ s s', stepC s s' → Inv s'
  invD : ∀ s s', stepD s s' → Inv s'
  callsC : ∀ call s, Inv s → Wp h note stepD stepC safeC
    (fun _ a s₀ s => stepC s₀ (c.finish call a s)) (c.prog call) [] s s
  callsD : ∀ call s, Inv s → Wp h note stepC stepD safeD
    (fun _ a s₀ s => stepD s₀ (d.finish call a s)) (d.prog call) [] s s

/-- Every reachable state satisfies the invariant, and both threads are verified there. -/
theorem Verified.reachable (hv : Verified h note c d stepC stepD safeC safeD Inv) {s : σ}
    (hs : Inv s) {x : System ν c d} (hx : System.Reachable h note s x) :
    Inv x.state ∧ Ready h note c stepD stepC safeC x.left x.state ∧
      Ready h note d stepC stepD safeD x.right x.state := by
  induction hx with
  | refl => exact ⟨hs, trivial, trivial⟩
  | tail _ hstep ih =>
      obtain ⟨hInv, hleft, hright⟩ := ih
      cases hstep with
      | left u hstep =>
          obtain ⟨hguar, hready⟩ := threadStep_ready hv.reflD hv.callsC hInv hleft hstep
          exact ⟨hv.invC _ _ hguar, hready, hright.stable hv.transC hguar⟩
      | right t hstep =>
          obtain ⟨hguar, hready⟩ := threadStep_ready hv.reflC hv.callsD hInv hright hstep
          exact ⟨hv.invD _ _ hguar, hleft.stable hv.transD hguar, hready⟩

end Composition

section Results

/-- Every result that the rest of a thread's call can have satisfies `φ`. -/
def Thread.Returns {c : Client S σ} (φ : c.Call → c.Res → Prop) : Thread ν c → Prop
  | .idle => True
  | .busy call _ _ k => ∀ r, (k r).Returns (φ call)

variable {c : Client S σ} {φ : c.Call → c.Res → Prop}

theorem enter_returns {call : c.Call} {p : Prog S c.Res} (hp : p.Returns (φ call))
    (past : List ν) (s : σ) : (c.enter call past p s).1.Returns φ := by
  cases p with
  | ret a => trivial
  | op o k => exact hp

theorem ThreadStep.returns (hcalls : ∀ call, (c.prog call).Returns (φ call)) {t t' : Thread ν c}
    {s s' : σ} (ht : t.Returns φ) (hstep : ThreadStep h note c t s t' s') : t'.Returns φ := by
  cases hstep with
  | start call => exact enter_returns (hcalls call) _ _
  | op call past o k => exact enter_returns (ht _) _ _

/-- A step performs at most one operation and completes at most one call, with one of the
results that the call can have. -/
theorem ThreadStep.effect (hcalls : ∀ call, (c.prog call).Returns (φ call)) {t t' : Thread ν c}
    {s s' : σ} (ht : t.Returns φ) (hstep : ThreadStep h note c t s t' s') :
    ∃ s₁, (s₁ = s ∨ ∃ o, s₁ = (h o s).2) ∧
      (s' = s₁ ∨ ∃ call a, φ call a ∧ s' = c.finish call a s₁) := by
  have henter : ∀ (call : c.Call) (past : List ν) (p : Prog S c.Res) (s : σ),
      p.Returns (φ call) → (c.enter call past p s).2 = s ∨
        ∃ done a, φ done a ∧ (c.enter call past p s).2 = c.finish done a s := by
    intro call past p s hp
    cases p with
    | ret a => exact .inr ⟨call, a, hp, rfl⟩
    | op o k => exact .inl rfl
  cases hstep with
  | start call => exact ⟨s, .inl rfl, henter call [] (c.prog call) s (hcalls call)⟩
  | op call past o k =>
      exact ⟨_, .inr ⟨o, rfl⟩, henter call (past ++ note o) (k (h o s).1) _ (ht _)⟩

theorem System.Reachable.returns {d : Client S σ} {ψ : d.Call → d.Res → Prop}
    (hcallsC : ∀ call, (c.prog call).Returns (φ call))
    (hcallsD : ∀ call, (d.prog call).Returns (ψ call)) {s : σ} {x : System ν c d}
    (hx : System.Reachable h note s x) : x.left.Returns φ ∧ x.right.Returns ψ := by
  induction hx with
  | refl => exact ⟨trivial, trivial⟩
  | tail _ hstep ih =>
      cases hstep with
      | left u hstep => exact ⟨hstep.returns hcallsC ih.1, ih.2⟩
      | right t hstep => exact ⟨ih.1, hstep.returns hcallsD ih.2⟩

end Results

section Upcoming
variable (h) in
/-- The operations that a thread performs next as long as `which` selects them,
if it runs alone. -/
def Thread.upcoming {c : Client S σ} (which : S.Op → Bool) : Thread ν c → σ → List S.Op
  | .idle, _ => []
  | .busy _ _ o k, s => ((Prog.op o k).ops h s).takeWhile which

variable (h note) in
/-- What a thread has noted in its call, with the notes of the selected operations to come. -/
def Thread.noting {c : Client S σ} (which : S.Op → Bool) : Thread ν c → σ → List ν
  | .idle, _ => []
  | .busy call past o k, s =>
      past ++ ((Thread.busy call past o k).upcoming h which s).flatMap note

/-- A thread can run on to the last of its selected operations: there its notes,
with the next one, cover all of them. -/
theorem ThreadStep.to_last {c : Client S σ} (which : S.Op → Bool) (call : c.Call)
    (p : Prog S c.Res) (past : List ν) (s : σ) (o : S.Op) (k : S.Res o → Prog S c.Res)
    (hp : p = .op o k) :
    ∃ past' o' k' s', ReflTransGen (fun x y : Thread ν c × σ => ThreadStep h note c x.1 x.2 y.1 y.2)
        (.busy call past o k, s) (.busy call past' o' k', s') ∧
      ((∀ o s, which o = true → (h o s).2 = s) → s' = s) ∧
      ∀ v ∈ (Thread.busy call past o k).noting h note which s, v ∈ past' ++ note o' := by
  induction p generalizing past s o k with
  | ret a => cases hp
  | op o' k' ih =>
      cases hp
      by_cases ho : which o' = true
      case neg =>
        refine ⟨past, o', k', s, .refl, fun _ => rfl, fun v hv => ?_⟩
        have hnone : (Thread.busy call past o' k').upcoming h which s = [] :=
          List.takeWhile_cons_of_neg ho
        rw [Thread.noting, hnone] at hv
        exact List.mem_append_left _ (by simpa using hv)
      have hupcoming : (Thread.busy call past o' k').upcoming h which s =
          o' :: ((k' (h o' s).1).ops h (h o' s).2).takeWhile which :=
        List.takeWhile_cons_of_pos ho
      cases hrest : k' (h o' s).1 with
      | ret a =>
          refine ⟨past, o', k', s, .refl, fun _ => rfl, fun v hv => ?_⟩
          rw [Thread.noting, hupcoming, hrest] at hv
          simpa [Prog.ops] using hv
      | op o₁ k₁ =>
          obtain ⟨past', o₂, k₂, s', hrun, hsame, hnotes⟩ :=
            ih (h o' s).1 (past ++ note o') (h o' s).2 o₁ k₁ hrest
          have hfirst : ThreadStep h note c (.busy call past o' k') s
              (.busy call (past ++ note o') o₁ k₁) (h o' s).2 := by
            have hstep : ThreadStep h note c (.busy call past o' k') s _ _ :=
              .op call past o' k' s
            rw [hrest] at hstep
            exact hstep
          refine ⟨past', o₂, k₂, s', .head hfirst hrun, fun hkeep => ?_, fun v hv => ?_⟩
          · rw [hsame hkeep, hkeep o' s ho]
          · refine hnotes v ?_
            rw [Thread.noting, hupcoming, hrest] at hv
            simpa [Thread.noting, Thread.upcoming] using hv

/-- If safe notes of the two parties have nothing in common, neither have the notes
that they are making, provided that the second party's selected operations only look. -/
theorem Verified.noting_disjoint {c d : Client S σ} {stepC stepD : σ → σ → Prop}
    {safeC safeD : List ν → σ → Prop} {Inv : σ → Prop}
    (hv : Verified h note c d stepC stepD safeC safeD Inv) (whichC whichD : S.Op → Bool)
    (hkeep : ∀ o s, whichD o = true → (h o s).2 = s)
    (hdisjoint : ∀ l r s, Inv s → safeC l s → safeD r s → ∀ v ∈ l, v ∉ r)
    {s : σ} (hs : Inv s) {x : System ν c d} (hx : System.Reachable h note s x) :
    ∀ v ∈ x.left.noting h note whichC x.state, v ∉ x.right.noting h note whichD x.state := by
  intro v hleft hright
  obtain ⟨t, u, s₁⟩ := x
  cases t with
  | idle => exact absurd hleft List.not_mem_nil
  | busy call past o k =>
      cases u with
      | idle => exact absurd hright List.not_mem_nil
      | busy call' past' o' k' =>
          -- the second party's operations first: they leave the state as it is
          obtain ⟨pastD, oD, kD, sD, hrunD, hsame, hnotesD⟩ := @ThreadStep.to_last
            _ _ _ h note d whichD call' (.op o' k') past' s₁ o' k' rfl
          cases hsame hkeep
          obtain ⟨pastC, oC, kC, sC, hrunC, -, hnotesC⟩ := @ThreadStep.to_last
            _ _ _ h note c whichC call (.op o k) past s₁ o k rfl
          have hreach : System.Reachable h note s
              (⟨.busy call pastC oC kC, .busy call' pastD oD kD, sC⟩ : System ν c d) :=
            (hx.trans (hrunD.lift
              (fun y => (⟨.busy call past o k, y.1, y.2⟩ : System ν c d))
              fun _ _ hstep => .right _ hstep)).trans
              (hrunC.lift (fun y => (⟨y.1, .busy call' pastD oD kD, y.2⟩ : System ν c d))
                fun _ _ hstep => .left _ hstep)
          obtain ⟨hInv, hreadyC, hreadyD⟩ := hv.reachable hs hreach
          exact hdisjoint _ _ sC hInv (hreadyC sC (hv.reflD sC hInv)).1
            (hreadyD sC (hv.reflC sC hInv)).1 v (hnotesC v hleft) (hnotesD v hright)

end Upcoming
end Threads
end RelyGuarantee
