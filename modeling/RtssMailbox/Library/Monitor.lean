import RtssMailbox.Library.Program

/-!
Programs against an environment that answers as it likes. A monitor follows the
answered operations with a state of its own: it says which operations the program
may perform there, and which answers are assumed. A program that is proved against
a monitor, operation by operation, stays allowed on every trace of answers.
-/
namespace Monitoring
open Effects

structure Event (S : Signature) where
  op : S.Op
  res : S.Res op

/-- The program that is left of another after a list of answered operations. -/
inductive Runs {S : Signature} {α : Type} : Prog S α → List (Event S) → Prog S α → Prop
  | refl (p : Prog S α) : Runs p [] p
  | op (o : S.Op) (k : S.Res o → Prog S α) (r : S.Res o) (t : List (Event S)) (q : Prog S α)
      (hrest : Runs (k r) t q) : Runs (.op o k) (⟨o, r⟩ :: t) q

section Traces
variable {S : Signature} {σ α β : Type}

/-- The answered operations of a run over a state. -/
def eventTrace (h : Handler S σ) : Prog S α → σ → List (Event S)
  | .ret _, _ => []
  | .op o k, s => ⟨o, (h o s).1⟩ :: eventTrace h (k (h o s).1) (h o s).2

theorem runs_eventTrace (h : Handler S σ) (p : Prog S α) (s : σ) :
    Runs p (eventTrace h p s) (.ret (p.run h s).1) := by
  induction p generalizing s with
  | ret a => exact .refl _
  | op o k ih => exact .op o k _ _ _ (ih _ _)

/-- Operations whose outcomes depend on all that happened before, which is remembered. -/
def recorded (outcome : List (Event S) → (o : S.Op) → S.Res o) : Handler S (List (Event S)) :=
  fun o t => (outcome t o, t ++ [⟨o, outcome t o⟩])

/-- A recorded run adds such events, and comes to such a result. -/
def Records (outcome : List (Event S) → (o : S.Op) → S.Res o) (Q : List (Event S) → α → Prop)
    (p : Prog S α) (t : List (Event S)) : Prop :=
  ∃ q a, p.run (recorded outcome) t = (a, t ++ q) ∧ Q q a

section Recorded
variable {outcome : List (Event S) → (o : S.Op) → S.Res o} {Q : List (Event S) → α → Prop}
variable {t : List (Event S)}

theorem run_recorded {o : S.Op} {k : S.Res o → Prog S α} {r : S.Res o} (hr : outcome t o = r) :
    (Prog.op o k).run (recorded outcome) t = (k r).run (recorded outcome) (t ++ [⟨o, r⟩]) := by
  cases hr
  rfl

theorem Records.ret {a : α} (ha : Q [] a) : Records outcome Q (.ret a) t :=
  ⟨[], a, by rw [List.append_nil]; rfl, ha⟩

theorem Records.op {o : S.Op} {k : S.Res o → Prog S α}
    (hk : ∀ r, Records outcome (fun q => Q (⟨o, r⟩ :: q)) (k r) (t ++ [⟨o, r⟩])) :
    Records outcome Q (.op o k) t := by
  obtain ⟨q, a, hrun, hQ⟩ := hk (outcome t o)
  refine ⟨_, a, ?_, hQ⟩
  rw [List.append_assoc] at hrun
  exact hrun

theorem Records.guard {c : Prop} [Decidable c] {p q : Prog S α} (hp : c → Records outcome Q p t)
    (hq : ¬ c → Records outcome Q q t) : Records outcome Q (if c then p else q) t := by
  split
  · exact hp ‹_›
  · exact hq ‹_›

end Recorded

theorem eventTrace_bind (h : Handler S σ) (p : Prog S α) (f : α → Prog S β) (s : σ) :
    eventTrace h (p >>= f) s =
      eventTrace h p s ++ eventTrace h (f (p.run h s).1) (p.run h s).2 := by
  induction p generalizing s with
  | ret a => rfl
  | op o k ih => exact congrArg (List.cons _) (ih _ _)

end Traces

structure Monitor (S : Signature) (σ : Type) where
  next : σ → Event S → σ
  allows : σ → S.Op → Prop
  assumes : σ → Event S → Prop

namespace Monitor
variable {S : Signature} {σ α β : Type} (M : Monitor S σ)

/-- The state of the monitor after a list of answered operations. -/
def after (s : σ) (t : List (Event S)) : σ := t.foldl M.next s

def Allowed (s : σ) (t : List (Event S)) : Prop :=
  ∀ past e rest, t = past ++ e :: rest → M.allows (M.after s past) e.op

/-- Every answer is one that the monitor assumes at its place. -/
def Assumed (s : σ) (t : List (Event S)) : Prop :=
  ∀ past e rest, t = past ++ e :: rest → M.assumes (M.after s past) e

/-- Every operation of the program is allowed, whatever the assumed answers before
it were, and its result meets `Q` in the state that the monitor has then. -/
def Keeps (Q : α → σ → Prop) : Prog S α → σ → Prop
  | .ret a, s => Q a s
  | .op o k, s => M.allows s o ∧ ∀ r, M.assumes s ⟨o, r⟩ → Keeps Q (k r) (M.next s ⟨o, r⟩)

variable {M}

/-- What is asked of every event in its state, by the first event and the others. -/
theorem forall_split_cons {P : σ → Event S → Prop} {s : σ} {e : Event S} {t : List (Event S)} :
    (∀ past e' rest, e :: t = past ++ e' :: rest → P (M.after s past) e') ↔
      P s e ∧ ∀ past e' rest, t = past ++ e' :: rest → P (M.after (M.next s e) past) e' := by
  constructor
  · intro h
    exact ⟨h [] e t rfl, fun past e' rest hsplit => h (e :: past) e' rest (by rw [hsplit]; rfl)⟩
  · rintro ⟨he, ht⟩ past e' rest hsplit
    cases past with
    | nil =>
        cases hsplit
        exact he
    | cons e₀ past =>
        cases hsplit
        exact ht past e' rest rfl

theorem Allowed.nil (s : σ) : M.Allowed s [] := by
  intro past e rest ht
  cases past <;> cases ht

theorem allowed_cons {s : σ} {e : Event S} {t : List (Event S)} :
    M.Allowed s (e :: t) ↔ M.allows s e.op ∧ M.Allowed (M.next s e) t :=
  forall_split_cons (P := fun s e => M.allows s e.op)

theorem allowed_append {s : σ} {t u : List (Event S)} :
    M.Allowed s (t ++ u) ↔ M.Allowed s t ∧ M.Allowed (M.after s t) u := by
  induction t generalizing s with
  | nil => exact ⟨fun h => ⟨.nil s, h⟩, fun h => h.2⟩
  | cons e t ih =>
      rw [List.cons_append, allowed_cons, ih, allowed_cons, and_assoc]
      rfl

/-- A monitor without a memory allows each operation or not. -/
theorem allowed_unit {M : Monitor S Unit} {t : List (Event S)} :
    M.Allowed () t ↔ ∀ e ∈ t, M.allows () e.op := by
  induction t with
  | nil => exact ⟨fun _ => nofun, fun _ => .nil ()⟩
  | cons e t ih => rw [allowed_cons, ih, List.forall_mem_cons]

theorem Assumed.nil (s : σ) : M.Assumed s [] := by
  intro past e rest ht
  cases past <;> cases ht

theorem assumed_cons {s : σ} {e : Event S} {t : List (Event S)} :
    M.Assumed s (e :: t) ↔ M.assumes s e ∧ M.Assumed (M.next s e) t :=
  forall_split_cons

/-- The answers of a handler are assumed along its runs if each of them is. -/
theorem assumed_eventTrace {τ : Type} (h : Handler S τ)
    (hassumes : ∀ s o w, M.assumes s ⟨o, (h o w).1⟩) (p : Prog S α) (w : τ) (s : σ) :
    M.Assumed s (eventTrace h p w) := by
  induction p generalizing w s with
  | ret a => exact .nil s
  | op o k ih => exact assumed_cons.mpr ⟨hassumes s o w, ih _ _ _⟩

variable (M)

/-- An environment that keeps the monitor's state and answers by it. -/
def answered (answer : σ → (o : S.Op) → S.Res o) : Handler S σ :=
  fun o s => (answer s o, M.next s ⟨o, answer s o⟩)

variable {M}

section Answered
variable {answer : σ → (o : S.Op) → S.Res o} {s s' : σ}

theorem assumed_answered (h : ∀ s o, M.assumes s ⟨o, answer s o⟩) (p : Prog S α) (s : σ) :
    M.Assumed s (eventTrace (M.answered answer) p s) := by
  induction p generalizing s with
  | ret a => exact .nil s
  | op o k ih => exact assumed_cons.mpr ⟨h s o, ih _ _⟩

theorem after_answered (p : Prog S α) (s : σ) :
    M.after s (eventTrace (M.answered answer) p s) = (p.run (M.answered answer) s).2 := by
  induction p generalizing s with
  | ret a => rfl
  | op o k ih => exact ih _ _

theorem Allowed.bind {p : Prog S α} {f : α → Prog S β} {a : α}
    (hrun : p.run (M.answered answer) s = (a, s'))
    (h : M.Allowed s (eventTrace (M.answered answer) (p >>= f) s)) :
    M.Allowed s' (eventTrace (M.answered answer) (f a) s') := by
  rw [eventTrace_bind, allowed_append, after_answered, hrun] at h
  exact h.2

theorem Allowed.first {τ : Type} {h : Handler S τ} {w : τ} {p : Prog S α} {f : α → Prog S β}
    (hallowed : M.Allowed s (eventTrace h (p >>= f) w)) : M.Allowed s (eventTrace h p w) := by
  rw [eventTrace_bind, allowed_append] at hallowed
  exact hallowed.1

theorem Allowed.guard {τ : Type} {h : Handler S τ} {w : τ} {c : Prop} [Decidable c]
    {p q : Prog S α} (hc : ¬ c) (hallowed : M.Allowed s (eventTrace h (if c then p else q) w)) :
    M.Allowed s (eventTrace h q w) := by
  rwa [if_neg hc] at hallowed

theorem Allowed.next {p : OptionT (Prog S) α} {f : α → OptionT (Prog S) β} {a : α}
    (hrun : p.run.run (M.answered answer) s = (some a, s'))
    (h : M.Allowed s (eventTrace (M.answered answer) (p >>= f).run s)) :
    M.Allowed s' (eventTrace (M.answered answer) (f a).run s') := by
  have hnext := Allowed.bind hrun h
  exact hnext

end Answered

variable (M)

/-- What is asked here is that an operation is allowed exactly if its outcome is assumed. -/
def exact : Monitor S σ where
  next := M.next
  allows s o := ∀ r, M.allows s o ↔ M.assumes s ⟨o, r⟩
  assumes _ _ := True

variable {M}

/-- If each operation is allowed exactly if its outcome is assumed, so is each run. -/
theorem Allowed.exact_iff {s : σ} {t : List (Event S)} (h : M.exact.Allowed s t) :
    M.Allowed s t ↔ M.Assumed s t :=
  forall_congr' fun past => forall_congr' fun e => forall_congr' fun rest =>
    forall_congr' fun hsplit => h past e rest hsplit e.res

instance decidableAllowed [∀ s o, Decidable (M.allows s o)] :
    (s : σ) → (t : List (Event S)) → Decidable (M.Allowed s t)
  | s, [] => isTrue (.nil s)
  | s, e :: t =>
      have := decidableAllowed (M.next s e) t
      decidable_of_iff _ allowed_cons.symm

instance decidableAssumed [∀ s e, Decidable (M.assumes s e)] :
    (s : σ) → (t : List (Event S)) → Decidable (M.Assumed s t)
  | s, [] => isTrue (.nil s)
  | s, e :: t =>
      have := decidableAssumed (M.next s e) t
      decidable_of_iff _ assumed_cons.symm

theorem Keeps.mono {Q Q' : α → σ → Prop} {p : Prog S α} {s : σ}
    (hQ : ∀ a s, Q a s → Q' a s) (hp : M.Keeps Q p s) : M.Keeps Q' p s := by
  induction p generalizing s with
  | ret a => exact hQ a s hp
  | op o k ih => exact ⟨hp.1, fun r hr => ih r (hp.2 r hr)⟩

theorem Keeps.bind {Q : β → σ → Prop} {p : Prog S α} {f : α → Prog S β} {s : σ}
    (hp : M.Keeps (fun a => M.Keeps Q (f a)) p s) : M.Keeps Q (p >>= f) s := by
  induction p generalizing s with
  | ret a => exact hp
  | op o k ih => exact ⟨hp.1, fun r hr => ih r (hp.2 r hr)⟩

theorem Keeps.then {Q : α → σ → Prop} {Q' : β → σ → Prop} {p : Prog S α} {f : α → Prog S β}
    {s : σ} (hp : M.Keeps Q p s) (hf : ∀ a s, Q a s → M.Keeps Q' (f a) s) :
    M.Keeps Q' (p >>= f) s :=
  (hp.mono hf).bind

theorem Keeps.perform {Q : S.Res o → σ → Prop} {s : σ} (ho : M.allows s o)
    (hQ : ∀ r, M.assumes s ⟨o, r⟩ → Q r (M.next s ⟨o, r⟩)) : M.Keeps Q (Prog.perform o) s :=
  ⟨ho, hQ⟩

theorem Keeps.guard {Q : α → σ → Prop} {c : Prop} [Decidable c] {p q : Prog S α} {s : σ}
    (hp : c → M.Keeps Q p s) (hq : ¬ c → M.Keeps Q q s) :
    M.Keeps Q (if c then p else q) s := by
  split
  · exact hp ‹_›
  · exact hq ‹_›

/-- A program whose operations are all of one kind. -/
def Only (C : S.Op → Prop) : Prog S α → Prop
  | .ret _ => True
  | .op o k => C o ∧ ∀ r, Only C (k r)

namespace Only
variable {C C' : S.Op → Prop}

theorem ret (a : α) : Only C (.ret a : Prog S α) := trivial

theorem perform {o : S.Op} (ho : C o) : Only C (Prog.perform o) := ⟨ho, fun _ => trivial⟩

theorem bind {p : Prog S α} {f : α → Prog S β} (hp : Only C p) (hf : ∀ a, Only C (f a)) :
    Only C (p >>= f) := by
  induction p with
  | ret a => exact hf a
  | op o k ih => exact ⟨hp.1, fun r => ih r (hp.2 r)⟩

theorem guard {c : Prop} [Decidable c] {p q : Prog S α} (hp : Only C p) (hq : Only C q) :
    Only C (if c then p else q) := by
  split
  · exact hp
  · exact hq

theorem mono {p : Prog S α} (hp : Only C p) (hC : ∀ o, C o → C' o) : Only C' p := by
  induction p with
  | ret a => trivial
  | op o k ih => exact ⟨hC o hp.1, fun r => ih r (hp.2 r)⟩

/-- Operations of a kind that the monitor allows and that keep what holds of its state. -/
theorem keeps {P : σ → Prop} {p : Prog S α} {s : σ} (hp : Only C p)
    (hC : ∀ o s, C o → P s → M.allows s o ∧ ∀ r, M.assumes s ⟨o, r⟩ → P (M.next s ⟨o, r⟩))
    (hs : P s) : M.Keeps (fun _ s' => P s') p s := by
  induction p generalizing s with
  | ret a => exact hs
  | op o k ih =>
      obtain ⟨hallows, hnext⟩ := hC o s hp.1 hs
      exact ⟨hallows, fun r hr => ih r (hp.2 r) (hnext r hr)⟩

end Only

/-- A program that may stop without a result: with one, it meets `Q`. -/
def Passes (M : Monitor S σ) (Q : α → σ → Prop) (p : OptionT (Prog S) α) (s : σ) : Prop :=
  M.Keeps (fun r s' => ∀ a ∈ r, Q a s') p.run s

namespace Passes
variable {Q Q' : α → σ → Prop} {s : σ}

theorem mono {p : OptionT (Prog S) α} (hQ : ∀ a s, Q a s → Q' a s) (hp : M.Passes Q p s) :
    M.Passes Q' p s :=
  Keeps.mono (fun _ s' hr a ha => hQ a s' (hr a ha)) hp

theorem pure {a : α} (ha : Q a s) : M.Passes Q (pure a) s := by
  rintro _ ⟨⟩
  exact ha

theorem failure : M.Passes Q failure s := fun _ ha => nomatch ha

theorem bind {Q : β → σ → Prop} {p : OptionT (Prog S) α} {f : α → OptionT (Prog S) β}
    (hp : M.Passes (fun a => M.Passes Q (f a)) p s) : M.Passes Q (p >>= f) s := by
  refine Keeps.then hp fun r s' hr => ?_
  cases r with
  | none => exact fun _ ha => nomatch ha
  | some a => exact hr a rfl

theorem «then» {Q' : β → σ → Prop} {p : OptionT (Prog S) α} {f : α → OptionT (Prog S) β}
    (hp : M.Passes Q p s) (hf : ∀ a s, Q a s → M.Passes Q' (f a) s) :
    M.Passes Q' (p >>= f) s :=
  bind (hp.mono hf)

theorem guard {c : Prop} [Decidable c] {p q : OptionT (Prog S) α} (hp : c → M.Passes Q p s)
    (hq : ¬ c → M.Passes Q q s) : M.Passes Q (if c then p else q) s := by
  split
  · exact hp ‹_›
  · exact hq ‹_›

theorem mk {p : Prog S (Option α)} (hp : M.Keeps (fun r s' => ∀ a ∈ r, Q a s') p s) :
    M.Passes Q (OptionT.mk p) s := hp

theorem lift {p : Prog S α} (hp : M.Keeps Q p s) : M.Passes Q (OptionT.lift p) s := by
  refine Keeps.then hp fun a s' ha => ?_
  rintro _ ⟨⟩
  exact ha

end Passes

/-- The program stays allowed along every trace of assumed answers, and what is
left of it keeps its specification. -/
theorem Keeps.runs {Q : α → σ → Prop} {p q : Prog S α} {t : List (Event S)} {s : σ}
    (hruns : Runs p t q) (hp : M.Keeps Q p s) (ht : M.Assumed s t) :
    M.Allowed s t ∧ M.Keeps Q q (M.after s t) := by
  induction hruns generalizing s with
  | refl p => exact ⟨.nil s, hp⟩
  | op o k r t q hrest ih =>
      obtain ⟨ho, hk⟩ := hp
      obtain ⟨hr, ht⟩ := assumed_cons.mp ht
      obtain ⟨hallowed, hq⟩ := ih (hk r hr) ht
      exact ⟨allowed_cons.mpr ⟨ho, hallowed⟩, hq⟩

/-! What the program may do. -/

variable (M)

/-- With suitable assumed answers the program gets to a result that meets `Q`. -/
def May (Q : α → σ → Prop) : Prog S α → σ → Prop
  | .ret a, s => Q a s
  | .op o k, s => ∃ r, M.assumes s ⟨o, r⟩ ∧ May Q (k r) (M.next s ⟨o, r⟩)

/-- With suitable assumed answers the program performs an operation that is not allowed. -/
def Violates : Prog S α → σ → Prop
  | .ret _, _ => False
  | .op o k, s => ∃ r, M.assumes s ⟨o, r⟩ ∧
      (¬ M.allows s o ∨ Violates (k r) (M.next s ⟨o, r⟩))

/-- The monitor without its assumptions. -/
def unassuming : Monitor S σ where
  next := M.next
  allows := M.allows
  assumes _ _ := True

variable {M}

theorem May.bind {Q : β → σ → Prop} {p : Prog S α} {f : α → Prog S β} {s : σ}
    (hp : M.May (fun a => M.May Q (f a)) p s) : M.May Q (p >>= f) s := by
  induction p generalizing s with
  | ret a => exact hp
  | op o k ih =>
      obtain ⟨r, hassumed, hr⟩ := hp
      exact ⟨r, hassumed, ih r hr⟩

theorem May.mono {Q Q' : α → σ → Prop} {p : Prog S α} {s : σ} (hp : M.May Q p s)
    (hQ : ∀ a s, Q a s → Q' a s) : M.May Q' p s := by
  induction p generalizing s with
  | ret a => exact hQ a s hp
  | op o k ih =>
      obtain ⟨r, hassumed, hr⟩ := hp
      exact ⟨r, hassumed, ih r hr⟩

theorem May.of_run {τ : Type} {Q : α → σ → Prop} {p : Prog S α} {s : σ} (h : Handler S τ) (w : τ)
    (hassumed : M.Assumed s (eventTrace h p w))
    (hQ : Q (p.run h w).1 (M.after s (eventTrace h p w))) : M.May Q p s := by
  induction p generalizing s w with
  | ret a => exact hQ
  | op o k ih =>
      obtain ⟨hassumes, hrest⟩ := assumed_cons.mp hassumed
      exact ⟨(h o w).1, hassumes, ih _ _ hrest hQ⟩

theorem Violates.bind {p : Prog S α} {f : α → Prog S β} {s : σ}
    (hp : M.May (fun a => M.Violates (f a)) p s) : M.Violates (p >>= f) s := by
  induction p generalizing s with
  | ret a => exact hp
  | op o k ih =>
      obtain ⟨r, hassumed, hr⟩ := hp
      exact ⟨r, hassumed, Or.inr (ih r hr)⟩

theorem Violates.first {p : Prog S α} {f : α → Prog S β} {s : σ} (hp : M.Violates p s) :
    M.Violates (p >>= f) s := by
  induction p generalizing s with
  | ret a => exact hp.elim
  | op o k ih =>
      obtain ⟨r, hassumed, hnow | hlater⟩ := hp
      · exact ⟨r, hassumed, Or.inl hnow⟩
      · exact ⟨r, hassumed, Or.inr (ih r hlater)⟩

theorem Violates.next {p : OptionT (Prog S) α} {f : α → OptionT (Prog S) β} {s : σ}
    (hp : M.May (fun r s' => ∃ a ∈ r, M.Violates (f a).run s') p.run s) :
    M.Violates (p >>= f).run s := by
  refine Violates.bind (hp.mono fun r s' hr => ?_)
  obtain ⟨a, ha, hviolates⟩ := hr
  cases ha
  exact hviolates

theorem Violates.exists_run {p : Prog S α} {s : σ} (hp : M.Violates p s) :
    ∃ t q, Runs p t q ∧ M.Assumed s t ∧ ¬ M.Allowed s t := by
  induction p generalizing s with
  | ret a => exact hp.elim
  | op o k ih =>
      obtain ⟨r, hassumed, hnow | hlater⟩ := hp
      · exact ⟨[⟨o, r⟩], k r, .op o k r [] _ (.refl _), assumed_cons.mpr ⟨hassumed, .nil _⟩,
          fun h => hnow (allowed_cons.mp h).1⟩
      · obtain ⟨t, q, hruns, ht, hviolated⟩ := ih r hlater
        exact ⟨⟨o, r⟩ :: t, q, .op o k r t q hruns, assumed_cons.mpr ⟨hassumed, ht⟩,
          fun h => hviolated (allowed_cons.mp h).2⟩

end Monitor
end Monitoring
