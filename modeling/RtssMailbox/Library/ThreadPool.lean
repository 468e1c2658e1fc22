import Mathlib.Logic.Function.Basic
import RtssMailbox.Library.RelyGuarantee
import RtssMailbox.Library.Monitor

/-!
Any number of threads over one state, one operation at a time. Where an invariant of
the state alone tells what an operation answers, each call is verified once against a
monitor, and no thread's proof mentions another thread.
-/
namespace RelyGuarantee
open Effects Relation Monitoring

section Pool
variable {S : Signature} {σ ν ι : Type} (h : Handler S σ) (note : S.Op → List ν)

structure Pool (ν : Type) (c : ι → Client S σ) where
  threads : (i : ι) → Thread ν (c i)
  state : σ

variable [DecidableEq ι] {c : ι → Client S σ}

/-- One operation of any thread. -/
inductive Pool.Step : Pool ν c → Pool ν c → Prop
  | thread (x : Pool ν c) (i : ι) {t : Thread ν (c i)} {s : σ}
      (hstep : ThreadStep h note (c i) (x.threads i) x.state t s) :
      Pool.Step x ⟨Function.update x.threads i t, s⟩

/-- The next operation of a thread, which is none between two calls. -/
def Pool.turn (x : Pool ν c) (i : ι) : Pool ν c :=
  match x.threads i with
  | .idle => x
  | .busy call past o k =>
      let next := (c i).enter call (past ++ note o) (k (h o x.state).1) (h o x.state).2
      ⟨Function.update x.threads i next.1, next.2⟩

/-- What any number of steps reaches from idle threads. -/
def Pool.Reachable (s : σ) : Pool ν c → Prop :=
  ReflTransGen (Pool.Step h note) ⟨fun _ => .idle, s⟩

variable {h note} in
/-- What threads in calls reach by turns, in any order of these. -/
theorem Pool.Reachable.turns {s₀ : σ} {x : Pool ν c} (hx : Pool.Reachable h note s₀ x)
    (order : List ι) : Pool.Reachable h note s₀ (order.foldl (Pool.turn h note) x) := by
  induction order generalizing x with
  | nil => exact hx
  | cons i order ih =>
      refine ih ?_
      rw [Pool.turn]
      split
      · exact hx
      · rename_i call past o k hbusy
        refine hx.tail (.thread x i ?_)
        rw [hbusy]
        exact .op call past o k x.state

/-- The rest of a thread's call is allowed by the monitor of that call. -/
def Thread.Monitored {c : Client S σ} (M : c.Call → Monitor S Unit) : Thread ν c → Prop
  | .idle => True
  | .busy call _ o k => (M call).Keeps (fun _ _ => True) (.op o k) ()

/-- The next operation of a thread is one of the kind that belongs to its call. -/
def Thread.Next {c : Client S σ} (C : c.Call → S.Op → Prop) : Thread ν c → Prop
  | .idle => True
  | .busy call _ o _ => C call o

theorem Thread.Monitored.next {c : Client S σ} {M : c.Call → Monitor S Unit} {t : Thread ν c}
    (ht : t.Monitored M) : t.Next fun call o => (M call).allows () o := by
  cases t with
  | idle => trivial
  | busy call past o k => exact ht.1

variable {h note}

/-- One step of a monitored thread keeps the invariant and leaves a monitored thread. -/
theorem ThreadStep.monitored {c : Client S σ} {M : c.Call → Monitor S Unit} {Inv : σ → Prop}
    (hop : ∀ call o s, Inv s → (M call).allows () o →
      (M call).assumes () ⟨o, (h o s).1⟩ ∧ Inv (h o s).2)
    (hfinish : ∀ call a s, Inv s → Inv (c.finish call a s))
    (hcalls : ∀ call, (M call).Keeps (fun _ _ => True) (c.prog call) ())
    {t t' : Thread ν c} {s s' : σ} (hs : Inv s) (ht : t.Monitored M)
    (hstep : ThreadStep h note c t s t' s') : Inv s' ∧ t'.Monitored M := by
  have henter : ∀ (call : c.Call) (past : List ν) (p : Prog S c.Res) (s : σ), Inv s →
      (M call).Keeps (fun _ _ => True) p () →
      Inv (c.enter call past p s).2 ∧ (c.enter call past p s).1.Monitored M := by
    intro call past p s hs hp
    cases p with
    | ret a => exact ⟨hfinish call a s hs, trivial⟩
    | op o k => exact ⟨hs, hp⟩
  cases hstep with
  | start call => exact henter call [] (c.prog call) s hs (hcalls call)
  | op call past o k =>
      obtain ⟨hanswer, hinv⟩ := hop call o s hs ht.1
      exact henter call (past ++ note o) (k (h o s).1) _ hinv (ht.2 _ hanswer)

/-- In every reachable state the invariant holds and every thread's next operation is
one that the monitor of its call allows. -/
theorem Pool.Reachable.safe {M : (i : ι) → (c i).Call → Monitor S Unit} {Inv : σ → Prop}
    (hop : ∀ i call o s, Inv s → (M i call).allows () o →
      (M i call).assumes () ⟨o, (h o s).1⟩ ∧ Inv (h o s).2)
    (hfinish : ∀ i call a s, Inv s → Inv ((c i).finish call a s))
    (hcalls : ∀ i call, (M i call).Keeps (fun _ _ => True) ((c i).prog call) ()) {s : σ}
    (hs : Inv s) {x : Pool ν c} (hx : Pool.Reachable h note s x) :
    Inv x.state ∧ ∀ i, (x.threads i).Next fun call o => (M i call).allows () o := by
  suffices hall : Inv x.state ∧ ∀ i, (x.threads i).Monitored (M i) from
    ⟨hall.1, fun i => (hall.2 i).next⟩
  induction hx with
  | refl => exact ⟨hs, fun _ => trivial⟩
  | tail _ hstep ih =>
      obtain ⟨hinv, hthreads⟩ := ih
      cases hstep with
      | thread i hstep =>
          obtain ⟨hinv', ht⟩ :=
            hstep.monitored (hop i) (hfinish i) (hcalls i) hinv (hthreads i)
          refine ⟨hinv', fun j => ?_⟩
          by_cases hj : j = i
          · subst hj
            simp only [Function.update_self]
            exact ht
          · simp only [Function.update_of_ne hj]
            exact hthreads j

end Pool
end RelyGuarantee
