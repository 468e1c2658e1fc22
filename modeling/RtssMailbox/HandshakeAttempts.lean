import RtssMailbox.HandshakeResponses
import RtssMailbox.Library.Monitor

/-!
The attempts of a handshake. What its sends, its reads and its resets return is any
function of what happened before in the call. The control points are left in a few ways,
each with the operations that it takes.
-/
namespace RtssMailbox
open Effects ByteMemory Iteration Monitoring

abbrev HelloTrace := List (Event HelloSig)

/-- The outcomes of the operations of a call. -/
abbrev Outcomes := HelloTrace → (o : HelloSig.Op) → HelloSig.Res o

def sends (t : HelloTrace) : Nat :=
  t.countP fun e =>
    match e.op with
    | .upd (.mbWrite _ _ _) => true
    | _ => false

def reads (t : HelloTrace) : Nat :=
  t.countP fun e =>
    match e.op with
    | .mbReadTimed _ _ _ _ => true
    | _ => false

/-- A message that was sent whole. -/
def sentWhole (handle : RtssMbHandle) (txMsg : Mem) : Event HelloSig :=
  ⟨.upd (.mbWrite handle txMsg sizeofRtssUpdMsgHeader), (sizeofRtssUpdMsgHeader : Int)⟩

/-- A read with the variables of a call. -/
def timedRead (call : PingCall) (v : PingVars) (r : Int × Mem) : Event HelloSig :=
  ⟨.mbReadTimed call.pRxClientData v.rxMsg sizeofRtssUpdMsgHeader v.timeout, r⟩

/-- A received message passes the comparison with the sent one, in a mode that has a
library state. -/
def Matches (call : PingCall) (txMsg rxMsg : Mem) : Prop :=
  comparedTx txMsg = comparedRx rxMsg ∧ (call.mode = .spScall ∨ call.mode = .ev)

/-- The library state after a message that matches. -/
def RtssUpdProgMode.entered (mode : RtssUpdProgMode) (lib : RtssUpdLibHandle) :
    RtssUpdLibHandle :=
  match mode with
  | .spScall => ⟨.ready, .spScall⟩
  | .ev => ⟨.init, .ev⟩
  | .none | .max => lib

/-- How a control point is left: the operations with their outcomes, and what comes next. -/
inductive PingStep (call : PingCall) : PingPoint → HelloTrace →
    PingPoint ⊕ (Bool × RtssUpdLibHandle) → Prop
  | start : PingStep call .start []
      (.inl (.ping ⟨zeroed, zeroed, rtssUpdEvRetryWtTime, 0, 0, call.lib⟩))
  | gaveUp (v : PingVars) (herr : v.pingErrCnt > rtssUpdPingErrCnt) :
      PingStep call (.ping v) [] (.inr (false, v.lib))
  | unsent (v : PingVars) (txMsg : Mem) (q : HelloTrace) (herr : v.pingErrCnt ≤ rtssUpdPingErrCnt)
      (hsends : sends q ≤ 1) (hreads : reads q = 0) :
      PingStep call (.ping v) q (.inl (.ping (v.packed txMsg).failed))
  | sent (v : PingVars) (txMsg : Mem) (handle : RtssMbHandle)
      (herr : v.pingErrCnt ≤ rtssUpdPingErrCnt) (hhello : IsHello txMsg)
      (hhandle : call.pTxClientData = some handle) :
      PingStep call (.ping v) [sentWhole handle txMsg] (.inl (.recovery (v.packed txMsg)))
  | unread (v : PingVars) (r : Int × Mem) (ret : Int) (hbad : r.1 ≠ sizeofRtssUpdMsgHeader) :
      PingStep call (.recovery v)
        [timedRead call v r, ⟨.chanReset call.pRxClientData, ret⟩]
        (.inl (.ping { v with rxMsg := r.2 }.failed))
  | mismatch (v : PingVars) (r : Int × Mem) (txMsg : Mem) (hwhole : r.1 = sizeofRtssUpdMsgHeader)
      (hother : ¬ Matches call v.txMsg r.2) (hhello : IsHello txMsg)
      (herr : v.pingErrCnt + 1 ≤ rtssUpdPingErrCnt) :
      PingStep call (.recovery v) [timedRead call v r]
        (.inl (.recovery { v.failed with txMsg := txMsg, rxMsg := rtssUpdPingRxMsgPack }))
  | lastMismatch (v : PingVars) (r : Int × Mem) (hwhole : r.1 = sizeofRtssUpdMsgHeader)
      (hother : ¬ Matches call v.txMsg r.2) (herr : v.pingErrCnt + 1 > rtssUpdPingErrCnt) :
      PingStep call (.recovery v) [timedRead call v r] (.inr (false, v.lib))
  | matched (v : PingVars) (r : Int × Mem) (hwhole : r.1 = sizeofRtssUpdMsgHeader)
      (hmatches : Matches call v.txMsg r.2) (hcount : v.pingRetryCnt < rtssUpdPingRetryCnt) :
      PingStep call (.recovery v) [timedRead call v r]
        (.inl (.ping { v with
          rxMsg := r.2
          lib := call.mode.entered v.lib
          timeout := rtssUpdEvWtTime }))
  | done (v : PingVars) (r : Int × Mem) (hwhole : r.1 = sizeofRtssUpdMsgHeader)
      (hmatches : Matches call v.txMsg r.2) (hcount : ¬ v.pingRetryCnt < rtssUpdPingRetryCnt) :
      PingStep call (.recovery v) [timedRead call v r] (.inr (true, call.mode.entered v.lib))

/-- The last `n` exchanges of a call: a HELLO that is sent whole, and a first read after it
that returns the response. -/
inductive Rounds (call : PingCall) : Nat → HelloTrace → Prop
  | zero (t : HelloTrace) : Rounds call 0 t
  | succ (n : Nat) (t : HelloTrace) (handle : RtssMbHandle) (v : PingVars) (r : Int × Mem)
      (hrounds : Rounds call n t) (hhandle : call.pTxClientData = some handle)
      (hhello : IsHello v.txMsg) (hwhole : r.1 = sizeofRtssUpdMsgHeader)
      (hmatches : Matches call v.txMsg r.2) :
      Rounds call (n + 1) (t ++ [sentWhole handle v.txMsg, timedRead call v r])

theorem sends_append (t u : HelloTrace) : sends (t ++ u) = sends t + sends u :=
  List.countP_append

theorem reads_append (t u : HelloTrace) : reads (t ++ u) = reads t + reads u :=
  List.countP_append

section Steps
variable {call : PingCall} {outcome : Outcomes}

theorem verifyHandshake_eq (lib : RtssUpdLibHandle) (txMsg rxMsg : Mem) :
    (Matches call txMsg rxMsg → rtssUpdVerifyHandshake lib call.mode txMsg rxMsg =
      (rtssUpdEOk, call.mode.entered lib)) ∧
    (¬ Matches call txMsg rxMsg → rtssUpdVerifyHandshake lib call.mode txMsg rxMsg =
      (rtssUpdEErr, lib)) := by
  by_cases hsame : comparedTx txMsg = comparedRx rxMsg
  · cases hmode : call.mode <;>
      simp [Matches, rtssUpdVerifyHandshake, RtssUpdProgMode.entered, hsame, hmode]
  · simp [Matches, rtssUpdVerifyHandshake, hsame]

theorem pingSend_step (v : PingVars) (t : HelloTrace) :
    Records outcome (PingStep call (.ping v)) (pingSend call v) t := by
  by_cases herr : v.pingErrCnt > rtssUpdPingErrCnt
  · rw [pingSend, if_pos herr]
    exact .ret (.gaveUp v herr)
  obtain ⟨txMsg, hpack⟩ := Option.isSome_iff_exists.mp rtssUpdPingTxMsgPack_isSome
  have hsmall : v.pingErrCnt ≤ rtssUpdPingErrCnt := Nat.not_lt.mp herr
  cases hhandle : call.pTxClientData with
  | none =>
      rw [pingSend, if_neg herr]
      simp only [hpack, hhandle]
      exact .op fun _ => .op fun _ => .ret (.unsent v txMsg _ hsmall (Nat.zero_le 1) rfl)
  | some handle =>
      rw [pingSend_eq hpack hhandle herr]
      refine .op fun (ret : Int) => .guard (fun _ => ?_) fun hgood => ?_
      · exact .op fun _ => .op fun _ => .ret (.unsent v txMsg _ hsmall (Nat.le_refl 1) rfl)
      · obtain ⟨-, hwhole⟩ := not_or.mp hgood
        obtain rfl : ret = sizeofRtssUpdMsgHeader := not_not.mp hwhole
        exact .ret (.sent v txMsg handle hsmall (comparedTx_pack hpack) hhandle)

theorem pingReceived_step (v : PingVars) (r : Int × Mem) (t : HelloTrace) :
    Records outcome (fun q => PingStep call (.recovery v) (timedRead call v r :: q))
      (pingReceived call v r.1 r.2) t := by
  obtain ⟨hmatch, hother⟩ := @verifyHandshake_eq call v.lib v.txMsg r.2
  by_cases hbad : r.1 ≤ 0 ∨ r.1 ≠ sizeofRtssUpdMsgHeader
  · simp only [pingReceived, if_pos hbad]
    refine .op fun (ret : Int) => .ret (.unread v r ret ?_)
    rintro hwhole
    rw [hwhole] at hbad
    exact absurd hbad (by decide)
  obtain ⟨-, hwhole⟩ := not_or.mp hbad
  replace hwhole : r.1 = sizeofRtssUpdMsgHeader := not_not.mp hwhole
  simp only [pingReceived, if_neg hbad]
  by_cases hmatches : Matches call v.txMsg r.2
  · simp only [hmatch hmatches]
    refine .guard (fun hne => absurd rfl hne) fun _ => .guard (fun hcount => ?_) fun hcount => ?_
    · exact .ret (.matched v r hwhole hmatches hcount)
    · exact .ret (.done v r hwhole hmatches hcount)
  · obtain ⟨txMsg, hpack⟩ := Option.isSome_iff_exists.mp rtssUpdPingTxMsgPack_isSome
    simp only [hother hmatches, hpack]
    refine .guard (fun _ => .guard (fun herr => ?_) fun herr => ?_) fun hok => absurd ?_ hok
    · exact .ret (.lastMismatch v r hwhole hmatches herr)
    · exact .ret (.mismatch v r txMsg hwhole hmatches (comparedTx_pack hpack)
        (Nat.not_lt.mp herr))
    · decide

theorem pingRecover_step (v : PingVars) (t : HelloTrace) :
    Records outcome (PingStep call (.recovery v)) (pingRecover call v) t :=
  .op fun r => pingReceived_step v r _

/-- Every control point is left in one of the ways. -/
theorem helloPing_step (call : PingCall) (outcome : Outcomes) (a : PingPoint) (t : HelloTrace) :
    Records outcome (PingStep call a) (rtssUpdHelloPing.body call a) t := by
  cases a with
  | start => exact .ret .start
  | ping v => exact pingSend_step v t
  | recovery v => exact pingRecover_step v t

end Steps

/-- What is counted at the control points. The counter of the successes is the number of the
last exchanges that nothing went wrong in; before the read it counts the HELLO that was just
sent, and it is zero when the read follows a mismatch. -/
def PingPoint.Tally (call : PingCall) : PingPoint → HelloTrace → Prop
  | .start, t => t = []
  | .ping v, t =>
      (v.pingErrCnt ≤ rtssUpdPingErrCnt ∨
        v.pingErrCnt = rtssUpdPingErrCnt + 1 ∧ v.pingRetryCnt = 0) ∧
      v.pingRetryCnt < rtssUpdPingRetryCnt ∧
      sends t ≤ 3 * v.pingErrCnt + v.pingRetryCnt ∧
      reads t ≤ 4 * v.pingErrCnt + v.pingRetryCnt ∧
      Rounds call v.pingRetryCnt t
  | .recovery v, t =>
      v.pingErrCnt ≤ rtssUpdPingErrCnt ∧ v.pingRetryCnt ≤ rtssUpdPingRetryCnt ∧
      sends t ≤ 3 * v.pingErrCnt + v.pingRetryCnt ∧
      reads t + 1 ≤ 4 * v.pingErrCnt + v.pingRetryCnt ∧
      (v.pingRetryCnt = 0 ∨ ∃ n past handle, v.pingRetryCnt = n + 1 ∧ Rounds call n past ∧
        call.pTxClientData = some handle ∧ IsHello v.txMsg ∧
        t = past ++ [sentWhole handle v.txMsg])

/-- What is left to try, which an error takes more of than a success can. -/
def PingPoint.remaining : PingPoint → Nat
  | .start => 100
  | .ping v => 8 * (rtssUpdPingErrCnt + 1 - v.pingErrCnt) +
      2 * (rtssUpdPingRetryCnt - v.pingRetryCnt)
  | .recovery v => 8 * (rtssUpdPingErrCnt + 1 - v.pingErrCnt) +
      2 * (rtssUpdPingRetryCnt - v.pingRetryCnt) + 1

/-- The bounds of a call, and what its success means. -/
def TallyAtEnd (call : PingCall) (r : Bool × RtssUpdLibHandle) (t : HelloTrace) : Prop :=
  sends t ≤ 33 ∧ reads t ≤ 44 ∧ (r.1 = true → Rounds call 3 t)

section Tallies
variable {call : PingCall} {t q : HelloTrace} {a : PingPoint}
  {next : PingPoint ⊕ (Bool × RtssUpdLibHandle)}

theorem Rounds.read {v : PingVars} {r : Int × Mem} (hwhole : r.1 = sizeofRtssUpdMsgHeader)
    (hmatches : Matches call v.txMsg r.2) (h : PingPoint.Tally call (.recovery v) t) :
    Rounds call v.pingRetryCnt (t ++ [timedRead call v r]) := by
  obtain ⟨-, -, -, -, hzero | ⟨n, past, handle, hn, hrounds, hhandle, hhello, rfl⟩⟩ := h
  · rw [hzero]
    exact .zero _
  · rw [hn, List.append_assoc]
    exact .succ n past handle v r hrounds hhandle hhello hwhole hmatches

theorem sends_sentWhole (handle : RtssMbHandle) (txMsg : Mem) :
    sends (t ++ [sentWhole handle txMsg]) = sends t + 1 := sends_append t _

theorem reads_sentWhole (handle : RtssMbHandle) (txMsg : Mem) :
    reads (t ++ [sentWhole handle txMsg]) = reads t := reads_append t _

theorem sends_timedRead (v : PingVars) (r : Int × Mem) :
    sends (t ++ [timedRead call v r]) = sends t := sends_append t _

theorem reads_timedRead (v : PingVars) (r : Int × Mem) :
    reads (t ++ [timedRead call v r]) = reads t + 1 := reads_append t _

theorem errors_failed {n : Nat} (h : n ≤ rtssUpdPingErrCnt) :
    n + 1 ≤ rtssUpdPingErrCnt ∨ n + 1 = rtssUpdPingErrCnt + 1 ∧ 0 = 0 := by
  rcases Nat.lt_or_eq_of_le h with hlt | rfl
  · exact .inl hlt
  · exact .inr ⟨rfl, rfl⟩

theorem PingStep.tally (hstep : PingStep call a q next) (h : a.Tally call t) :
    Sum.elim (fun a' => a'.Tally call (t ++ q) ∧ a'.remaining < a.remaining)
      (TallyAtEnd call · (t ++ q)) next := by
  cases hstep with
  | start =>
      cases h
      refine ⟨⟨.inl (Nat.zero_le _), Nat.zero_lt_succ 2, Nat.le_refl 0, Nat.le_refl 0, .zero _⟩, ?_⟩
      simp only [PingPoint.remaining, rtssUpdPingErrCnt, rtssUpdPingRetryCnt]
      omega
  | gaveUp v herr =>
      obtain ⟨hcount, -, hsends, hreads, -⟩ := h
      rw [List.append_nil]
      simp only [rtssUpdPingErrCnt] at hcount herr
      exact ⟨by omega, by omega, nofun⟩
  | unsent v txMsg q herr hq hq' =>
      obtain ⟨-, hretry, hsends, hreads, -⟩ := h
      have hfailed := errors_failed herr
      simp only [rtssUpdPingErrCnt, rtssUpdPingRetryCnt] at herr hretry
      refine ⟨⟨hfailed, Nat.zero_lt_succ 2, ?_, ?_, .zero _⟩, ?_⟩
      · simp only [sends_append, PingVars.failed, PingVars.packed]
        omega
      · simp only [reads_append, PingVars.failed, PingVars.packed]
        omega
      · simp only [PingPoint.remaining, PingVars.failed, PingVars.packed, rtssUpdPingErrCnt,
          rtssUpdPingRetryCnt]
        omega
  | sent v txMsg handle herr hhello hhandle =>
      obtain ⟨-, hretry, hsends, hreads, hrounds⟩ := h
      refine ⟨⟨herr, hretry, ?_, ?_, .inr ⟨_, t, handle, rfl, hrounds, hhandle, hhello, rfl⟩⟩, ?_⟩
      · rw [sends_sentWhole]
        exact Nat.succ_le_succ hsends
      · rw [reads_sentWhole]
        exact Nat.succ_le_succ hreads
      · simp only [PingPoint.remaining, PingVars.packed]
        omega
  | unread v r ret hbad =>
      obtain ⟨herr, hretry, hsends, hreads, -⟩ := h
      have hfailed := errors_failed herr
      simp only [rtssUpdPingErrCnt, rtssUpdPingRetryCnt] at herr hretry
      have hq : sends (t ++ [timedRead call v r, ⟨.chanReset call.pRxClientData, ret⟩]) = sends t :=
        sends_append t _
      have hq' : reads (t ++ [timedRead call v r, ⟨.chanReset call.pRxClientData, ret⟩]) =
        reads t + 1 := reads_append t _
      refine ⟨⟨hfailed, Nat.zero_lt_succ 2, ?_, ?_, .zero _⟩, ?_⟩
      · simp only [hq, PingVars.failed]
        omega
      · simp only [hq', PingVars.failed]
        omega
      · simp only [PingPoint.remaining, PingVars.failed, rtssUpdPingErrCnt, rtssUpdPingRetryCnt]
        omega
  | mismatch v r txMsg hwhole hother hhello herr =>
      obtain ⟨-, hretry, hsends, hreads, -⟩ := h
      simp only [rtssUpdPingErrCnt, rtssUpdPingRetryCnt] at herr hretry
      refine ⟨⟨herr, Nat.zero_le _, ?_, ?_, .inl rfl⟩, ?_⟩
      · simp only [sends_timedRead, PingVars.failed]
        omega
      · simp only [reads_timedRead, PingVars.failed]
        omega
      · simp only [PingPoint.remaining, PingVars.failed, rtssUpdPingErrCnt, rtssUpdPingRetryCnt]
        omega
  | lastMismatch v r hwhole hother herr =>
      obtain ⟨herr', hretry, hsends, hreads, -⟩ := h
      simp only [rtssUpdPingErrCnt, rtssUpdPingRetryCnt] at herr' hretry
      refine ⟨?_, ?_, nofun⟩
      · rw [sends_timedRead]
        omega
      · rw [reads_timedRead]
        omega
  | matched v r hwhole hmatches hcount =>
      have hrounds := Rounds.read hwhole hmatches h
      obtain ⟨herr, hretry, hsends, hreads, -⟩ := h
      refine ⟨⟨.inl herr, hcount, ?_, ?_, hrounds⟩, Nat.lt_succ_self _⟩
      · rw [sends_timedRead]
        exact hsends
      · rw [reads_timedRead]
        exact hreads
  | done v r hwhole hmatches hcount =>
      have hrounds := Rounds.read hwhole hmatches h
      obtain ⟨herr, hretry, hsends, hreads, -⟩ := h
      simp only [rtssUpdPingErrCnt, rtssUpdPingRetryCnt] at herr hretry hcount
      refine ⟨?_, ?_, fun _ => ?_⟩
      · rw [sends_timedRead]
        omega
      · rw [reads_timedRead]
        omega
      · rwa [Nat.le_antisymm hretry (Nat.not_lt.mp hcount)] at hrounds

theorem helloPing_tally (call : PingCall) (outcome : Outcomes) (a : PingPoint) (t : HelloTrace)
    (h : a.Tally call t) :
    Sum.elim (fun a' t' => a'.Tally call t' ∧ a'.remaining < a.remaining) (TallyAtEnd call)
      ((rtssUpdHelloPing.body call a).run (recorded outcome) t).1
      ((rtssUpdHelloPing.body call a).run (recorded outcome) t).2 := by
  obtain ⟨q, next, hrun, hstep⟩ := helloPing_step call outcome a t
  rw [hrun]
  have hnext := hstep.tally h
  cases next with
  | inl a' => exact hnext
  | inr r => exact hnext

end Tallies

/-- A call of the handshake completes whatever its sends, reads and resets return, with at
most 33 sends and 44 reads. If it succeeds its last operations are three exchanges, each a
HELLO and its response. -/
theorem hello_attempts (call : PingCall) (outcome : Outcomes) :
    (∃ r, Completes (recorded outcome) (rtssUpdHelloPing.body call) rtssUpdHelloPing.start [] r) ∧
    ∀ r, Completes (recorded outcome) (rtssUpdHelloPing.body call) rtssUpdHelloPing.start [] r →
      sends r.2 ≤ 33 ∧ reads r.2 ≤ 44 ∧ (r.1.1 = true → Rounds call 3 r.2) := by
  have hbody := helloPing_tally call outcome
  have hpoint : ∀ a t, PingPoint.Tally call a t →
      Sum.elim (PingPoint.Tally call) (TallyAtEnd call)
        ((rtssUpdHelloPing.body call a).run (recorded outcome) t).1
        ((rtssUpdHelloPing.body call a).run (recorded outcome) t).2 := by
    intro a t h
    have hnext := hbody a t h
    revert hnext
    cases ((rtssUpdHelloPing.body call a).run (recorded outcome) t).1 with
    | inl a' => exact And.left
    | inr r => exact id
  exact ⟨completes_of_measure PingPoint.remaining hbody rfl, fun r hcall => hcall.holds hpoint rfl⟩

end RtssMailbox
