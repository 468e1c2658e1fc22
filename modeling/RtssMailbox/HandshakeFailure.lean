import RtssMailbox.HandshakeAttempts

/-!
What a failed handshake leaves behind. The library state is changed with each response that
matches, and a call of the library runs the handshake only in the first state.
-/
namespace RtssMailbox
open Effects ByteMemory Iteration Monitoring

def rtssUpdIsReady : Calls HelloSig PingCall PingPoint (Bool × RtssUpdLibHandle) where
  start := rtssUpdHelloPing.start
  body call
    | .start =>
        if call.lib.libstate ≠ .deinit then pure (.inr (false, call.lib))
        else rtssUpdHelloPing.body call .start
    | .ping v => rtssUpdHelloPing.body call (.ping v)
    | .recovery v => rtssUpdHelloPing.body call (.recovery v)

/-- The operations of a call and their outcomes, and its result. -/
abbrev IsReady (call : PingCall) (outcome : Outcomes)
    (r : (Bool × RtssUpdLibHandle) × HelloTrace) : Prop :=
  Completes (recorded outcome) (rtssUpdIsReady.body call) rtssUpdIsReady.start [] r

/-- A mode that has a library state. -/
def RtssUpdProgMode.HasState (mode : RtssUpdProgMode) : Prop := mode = .spScall ∨ mode = .ev

/-- A read that returned a response to the HELLO. -/
def Answered : Event HelloSig → Prop
  | ⟨.mbReadTimed _ _ _ _, r⟩ =>
      Prod.fst (α := Int) (β := Mem) r = sizeofRtssUpdMsgHeader ∧
        IsHelloResponse (Prod.snd (α := Int) (β := Mem) r)
  | _ => False

/-- A call in this library state succeeds if its HELLOs are answered. -/
def CanSucceed (lib : RtssUpdLibHandle) : Prop :=
  ∀ later : PingCall, later.lib = lib → later.mode.HasState → later.pTxClientData ≠ none →
    ∃ outcome r, IsReady later outcome r ∧ r.1.1 = true

/-- The library state after the operations of a call so far. -/
def EnteredBy (call : PingCall) (t : HelloTrace) (lib : RtssUpdLibHandle) : Prop :=
  (call.mode.HasState ∧ (∃ e ∈ t, Answered e) → lib = call.mode.entered call.lib) ∧
  (¬ (call.mode.HasState ∧ ∃ e ∈ t, Answered e) → lib = call.lib)

def PingPoint.Entered (call : PingCall) : PingPoint → HelloTrace → Prop
  | .start, t => t = []
  | .ping v, t => EnteredBy call t v.lib
  | .recovery v, t => IsHello v.txMsg ∧ EnteredBy call t v.lib

section States
variable {call : PingCall} {t q : HelloTrace} {lib : RtssUpdLibHandle}

theorem not_answered_of_reads (hq : reads q = 0) : ∀ e ∈ q, ¬ Answered e := by
  intro e he hanswered
  have hread := List.countP_eq_zero.mp hq e he
  obtain ⟨o, r⟩ := e
  cases o with
  | upd o => exact hanswered
  | chanReset handle => exact hanswered
  | mbReadTimed handle buf sz ms => exact hread rfl

/-- The library state stays as it is while no response comes. -/
theorem EnteredBy.append (h : EnteredBy call t lib)
    (hq : call.mode.HasState → ∀ e ∈ q, ¬ Answered e) : EnteredBy call (t ++ q) lib := by
  have hsame : (call.mode.HasState ∧ ∃ e ∈ t ++ q, Answered e) ↔
      call.mode.HasState ∧ ∃ e ∈ t, Answered e := by
    refine and_congr_right fun hmode => ⟨?_, ?_⟩
    · rintro ⟨e, he, hanswered⟩
      rcases List.mem_append.mp he with he | he
      · exact ⟨e, he, hanswered⟩
      · exact absurd hanswered (hq hmode e he)
    · rintro ⟨e, he, hanswered⟩
      exact ⟨e, List.mem_append_left q he, hanswered⟩
  rw [EnteredBy, hsame]
  exact h

theorem entered_entered (mode : RtssUpdProgMode) (lib lib' : RtssUpdLibHandle)
    (hmode : mode.HasState) : mode.entered lib = mode.entered lib' := by
  obtain rfl | rfl := hmode
  · rfl
  · rfl

theorem entered_libstate (mode : RtssUpdProgMode) (lib : RtssUpdLibHandle)
    (hmode : mode.HasState) : (mode.entered lib).libstate ≠ .deinit := by
  obtain rfl | rfl := hmode
  · exact nofun
  · exact nofun

theorem EnteredBy.matched {v : PingVars} {r : Int × Mem} (hhello : IsHello v.txMsg)
    (hwhole : r.1 = sizeofRtssUpdMsgHeader) (hmatches : Matches call v.txMsg r.2) :
    EnteredBy call (t ++ [timedRead call v r]) (call.mode.entered v.lib) := by
  obtain ⟨hsame, hmode⟩ := hmatches
  have hanswered : ∃ e ∈ t ++ [timedRead call v r], Answered e :=
    ⟨_, List.mem_append_right t (List.mem_singleton_self _), hwhole, hsame.symm.trans hhello⟩
  exact ⟨fun _ => entered_entered _ _ _ hmode, fun hnone => absurd ⟨hmode, hanswered⟩ hnone⟩

theorem not_answered_of_mismatch {v : PingVars} {r : Int × Mem} (hhello : IsHello v.txMsg)
    (hother : ¬ Matches call v.txMsg r.2) (hmode : call.mode.HasState) :
    ∀ e ∈ [timedRead call v r], ¬ Answered e := by
  intro e he hanswered
  cases List.mem_singleton.mp he
  exact hother ⟨hhello.trans hanswered.2.symm, hmode⟩

theorem PingStep.entered {a : PingPoint} {next : PingPoint ⊕ (Bool × RtssUpdLibHandle)}
    (hstep : PingStep call a q next) (h : a.Entered call t) :
    Sum.elim (fun a' => a'.Entered call (t ++ q)) (fun r => EnteredBy call (t ++ q) r.2) next := by
  cases hstep with
  | start =>
      cases h
      exact ⟨fun ⟨_, e, he, _⟩ => absurd he List.not_mem_nil, fun _ => rfl⟩
  | gaveUp v herr => exact EnteredBy.append h fun _ => nofun
  | unsent v txMsg q herr hsends hreads =>
      exact EnteredBy.append h fun _ => not_answered_of_reads hreads
  | sent v txMsg handle herr hhello hhandle =>
      exact ⟨hhello, EnteredBy.append h fun _ => not_answered_of_reads rfl⟩
  | unread v r ret hbad =>
      refine EnteredBy.append h.2 fun _ e he hanswered => ?_
      rcases List.mem_cons.mp he with rfl | he
      · exact hbad hanswered.1
      · cases List.mem_singleton.mp he
        exact hanswered
  | mismatch v r txMsg hwhole hother hhello herr =>
      exact ⟨hhello, h.2.append (not_answered_of_mismatch h.1 hother)⟩
  | lastMismatch v r hwhole hother herr => exact h.2.append (not_answered_of_mismatch h.1 hother)
  | matched v r hwhole hmatches hcount => exact EnteredBy.matched h.1 hwhole hmatches
  | done v r hwhole hmatches hcount => exact EnteredBy.matched h.1 hwhole hmatches

theorem isReady_body (hlib : call.lib.libstate = .deinit) :
    rtssUpdIsReady.body call = rtssUpdHelloPing.body call := by
  funext a
  cases a with
  | start => exact if_neg (not_not_intro hlib)
  | ping v => rfl
  | recovery v => rfl

/-- The library state at the end of a call. -/
theorem isReady_entered {outcome : Outcomes} {r : (Bool × RtssUpdLibHandle) × HelloTrace}
    (hlib : call.lib.libstate = .deinit) (hcall : IsReady call outcome r) :
    EnteredBy call r.2 r.1.2 := by
  rw [IsReady, isReady_body hlib] at hcall
  have hbody : ∀ a t, PingPoint.Entered call a t →
      Sum.elim (PingPoint.Entered call) (fun r t => EnteredBy call t r.2)
        ((rtssUpdHelloPing.body call a).run (recorded outcome) t).1
        ((rtssUpdHelloPing.body call a).run (recorded outcome) t).2 := by
    intro a t h
    obtain ⟨q, next, hrun, hstep⟩ := helloPing_step call outcome a t
    rw [hrun]
    have hnext := hstep.entered h
    cases next with
    | inl a' => exact hnext
    | inr r => exact hnext
  exact hcall.holds hbody rfl

end States

instance : (o : UpdOp) → Inhabited (UpdSig.Res o)
  | .mbWrite _ _ _ | .open _ => ⟨(-1 : Int)⟩
  | .mbRead _ buf _ => ⟨((-1 : Int), buf)⟩
  | .otaLoad _ _ => ⟨fun _ => 0⟩
  | .cfgfileRead _ | .stat _ | .pread _ _ => ⟨none⟩
  | .fread _ => ⟨[], Nat.zero_le _⟩
  | .access _ | .fopen _ | .calloc _ => ⟨false⟩
  | .ftell => ⟨((0 : Nat), (-1 : Int))⟩
  | .otaStore _ _ | .close _ | .free | .fclose | .reboot => ⟨()⟩

/-- A peer that answers as long as it is there, and is gone otherwise. -/
def peerOutcomes (there : HelloTrace → Bool) : Outcomes
  | t, .upd (.mbWrite _ _ sz) => if there t then (sz : Int) else (-1 : Int)
  | t, .mbReadTimed _ buf sz _ =>
      if there t then ((sz : Int), sampleHelloResponse) else (-etimedout, buf)
  | _, .chanReset _ => rtssMbReturnSuccess
  | _, .upd o => (default : UpdSig.Res o)

section Peer
variable (call : PingCall) {there : HelloTrace → Bool} {v : PingVars} {t : HelloTrace}
  {handle : RtssMbHandle}

theorem pingSend_there (hthere : there t = true) (hhandle : call.pTxClientData = some handle)
    (herr : v.pingErrCnt ≤ rtssUpdPingErrCnt) :
    (pingSend call v).run (recorded (peerOutcomes there)) t =
      (.inl (.recovery (v.packed sampleHello)), t ++ [sentWhole handle sampleHello]) := by
  have hwrite : peerOutcomes there t (.upd (.mbWrite handle sampleHello sizeofRtssUpdMsgHeader)) =
      (sizeofRtssUpdMsgHeader : Int) := if_pos hthere
  rw [pingSend_eq sampleHello_pack hhandle (Nat.not_lt.mpr herr)]
  exact run_recorded (S := HelloSig) hwrite

theorem pingSend_gone (hgone : there t = false) (hhandle : call.pTxClientData = some handle)
    (herr : v.pingErrCnt ≤ rtssUpdPingErrCnt) :
    ∃ q, (pingSend call v).run (recorded (peerOutcomes there)) t =
      (.inl (.ping (v.packed sampleHello).failed), t ++ q) := by
  have hwrite : peerOutcomes there t (.upd (.mbWrite handle sampleHello sizeofRtssUpdMsgHeader)) =
      (-1 : Int) := if_neg (by rw [hgone]; decide)
  have hreset : Records (peerOutcomes there)
      (fun _ next => next = .inl (.ping (v.packed sampleHello).failed))
      (Hello.chanReset call.pTxClientData >>= fun _ =>
        Hello.chanReset call.pRxClientData >>= fun _ =>
        Prog.ret (S := HelloSig) (α := PingPoint ⊕ (Bool × RtssUpdLibHandle))
          (.inl (.ping (v.packed sampleHello).failed)))
      (t ++ [⟨.upd (.mbWrite handle sampleHello sizeofRtssUpdMsgHeader), (-1 : Int)⟩]) :=
    .op fun _ => .op fun _ => .ret rfl
  obtain ⟨q, next, hrun, rfl⟩ := hreset
  rw [List.append_assoc] at hrun
  rw [pingSend_eq sampleHello_pack hhandle (Nat.not_lt.mpr herr)]
  exact ⟨_, (run_recorded (S := HelloSig) hwrite).trans hrun⟩

theorem pingRecover_there (hthere : there t = true) (hhello : IsHello v.txMsg)
    (hmode : call.mode.HasState) :
    (pingRecover call v).run (recorded (peerOutcomes there)) t =
      (if v.pingRetryCnt < rtssUpdPingRetryCnt then
        .inl (.ping { v with
          rxMsg := sampleHelloResponse
          lib := call.mode.entered v.lib
          timeout := rtssUpdEvWtTime })
      else .inr (true, call.mode.entered v.lib),
      t ++ [timedRead call v ((sizeofRtssUpdMsgHeader : Int), sampleHelloResponse)]) := by
  have hread : peerOutcomes there t
      (.mbReadTimed call.pRxClientData v.rxMsg sizeofRtssUpdMsgHeader v.timeout) =
      ((sizeofRtssUpdMsgHeader : Int), sampleHelloResponse) := if_pos hthere
  have hmatches : Matches call v.txMsg sampleHelloResponse :=
    ⟨hhello.trans sampleHelloResponse_isResponse.symm, hmode⟩
  refine (run_recorded (S := HelloSig) hread).trans ?_
  change (pingReceived call v (sizeofRtssUpdMsgHeader : Int) sampleHelloResponse).run _ _ = _
  obtain ⟨hverified, -⟩ := @verifyHandshake_eq call v.lib v.txMsg sampleHelloResponse
  simp only [pingReceived, hverified hmatches, ne_eq, not_true_eq_false, if_false]
  by_cases hcount : v.pingRetryCnt < rtssUpdPingRetryCnt
  · simp only [if_pos hcount]
    rfl
  · simp only [if_neg hcount]
    rfl

/-- With a peer that stays, `n` more exchanges than the first make the call a success. -/
theorem completes_there (hthere : ∀ t, there t = true) (hhandle : call.pTxClientData = some handle)
    (hmode : call.mode.HasState) (n : Nat) (hn : v.pingRetryCnt + n + 1 = rtssUpdPingRetryCnt)
    (herr : v.pingErrCnt ≤ rtssUpdPingErrCnt) :
    ∃ r, Completes (recorded (peerOutcomes there)) (rtssUpdHelloPing.body call) (.ping v) t r ∧
      r.1.1 = true := by
  induction n generalizing v t with
  | zero =>
      have hread := pingRecover_there call (v := v.packed sampleHello)
        (hthere (t ++ [sentWhole handle sampleHello])) sampleHello_isHello hmode
      have hcount : ¬ (v.packed sampleHello).pingRetryCnt < rtssUpdPingRetryCnt :=
        Nat.not_lt.mpr (Nat.le_of_eq hn.symm)
      rw [if_neg hcount] at hread
      exact ⟨(_, _), .again _ _ _ _ _ (pingSend_there call (hthere t) hhandle herr)
        (.done _ _ (_, _) hread), rfl⟩
  | succ n ih =>
      have hread := pingRecover_there call (v := v.packed sampleHello)
        (hthere (t ++ [sentWhole handle sampleHello])) sampleHello_isHello hmode
      have hcount : (v.packed sampleHello).pingRetryCnt < rtssUpdPingRetryCnt := by
        rw [← hn]
        change v.pingRetryCnt + 1 < v.pingRetryCnt + (n + 1) + 1
        omega
      rw [if_pos hcount] at hread
      have hnext : v.pingRetryCnt + 1 + n + 1 = rtssUpdPingRetryCnt := by
        rw [← hn, Nat.add_right_comm v.pingRetryCnt 1 n, Nat.add_assoc v.pingRetryCnt n 1]
      obtain ⟨r, hcall, hsuccess⟩ := ih (v := { v.packed sampleHello with
        rxMsg := sampleHelloResponse
        lib := call.mode.entered v.lib
        timeout := rtssUpdEvWtTime }) hnext herr
      exact ⟨r, .again _ _ _ _ _ (pingSend_there call (hthere t) hhandle herr)
        (.again _ _ _ _ _ hread hcall), hsuccess⟩

/-- With a peer that is gone, the errors are counted up and the library state stays. -/
theorem completes_gone (hgone : ∀ u, there (t ++ u) = false)
    (hhandle : call.pTxClientData = some handle) (n : Nat)
    (hn : v.pingErrCnt + n = rtssUpdPingErrCnt + 1) :
    ∃ q, Completes (recorded (peerOutcomes there)) (rtssUpdHelloPing.body call) (.ping v) t
      ((false, v.lib), t ++ q) := by
  induction n generalizing v t with
  | zero =>
      refine ⟨[], .done _ _ _ ?_⟩
      change (pingSend call v).run _ t = _
      have herr : v.pingErrCnt > rtssUpdPingErrCnt := Nat.lt_of_succ_le (Nat.le_of_eq hn.symm)
      rw [pingSend, if_pos herr, List.append_nil]
      rfl
  | succ n ih =>
      have hnow : there t = false := by
        have h := hgone []
        rwa [List.append_nil] at h
      have herr : v.pingErrCnt ≤ rtssUpdPingErrCnt := by omega
      obtain ⟨q, hsend⟩ := pingSend_gone call (v := v) hnow hhandle herr
      have hlater : ∀ u, there (t ++ q ++ u) = false := fun u => by
        rw [List.append_assoc]
        exact hgone (q ++ u)
      have hcount : v.pingErrCnt + 1 + n = rtssUpdPingErrCnt + 1 := by omega
      obtain ⟨q', hcall⟩ := ih (v := (v.packed sampleHello).failed) hlater hcount
      exact ⟨q ++ q', .again _ _ _ _ _ hsend (List.append_assoc t q q' ▸ hcall)⟩

end Peer

/-- The call from its entry to the first attempt. -/
def PingVars.entry (lib : RtssUpdLibHandle) : PingVars :=
  ⟨zeroed, zeroed, rtssUpdEvRetryWtTime, 0, 0, lib⟩

theorem isReady_entry {call : PingCall} {outcome : Outcomes}
    {r : (Bool × RtssUpdLibHandle) × HelloTrace} (hlib : call.lib.libstate = .deinit)
    (hcall : Completes (recorded outcome) (rtssUpdHelloPing.body call)
      (.ping (.entry call.lib)) [] r) : IsReady call outcome r := by
  rw [IsReady, isReady_body hlib]
  exact .again .start _ [] [] r rfl hcall

theorem canSucceed_iff (lib : RtssUpdLibHandle) : CanSucceed lib ↔ lib.libstate = .deinit := by
  constructor
  · intro hsucceeds
    by_contra hlib
    let later : PingCall := { PingCall.sample with lib := lib }
    obtain ⟨outcome, r, hcall, hsuccess⟩ := hsucceeds later rfl (.inl rfl) nofun
    have hrefused : ((rtssUpdIsReady.body later) rtssUpdIsReady.start).run (recorded outcome) [] =
        (.inr (false, lib), []) := by
      change (ite (lib.libstate ≠ .deinit) _ _ : Prog HelloSig _).run _ [] = _
      rw [if_pos hlib]
      rfl
    rw [(completes_done hrefused).mp hcall] at hsuccess
    cases hsuccess
  · rintro hlib later rfl hmode hhandle
    obtain ⟨handle, hhandle⟩ := Option.ne_none_iff_exists'.mp hhandle
    have hthere : ∀ t : HelloTrace, (fun _ => true) t = true := fun _ => rfl
    obtain ⟨r, hcall, hsuccess⟩ := completes_there later (v := .entry later.lib) (t := [])
      hthere hhandle hmode 2 rfl (Nat.zero_le _)
    exact ⟨_, r, isReady_entry hlib hcall, hsuccess⟩

/-- A failed call from the first state leaves the library as it was, so that a later call can
succeed, if and only if no response to a HELLO was read in a mode that has a state. -/
theorem failed_isReady_iff (call : PingCall) (outcome : Outcomes)
    (r : (Bool × RtssUpdLibHandle) × HelloTrace) (hlib : call.lib.libstate = .deinit)
    (hcall : IsReady call outcome r) :
    r.1.1 = false → ((r.1.2 = call.lib ∧ CanSucceed r.1.2) ↔
      ¬ (call.mode.HasState ∧ ∃ e ∈ r.2, Answered e)) := by
  intro _
  obtain ⟨hmoved, hkept⟩ := isReady_entered hlib hcall
  rw [canSucceed_iff]
  constructor
  · rintro ⟨-, hstate⟩ hanswered
    rw [hmoved hanswered] at hstate
    exact entered_libstate _ _ hanswered.1 hstate
  · intro hanswered
    rw [hkept hanswered]
    exact ⟨rfl, hlib⟩

/-- Nobody answers. -/
theorem failed_isReady_alone :
    ∃ r, IsReady .sample (peerOutcomes fun _ => false) r ∧ r.1.1 = false ∧
      ((r.1.2 = PingCall.sample.lib ∧ CanSucceed r.1.2) ↔
        ¬ (PingCall.sample.mode.HasState ∧ ∃ e ∈ r.2, Answered e)) := by
  let there : HelloTrace → Bool := fun _ => false
  have hgone : ∀ u, there ([] ++ u) = false := fun _ => rfl
  obtain ⟨q, hcall⟩ := completes_gone .sample (v := .entry PingCall.sample.lib) hgone rfl 11 rfl
  exact ⟨_, isReady_entry rfl hcall, rfl, failed_isReady_iff _ _ _ rfl (isReady_entry rfl hcall)
    rfl⟩

/-- The first HELLO is answered, and then the peer is gone. The library is ready after the
failed call, and every later call is refused. -/
theorem failed_isReady_ready :
    ∃ r, IsReady .sample (peerOutcomes fun t => reads t == 0) r ∧ r.1.1 = false ∧
      PingCall.sample.lib.libstate = .deinit ∧ r.1.2 = ⟨.ready, .spScall⟩ ∧
      ¬ CanSucceed r.1.2 := by
  let there : HelloTrace → Bool := fun t => reads t == 0
  let v : PingVars := (PingVars.entry PingCall.sample.lib).packed sampleHello
  let read := timedRead .sample v ((sizeofRtssUpdMsgHeader : Int), sampleHelloResponse)
  have hthere : there [] = true := rfl
  have hsent : there [sentWhole .sampleHelloTx sampleHello] = true := rfl
  have hgone : ∀ u, there ([sentWhole .sampleHelloTx sampleHello, read] ++ u) = false := by
    intro u
    refine beq_false_of_ne ?_
    rw [reads_append, Nat.add_comm]
    exact Nat.succ_ne_zero _
  have hsend := pingSend_there .sample (v := .entry PingCall.sample.lib) hthere rfl (Nat.zero_le _)
  have hread := pingRecover_there .sample (v := v) hsent sampleHello_isHello (.inl rfl)
  rw [if_pos (by decide)] at hread
  obtain ⟨q, hcall⟩ := completes_gone .sample (v := { v with
    rxMsg := sampleHelloResponse
    lib := PingCall.sample.mode.entered v.lib
    timeout := rtssUpdEvWtTime }) hgone rfl 11 rfl
  refine ⟨_, isReady_entry rfl (.again _ _ _ _ _ hsend (.again _ _ _ _ _ hread hcall)), rfl, rfl,
    rfl, ?_⟩
  rw [canSucceed_iff]
  exact nofun

end RtssMailbox
