import RtssMailbox.HelloPing

/-!
The responses to the HELLOs of a handshake. The peer takes the messages of the transmit
channel one after the other and answers each of them once, in order and any time later.
What is counted is the responses that are still to come or to be read.
-/
namespace RtssMailbox
open Effects ByteMemory Iteration Relation

deriving instance DecidableEq for RtssMbHandle

/-- The messages in the transmit ring, those that the peer has taken and not answered, and
those in the receive ring; and how many responses were outstanding after the receive
channel was reset last, or when the call started. -/
structure LinkState where
  tx : List Mem
  owed : List Mem
  rx : List Mem
  late : Nat

def IsHello (txMsg : Mem) : Prop := comparedTx txMsg = comparedTx helloMsg

instance (txMsg : Mem) : Decidable (IsHello txMsg) := inferInstanceAs (Decidable (_ = _))

def IsHelloResponse (rxMsg : Mem) : Prop := comparedRx rxMsg = comparedTx helloMsg

instance (rxMsg : Mem) : Decidable (IsHelloResponse rxMsg) := inferInstanceAs (Decidable (_ = _))

namespace LinkState

/-- The HELLOs that are to be answered, and the responses that are to be read. -/
def outstanding (s : LinkState) : Nat :=
  s.tx.countP (IsHello ·) + s.owed.countP (IsHello ·) + s.rx.countP (IsHelloResponse ·)

/-- No response to a HELLO can be read any more. -/
def Settled (s : LinkState) : Prop :=
  (∀ m ∈ s.tx ++ s.owed, ¬ IsHello m) ∧ ∀ r ∈ s.rx, ¬ IsHelloResponse r

def atStart (tx owed rx : List Mem) : LinkState :=
  ⟨tx, owed, rx, outstanding ⟨tx, owed, rx, 0⟩⟩

def send (s : LinkState) (buf : Mem) : LinkState := { s with tx := s.tx ++ [buf] }

def reset (s : LinkState) (call : PingCall) (handle : Option RtssMbHandle) : LinkState :=
  if handle = call.pRxClientData then { s with rx := [] }
  else if handle = call.pTxClientData then { s with tx := [] }
  else s

/-- A reset of the receive channel, done or refused, is remembered. -/
def mark (s : LinkState) (call : PingCall) (handle : Option RtssMbHandle) : LinkState :=
  if handle = call.pRxClientData then { s with late := s.outstanding } else s

end LinkState

/-- The steps of the peer. -/
inductive LinkStep : LinkState → LinkState → Prop
  | receive (s : LinkState) (m : Mem) (rest : List Mem) (htx : s.tx = m :: rest) :
      LinkStep s { s with tx := rest, owed := s.owed ++ [m] }
  | answer (s : LinkState) (m r : Mem) (rest : List Mem) (howed : s.owed = m :: rest)
      (hanswer : comparedRx r = comparedTx m) :
      LinkStep s { s with owed := rest, rx := s.rx ++ [r] }

/-- What the calls of the handshake may do. A write that fails may have queued its message
all the same; a read takes the oldest message, or fails at any time and takes nothing. -/
def linkAnswers (call : PingCall) : (o : HelloOp) → LinkState → HelloSig.Res o → LinkState → Prop
  | .upd (.mbWrite _ buf sz), s, (ret : Int), s' =>
      ret = sz ∧ s' = s.send buf ∨ ret ≠ sz ∧ (s' = s ∨ s' = s.send buf)
  | .upd _, s, _, s' => s' = s
  | .mbReadTimed handle _ sz _, s, (r : Int × Mem), s' =>
      (handle ≠ none ∧ handle = call.pRxClientData ∧
        ∃ rest, s.rx = r.2 :: rest ∧ r.1 = sz ∧ s' = { s with rx := rest }) ∨
      r.1 ≤ 0 ∧ s' = s
  | .chanReset handle, s, (ret : Int), s' =>
      (handle = none → ret ≠ rtssMbReturnSuccess) ∧
      s' = (if ret = rtssMbReturnSuccess then s.reset call handle else s).mark call handle

def linkEnvironment (call : PingCall) : Environment HelloSig LinkState :=
  ⟨linkAnswers call, LinkStep⟩

theorem LinkStep.outstanding {s s' : LinkState} (h : LinkStep s s') :
    s'.outstanding = s.outstanding ∧ s'.late = s.late := by
  cases h with
  | receive m rest htx =>
      refine ⟨?_, rfl⟩
      simp only [LinkState.outstanding, htx, List.countP_cons, List.countP_append,
        List.countP_nil]
      omega
  | answer m r rest howed hanswer =>
      refine ⟨?_, rfl⟩
      have hkind : decide (IsHelloResponse r) = decide (IsHello m) :=
        decide_eq_decide.mpr (by rw [IsHelloResponse, IsHello, hanswer])
      simp only [LinkState.outstanding, howed, List.countP_cons, List.countP_append,
        List.countP_nil, hkind]
      omega

namespace LinkState
variable {s : LinkState}

theorem settled_iff : s.Settled ↔ s.outstanding = 0 := by
  have hsum : s.outstanding = 0 ↔ (s.tx.countP (IsHello ·) = 0 ∧ s.owed.countP (IsHello ·) = 0) ∧
      s.rx.countP (IsHelloResponse ·) = 0 := by
    rw [outstanding, Nat.add_eq_zero_iff, Nat.add_eq_zero_iff]
  simp only [hsum, Settled, List.countP_eq_zero, List.forall_mem_append, decide_eq_true_eq]

theorem outstanding_send {buf : Mem} (h : IsHello buf) :
    (s.send buf).outstanding = s.outstanding + 1 := by
  simp only [outstanding, send, List.countP_append, List.countP_cons, List.countP_nil,
    decide_eq_true h, if_true]
  omega

theorem outstanding_take {r : Mem} {rest : List Mem} (h : s.rx = r :: rest) :
    s.outstanding = { s with rx := rest }.outstanding + if IsHelloResponse r then 1 else 0 := by
  simp only [outstanding, h, List.countP_cons, decide_eq_true_eq]
  omega

end LinkState

/-- How many responses are outstanding at the control points: as many as after the last
reset, and one more before a read. -/
def PingPoint.Counts (call : PingCall) : PingPoint → LinkState → Prop
  | .start, s | .ping _, s => s.outstanding = s.late
  | .recovery v, s => IsHello v.txMsg ∧
      (call.mode = .spScall ∨ call.mode = .ev → s.outstanding = s.late + 1)

/-- When a call succeeds, as many are outstanding as after the last reset. -/
def CountsAtEnd (r : Bool × RtssUpdLibHandle) (s : LinkState) : Prop :=
  r.1 = true → s.outstanding = s.late

section Invariant
variable {call : PingCall} {s s' : LinkState}

/-- What holds of the two numbers is kept by the peer. -/
theorem LinkStep.counts {P : Nat → Nat → Prop} (hs : P s.outstanding s.late)
    (h : LinkStep s s') : P s'.outstanding s'.late := by
  rw [h.outstanding.1, h.outstanding.2]
  exact hs

theorem PingPoint.counts_step {a : PingPoint} (hs : a.Counts call s) (h : LinkStep s s') :
    a.Counts call s' := by
  cases a with
  | start => exact h.counts (P := fun n late => n = late) hs
  | ping v => exact h.counts (P := fun n late => n = late) hs
  | recovery v =>
      exact ⟨hs.1, h.counts (P := fun n late => _ → n = late + 1) hs.2⟩

/-- The pieces of a call, between its control points. -/
abbrev Piece (call : PingCall) (p : Prog HelloSig (PingPoint ⊕ (Bool × RtssUpdLibHandle)))
    (s : LinkState) : Prop :=
  Always (linkEnvironment call) (fun _ _ => True) (fun _ _ => True)
    (Sum.elim (PingPoint.Counts call) CountsAtEnd) p s

theorem piece_next {a : PingPoint} (hs : a.Counts call s) : Piece call (.ret (.inl a)) s :=
  Always.ret (fun _ _ hs h => PingPoint.counts_step hs h) hs

theorem piece_failed (lib : RtssUpdLibHandle) : Piece call (.ret (.inr (false, lib))) s :=
  fun _ _ hret => nomatch hret

theorem piece_succeeded (lib : RtssUpdLibHandle) (hs : s.outstanding = s.late) :
    Piece call (.ret (.inr (true, lib))) s := by
  refine Always.ret (fun s s' hs h => ?_) ?_
  · exact fun _ => h.counts (P := fun n late => n = late) (hs rfl)
  · exact fun _ => hs

theorem reset_piece {f : Int → Prog HelloSig (PingPoint ⊕ (Bool × RtssUpdLibHandle))}
    (hf : ∀ ret s, s.outstanding = s.late → Piece call (f ret) s) (s : LinkState) :
    Piece call (Hello.chanReset call.pRxClientData >>= f) s := by
  refine Always.perform_bind (S := HelloSig) (o := HelloOp.chanReset call.pRxClientData)
    (P := fun _ => True) (fun _ _ _ _ => trivial) trivial (fun _ _ => trivial) ?_
  rintro s (ret : Int) s' - - ⟨-, rfl⟩
  refine hf ret _ ?_
  rw [LinkState.mark, if_pos rfl]
  rfl

theorem retry_piece (v : PingVars) (s : LinkState) :
    Piece call (Hello.chanReset call.pTxClientData >>= fun _ =>
      Hello.chanReset call.pRxClientData >>= fun _ => .ret (.inl (.ping v))) s := by
  refine Always.perform_bind (S := HelloSig) (o := HelloOp.chanReset call.pTxClientData)
    (P := fun _ => True) (fun _ _ _ _ => trivial) trivial (fun _ _ => trivial) ?_
  intro _ _ s' _ _ _
  exact reset_piece (fun _ _ hs => piece_next (a := .ping v) hs) s'

theorem pingSend_piece (v : PingVars) (hs : s.outstanding = s.late) :
    Piece call (pingSend call v) s := by
  obtain ⟨txMsg, hpack⟩ := Option.isSome_iff_exists.mp rtssUpdPingTxMsgPack_isSome
  have hhello : IsHello txMsg := comparedTx_pack hpack
  have hretry := @retry_piece call
  by_cases herr : v.pingErrCnt > rtssUpdPingErrCnt
  · rw [pingSend, if_pos herr]
    exact piece_failed v.lib
  cases hhandle : call.pTxClientData with
  | none =>
      rw [pingSend, if_neg herr]
      simp only [hpack, hhandle]
      rw [hhandle] at hretry
      exact hretry _ s
  | some handle =>
      rw [pingSend_eq hpack hhandle herr]
      refine Always.op (P := fun s => s.outstanding = s.late)
        (fun _ _ hs h => h.counts (P := fun n late => n = late) hs) hs (fun _ _ => trivial) ?_
      rintro s (ret : Int) s' hs - hanswer
      refine Always.guard (fun _ => hretry _ s') fun hgood => ?_
      cases hanswer with
      | inl hsent =>
          obtain ⟨-, rfl⟩ := hsent
          refine piece_next (a := .recovery _) ⟨hhello, fun _ => ?_⟩
          rw [LinkState.outstanding_send hhello, hs]
          rfl
      | inr hfailed => exact absurd (Or.inr hfailed.1) hgood

theorem pingRecover_piece (v : PingVars) (hs : (PingPoint.recovery v).Counts call s) :
    Piece call (pingRecover call v) s := by
  refine Always.perform_bind (S := HelloSig)
    (o := HelloOp.mbReadTimed call.pRxClientData v.rxMsg sizeofRtssUpdMsgHeader v.timeout)
    (P := (PingPoint.recovery v).Counts call) (fun _ _ hs h => PingPoint.counts_step hs h) hs
    (fun _ _ => trivial) ?_
  rintro s ⟨ret, rxMsg⟩ s' ⟨hhello, hcount⟩ - hanswer
  refine Always.guard (fun _ => ?_) fun hgood => ?_
  · exact reset_piece (fun _ _ hs => piece_next (a := .ping _) hs) s'
  · cases hanswer with
    | inr hfailed => exact absurd (Or.inl hfailed.1) hgood
    | inl hread =>
        obtain ⟨-, -, rest, hrx, -, rfl⟩ := hread
        have htake := LinkState.outstanding_take hrx
        refine Always.guard (fun hverify => ?_) fun hverify => ?_
        · -- The message does not match, so the response is still outstanding.
          obtain ⟨txMsg, hpack⟩ := Option.isSome_iff_exists.mp rtssUpdPingTxMsgPack_isSome
          simp only [hpack]
          refine Always.guard (fun _ => piece_failed _) fun _ => ?_
          refine piece_next (a := .recovery _) ⟨comparedTx_pack hpack, fun hmode => ?_⟩
          have hother : ¬ IsHelloResponse rxMsg := fun hresponse => hverify
            ((rtssUpdVerifyHandshake_ok_iff _ _ _ _).mpr ⟨hhello.trans hresponse.symm, hmode⟩)
          rw [if_neg hother, hcount hmode] at htake
          exact htake.symm
        · obtain ⟨hsame, hmode⟩ := (rtssUpdVerifyHandshake_ok_iff _ _ _ _).mp (not_not.mp hverify)
          have hresponse : IsHelloResponse rxMsg := hsame.symm.trans hhello
          rw [if_pos hresponse, hcount hmode] at htake
          have hequal := (Nat.succ_injective htake).symm
          exact Always.guard (fun _ => piece_next (a := .ping _) hequal)
            fun _ => piece_succeeded _ hequal

theorem helloPing_piece (a : PingPoint) (hs : a.Counts call s) :
    Piece call (rtssUpdHelloPing.body call a) s := by
  cases a with
  | start => exact piece_next (a := .ping _) hs
  | ping v => exact pingSend_piece v hs
  | recovery v => exact pingRecover_piece v hs

end Invariant

/-- When a handshake succeeds, its channel is in step if and only if no response was
outstanding after the receive channel was reset last, or when the call started. -/
theorem handshake_settled_iff (call : PingCall) (tx owed rx : List Mem) (lib : RtssUpdLibHandle)
    (s : LinkState)
    (hrun : During rtssUpdHelloPing (linkEnvironment call) (fun _ _ => True) call
      (.atStart tx owed rx) (.ret (.inr (true, lib)), s)) :
    s.Settled ↔ s.late = 0 := by
  have hbody : ∀ a s, PingPoint.Counts call a s → Piece call (rtssUpdHelloPing.body call a) s :=
    fun a _ hs => helloPing_piece a hs
  have hstart : PingPoint.Counts call .start (.atStart tx owed rx) := rfl
  have hcounts := During.holds hbody hstart hrun s .refl
  rw [LinkState.settled_iff, show s.outstanding = s.late from hcounts rfl]

/-- The HELLO, and a correct response to it. -/
def sampleHello : Mem := rtssUpdPingTxMsgPack.getD zeroed

def sampleHelloResponse : Mem :=
  let msg := store32 helloMsg RtssUpdMsgHeader.direction rtssUpdRtss2md
  store32 msg RtssUpdMsgHeader.headerCrc
    ((rtssUpdCalculateCrc32 (loadBytes msg 0 sizeofRtssUpdMsgHeader)).getD 0)

def RtssMbHandle.sampleHelloTx : RtssMbHandle :=
  { RtssMbHandle.blank with fd := 3, mode := rtssMbModeTx }

def RtssMbHandle.sampleHelloRx : RtssMbHandle := { RtssMbHandle.blank with fd := 4 }

def PingCall.sample : PingCall where
  mode := .spScall
  pTxClientData := some .sampleHelloTx
  pRxClientData := some .sampleHelloRx
  lib := ⟨.deinit, .none⟩

/-- Some HELLOs wait in the transmit ring, and nothing else is under way. -/
def LinkState.waiting (k late : Nat) : LinkState := ⟨List.replicate k sampleHello, [], [], late⟩

theorem sampleHello_pack : rtssUpdPingTxMsgPack = some sampleHello := by
  obtain ⟨txMsg, hpack⟩ := Option.isSome_iff_exists.mp rtssUpdPingTxMsgPack_isSome
  rw [sampleHello, hpack]
  rfl

theorem sampleHello_isHello : IsHello sampleHello := comparedTx_pack sampleHello_pack

theorem sampleHelloResponse_isResponse : IsHelloResponse sampleHelloResponse := by
  rw [IsHelloResponse, comparedRx, sampleHelloResponse, store32_store32_same]
  decide +kernel

section Sample

/-- The sample call gets from one place to another. -/
def Goes : Prog HelloSig (PingPoint ⊕ (Bool × RtssUpdLibHandle)) × LinkState →
    Prog HelloSig (PingPoint ⊕ (Bool × RtssUpdLibHandle)) × LinkState → Prop :=
  ReflTransGen (CallStep rtssUpdHelloPing (linkEnvironment .sample) (fun _ _ => True) .sample)

variable {v : PingVars} {k l : Nat}

theorem goes_op (o : HelloSig.Op)
    (f : HelloSig.Res o → Prog HelloSig (PingPoint ⊕ (Bool × RtssUpdLibHandle)))
    (r : HelloSig.Res o) {s s' : LinkState} (hanswer : linkAnswers .sample o s r s') :
    Goes (Prog.op (S := HelloSig) o f, s) (f r, s') :=
  .single (CallStep.op (S := HelloSig) o f r s s' trivial hanswer)

theorem goes_send (herr : v.pingErrCnt ≤ rtssUpdPingErrCnt) :
    Goes (.ret (.inl (.ping v)), .waiting k l)
      (pingRecover .sample (v.packed sampleHello), .waiting (k + 1) l) := by
  have hagain : Goes (.ret (.inl (.ping v)), .waiting k l)
      (pingSend .sample v, .waiting k l) := .single (.again _ _)
  have hsent : LinkState.waiting (k + 1) l = (LinkState.waiting k l).send sampleHello := by
    simp only [LinkState.send, LinkState.waiting, List.replicate_succ']
  rw [pingSend_eq sampleHello_pack rfl (Nat.not_lt.mpr herr)] at hagain
  have hwrite := hagain.tail (.op _ _ (sizeofRtssUpdMsgHeader : Int) _ _ trivial
    (Or.inl ⟨rfl, hsent⟩))
  exact hwrite.tail (.again _ _)

theorem goes_answer (p : Prog HelloSig (PingPoint ⊕ (Bool × RtssUpdLibHandle))) :
    Goes (p, .waiting (k + 1) l)
      (p, { LinkState.waiting k l with rx := [sampleHelloResponse] }) := by
  have hreceive : LinkStep (.waiting (k + 1) l)
      { LinkState.waiting k l with owed := [sampleHello] } := .receive _ _ _ rfl
  have hanswer : LinkStep { LinkState.waiting k l with owed := [sampleHello] }
      { LinkState.waiting k l with rx := [sampleHelloResponse] } :=
    .answer _ _ _ _ rfl (sampleHelloResponse_isResponse.trans sampleHello_isHello.symm)
  exact (ReflTransGen.single (.other _ _ _ hreceive)).tail (.other _ _ _ hanswer)

def PingVars.matched (v : PingVars) : PingVars :=
  { v with rxMsg := sampleHelloResponse, lib := ⟨.ready, .spScall⟩ }

theorem goes_read (hhello : IsHello v.txMsg) :
    Goes (pingRecover .sample v, { LinkState.waiting k l with rx := [sampleHelloResponse] })
      (if v.pingRetryCnt < rtssUpdPingRetryCnt then
        .ret (.inl (.ping { v.matched with timeout := rtssUpdEvWtTime }))
      else .ret (.inr (true, ⟨.ready, .spScall⟩)), .waiting k l) := by
  have hverified : rtssUpdVerifyHandshake v.lib .spScall v.txMsg sampleHelloResponse =
      (rtssUpdEOk, ⟨.ready, .spScall⟩) := by
    have hsame : comparedTx v.txMsg = comparedRx sampleHelloResponse :=
      hhello.trans sampleHelloResponse_isResponse.symm
    simp only [rtssUpdVerifyHandshake, hsame, ne_eq, not_true_eq_false, if_false]
  have hread : Goes (pingRecover .sample v,
      { LinkState.waiting k l with rx := [sampleHelloResponse] })
      (pingReceived .sample v sizeofRtssUpdMsgHeader sampleHelloResponse, .waiting k l) :=
    goes_op (.mbReadTimed (some .sampleHelloRx) v.rxMsg sizeofRtssUpdMsgHeader v.timeout)
      (fun (r : Int × Mem) => pingReceived .sample v r.1 r.2)
      ((sizeofRtssUpdMsgHeader : Int), sampleHelloResponse)
      (Or.inl ⟨Option.some_ne_none _, rfl, [], rfl, rfl, rfl⟩)
  simp only [pingReceived, PingCall.sample, hverified, ne_eq, not_true_eq_false,
    if_false] at hread
  exact hread

theorem goes_success (herr : v.pingErrCnt ≤ rtssUpdPingErrCnt) (hretry : v.pingRetryCnt = 0) :
    Goes (.ret (.inl (.ping v)), .waiting k l)
      (.ret (.inr (true, ⟨.ready, .spScall⟩)), .waiting k l) := by
  have hround : ∀ {v : PingVars}, v.pingErrCnt ≤ rtssUpdPingErrCnt →
      Goes (.ret (.inl (.ping v)), .waiting k l)
        (if v.pingRetryCnt + 1 < rtssUpdPingRetryCnt then
          .ret (.inl (.ping { (v.packed sampleHello).matched with timeout := rtssUpdEvWtTime }))
        else .ret (.inr (true, ⟨.ready, .spScall⟩)), .waiting k l) :=
    fun herr => ((goes_send herr).trans (goes_answer _)).trans (goes_read sampleHello_isHello)
  have hfirst := hround herr
  rw [hretry, if_pos (by decide)] at hfirst
  have hsecond := hround (v := { (v.packed sampleHello).matched with
    timeout := rtssUpdEvWtTime }) herr
  rw [if_pos (by change v.pingRetryCnt + 1 + 1 < 3; omega)] at hsecond
  refine hfirst.trans (hsecond.trans ?_)
  have hthird := hround (v := { (PingVars.packed { (v.packed sampleHello).matched with
    timeout := rtssUpdEvWtTime } sampleHello).matched with timeout := rtssUpdEvWtTime }) herr
  rw [if_neg (by change ¬ v.pingRetryCnt + 1 + 1 + 1 < 3; omega)] at hthird
  exact hthird

/-- No answer comes in time, and the receive channel is reset. -/
theorem goes_timeout (v : PingVars) (k l : Nat) :
    Goes (pingRecover .sample v, .waiting k l) (.ret (.inl (.ping v.failed)), .waiting k k) := by
  have hfailed : -etimedout ≤ 0 := by decide
  have hread : Goes (pingRecover .sample v, .waiting k l)
      (pingReceived .sample v (-etimedout) v.rxMsg, .waiting k l) :=
    goes_op (.mbReadTimed (some .sampleHelloRx) v.rxMsg sizeofRtssUpdMsgHeader v.timeout)
      (fun (r : Int × Mem) => pingReceived .sample v r.1 r.2)
      (-etimedout, v.rxMsg) (Or.inr ⟨hfailed, rfl⟩)
  have hbad : -etimedout ≤ 0 ∨ -etimedout ≠ sizeofRtssUpdMsgHeader := Or.inl hfailed
  simp only [pingReceived, if_pos hbad] at hread
  have hmark : (LinkState.waiting k l).outstanding = k := by
    simp only [LinkState.outstanding, LinkState.waiting, List.countP_replicate,
      decide_eq_true sampleHello_isHello, if_true, List.countP_nil, Nat.add_zero]
  have hreset : linkAnswers .sample (.chanReset PingCall.sample.pRxClientData) (.waiting k l)
      rtssMbReturnSuccess (.waiting k k) := by
    refine ⟨nofun, ?_⟩
    rw [if_pos rfl, LinkState.mark, if_pos rfl, LinkState.reset, if_pos rfl]
    change _ = { LinkState.waiting k l with late := (LinkState.waiting k l).outstanding }
    rw [hmark]
    rfl
  exact hread.trans (goes_op (.chanReset PingCall.sample.pRxClientData) _ rtssMbReturnSuccess
    hreset)

end Sample

/-- A handshake without a timeout leaves nothing outstanding. -/
theorem handshake_settled_sample :
    ∃ lib s, During rtssUpdHelloPing (linkEnvironment .sample) (fun _ _ => True) .sample
      (.atStart [] [] []) (.ret (.inr (true, lib)), s) ∧ s.Settled := by
  let v : PingVars := ⟨zeroed, zeroed, rtssUpdEvRetryWtTime, 0, 0, PingCall.sample.lib⟩
  have hrun := goes_success (v := v) (k := 0) (l := 0) (by decide) rfl
  exact ⟨_, _, hrun, (handshake_settled_iff .sample [] [] [] _ _ hrun).mpr rfl⟩

/-- When the response to the first HELLO only comes after the timeout, the response to the
last one is still to come. -/
theorem handshake_not_settled :
    ¬ ∀ lib s, During rtssUpdHelloPing (linkEnvironment .sample) (fun _ _ => True) .sample
      (.atStart [] [] []) (.ret (.inr (true, lib)), s) → s.Settled := by
  intro h
  let v : PingVars := ⟨zeroed, zeroed, rtssUpdEvRetryWtTime, 0, 0, PingCall.sample.lib⟩
  have hsent := goes_send (v := v) (k := 0) (l := 0) (by decide)
  have htimeout := hsent.trans (goes_timeout _ 1 0)
  have hrun := htimeout.trans (goes_success (by decide) rfl)
  have hsettled := h _ _ hrun
  exact hsettled.1 sampleHello (List.mem_append_left _ (List.mem_singleton_self _))
    sampleHello_isHello

end RtssMailbox
