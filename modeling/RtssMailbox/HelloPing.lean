import RtssMailbox.Library.Iteration
import RtssMailbox.UpdaterMessages

/-!
The handshake of the update library. A HELLO is sent and its response is read with a
timeout, three times in a row; what goes wrong is tried again. The labels of the function
and the entry are the control points of one call.
-/
namespace RtssMailbox
open Effects ByteMemory Iteration

inductive RtssUpdProgMode where
  | none
  | spScall
  | ev
  | max
deriving DecidableEq

inductive RtssUpdLibState where
  | deinit
  | init
  | ready
deriving DecidableEq

/-- The state of the library that calls change. -/
structure RtssUpdLibHandle where
  libstate : RtssUpdLibState
  progmode : RtssUpdProgMode

inductive HelloOp where
  | upd (o : UpdOp)
  | mbReadTimed (handle : Option RtssMbHandle) (buf : Mem) (sz : Nat) (ms : Int)
  | chanReset (handle : Option RtssMbHandle)

def HelloSig : Signature where
  Op := HelloOp
  Res
    | .upd o => UpdSig.Res o
    | .mbReadTimed _ _ _ _ => Int × Mem
    | .chanReset _ => Int

namespace Hello

def lift {α : Type} (p : Prog UpdSig α) : Prog HelloSig α :=
  p.expand fun o => Prog.perform (S := HelloSig) (.upd o)

/-- The return value, and the buffer after the call. -/
def mbReadTimed (handle : Option RtssMbHandle) (buf : Mem) (sz : Nat) (ms : Int) :
    Prog HelloSig (Int × Mem) :=
  Prog.perform (S := HelloSig) (.mbReadTimed handle buf sz ms)

def chanReset (handle : Option RtssMbHandle) : Prog HelloSig Int :=
  Prog.perform (S := HelloSig) (.chanReset handle)

end Hello

def rtssUpdPingRetryCnt : Nat := 3
def rtssUpdPingErrCnt : Nat := 10
def rtssUpdEvRetryWtTime : Int := 16000
def rtssUpdEvWtTime : Int := 6000

def rtssUpdMsgHello : UInt32 := 0
def rtssUpdRtss2md : UInt32 := 1
def rtssUpdVerMaj : UInt32 := 1
def rtssUpdVerMin : UInt32 := 0

/-- What a sent message is compared by: without its CRC, and in the other direction. -/
def comparedTx (txMsg : Mem) : List UInt8 :=
  loadBytes (store32 (store32 txMsg RtssUpdMsgHeader.headerCrc 0) RtssUpdMsgHeader.direction
    rtssUpdRtss2md) 0 sizeofRtssUpdMsgHeader

/-- What a received message is compared by: without its CRC. -/
def comparedRx (rxMsg : Mem) : List UInt8 :=
  loadBytes (store32 rxMsg RtssUpdMsgHeader.headerCrc 0) 0 sizeofRtssUpdMsgHeader

/-- The messages are packed again before they are used after this. -/
def rtssUpdVerifyHandshake (lib : RtssUpdLibHandle) (mode : RtssUpdProgMode)
    (txMsg rxMsg : Mem) : UInt32 × RtssUpdLibHandle :=
  if comparedTx txMsg ≠ comparedRx rxMsg then
    (rtssUpdEErr, lib)
  else
    match mode with
    | .spScall => (rtssUpdEOk, { lib with progmode := .spScall, libstate := .ready })
    | .ev => (rtssUpdEOk, { lib with progmode := .ev, libstate := .init })
    | .none | .max => (rtssUpdEErr, lib)

def helloMsg : Mem :=
  rtssUpdMsg rtssUpdMsgHello
    (storeWords (storeBytes zeroed RtssUpdMsgHeader.body (cString "HELLO"))
      (RtssUpdMsgHeader.body + rtssUpdImgNameLen) [rtssUpdVerMaj, rtssUpdVerMin])

/-- The HELLO, unless its CRC cannot be calculated. -/
def rtssUpdPingTxMsgPack : Option Mem :=
  match rtssUpdCalculateCrc32 (loadBytes helloMsg 0 sizeofRtssUpdMsgHeader) with
  | none => none
  | some crc => some (store32 helloMsg RtssUpdMsgHeader.headerCrc crc)

def rtssUpdPingRxMsgPack : Mem := zeroed

/-- The arguments of a call, and the library state that it starts from. -/
structure PingCall where
  mode : RtssUpdProgMode
  pTxClientData : Option RtssMbHandle
  pRxClientData : Option RtssMbHandle
  lib : RtssUpdLibHandle

/-- The local variables, and the library state. -/
structure PingVars where
  txMsg : Mem
  rxMsg : Mem
  timeout : Int
  pingRetryCnt : Nat
  pingErrCnt : Nat
  lib : RtssUpdLibHandle

inductive PingPoint where
  | start
  | ping (v : PingVars)
  | recovery (v : PingVars)

/-- What is done on the way back to `rtss_upd_ping`. -/
def PingVars.failed (v : PingVars) : PingVars :=
  { v with timeout := rtssUpdEvRetryWtTime, pingRetryCnt := 0, pingErrCnt := v.pingErrCnt + 1 }

def pingSend (call : PingCall) (v : PingVars) :
    Prog HelloSig (PingPoint ⊕ (Bool × RtssUpdLibHandle)) := do
  if v.pingErrCnt > rtssUpdPingErrCnt then
    return .inr (false, v.lib)
  let some txMsg := rtssUpdPingTxMsgPack | return .inr (false, v.lib)
  let v := { v with
    txMsg := txMsg
    rxMsg := rtssUpdPingRxMsgPack
    pingRetryCnt := v.pingRetryCnt + 1 }
  let sent ← Hello.lift (rtssUpdSendMsg (some v.txMsg) call.pTxClientData)
  if sent ≠ rtssUpdEOk then
    let _ ← Hello.chanReset call.pTxClientData
    let _ ← Hello.chanReset call.pRxClientData
    return .inl (.ping v.failed)
  return .inl (.recovery v)

/-- What is done with the outcome of a read. A message that does not match is followed by
another read, without a new HELLO. -/
def pingReceived (call : PingCall) (v : PingVars) (ret : Int) (rxMsg : Mem) :
    Prog HelloSig (PingPoint ⊕ (Bool × RtssUpdLibHandle)) := do
  let v := { v with rxMsg := rxMsg }
  if ret ≤ 0 ∨ ret ≠ sizeofRtssUpdMsgHeader then
    let _ ← Hello.chanReset call.pRxClientData
    return .inl (.ping v.failed)
  let (verified, lib) := rtssUpdVerifyHandshake v.lib call.mode v.txMsg v.rxMsg
  let v := { v with lib := lib }
  if verified ≠ rtssUpdEOk then
    let some txMsg := rtssUpdPingTxMsgPack | return .inr (false, v.lib)
    let v := { v.failed with txMsg := txMsg, rxMsg := rtssUpdPingRxMsgPack }
    if v.pingErrCnt > rtssUpdPingErrCnt then
      return .inr (false, v.lib)
    return .inl (.recovery v)
  if v.pingRetryCnt < rtssUpdPingRetryCnt then
    return .inl (.ping { v with timeout := rtssUpdEvWtTime })
  return .inr (true, v.lib)

def pingRecover (call : PingCall) (v : PingVars) :
    Prog HelloSig (PingPoint ⊕ (Bool × RtssUpdLibHandle)) := do
  let (ret, rxMsg) ← Hello.mbReadTimed call.pRxClientData v.rxMsg sizeofRtssUpdMsgHeader v.timeout
  pingReceived call v ret rxMsg

def rtssUpdHelloPing : Calls HelloSig PingCall PingPoint (Bool × RtssUpdLibHandle) where
  start := .start
  body call
    | .start => pure (.inl (.ping ⟨zeroed, zeroed, rtssUpdEvRetryWtTime, 0, 0, call.lib⟩))
    | .ping v => pingSend call v
    | .recovery v => pingRecover call v

theorem rtssUpdPingTxMsgPack_isSome : rtssUpdPingTxMsgPack.isSome := by
  have hbytes : loadBytes helloMsg 0 sizeofRtssUpdMsgHeader ≠ [] := by
    intro hnil
    have hlen := congrArg List.length hnil
    rw [loadBytes_length] at hlen
    cases hlen
  obtain ⟨crc, hcrc⟩ := Option.isSome_iff_exists.mp (rtssUpdCalculateCrc32_isSome hbytes)
  rw [rtssUpdPingTxMsgPack, hcrc]
  rfl

theorem comparedTx_pack {txMsg : Mem} (h : txMsg ∈ rtssUpdPingTxMsgPack) :
    comparedTx txMsg = comparedTx helloMsg := by
  rw [rtssUpdPingTxMsgPack] at h
  split at h
  · cases h
  · cases h
    rw [comparedTx, store32_store32_same]
    rfl

theorem rtssUpdVerifyHandshake_ok_iff (lib : RtssUpdLibHandle) (mode : RtssUpdProgMode)
    (txMsg rxMsg : Mem) :
    (rtssUpdVerifyHandshake lib mode txMsg rxMsg).1 = rtssUpdEOk ↔
      comparedTx txMsg = comparedRx rxMsg ∧ (mode = .spScall ∨ mode = .ev) := by
  by_cases hsame : comparedTx txMsg = comparedRx rxMsg
  · cases mode <;> simp [rtssUpdVerifyHandshake, hsame, rtssUpdEErr, rtssUpdEOk]
  · simp [rtssUpdVerifyHandshake, hsame, rtssUpdEErr, rtssUpdEOk]

theorem lift_sendMsg (msg : Mem) (handle : RtssMbHandle) :
    Hello.lift (rtssUpdSendMsg (some msg) (some handle)) =
      Prog.op (S := HelloSig) (.upd (.mbWrite handle msg sizeofRtssUpdMsgHeader))
        fun (ret : Int) =>
          if ret ≤ 0 ∨ ret ≠ sizeofRtssUpdMsgHeader then .ret rtssUpdEErr else .ret rtssUpdEOk := by
  refine congrArg (Prog.op (S := HelloSig) _) (funext fun (ret : Int) => ?_)
  exact Prog.expand_ite (S := UpdSig) (T := HelloSig) _ (ret ≤ 0 ∨ ret ≠ sizeofRtssUpdMsgHeader)
    (.ret rtssUpdEErr) (.ret rtssUpdEOk)

def PingVars.packed (v : PingVars) (txMsg : Mem) : PingVars :=
  { v with
    txMsg := txMsg
    rxMsg := rtssUpdPingRxMsgPack
    pingRetryCnt := v.pingRetryCnt + 1 }

/-- An attempt with a channel to write to: one write, and what follows from its outcome. -/
theorem pingSend_eq {call : PingCall} {v : PingVars} {txMsg : Mem} {handle : RtssMbHandle}
    (hpack : rtssUpdPingTxMsgPack = some txMsg) (hhandle : call.pTxClientData = some handle)
    (herr : ¬ v.pingErrCnt > rtssUpdPingErrCnt) :
    pingSend call v =
      Prog.op (S := HelloSig) (.upd (.mbWrite handle txMsg sizeofRtssUpdMsgHeader))
        fun (ret : Int) =>
          if ret ≤ 0 ∨ ret ≠ sizeofRtssUpdMsgHeader then
            Hello.chanReset call.pTxClientData >>= fun _ =>
              Hello.chanReset call.pRxClientData >>= fun _ =>
                .ret (.inl (.ping (v.packed txMsg).failed))
          else
            .ret (.inl (.recovery (v.packed txMsg))) := by
  rw [pingSend, if_neg herr]
  simp only [hpack, hhandle, lift_sendMsg]
  refine congrArg (Prog.op (S := HelloSig) _) (funext fun (ret : Int) => ?_)
  by_cases hbad : ret ≤ 0 ∨ ret ≠ sizeofRtssUpdMsgHeader
  · simp only [if_pos hbad]
    rfl
  · simp only [if_neg hbad]
    rfl

end RtssMailbox
