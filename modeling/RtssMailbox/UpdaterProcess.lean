import RtssMailbox.HandleLifetimes
import RtssMailbox.HandshakeFailure
import RtssMailbox.OtaReferenceCount
import RtssMailbox.StringArguments

/-!
The updater as a process. `main` reads the command line and the configuration, opens both
channels and maps the OTA buffer, waits for the RTSS, runs one of the sequences and gives
everything back. Opens and closes are the programs of the mailbox library, down to its
system calls.
-/
namespace RtssMailbox
open Effects Iteration Monitoring Monitor

/-! What an open returns. -/

/-- A call that fails sets `errno`. -/
def SetsErrno : Event DevSig → Prop
  | ⟨.open, (status : SysStatus)⟩ | ⟨.eventfd, (status : SysStatus)⟩ =>
      status.ret = -1 → status.errno ≠ 0
  | ⟨.getMbRegion _, (r : SysStatus × UInt32)⟩ => r.1.ret ≠ 0 → r.1.errno ≠ 0
  | ⟨.setEventFd _ _, (status : SysStatus)⟩ => status.ret ≠ 0 → status.errno ≠ 0
  | ⟨.mmap _ _, (r : Nat × Int)⟩ => r.1 = mapFailed ∨ r.1 = null → r.2 ≠ 0
  | _ => True

def errnoMonitor : Monitor DevSig Unit where
  next _ _ := ()
  allows _ _ := True
  assumes _ := SetsErrno

/-- A handle is stored exactly with the result zero. -/
def Stored (r : Int × Option RtssMbHandle) (_ : Unit) : Prop :=
  r.1 = rtssMbReturnSuccess ↔ r.2.isSome

section Open

theorem stored_none {ret : Int} (h : ret ≠ 0) : Stored (ret, none) () :=
  iff_of_false h Bool.false_ne_true

theorem stored_errno {errno : Int} (h : errno ≠ 0) : Stored (-errno, none) () :=
  stored_none (neg_ne_zero.mpr h)

theorem stored_some (handle : RtssMbHandle) : Stored (rtssMbReturnSuccess, some handle) () :=
  iff_of_true rfl rfl

/-- The result of a program in which nothing is asked of the calls before. -/
theorem stored_bind {α : Type} {p : Prog DevSig α} {f : α → Prog DevSig (Int × Option RtssMbHandle)}
    (hf : ∀ a, errnoMonitor.Keeps Stored (f a) ()) : errnoMonitor.Keeps Stored (p >>= f) () := by
  induction p with
  | ret a => exact hf a
  | op o k ih => exact ⟨trivial, fun a _ => ih a⟩

/-- An exit of an open that gives back what it has acquired. -/
theorem exit_stored {p : Prog DevSig Unit} {r : Int × Option RtssMbHandle} (h : Stored r ()) :
    errnoMonitor.Keeps Stored (p >>= fun _ => .ret r) () :=
  stored_bind fun _ => h

theorem rtssMbOpen_stores (dev : CString) :
    errnoMonitor.Keeps Stored (rtssMbOpen false (some dev)) () := by
  refine .guard (fun h => absurd h Bool.false_ne_true) fun _ => ⟨trivial, fun allocated _ => ?_⟩
  refine .guard (fun _ => stored_errno (by decide)) fun _ => ?_
  refine ⟨trivial, fun (nFd : SysStatus) hopen => .guard (fun hfail => ?_) fun _ => ?_⟩
  · exact exit_stored (p := Dev.free) (stored_errno (hopen hfail))
  have hclose : ∀ ret : Int, ret ≠ 0 → errnoMonitor.Keeps Stored
      (do Dev.close nFd.ret; Dev.free; return (ret, none)) () :=
    fun ret hret => exit_stored (p := do Dev.close nFd.ret; Dev.free) (stored_none hret)
  refine ⟨trivial, fun (status, size) hregion => .guard (fun hfail => ?_) fun _ => ?_⟩
  · exact hclose _ (neg_ne_zero.mpr (hregion hfail))
  refine .guard (fun _ => hclose _ (by decide)) fun _ => ?_
  refine ⟨trivial, fun (addr, errno) hmmap => .guard (fun hfail => ?_) fun _ => ?_⟩
  · exact hclose _ (neg_ne_zero.mpr (hmmap hfail))
  have hunmap : ∀ ret : Int, ret ≠ 0 → errnoMonitor.Keeps Stored
      (do Dev.munmap addr size; Dev.close nFd.ret; Dev.free; return (ret, none)) () :=
    fun ret hret => stored_bind (p := Dev.munmap addr size) fun _ => hclose ret hret
  refine stored_bind fun (nRet : Int) => .guard (fun _ => hunmap _ (by decide)) fun _ => ?_
  refine stored_bind fun (nRet, h) => .guard (fun hfail => hunmap _ hfail) fun _ => ?_
  refine .guard (fun _ => ?_) fun _ => .guard (fun _ => stored_some _) fun _ =>
    hunmap _ (by decide)
  refine ⟨trivial, fun (evfd : SysStatus) hevent => .guard (fun hfail => ?_) fun _ => ?_⟩
  · exact hunmap _ (neg_ne_zero.mpr (hevent hfail))
  refine ⟨trivial, fun (set : SysStatus) hset => .guard (fun hfail => ?_) fun _ => stored_some _⟩
  exact stored_bind (p := Dev.close evfd.ret) fun _ => hunmap _ (neg_ne_zero.mpr (hset hfail))

end Open

inductive MainOp where
  | dev (o : DevOp)
  | mbClose (o : CloseOp)
  | hello (o : HelloOp)
  | callocMmapData
  | freeMmapData
  | mapOta
  | munmapOta (addr : Nat) (size : UInt32)

def MainSig : Signature where
  Op := MainOp
  Res
    | .dev o => DevSig.Res o
    | .mbClose o => CloseSig.Res o
    | .hello o => HelloSig.Res o
    | .callocMmapData => Bool
    | .mapOta => MapAttempt
    | .freeMmapData | .munmapOta _ _ => Unit

namespace Main

def hello {α : Type} (p : Prog HelloSig α) : Prog MainSig α :=
  p.expand fun o => Prog.perform (S := MainSig) (.hello o)

def upd {α : Type} (p : Prog UpdSig α) : Prog MainSig α :=
  p.expand fun o => Prog.perform (S := MainSig) (.hello (.upd o))

/-- The caller only looks at the result, which is zero with a handle alone. -/
def mbOpen (dev : CString) : Prog MainSig (Option RtssMbHandle) := do
  let (ret, handle) ← (rtssMbOpen false (some dev)).expand fun o =>
    Prog.perform (S := MainSig) (.dev o)
  if ret ≠ 0 then
    return none
  return handle

def mbClose (handle : RtssMbHandle) : Prog MainSig Int :=
  (rtssMbClose (some handle)).expand fun o => Prog.perform (S := MainSig) (.mbClose o)

def callocMmapData : Prog MainSig Bool := Prog.perform (S := MainSig) .callocMmapData

def freeMmapData : Prog MainSig Unit := Prog.perform (S := MainSig) .freeMmapData

/-- What the system calls of `map_ota_buffer_locked` return. -/
def mapOta : Prog MainSig MapAttempt := Prog.perform (S := MainSig) .mapOta

def munmapOta (addr : Nat) (size : UInt32) : Prog MainSig Unit :=
  Prog.perform (S := MainSig) (.munmapOta addr size)

end Main

def updaterTxChannel : CString := cString "/dev/sail/ota0"
def updaterRxChannel : CString := cString "/dev/sail/ota1"

/-- What `rtss_updater_mem_init` leaves in the globals. -/
structure UpdaterMemory where
  txClientData : RtssMbHandle
  rxClientData : RtssMbHandle
  mmapData : OtaMmapData
  otaCtx : OtaContext

/-- No client has the buffer yet, so that the get tries to map it. -/
def rtssUpdaterMemInit : Prog MainSig (Option UpdaterMemory) := do
  let allocated ← Main.callocMmapData
  if !allocated then
    return none
  let some txClientData ← Main.mbOpen updaterTxChannel |
    Main.freeMmapData
    return none
  let some rxClientData ← Main.mbOpen updaterRxChannel |
    let _ ← Main.mbClose txClientData
    Main.freeMmapData
    return none
  let attempt ← Main.mapOta
  let (nRet, mmapData, otaCtx) := rtssUpdGetOtaBuffer attempt ⟨null, 0, 0⟩ rtssOtaCtx
  if nRet ≠ rtssUpdEOk then
    let _ ← Main.mbClose txClientData
    let _ ← Main.mbClose rxClientData
    Main.freeMmapData
    return none
  return some ⟨txClientData, rxClientData, mmapData, otaCtx⟩

def releaseOtaBuffer (mem : UpdaterMemory) : Prog MainSig Unit :=
  match rtssUpdReleaseOtaBuffer (some mem.mmapData) mem.otaCtx with
  | (_, _, some (addr, size), _) => Main.munmapOta addr size
  | (_, _, none, _) => pure ()

/-- A close that fails ends it early. -/
def rtssUpdaterMemDeinit (mem : UpdaterMemory) : Prog MainSig UInt32 := do
  let ret ← Main.mbClose mem.txClientData
  if ret ≠ 0 then
    return exitFailure
  let ret ← Main.mbClose mem.rxClientData
  if ret ≠ 0 then
    return exitFailure
  releaseOtaBuffer mem
  return exitSuccess

/-- A handshake passes fewer control points than the bound, see `isReady_keeps`. -/
def isReady (call : PingCall) : Prog HelloSig (Bool × RtssUpdLibHandle) := do
  match ← unroll (rtssUpdIsReady.body call) 101 rtssUpdIsReady.start with
  | some r => return r
  | none => return (false, call.lib)

/-- The state of the library when the process starts. -/
def rtssUpdLibHandle : RtssUpdLibHandle := ⟨.deinit, .none⟩

def UpdaterMemory.pingCall (mem : UpdaterMemory) : PingCall :=
  ⟨.spScall, some mem.txClientData, some mem.rxClientData, rtssUpdLibHandle⟩

def rtssUpdaterMemCtxInit : Prog MainSig (Option UpdaterMemory) := do
  let some mem ← rtssUpdaterMemInit | return none
  let (ready, _) ← Main.hello (isReady mem.pingCall)
  if !ready then
    return none
  return some mem

/-- The globals that the sequences read, without those of the command line. -/
def UpdaterMemory.updater (mem : UpdaterMemory) (imgParseInf : ImgConfig) : Updater where
  pVa := mem.mmapData.pOtaBaseAddr
  sVa := mem.mmapData.sVA
  txClientData := mem.txClientData
  rxClientData := mem.rxClientData
  imgParseInf := imgParseInf
  imgPath := []
  otaCfgPath := []
  imgIdentifier := []
  gptUpdate := []
  partition := 0
  skipConfigFile := 0
  ackstate := 0
  rstskip := 0

/-- The sequence that `main` picks; other requests run none. -/
def RtssUpdaterArgopt.sequence (args : RtssUpdaterArgopt) : Option SequenceId :=
  if args.gptUpdate.string ≠ [] then some .gptUpdate
  else if args.restart = 0 then some .preboot
  else if args.restart = 1 then some .postboot
  else if args.restart = 2 then some .flasher
  else none

/-- Whether `main` goes on without the configuration. -/
def RtssUpdaterArgopt.SkipsConfig (args : RtssUpdaterArgopt) : Prop :=
  args.restart = 2 ∧ args.skipConfigFile = 1 ∨
    args.gptUpdate.string ≠ [] ∧ args.restart = rtssUpdaterError

instance skipsConfig_decidable (args : RtssUpdaterArgopt) : Decidable args.SkipsConfig :=
  inferInstanceAs (Decidable (_ ∨ _))

/-- `ImgParseInf` before a configuration is read. -/
def ImgConfig.none : ImgConfig := ⟨0, 0, fun _ => [], fun _ => []⟩

def readConfig (args : RtssUpdaterArgopt) : Prog MainSig (Option ImgConfig) :=
  if args.SkipsConfig then
    pure (some .none)
  else
    Main.upd (Upd.cfgfileRead args.otaCfgPath.string)

/-- The sequence's result is not looked at. -/
def runSequence (args : RtssUpdaterArgopt) (u : Updater) : Prog MainSig Unit := do
  match args.sequence with
  | some id => do
      let _ ← Main.upd (id.prog u .zero)
      return ()
  | none => return ()

/-- `main`, with the options that `getopt_long` finds in a command line of `argc` words. -/
def rtssUpdaterMain (args : RtssUpdaterArgopt) (argc : Nat)
    (found : List (RtssUpdaterOption × Option CString)) : Prog MainSig UInt32 := do
  let some args := rtssUpdaterGetoptParser { args with gptUpdate := args.gptUpdate.terminate }
    argc found | return exitFailure
  let some imgParseInf ← readConfig args | return exitFailure
  let some mem ← rtssUpdaterMemCtxInit | return exitFailure
  runSequence args (args.updater (mem.updater imgParseInf))
  let _ ← rtssUpdaterMemDeinit mem
  return exitSuccess

end RtssMailbox
