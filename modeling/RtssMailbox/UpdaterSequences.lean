import RtssMailbox.UpdaterCommands

/-!
The four update sequences. Each sends its commands one after the other and waits
for a response after each; what a response says is kept in the handshake state,
which later steps read. A step that fails ends the sequence with `EXIT_FAILURE`.
-/
namespace RtssMailbox
open Effects ByteMemory

/-- `rtss_updater_handshake_t`, as far as the sequences use it. -/
structure Handshake where
  msgId : UInt32
  respStatus : UInt32
  numImagesBoot : UInt32
  numImagesDigest : UInt32
  chkGptPrimSize : UInt32
  chkGptSecSize : UInt32
  rtssAddr : UInt32
  primGptHeaderCrcStatus : UInt32
  primGptEntryCrcStatus : UInt32
  secGptHeaderCrcStatus : UInt32
  secGptEntryCrcStatus : UInt32
  primaryGptPartitionEntryCrc : UInt32
  secondaryGptPartitionEntryCrc : UInt32
  logicGuidASwapped : UInt32
  rbtflsbufAddr : UInt32
  rbtflsbufLen : UInt32
  rbtflsbufCrc : UInt32
  bootPartitionPass : UInt32
  bootPartitionFail : UInt32
  updImgEntryType : Nat → RtssUpdImageEntry
  gpthdr : Mem
  metadatapartitionsz : UInt32

def Handshake.zero : Handshake :=
  ⟨0, 0, 0, 0, 0, 0, 0, 0, 0, 0, 0, 0, 0, 0, 0, 0, 0, 0, 0, fun _ => ⟨[], 0, 0, 0, 0, 0⟩, zeroed,
    0⟩

def bodyWord (rxMsg : Mem) (i : Nat) : UInt32 := load32 rxMsg (RtssUpdMsgHeader.body + 4 * i)

/-- What the handler keeps of a verified message; every other kind is only logged. -/
def Handshake.record (hs : Handshake) (rxMsg : Mem) : Handshake :=
  let msgId := load32 rxMsg RtssUpdMsgHeader.msgId
  if msgId = rtssUpdMsgCheckGpt then
    { hs with
      chkGptPrimSize := bodyWord rxMsg 2
      chkGptSecSize := bodyWord rxMsg 5
      primaryGptPartitionEntryCrc := bodyWord rxMsg 6
      secondaryGptPartitionEntryCrc := bodyWord rxMsg 7 }
  else if msgId = rtssUpdMsgQueryImages then
    { hs with numImagesBoot := bodyWord rxMsg 0 }
  else if msgId = rtssUpdMsgReadImage then
    { hs with
      rbtflsbufAddr := bodyWord rxMsg 10
      rbtflsbufLen := bodyWord rxMsg 11
      rbtflsbufCrc := bodyWord rxMsg 12 }
  else if msgId = rtssUpdMsgGetBootinfo then
    { hs with
      numImagesBoot := bodyWord rxMsg 6
      rtssAddr := bodyWord rxMsg 7
      primGptHeaderCrcStatus := bodyWord rxMsg 0
      primGptEntryCrcStatus := bodyWord rxMsg 1
      secGptHeaderCrcStatus := bodyWord rxMsg 3
      secGptEntryCrcStatus := bodyWord rxMsg 4
      primaryGptPartitionEntryCrc := bodyWord rxMsg 10
      secondaryGptPartitionEntryCrc := bodyWord rxMsg 11
      logicGuidASwapped := (bodyWord rxMsg 12 >>> 7) &&& 1 }
  else if msgId = rtssUpdMsgGetOtaMetadatainfo then
    { hs with metadatapartitionsz := bodyWord rxMsg 0 }
  else if msgId = rtssUpdMsgGetImageDigest then
    { hs with numImagesDigest := bodyWord rxMsg 0 }
  else
    hs

def rtssUpdaterCbkNotifyHandler (u : Updater) (hs : Handshake) : Prog UpdSig Handshake := do
  let (ret, rxMsg) ← rtssUpdReadMsg (some zeroed) (some u.rxClientData)
  let some rxMsg := rxMsg | return hs
  if ret ≠ rtssUpdEOk then
    return hs
  -- The status is taken before the message is verified.
  let hs := { hs with
    respStatus := load32 rxMsg RtssUpdMsgHeader.status
    msgId := load32 rxMsg RtssUpdMsgHeader.msgId }
  let bckCrc := load32 rxMsg RtssUpdMsgHeader.headerCrc
  let rxMsg := store32 rxMsg RtssUpdMsgHeader.headerCrc 0
  if rtssUpdVerifyCrc32 bckCrc (loadBytes rxMsg 0 sizeofRtssUpdMsgHeader) ≠ rtssUpdEOk then
    return hs
  return hs.record rxMsg

/-- One round of the loop over the image entries, for entry `k`. -/
def Handshake.countPartition (hs : Handshake) (k : Nat) : Option Handshake :=
  let bootPartition := (hs.updImgEntryType k).bootPartition
  if bootPartition = 0 then
    some { hs with bootPartitionPass := hs.bootPartitionPass + 1 }
  else if bootPartition = 1 then
    some { hs with bootPartitionFail := hs.bootPartitionFail + 1 }
  else if bootPartition = 2 then
    some { hs with bootPartitionPass := hs.bootPartitionPass + 1 }
  else
    none

def rtssUpdaterGetBlPartitionStatus (hs : Handshake) : Option Handshake :=
  if hs.numImagesBoot = 0 then
    none
  else
    (List.range hs.numImagesBoot.toNat).foldlM Handshake.countPartition hs

def rtssUpdaterValidateBootInfo (hs : Handshake) : UInt32 :=
  if hs.primGptEntryCrcStatus = 1 ∧ hs.primGptHeaderCrcStatus = 1 ∧
      hs.secGptEntryCrcStatus = 1 ∧ hs.secGptHeaderCrcStatus = 1 then
    if hs.bootPartitionFail > 0 then
      exitFailure
    else if hs.numImagesBoot = hs.bootPartitionPass then
      exitSuccess
    else
      exitFailure
  else
    exitFailure

/-! A sequence in progress. Without a result it has gone to its exit with `EXIT_FAILURE`. -/

abbrev Sequence (α : Type) := OptionT (Prog UpdSig) α

namespace Sequence

def lift {α : Type} (p : Prog UpdSig α) : Sequence α := OptionT.lift p

def ofOption {α : Type} (r : Option α) : Sequence α := OptionT.mk (pure r)

def check (ret : UInt32) : Sequence Unit :=
  if ret = exitSuccess then pure () else failure

/-- The wait for a response; the sequence goes on if the status that the handshake
state has then is zero. -/
def response (u : Updater) (hs : Handshake) : Sequence Handshake := do
  let hs ← lift (rtssUpdaterCbkNotifyHandler u hs)
  if hs.respStatus ≠ 0 then
    failure
  return hs

/-- A command and its response. -/
def exchange (u : Updater) (hs : Handshake) (cmd : Prog UpdSig UInt32) : Sequence Handshake := do
  check (← lift cmd)
  response u hs

theorem lift_bind_run {α β : Type} (p : Prog UpdSig α) (f : α → Sequence β) :
    (lift p >>= f).run = p >>= fun a => (f a).run :=
  Prog.bind_bind p (fun a => .ret (some a)) _

theorem response_run (u : Updater) (hs : Handshake) :
    (response u hs).run = rtssUpdaterCbkNotifyHandler u hs >>= fun hs =>
      if hs.respStatus ≠ 0 then .ret none else .ret (some hs) := by
  rw [response, lift_bind_run]
  refine congrArg (rtssUpdaterCbkNotifyHandler u hs >>= ·) (funext fun hs => ?_)
  split <;> rfl

theorem exchange_run (u : Updater) (hs : Handshake) (cmd : Prog UpdSig UInt32) :
    (exchange u hs cmd).run = cmd >>= fun ret =>
      if ret = exitSuccess then (response u hs).run else .ret none := by
  rw [exchange, lift_bind_run]
  refine congrArg (cmd >>= ·) (funext fun ret => ?_)
  rw [check]
  split <;> rfl

def status (seq : Sequence Unit) : Prog UpdSig UInt32 := do
  match ← seq.run with
  | some _ => return exitSuccess
  | none => return exitFailure

end Sequence

open Sequence

def rtssUpdaterMset (dst : Nat) (len : UInt32) : Prog UpdSig Unit := do
  if dst = null then
    return ()
  Upd.otaStore 0 (List.replicate len.toNat 0)

/-- The metadata partition is asked for and read into the OTA buffer. -/
def readMetadata (u : Updater) (hs : Handshake) : Sequence Handshake := do
  let hs ← exchange u hs (rtssUpdaterGetMetadataInfo u)
  let bufLen := rtssUpdaterAlignnum 1 16 hs.metadatapartitionsz
  lift (rtssUpdaterMset u.pVa bufLen)
  exchange u hs (rtssUpdaterGetMetadata u u.sVa bufLen)

/-- The boot information is asked for, read from the OTA buffer and judged. -/
def checkBootInfo (u : Updater) (cfg : ImgConfig) (hs : Handshake) : Sequence Handshake := do
  check (← lift (rtssUpdaterPopulateBlInfoContext cfg u.pVa))
  let numImages := UInt32.ofNat cfg.numberOfImages
  let bufLen := numImages * UInt32.ofNat sizeofRtssUpdImageEntry
  let hs ← exchange u hs (rtssUpdaterGetBlInfo u numImages bufLen 0 u.sVa u.pVa)
  let (ret, entries) ← lift
    (rtssUpdaterGetBlInfoContext hs.updImgEntryType u.pVa hs.numImagesBoot)
  check ret
  let hs ← ofOption (rtssUpdaterGetBlPartitionStatus { hs with updImgEntryType := entries })
  check (rtssUpdaterValidateBootInfo hs)
  return hs

/-- A file is loaded into the OTA buffer and flashed from there. The length is unsigned,
so the test of the load only finds a length of zero. -/
def flashFile (u : Updater) (path imageNm : CString) (partition flashtype : UInt32)
    (hs : Handshake) : Sequence Handshake := do
  let ret ← lift (rtssUpdaterLoadfile path u.pVa rtssUpdGetCacheLineSz.toNat)
  let bufLen := UInt32.ofInt ret
  if bufLen ≤ 0 then
    failure
  exchange u hs (rtssUpdaterFlashimg u (some imageNm) 0 partition u.sVa bufLen 0 flashtype u.pVa)

/-- The files of the configuration with these numbers, in order. -/
def flashPaths (u : Updater) (cfg : ImgConfig) (partition flashtype : UInt32) :
    List Nat → Handshake → Sequence Handshake
  | [], hs => pure hs
  | imgcur :: rest, hs => do
      let hs ← flashFile u (cfg.imagePaths imgcur) (cfg.imageNames imgcur) partition flashtype hs
      flashPaths u cfg partition flashtype rest hs

def rtssUpdaterPrebootDemosequence (u : Updater) (hs : Handshake) : Prog UpdSig UInt32 :=
  status do
    let cfg := u.imgParseInf
    let hs ← exchange u hs (rtssUpdaterChkgpt u)
    let hs ← readMetadata u hs
    let hs ← checkBootInfo u cfg hs
    let hs ← flashPaths u cfg 1 2 (List.range cfg.numberOfPaths) hs
    let numImages := UInt32.ofNat cfg.numberOfImages
    let bufLen := numImages * UInt32.ofNat sizeofRtssUpdUpdateGptEntry + 0x6000
    check (← lift (rtssUpdaterPopulateGptUpdateContext cfg u.pVa))
    let _ ← exchange u hs (rtssUpdaterUpdategpt u numImages 0 u.sVa bufLen 0 u.pVa)
    if u.rstskip = 0 then
      lift Upd.reboot

/-- The images with these numbers are read from the primary partition and flashed to
the secondary one, with the buffer that the response to the read names. -/
def mirrorImages (u : Updater) (cfg : ImgConfig) : List Nat → Handshake → Sequence Handshake
  | [], hs => pure hs
  | imgcur :: rest, hs => do
      let imageNm := cfg.imageNames imgcur
      let bufLen := (hs.updImgEntryType imgcur).partitionSizeA
      let hs ← exchange u hs (rtssUpdaterReadimg u (some imageNm) 0 0 u.sVa bufLen)
      let hs ← exchange u hs (rtssUpdaterFlashimg u (some imageNm) 0 1 hs.rbtflsbufAddr
        hs.rbtflsbufLen hs.rbtflsbufCrc 1 u.pVa)
      mirrorImages u cfg rest hs

def rtssUpdaterPostbootDemosequence (u : Updater) (hs : Handshake) : Prog UpdSig UInt32 :=
  status do
    let cfg := u.imgParseInf
    let hs ← exchange u hs (rtssUpdaterUpdateOtaDoneState u 0 0 0 0)
    if u.ackstate = 1 then
      return ()
    let hs ← checkBootInfo u cfg hs
    let hs ← exchange u hs (rtssUpdaterChkgpt u)
    let hs ← mirrorImages u cfg (List.range cfg.numberOfImages) hs
    let bufLen := rtssUpdaterAlignnum 2 16 hs.chkGptPrimSize
    let hs ← exchange u hs (rtssUpdaterFixgpt u 0 u.sVa bufLen 1)
    let hs ← exchange u hs (rtssUpdaterRedundancyEstablished u 0 0 0 0)
    let hs ← exchange u hs (rtssUpdaterGetMetadataInfo u)
    let bufLen := rtssUpdaterAlignnum 1 16 hs.metadatapartitionsz
    let hs ← exchange u hs (rtssUpdaterSetMetadata u u.sVa bufLen 0 u.pVa)
    let _ ← exchange u hs (rtssUpdaterUpdateArb u 0 0 0 0)
    return ()

/-- The first bank to flash and the one behind the last; without an option both are flashed. -/
def selectBanks (partition : UInt32) : Option (Nat × Nat) :=
  if partition = 101 then some (0, 2)
  else if partition = 0 then some (0, 1)
  else if partition = 1 then some (1, 2)
  else none

/-- What the flasher does for each of these banks. -/
def forBanks (flash : UInt32 → Handshake → Sequence Handshake) :
    List Nat → Handshake → Sequence Handshake
  | [], hs => pure hs
  | bank :: rest, hs => do
      let hs ← flash (UInt32.ofNat bank) hs
      forBanks flash rest hs

def rtssUpdaterDevprogFlasher (u : Updater) (hs : Handshake) : Prog UpdSig UInt32 :=
  status do
    let hs ← exchange u hs (rtssUpdaterChkgpt u)
    let hs ← readMetadata u hs
    let hs ← checkBootInfo u (rtssUpdaterGetImgInfoDefault u.imgParseInf) hs
    let (startBank, partition) ← ofOption (selectBanks u.partition)
    let banks := List.range' startBank (partition - startBank)
    if u.skipConfigFile = 1 then
      if u.imgPath = [] ∨ u.imgIdentifier = [] then
        failure
      let _ ← forBanks (fun bank => flashFile u u.imgPath u.imgIdentifier bank 1) banks hs
      return ()
    else
      let cfg ← OptionT.mk (rtssUpdaterGetImgParseInfo u.otaCfgPath)
      let _ ← forBanks (fun bank => flashPaths u cfg bank 1 (List.range cfg.numberOfPaths))
        banks hs
      return ()

/-- The GPT file is read into a buffer on this heap. -/
def rtssUpdaterImageUpdateGptAt (heap : Mem) (u : Updater) (hs : Handshake) :
    Prog UpdSig UInt32 :=
  status do
    let hs ← exchange u hs (rtssUpdaterChkgpt u)
    let bufLen := rtssUpdaterAlignnum 1 16 hs.chkGptPrimSize
    lift (rtssUpdaterMset u.pVa bufLen)
    let hs ← exchange u hs (rtssUpdaterReadgpt u 0 u.sVa bufLen u.pVa)
    let (ret, gpthdr) ← lift (rtssUpdaterGetGpthdr u.pVa hs.gpthdr)
    check ret
    let hs := { hs with gpthdr := gpthdr }
    let (gptbuf, gptbufsz) ← OptionT.mk (rtssUpdaterModifygptAt heap u.gptUpdate hs.gpthdr)
    let bufLen := UInt32.ofNat gptbufsz
    lift (rtssUpdaterMset u.pVa bufLen)
    let hs ← exchange u hs (rtssUpdaterWritegpt u 0 (some gptbuf) u.sVa bufLen 0 u.pVa)
    let bufLen := rtssUpdaterAlignnum 2 16 hs.chkGptPrimSize
    let _ ← exchange u hs (rtssUpdaterFixgpt u 1 u.sVa bufLen 1)
    return ()

def rtssUpdaterImageUpdateGpt : Updater → Handshake → Prog UpdSig UInt32 :=
  rtssUpdaterImageUpdateGptAt zeroed

/-- The sequence that `main` picks. -/
inductive SequenceId where
  | preboot
  | postboot
  | flasher
  | gptUpdate

def SequenceId.prog : SequenceId → Updater → Handshake → Prog UpdSig UInt32
  | .preboot => rtssUpdaterPrebootDemosequence
  | .postboot => rtssUpdaterPostbootDemosequence
  | .flasher => rtssUpdaterDevprogFlasher
  | .gptUpdate => rtssUpdaterImageUpdateGpt

/-- ... with a GPT file that is read into a buffer on this heap. -/
def SequenceId.progAt (heap : Mem) : SequenceId → Updater → Handshake → Prog UpdSig UInt32
  | .gptUpdate => rtssUpdaterImageUpdateGptAt heap
  | seq => seq.prog

/-! A world to run the sequences in. -/

/-- The responses to come, each with what the RTSS puts at the start of the OTA buffer
before it; the buffer; the configuration and the files; what is left of the open file. -/
structure World where
  responses : List (Mem × List UInt8)
  ota : Mem
  cfg : Option ImgConfig
  files : List (CString × List UInt8)
  opened : List UInt8

/-- What an operation does there. A read without a response fails with `EINTR`. -/
def World.step : Handler UpdSig World
  | .mbWrite _ _ sz, w => ((sz : Int), w)
  | .mbRead _ buf sz, w =>
      match w.responses with
      | [] => ((-eintr, buf), w)
      | (msg, bytes) :: rest =>
          (((sz : Int), msg), { w with responses := rest, ota := storeBytes w.ota 0 bytes })
  | .otaLoad offset _, w => (fun i => w.ota (offset + i), w)
  | .otaStore offset bytes, w => ((), { w with ota := storeBytes w.ota offset bytes })
  | .cfgfileRead _, w => (w.cfg, w)
  | .stat path, w => ((w.files.lookup path).map fun bytes => (256, bytes.length), w)
  | .access path, w => ((w.files.lookup path).isSome, w)
  | .open path, w =>
      match w.files.lookup path with
      | none => ((-1 : Int), w)
      | some bytes => ((5 : Int), { w with opened := bytes })
  | .fopen path, w =>
      match w.files.lookup path with
      | none => (false, w)
      | some bytes => (true, { w with opened := bytes })
  | .pread _ count, w => (some ⟨w.opened.take count, List.length_take_le _ _⟩, w)
  | .ftell, w => ((w.opened.length, (0 : Int)), w)
  | .calloc _, w => (true, w)
  | .fread count, w =>
      (⟨w.opened.take count, List.length_take_le _ _⟩, { w with opened := w.opened.drop count })
  | .close _, w | .free, w | .fclose, w | .reboot, w => ((), w)

/-- Both channels are open, and one image is configured. -/
def Updater.sample : Updater where
  pVa := 65536
  sVa := 0x90E00000
  txClientData := { RtssMbHandle.blank with fd := 3 }
  rxClientData := { RtssMbHandle.blank with fd := 4 }
  imgParseInf := ⟨1, 1, fun _ => cString "SAIL_HYP", fun _ => cString "/var/sailhyp.elf"⟩
  imgPath := []
  otaCfgPath := cString "/var/otacfg"
  imgIdentifier := []
  gptUpdate := []
  partition := 101
  skipConfigFile := 0
  ackstate := 0
  rstskip := 0

def World.sample (responses : List (Mem × List UInt8)) : World where
  responses := responses
  ota := zeroed
  cfg := some Updater.sample.imgParseInf
  files := [(cString "/var/sailhyp.elf", [127, 69, 76, 70])]
  opened := []

/-- A response with this status and body, as the RTSS sends it. -/
def sampleResponse (msgId status : UInt32) (words : List UInt32) : Mem :=
  let msg := store32 (rtssUpdMsg msgId (storeWords zeroed RtssUpdMsgHeader.body words))
    RtssUpdMsgHeader.status status
  store32 msg RtssUpdMsgHeader.headerCrc
    ((rtssUpdCalculateCrc32 (loadBytes msg 0 sizeofRtssUpdMsgHeader)).getD 0)

/-- The responses until one image is reported, below valid GPTs, with this image entry. -/
def sampleBootResponses (entry : List UInt8) : List (Mem × List UInt8) :=
  [(sampleResponse rtssUpdMsgCheckGpt 0 [], []),
    (sampleResponse rtssUpdMsgGetOtaMetadatainfo 0 [], []),
    (sampleResponse rtssUpdMsgGetOtaMetadata 0 [], []),
    (sampleResponse rtssUpdMsgGetBootinfo 0 [1, 1, 0, 1, 1, 0, 1], entry)]

end RtssMailbox
