import RtssMailbox.GptPartition
import RtssMailbox.UpdaterMessages

/-!
The commands of the updater. Each packs one message, with the CRC of the buffer
that it announces where the caller gave none, and sends it. The pointer arguments
are addresses, which only matter for being `NULL`.
-/
namespace RtssMailbox
open Effects ByteMemory

def rtssUpdGetCacheLineSz : UInt32 := 64

def rtssUpdaterAlignnum (mult alignment num : UInt32) : UInt32 :=
  (mult * num + alignment - 1) &&& ~~~(alignment - 1)

def sizeofRtssUpdImageEntry : Nat := 52
def sizeofRtssUpdUpdateGptEntry : Nat := 36

/-- The header CRC is taken over the message with a zero in its place. -/
def sealAndSend (u : Updater) (msg : Mem) : Prog UpdSig UInt32 :=
  match rtssUpdCalculateCrc32 (loadBytes msg 0 sizeofRtssUpdMsgHeader) with
  | none => pure exitFailure
  | some crc => do
      let ret ← rtssUpdSendMsg (some (store32 msg RtssUpdMsgHeader.headerCrc crc))
        (some u.txClientData)
      if ret ≠ rtssUpdEOk then
        return exitFailure
      return exitSuccess

/-- A message whose body is made of words alone. -/
def sendWords (u : Updater) (msgId : UInt32) (words : List UInt32) : Prog UpdSig UInt32 :=
  sealAndSend u (rtssUpdMsg msgId (storeWords zeroed RtssUpdMsgHeader.body words))

/-- The CRC of the first `bufLen` bytes of the OTA buffer, unless the caller gave one. -/
def collectCrc (bufCrc bufLen : UInt32) : Prog UpdSig (Option UInt32) := do
  if bufCrc ≠ 0 then
    return some bufCrc
  let bytes ← Upd.otaLoad 0 bufLen.toNat
  return rtssUpdCalculateCrc32 bytes

def rtssUpdaterChkgpt (u : Updater) : Prog UpdSig UInt32 :=
  sendWords u rtssUpdMsgCheckGpt [0, 0, 0, 0, 0, 0]

def rtssUpdaterGetMetadataInfo (u : Updater) : Prog UpdSig UInt32 :=
  sendWords u rtssUpdMsgGetOtaMetadatainfo []

def rtssUpdaterGetMetadata (u : Updater) (sVa bufLen : UInt32) : Prog UpdSig UInt32 :=
  sendWords u rtssUpdMsgGetOtaMetadata [sVa, bufLen, 0]

def rtssUpdaterUpdateArb (u : Updater) (d1 d2 d3 d4 : UInt32) : Prog UpdSig UInt32 :=
  sendWords u rtssUpdMsgUpdateArb [d1, d2, d3, d4]

def rtssUpdaterUpdateOtaDoneState (u : Updater) (d1 d2 d3 d4 : UInt32) : Prog UpdSig UInt32 :=
  sendWords u rtssUpdMsgOtaDone [d1, d2, d3, d4]

def rtssUpdaterRedundancyEstablished (u : Updater) (d1 d2 d3 d4 : UInt32) :
    Prog UpdSig UInt32 :=
  sendWords u rtssUpdMsgRedundancyEstablished [d1, d2, d3, d4]

def rtssUpdaterFixgpt (u : Updater) (gptId sVa bufLen fixtype : UInt32) : Prog UpdSig UInt32 :=
  let body := storeBytes zeroed RtssUpdMsgHeader.body [gptId.toUInt8, 0, 0, fixtype.toUInt8]
  sealAndSend u
    (rtssUpdMsg rtssUpdMsgFixGpt (storeWords body (RtssUpdMsgHeader.body + 4) [sVa, bufLen]))

def rtssUpdaterReadgpt (u : Updater) (gptId sVa bufLen : UInt32) (pVa : Nat) :
    Prog UpdSig UInt32 := do
  if pVa = null then
    return exitFailure
  let some crc ← collectCrc 0 bufLen | return exitFailure
  sendWords u rtssUpdMsgReadGpt [gptId, sVa, bufLen, crc]

def rtssUpdaterUpdategpt (u : Updater) (numImages gpt sVa bufLen bufCrc : UInt32) (pVa : Nat) :
    Prog UpdSig UInt32 := do
  let actualSize := numImages * UInt32.ofNat sizeofRtssUpdUpdateGptEntry
  if pVa = null then
    return exitFailure
  let some crc ← collectCrc bufCrc actualSize | return exitFailure
  sendWords u rtssUpdMsgUpdateGpt [gpt, numImages, sVa, bufLen, crc]

def rtssUpdaterSetMetadata (u : Updater) (sVa bufLen bufCrc : UInt32) (pVa : Nat) :
    Prog UpdSig UInt32 := do
  if pVa = null then
    return exitFailure
  let some crc ← collectCrc bufCrc bufLen | return exitFailure
  sendWords u rtssUpdMsgSetOtaMetadata [sVa, bufLen, crc]

/-- A length that the caller gives is used, whether it fits the images or not. -/
def rtssUpdaterGetBlInfo (u : Updater) (numImages bufLen bufCrc sVa : UInt32) (pVa : Nat) :
    Prog UpdSig UInt32 := do
  if pVa = null then
    return exitFailure
  let imgLen := numImages * UInt32.ofNat sizeofRtssUpdImageEntry
  let imgLen := if bufLen ≠ 0 ∧ bufLen ≠ imgLen then bufLen else imgLen
  let some crc ← collectCrc bufCrc imgLen | return exitFailure
  sendWords u rtssUpdMsgGetBootinfo [0, 0, 0, 0, 0, 0, numImages, sVa, imgLen, crc]

/-- A body that starts with the name of an image. -/
def namedBody (imageNm : CString) : Mem :=
  storeBytes zeroed RtssUpdMsgHeader.body (imageNm.take rtssUpdImgNameLen)

def rtssUpdaterReadimg (u : Updater) (imageNm : Option CString)
    (partition gpt sVa bufLen : UInt32) : Prog UpdSig UInt32 := do
  let some imageNm := imageNm | return exitFailure
  sealAndSend u (rtssUpdMsg rtssUpdMsgReadImage
    (storeWords (namedBody imageNm) (RtssUpdMsgHeader.body + rtssUpdImgNameLen)
      [partition, gpt, sVa, bufLen, 0]))

def rtssUpdaterFlashimg (u : Updater) (imageNm : Option CString)
    (gpt partition sVa bufLen bufCrc flashtype : UInt32) (pVa : Nat) : Prog UpdSig UInt32 := do
  if pVa = null then
    return exitFailure
  let some imageNm := imageNm | return exitFailure
  let some crc ← collectCrc bufCrc bufLen | return exitFailure
  let body := storeBytes (namedBody imageNm) (RtssUpdMsgHeader.body + rtssUpdImgNameLen)
    [partition.toUInt8, 0, 0, flashtype.toUInt8]
  sealAndSend u (rtssUpdMsg rtssUpdMsgFlashImage
    (storeWords body (RtssUpdMsgHeader.body + rtssUpdImgNameLen + 4) [gpt, sVa, bufLen, crc]))

/-! Files. -/

/-- The size of the file with its padding, or `-1`. -/
def rtssUpdaterLoadfile (path : CString) (dst : Nat) (alignment : Nat) : Prog UpdSig Int := do
  if dst = null then
    return -1
  let some (mode, fsize) ← Upd.stat path | return -1
  if mode &&& 256 = 0 then
    return -1
  let fd ← Upd.open' path
  if fd = -1 then
    return -1
  let psize := if fsize % alignment = 0 then 0 else alignment - fsize % alignment
  match ← Upd.pread fd fsize with
  | none =>
      Upd.close fd
      return -1
  | some bytes =>
      Upd.otaStore 0 bytes.val
      if bytes.val.length ≠ fsize then
        Upd.close fd
        return -1
      if psize > 0 then
        Upd.otaStore fsize [0]
        Upd.otaStore fsize (List.replicate psize 0)
        Upd.close fd
        return int32 (fsize + psize)
      Upd.close fd
      return int32 fsize

/-! GPT files; the header is at the second block. -/

def lbaSize : Nat := 0x1000

/-- The loop that reads the GPT file. Its count is of the last read alone. A file of
`bufSize` bytes has no more than as many reads that are not empty, so the bound of
the callers does not cut the loop short. -/
def readGptFile (bufSize : Nat) : (fuel numBytes : Nat) → Mem → Prog UpdSig (Option Mem)
  | 0, _, _ => pure none
  | fuel + 1, numBytes, bufGpt => do
      let bytes ← Upd.fread bufSize
      let bufGpt := storeBytes bufGpt numBytes bytes.val
      if bytes.val.length = 0 then
        return none
      if bytes.val.length < bufSize then
        readGptFile bufSize fuel bytes.val.length bufGpt
      else
        return some bufGpt

/-- The header of the file with two fields of the current header and a new CRC. -/
def modifyHeader (bufGpt gptHdr : Mem) : Mem :=
  let buf := storeBytes bufGpt (lbaSize + RtssGptHeader.alternateLba)
    (loadBytes gptHdr RtssGptHeader.alternateLba 8)
  let buf := storeBytes buf (lbaSize + RtssGptHeader.lastUsableLba)
    (loadBytes gptHdr RtssGptHeader.lastUsableLba 8)
  let buf := store32 buf (lbaSize + RtssGptHeader.headerCrc32) 0
  let headerSize := load32 buf (lbaSize + RtssGptHeader.headerSize)
  store32 buf (lbaSize + RtssGptHeader.headerCrc32)
    (rtssGptCalcCrc32 (loadBytes buf lbaSize headerSize.toNat) rtssGptCrc32SeedDefault)

/-- The contents of the GPT file with its header modified, and the file's size. Its buffer
is the caller's then, who never frees it. What it holds behind the file is what the heap held
at its place: zeros up to the end of the allocation, and anything after it. -/
def rtssUpdaterModifygptAt (heap : Mem) (gfile : CString) (gptHdr : Mem) :
    Prog UpdSig (Option (Mem × Nat)) := do
  let found ← Upd.access gfile
  if !found then
    return none
  let opened ← Upd.fopen gfile
  if !opened then
    return none
  let (bufSize, errno) ← Upd.ftell
  if errno ≠ 0 then
    Upd.fclose
    return none
  let cacheLine := rtssUpdGetCacheLineSz.toNat
  let allocated ← Upd.calloc
    (if bufSize % cacheLine ≠ 0 then bufSize + (cacheLine - bufSize % cacheLine) else bufSize)
  if !allocated then
    Upd.fclose
    return none
  match ← readGptFile bufSize (bufSize + 1) 0 heap with
  | none =>
      Upd.free
      Upd.fclose
      return none
  | some bufGpt =>
      Upd.fclose
      return some (modifyHeader bufGpt gptHdr, bufSize)

/-- ... on a heap of zeros. -/
def rtssUpdaterModifygpt : CString → Mem → Prog UpdSig (Option (Mem × Nat)) :=
  rtssUpdaterModifygptAt zeroed

/-- The padding after the file's bytes goes to the local buffer, which nothing reads again. -/
def rtssUpdaterWritegpt (u : Updater) (gptId : UInt8) (bufGpt : Option Mem)
    (sVa bufLen bufCrc : UInt32) (pVa : Nat) : Prog UpdSig UInt32 := do
  let some bufGpt := bufGpt | return exitFailure
  if pVa = null then
    return exitFailure
  let numEntries := load32 bufGpt (lbaSize + RtssGptHeader.numberOfPartitionEntries)
  let sizeOfPartitionEntry := load32 bufGpt (lbaSize + RtssGptHeader.sizeOfPartitionEntry)
  let headerSize := load32 bufGpt (lbaSize + RtssGptHeader.headerSize)
  let entriesBytes := numEntries.toNat * sizeOfPartitionEntry.toNat
  if entriesBytes > 4294967295 - headerSize.toNat ∨
      bufLen.toNat < headerSize.toNat + entriesBytes then
    return exitFailure
  Upd.otaStore 0 (loadBytes bufGpt lbaSize sizeofRtssGptHeader)
  Upd.otaStore sizeofRtssGptHeader (loadBytes bufGpt (2 * lbaSize) entriesBytes)
  if entriesBytes = 0 then
    return exitFailure
  let cacheLine := rtssUpdGetCacheLineSz
  let byteAllign := bufLen % cacheLine
  let bufLen := if byteAllign ≠ 0 then bufLen + (cacheLine - byteAllign) else bufLen
  let some crc ← collectCrc bufCrc bufLen | return exitFailure
  sendWords u rtssUpdMsgWriteGpt [gptId.toUInt32, sVa, bufLen, crc]

/-! Tables in the OTA buffer. -/

/-- The names of the images from number `i` on, each at the start of its entry. -/
def populateNames (cfg : ImgConfig) (entrySize : Nat) : (left i : Nat) → Prog UpdSig UInt32
  | 0, _ => pure exitSuccess
  | left + 1, i => do
      if cfg.imageNames i = [] then
        return exitFailure
      Upd.otaStore (entrySize * i) ((cfg.imageNames i).take rtssUpdImgNameLen)
      populateNames cfg entrySize left (i + 1)

/-- A zeroed table with one entry for each image. -/
def populateContext (cfg : ImgConfig) (entrySize pVa : Nat) : Prog UpdSig UInt32 := do
  if pVa = null then
    return exitFailure
  Upd.otaStore 0 (List.replicate (entrySize * cfg.numberOfImages) 0)
  populateNames cfg entrySize cfg.numberOfImages 0

def rtssUpdaterPopulateBlInfoContext (cfg : ImgConfig) (pVa : Nat) : Prog UpdSig UInt32 :=
  populateContext cfg sizeofRtssUpdImageEntry pVa

def rtssUpdaterPopulateGptUpdateContext (cfg : ImgConfig) (pVa : Nat) : Prog UpdSig UInt32 :=
  populateContext cfg sizeofRtssUpdUpdateGptEntry pVa

structure RtssUpdImageEntry where
  imgName : List UInt8
  bootPartition : UInt32
  bootGptId : UInt32
  partitionSizeA : UInt32
  partitionSizeB : UInt32
  isTwoGptTableEntriesMatching : UInt32

def RtssUpdImageEntry.ofBytes (m : Mem) : RtssUpdImageEntry :=
  ⟨loadBytes m 0 rtssUpdImgNameLen, load32 m 32, load32 m 36, load32 m 40, load32 m 44,
    load32 m 48⟩

/-- The entries from number `k` on; the destination is an array of five. -/
def readEntries : (left k : Nat) → (Nat → RtssUpdImageEntry) →
    Prog UpdSig (Nat → RtssUpdImageEntry)
  | 0, _, entries => pure entries
  | left + 1, k, entries => do
      let bytes ← Upd.otaLoad (sizeofRtssUpdImageEntry * k) sizeofRtssUpdImageEntry
      let entry := RtssUpdImageEntry.ofBytes fun p => bytes.getD p 0
      readEntries left (k + 1) fun i => if i = k then entry else entries i

def rtssUpdaterGetBlInfoContext (entries : Nat → RtssUpdImageEntry) (pVa : Nat)
    (numberOfImages : UInt32) : Prog UpdSig (UInt32 × (Nat → RtssUpdImageEntry)) := do
  if pVa = null ∨ numberOfImages = 0 then
    return (exitFailure, entries)
  let entries ← readEntries numberOfImages.toNat 0 entries
  return (exitSuccess, entries)

def rtssUpdaterSupportedImgNames : List CString :=
  ["SAIL_HYP", "SAIL_SW1", "SAIL_SW2", "SAIL_SW3", "SAIL_SW4"].map cString

/-- The supported names, with the paths and their number as they were. -/
def rtssUpdaterGetImgInfoDefault (cfg : ImgConfig) : ImgConfig :=
  { cfg with
    numberOfImages := rtssUpdaterSupportedImgNames.length
    imageNames := fun i => rtssUpdaterSupportedImgNames.getD i (cfg.imageNames i) }

def rtssUpdaterGetImgParseInfo (cfgfile : CString) : Prog UpdSig (Option ImgConfig) :=
  Upd.cfgfileRead cfgfile

/-- The GPT header that the RTSS has put into the OTA buffer. -/
def rtssUpdaterGetGpthdr (pVa : Nat) (gpthdr : Mem) : Prog UpdSig (UInt32 × Mem) := do
  if pVa = null then
    return (exitFailure, gpthdr)
  let bytes ← Upd.otaLoad 0 sizeofRtssGptHeader
  return (exitSuccess, fun p => bytes.getD p 0)

end RtssMailbox
