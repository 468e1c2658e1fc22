import RtssMailbox.Library.ByteMemory
import RtssMailbox.UpdaterChecksums

/-!
The partition table on the flash. The module finds a header that its checks accept and
keeps it; a lookup then reads the entries of the table one by one into the same work
buffer. Header and entries are packed structures, given by the offsets of their fields.
-/
namespace RtssMailbox
open ByteMemory

def rtssGptSignature : List UInt8 := [0x45, 0x46, 0x49, 0x20, 0x50, 0x41, 0x52, 0x54]
def rtssGptSignatureSize : Nat := 8
def rtssGptNorLbaSz : UInt32 := 4096
def rtssGptTableNull : UInt32 := 0
def rtssGptTablePrimary : UInt32 := 1
def rtssGptTableSecondary : UInt32 := 2

/-! Fields of `rtss_gpt_header_t`. -/

namespace RtssGptHeader
def signature : Nat := 0
def headerSize : Nat := 12
def headerCrc32 : Nat := 16
def alternateLba : Nat := 32
def lastUsableLba : Nat := 48
def partitionEntryLba : Nat := 72
def numberOfPartitionEntries : Nat := 80
def sizeOfPartitionEntry : Nat := 84
def partitionEntriesCrc32 : Nat := 88
end RtssGptHeader

def sizeofRtssGptHeader : Nat := 92

/-! Fields of `rtss_gpt_entry_t`. -/

namespace RtssGptEntry
def partitionTypeGuid : Nat := 0
def startingLba : Nat := 32
def endingLba : Nat := 40
end RtssGptEntry

def sizeofRtssGptEntry : Nat := 128

structure RtssGptGuid where
  data1 : UInt32
  data2 : UInt16
  data3 : UInt16
  data4 : List UInt8
  data4_length : data4.length = 8
deriving DecidableEq

/-- The GUID that a packed structure holds at an address. -/
def RtssGptGuid.load (m : Mem) (a : Nat) : RtssGptGuid where
  data1 := load32 m a
  data2 := load16 m (a + 4)
  data3 := load16 m (a + 6)
  data4 := loadBytes m (a + 8) 8
  data4_length := loadBytes_length _ _ _

/-- A read callback over a flash that nobody changes: the bytes that it puts at the start
of the buffer. It returns how many there are, which is no more than asked for. -/
structure GptReadCb where
  read : (startByte size : UInt32) → List UInt8
  length_le : ∀ startByte size, (read startByte size).length ≤ size.toNat

/-- The globals of the module; a pointer is given by what it points to. -/
structure GptGlobals where
  gptHdr : Mem
  gptPartitionInitDone : Bool
  gptEntryReadCb : Option GptReadCb
  gptBlockCount : UInt32
  gptWorkBuf : Option Mem
  gptWorkBufSz : UInt32
  gptReadAlignment : UInt32
  gptId : UInt32

/-- The initial values of the globals. -/
def GptGlobals.initial : GptGlobals := ⟨fun _ => 0, false, none, 0, none, 0, 0, 0⟩

/-- A callback that reads all that is asked for from a flash with this content. -/
def GptReadCb.ofFlash (flash : Mem) : GptReadCb where
  read startByte size := loadBytes flash startByte.toNat size.toNat
  length_le _ _ := Nat.le_of_eq (loadBytes_length _ _ _)

def structOf (bytes : List UInt8) : Mem := fun p => bytes.getD p 0

theorem structOf_eq (bytes : List UInt8) : structOf bytes = storeBytes (fun _ => 0) 0 bytes := by
  funext p
  rw [structOf, storeBytes, Nat.sub_zero]
  split
  · rfl
  · rw [List.getD_eq_getElem?_getD, List.getElem?_eq_none (by omega), Option.getD_none]

theorem loadBytes_structOf {bytes : List UInt8} {a n : Nat} (h : a + n ≤ bytes.length) :
    loadBytes (structOf bytes) a n = (bytes.drop a).take n := by
  have hinside := loadBytes_storeBytes_inside (fun _ => 0) 0 bytes a n h
  rwa [Nat.zero_add, ← structOf_eq] at hinside

theorem load32_structOf (before behind : List UInt8) (v : UInt32) :
    load32 (structOf (before ++ (le32 v ++ behind))) before.length = v := by
  have hinside : before.length + 4 ≤ (before ++ (le32 v ++ behind)).length := by
    rw [List.length_append, List.length_append, le32_length]
    omega
  rw [load32, loadBytes_structOf hinside, List.drop_left, List.take_left' (le32_length v),
    ofLe32_le32]

/-- The field for the CRC is zero while the CRC is taken. -/
def rtssGptVerifyHeaderCrc32 (hdr : Mem) (crc32Seed : UInt32) : Bool :=
  let crc := load32 hdr RtssGptHeader.headerCrc32
  let headerSize := load32 hdr RtssGptHeader.headerSize
  if headerSize.toNat > sizeofRtssGptHeader then
    false
  else
    crc == rtssGptCalcCrc32
      (loadBytes (store32 hdr RtssGptHeader.headerCrc32 0) 0 headerSize.toNat) crc32Seed

def gptEntryNumbers (hdr : Mem) : List UInt32 :=
  (List.range (load32 hdr RtssGptHeader.numberOfPartitionEntries).toNat).map UInt32.ofNat

/-- The running CRC over the entries with these numbers, without a result if one of them
is not read whole; and the work buffer after it. -/
def crcEntries (readCb : GptReadCb) (entryBase entrySize : UInt32) :
    List UInt32 → UInt32 → Mem → Option UInt32 × Mem
  | [], crc, buf => (some crc, buf)
  | i :: rest, crc, buf =>
      let bytes := readCb.read (entryBase + i * entrySize) entrySize
      let buf := storeBytes buf 0 bytes
      if UInt32.ofNat bytes.length ≠ entrySize then
        (none, buf)
      else
        crcEntries readCb entryBase entrySize rest
          ((loadBytes buf 0 bytes.length).foldl rtssGptCrc32Round crc) buf

def rtssGptVerifyPartitionEntryCrc32 (hdr buf : Mem) (readCb : GptReadCb)
    (gptWorkBufSz lbaSz crc32Seed : UInt32) : Bool × Mem :=
  let entrySize := load32 hdr RtssGptHeader.sizeOfPartitionEntry
  let entryBase := (load64 hdr RtssGptHeader.partitionEntryLba * lbaSz.toUInt64).toUInt32
  if entrySize > gptWorkBufSz then
    (false, buf)
  else
    match crcEntries readCb entryBase entrySize (gptEntryNumbers hdr) (0xFFFFFFFF ^^^ crc32Seed)
        buf with
    | (none, buf) => (false, buf)
    | (some crc, buf) =>
        (crc ^^^ 0xFFFFFFFF == load32 hdr RtssGptHeader.partitionEntriesCrc32, buf)

/-- The result with the header and the work buffer after the attempt. -/
def rtssGptPartitionTry (readCb : GptReadCb) (gptHdr buf : Mem)
    (gptWorkBufSz startAddr sz : UInt32) : Bool × Mem × Mem :=
  let bytes := readCb.read startAddr sz
  let buf := storeBytes buf 0 bytes
  if sz ≠ UInt32.ofNat bytes.length then
    (false, gptHdr, buf)
  else
    let gptHdr := structOf (loadBytes buf 0 sizeofRtssGptHeader)
    if loadBytes gptHdr RtssGptHeader.signature rtssGptSignatureSize ≠ rtssGptSignature then
      (false, gptHdr, buf)
    else if !rtssGptVerifyHeaderCrc32 gptHdr rtssGptCrc32SeedDefault then
      (false, gptHdr, buf)
    else
      let (verified, buf) := rtssGptVerifyPartitionEntryCrc32 gptHdr buf readCb gptWorkBufSz
        rtssGptNorLbaSz rtssGptCrc32SeedDefault
      (verified, gptHdr, buf)

/-- The size of a header read: the header's size, rounded up to the alignment. -/
def gptReadSize (alignment : UInt32) : UInt32 :=
  let gpthdrSz := UInt32.ofNat sizeofRtssGptHeader
  if gpthdrSz % alignment ≠ 0 then gpthdrSz + alignment - gpthdrSz % alignment else gpthdrSz

def rtssGptPartitionInit (blockCount : UInt32) (readCb : Option GptReadCb) (workBuf : Option Mem)
    (bufSz alignment : UInt32) (g : GptGlobals) : Bool × GptGlobals :=
  match readCb, workBuf with
  | some readCb, some workBuf =>
      if alignment = 0 then
        (false, g)
      else
        let g := { g with
          gptEntryReadCb := some readCb
          gptWorkBuf := some workBuf
          gptWorkBufSz := bufSz
          gptReadAlignment := alignment
          gptBlockCount := blockCount }
        let sz := gptReadSize alignment
        if sz > bufSz ∨ UInt32.ofNat sizeofRtssGptEntry > bufSz then
          (false, g)
        else
          match rtssGptPartitionTry readCb g.gptHdr workBuf bufSz rtssGptNorLbaSz sz with
          | (true, gptHdr, workBuf) =>
              (true, { g with
                gptHdr := gptHdr
                gptWorkBuf := some workBuf
                gptId := rtssGptTablePrimary
                gptPartitionInitDone := true })
          | (false, gptHdr, workBuf) =>
              match rtssGptPartitionTry readCb gptHdr workBuf bufSz
                  ((blockCount - 1) * rtssGptNorLbaSz) sz with
              | (true, gptHdr, workBuf) =>
                  (true, { g with
                    gptHdr := gptHdr
                    gptWorkBuf := some workBuf
                    gptId := rtssGptTableSecondary
                    gptPartitionInitDone := true })
              | (false, _, workBuf) =>
                  (false, { g with
                    gptHdr := structOf []
                    gptWorkBuf := some workBuf
                    gptId := rtssGptTableNull })
  | _, _ => (false, g)

def rtssGptPartitionDeinit (g : GptGlobals) : GptGlobals :=
  { g with
    gptHdr := structOf []
    gptEntryReadCb := none
    gptWorkBuf := none
    gptWorkBufSz := 0
    gptReadAlignment := 0
    gptPartitionInitDone := false }

/-- Field by field, as the source compares them. -/
def rtssGptVerifyPartitionGuid (entry : Mem) (guid : RtssGptGuid) : Bool :=
  let typeGuid := RtssGptGuid.load entry RtssGptEntry.partitionTypeGuid
  !(typeGuid.data1 != guid.data1 || typeGuid.data2 != guid.data2 ||
    typeGuid.data3 != guid.data3 || typeGuid.data4 != guid.data4)

def rtssGptGetPartitionBase (startingLba : UInt64) (lbaSz : UInt32) : UInt64 :=
  startingLba * lbaSz.toUInt64

def rtssGptGetPartitionSize (startingLba endingLba : UInt64) (lbaSz : UInt32) : UInt64 :=
  if endingLba < startingLba then 0 else (endingLba - startingLba + 1) * lbaSz.toUInt64

/-- The first of the entries with these numbers that has the type GUID, as the work buffer
shows it, and the work buffer. A read that is not whole ends the search. -/
def findEntry (readCb : GptReadCb) (guid : RtssGptGuid) (base entrySz : UInt32) :
    List UInt32 → Mem → Option Mem × Mem
  | [], buf => (none, buf)
  | i :: rest, buf =>
      let bytes := readCb.read (base + i * entrySz) entrySz
      let buf := storeBytes buf 0 bytes
      if entrySz ≠ UInt32.ofNat bytes.length then
        (none, buf)
      else if !rtssGptVerifyPartitionGuid buf guid then
        findEntry readCb guid base entrySz rest buf
      else
        (some buf, buf)

/-- The entry that a lookup uses, and the work buffer after it. -/
def gptLookup (g : GptGlobals) (readCb : GptReadCb) (guid : RtssGptGuid) (workBuf : Mem) :
    Option Mem × Mem :=
  let base := (load64 g.gptHdr RtssGptHeader.partitionEntryLba &&& 0xFFFFFFFF).toUInt32 *
    rtssGptNorLbaSz
  let entrySz := load32 g.gptHdr RtssGptHeader.sizeOfPartitionEntry
  if entrySz > g.gptWorkBufSz then
    (none, workBuf)
  else
    findEntry readCb guid base entrySz (gptEntryNumbers g.gptHdr) workBuf

/-- The result, the two outputs and the globals after the call. -/
def rtssGptGetPartitionInfo (guid : Option RtssGptGuid) (startAddr size : Option UInt32)
    (g : GptGlobals) : Bool × Option UInt32 × Option UInt32 × GptGlobals :=
  match g.gptPartitionInitDone, guid, startAddr, size, g.gptEntryReadCb, g.gptWorkBuf with
  | true, some guid, some startAddr, some size, some readCb, some workBuf =>
      match gptLookup g readCb guid workBuf with
      | (none, workBuf) =>
          (false, some startAddr, some size, { g with gptWorkBuf := some workBuf })
      | (some entry, workBuf) =>
          let startingLba := load64 entry RtssGptEntry.startingLba
          let endingLba := load64 entry RtssGptEntry.endingLba
          let startAddr := (rtssGptGetPartitionBase startingLba rtssGptNorLbaSz).toUInt32
          let size := (rtssGptGetPartitionSize startingLba endingLba rtssGptNorLbaSz).toUInt32
          (size ≠ 0, some startAddr, some size, { g with gptWorkBuf := some workBuf })
  | _, _, _, _, _, _ => (false, startAddr, size, g)

end RtssMailbox
