import RtssMailbox.ChannelHandle
import RtssMailbox.UpdaterChecksums

/-!
What the updater does to the world, and the messages it exchanges with the RTSS. A
message is 72 bytes: five header words and a union. Everything that the updater
does not compute itself, such as the outcome of a mailbox call, the contents of the
shared OTA buffer or of a file, is the answer of an operation.
-/
namespace RtssMailbox
open Effects ByteMemory

/-- A C string, without its terminator. -/
abbrev CString := List UInt8

def cString (s : String) : CString := s.toList.map fun c => UInt8.ofNat c.toNat

/-- `rtss_updater_imgconfig_t`; the arrays by their slots. -/
structure ImgConfig where
  numberOfImages : Nat
  numberOfPaths : Nat
  imageNames : Nat → CString
  imagePaths : Nat → CString

inductive UpdOp where
  | mbWrite (handle : RtssMbHandle) (buf : Mem) (sz : Nat)
  | mbRead (handle : RtssMbHandle) (buf : Mem) (sz : Nat)
  | otaLoad (offset len : Nat)
  | otaStore (offset : Nat) (bytes : List UInt8)
  | cfgfileRead (filename : CString)
  | stat (path : CString)
  | open (path : CString)
  | pread (fd : Int) (count : Nat)
  | close (fd : Int)
  | access (path : CString)
  | fopen (path : CString)
  | ftell
  | calloc (size : Nat)
  | free
  | fread (count : Nat)
  | fclose
  | reboot

def UpdSig : Signature where
  Op := UpdOp
  Res
    | .mbWrite _ _ _ | .open _ => Int
    | .mbRead _ _ _ => Int × Mem
    | .otaLoad _ len => Fin len → UInt8
    | .cfgfileRead _ => Option ImgConfig
    | .stat _ => Option (UInt32 × Nat)
    | .pread _ count => Option { bytes : List UInt8 // bytes.length ≤ count }
    | .fread count => { bytes : List UInt8 // bytes.length ≤ count }
    | .access _ | .fopen _ | .calloc _ => Bool
    | .ftell => Nat × Int
    | .otaStore _ _ | .close _ | .free | .fclose | .reboot => Unit

namespace Upd

def mbWrite (handle : RtssMbHandle) (buf : Mem) (sz : Nat) : Prog UpdSig Int :=
  Prog.perform (S := UpdSig) (.mbWrite handle buf sz)

/-- The return value, and the buffer after the call. -/
def mbRead (handle : RtssMbHandle) (buf : Mem) (sz : Nat) : Prog UpdSig (Int × Mem) :=
  Prog.perform (S := UpdSig) (.mbRead handle buf sz)

/-- Bytes of the OTA buffer, which the RTSS writes as well. -/
def otaLoad (offset len : Nat) : Prog UpdSig (List UInt8) := do
  let bytes : Fin len → UInt8 ← Prog.perform (S := UpdSig) (.otaLoad offset len)
  return List.ofFn bytes

def otaStore (offset : Nat) (bytes : List UInt8) : Prog UpdSig Unit :=
  Prog.perform (S := UpdSig) (.otaStore offset bytes)

/-- What `rtss_updater_cfgfile_read` makes of a file. -/
def cfgfileRead (filename : CString) : Prog UpdSig (Option ImgConfig) :=
  Prog.perform (S := UpdSig) (.cfgfileRead filename)

/-- The mode and the size of a file. -/
def stat (path : CString) : Prog UpdSig (Option (UInt32 × Nat)) :=
  Prog.perform (S := UpdSig) (.stat path)

def open' (path : CString) : Prog UpdSig Int := Prog.perform (S := UpdSig) (.open path)

def pread (fd : Int) (count : Nat) :
    Prog UpdSig (Option { bytes : List UInt8 // bytes.length ≤ count }) :=
  Prog.perform (S := UpdSig) (.pread fd count)

def close (fd : Int) : Prog UpdSig Unit := Prog.perform (S := UpdSig) (.close fd)

def access (path : CString) : Prog UpdSig Bool := Prog.perform (S := UpdSig) (.access path)

def fopen (path : CString) : Prog UpdSig Bool := Prog.perform (S := UpdSig) (.fopen path)

/-- The size of the file, at whose end the stream is, and `errno`. -/
def ftell : Prog UpdSig (Nat × Int) := Prog.perform (S := UpdSig) .ftell

def calloc (size : Nat) : Prog UpdSig Bool := Prog.perform (S := UpdSig) (.calloc size)

/-- `free` of the buffer for the GPT file. -/
def free : Prog UpdSig Unit := Prog.perform (S := UpdSig) .free

def fread (count : Nat) : Prog UpdSig { bytes : List UInt8 // bytes.length ≤ count } :=
  Prog.perform (S := UpdSig) (.fread count)

def fclose : Prog UpdSig Unit := Prog.perform (S := UpdSig) .fclose

def reboot : Prog UpdSig Unit := Prog.perform (S := UpdSig) .reboot

end Upd

/-- The globals that the sequences read and do not write. Both channels are open:
`main` starts no sequence before `rtss_updater_mem_ctx_init` has succeeded. -/
structure Updater where
  pVa : Nat
  sVa : UInt32
  txClientData : RtssMbHandle
  rxClientData : RtssMbHandle
  imgParseInf : ImgConfig
  imgPath : CString
  otaCfgPath : CString
  imgIdentifier : CString
  gptUpdate : CString
  partition : UInt32
  skipConfigFile : UInt32
  ackstate : UInt32
  rstskip : UInt32

def exitSuccess : UInt32 := 0
def exitFailure : UInt32 := 1

def rtssUpdMsgCheckGpt : UInt32 := 1
def rtssUpdMsgReadGpt : UInt32 := 2
def rtssUpdMsgWriteGpt : UInt32 := 3
def rtssUpdMsgFixGpt : UInt32 := 4
def rtssUpdMsgUpdateGpt : UInt32 := 5
def rtssUpdMsgQueryImages : UInt32 := 6
def rtssUpdMsgReadImage : UInt32 := 7
def rtssUpdMsgFlashImage : UInt32 := 8
def rtssUpdMsgGetBootinfo : UInt32 := 11
def rtssUpdMsgGetOtaMetadata : UInt32 := 12
def rtssUpdMsgSetOtaMetadata : UInt32 := 13
def rtssUpdMsgUpdateArb : UInt32 := 14
def rtssUpdMsgGetOtaMetadatainfo : UInt32 := 19
def rtssUpdMsgOtaDone : UInt32 := 20
def rtssUpdMsgRedundancyEstablished : UInt32 := 21
def rtssUpdMsgGetImageDigest : UInt32 := 22

def rtssUpdMd2rtss : UInt32 := 0
def rtssUpdSSuccess : UInt32 := 0
def rtssUpdImgNameLen : Nat := 32

/-! Fields of `rtss_upd_msg_header_t`. -/

namespace RtssUpdMsgHeader
def headerCrc : Nat := 0
def headerSize : Nat := 4
def msgId : Nat := 8
def direction : Nat := 12
def status : Nat := 16
def body : Nat := 20
end RtssUpdMsgHeader

def sizeofRtssUpdMsgHeader : Nat := 72

/-- Consecutive words, as the fields of a packed structure. -/
def storeWords (m : Mem) (a : Nat) : List UInt32 → Mem
  | [] => m
  | w :: ws => storeWords (store32 m a w) (a + 4) ws

theorem loadBytes_storeWords_disjoint (m : Mem) (a n b : Nat) (words : List UInt32)
    (h : RangeDisjoint a n b (4 * words.length)) :
    loadBytes (storeWords m b words) a n = loadBytes m a n := by
  induction words generalizing m b with
  | nil => rfl
  | cons w words ih =>
      simp only [RangeDisjoint, List.length_cons] at h
      rw [storeWords, ih, loadBytes_store32_disjoint]
      · exact h.imp id fun h => by omega
      · exact h.imp (fun h => by omega) fun h => by omega

theorem load32_storeWords (m : Mem) (a i : Nat) (words : List UInt32) (w : UInt32)
    (hw : words[i]? = some w) : load32 (storeWords m a words) (a + 4 * i) = w := by
  induction words generalizing m a i with
  | nil => cases hw
  | cons v words ih =>
      cases i with
      | zero =>
          obtain rfl : v = w := Option.some.inj hw
          have hfirst : load32 (storeWords (store32 m a v) (a + 4) words) a =
              load32 (store32 m a v) a :=
            congrArg ofLe32 (loadBytes_storeWords_disjoint _ _ _ _ _ (Or.inl (Nat.le_refl _)))
          exact hfirst.trans (load32_store32_same m a v)
      | succ i =>
          have hplace : a + 4 * (i + 1) = a + 4 + 4 * i := by omega
          rw [hplace]
          exact ih _ _ _ hw

def zeroed : Mem := fun _ => 0

/-- A message to the RTSS with this body and no CRC yet. -/
def rtssUpdMsg (msgId : UInt32) (body : Mem) : Mem :=
  storeWords body RtssUpdMsgHeader.headerCrc
    [0, UInt32.ofNat sizeofRtssUpdMsgHeader, msgId, rtssUpdMd2rtss, rtssUpdSSuccess]

theorem msgId_rtssUpdMsg (msgId : UInt32) (body : Mem) :
    load32 (rtssUpdMsg msgId body) RtssUpdMsgHeader.msgId = msgId :=
  load32_storeWords body RtssUpdMsgHeader.headerCrc 2 _ msgId rfl

def rtssUpdSendMsg (txMsg : Option Mem) (pTxClientData : Option RtssMbHandle) :
    Prog UpdSig UInt32 := do
  let some handle := pTxClientData | return rtssUpdEErr
  let some msg := txMsg | return rtssUpdEPtr
  let ret ← Upd.mbWrite handle msg sizeofRtssUpdMsgHeader
  if ret ≤ 0 ∨ ret ≠ sizeofRtssUpdMsgHeader then
    return rtssUpdEErr
  return rtssUpdEOk

def rtssUpdReadMsg (rxMsg : Option Mem) (pRxClientData : Option RtssMbHandle) :
    Prog UpdSig (UInt32 × Option Mem) := do
  let some handle := pRxClientData | return (rtssUpdEErr, rxMsg)
  let some msg := rxMsg | return (rtssUpdEPtr, none)
  let (ret, msg) ← Upd.mbRead handle msg sizeofRtssUpdMsgHeader
  if ret ≤ 0 ∨ ret ≠ sizeofRtssUpdMsgHeader then
    return (rtssUpdEErr, some msg)
  return (rtssUpdEOk, some msg)

end RtssMailbox
