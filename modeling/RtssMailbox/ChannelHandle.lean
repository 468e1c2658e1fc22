import RtssMailbox.MailboxLibrary

/-!
The channel handles of the middleware as programs over two kinds of operations:
calls of the mailbox library on the mapped mailbox, and system calls. The
outcome of a system call is whatever the handler of the operation says, so that
one text of a function serves every environment.
-/
namespace RtssMailbox
open Effects ByteMemory

def rtssMbReturnSuccess : Int := 0
def rtssMbModeRx : UInt32 := 0
def rtssMbModeTx : UInt32 := 1
def rtssMailboxNameSize : Nat := 16

def eperm : Int := 1
def enoent : Int := 2
def eintr : Int := 4
def eio : Int := 5
def ebadf : Int := 9
def eagain : Int := 11
def enomem : Int := 12
def einval : Int := 22
def enametoolong : Int := 36
def emsgsize : Int := 90
def econnreset : Int := 104
def enobufs : Int := 105
def etimedout : Int := 110

/-- Calls of the mailbox library; the descriptor's sub-region count is read directly. -/
inductive LibCall where
  | numOfSubRegion (mb : Nat)
  | validate (mb : Nat)
  | getChanInfo (mb : Nat) (index : UInt32) (chaninfo : MbChanDesc)
  | getFreeItemNum (mb : Nat) (index : UInt32)
  | getValidItemNum (mb : Nat) (index : UInt32)
  | write (mb : Nat) (source : Mem) (itemNum index : UInt32)
  | read (mb : Nat) (dest : Mem) (itemNum index : UInt32)

def LibCall.Res : LibCall → Type
  | .numOfSubRegion _ => UInt32
  | .getChanInfo _ _ _ => Int × Option MbChanDesc
  | .read _ _ _ _ => Int × Option Mem
  | .validate _ | .getFreeItemNum _ _ | .getValidItemNum _ _ | .write _ _ _ _ => Int

def LibCall.prog : (c : LibCall) → Prog MemSig c.Res
  | .numOfSubRegion mb => getReg (mb + MbDesc.numOfSubRegion)
  | .validate mb => libMBValidate mb
  | .getChanInfo mb index chaninfo => libMBGetChanInfo mb index (some chaninfo)
  | .getFreeItemNum mb index => libMBGetFreeItemNum mb index
  | .getValidItemNum mb index => libMBGetValidItemNum mb index
  | .write mb source itemNum index => libMBWrite mb (some source) itemNum index
  | .read mb dest itemNum index => libMBRead mb (some dest) itemNum index

/-- The result of a system call that returns a status and sets `errno`. -/
structure SysStatus where
  ret : Int
  errno : Int

/-- The answer of `poll` with the bits of `revents` that the middleware looks at. -/
structure PollStatus extends SysStatus where
  pollin : Bool
  pollerr : Bool

/-- The interrupt routing data that `struct rtssmb_devctl` carries. -/
structure EvfdInfo where
  signalNum : UInt32
  clientId : UInt32
  sender : UInt32
  prot : UInt32
  mode : UInt32
  eventFd : Int

inductive DevOp where
  | lib (c : LibCall)
  | calloc
  | free
  | open
  | close (fd : Int)
  | getMbRegion (fd : Int)
  | mmap (size : UInt32) (fd : Int)
  | munmap (addr : Nat) (size : UInt32)
  | eventfd
  | setEventFd (fd : Int) (info : EvfdInfo)
  | sendInterrupt (fd : Int) (info : EvfdInfo)
  | poll (fd : Int) (ms : Int)
  | eventfdRead (fd : Int)

def DevSig : Signature where
  Op := DevOp
  Res
    | .lib c => c.Res
    | .calloc => Bool
    | .free | .close _ | .munmap _ _ => Unit
    | .getMbRegion _ => SysStatus × UInt32
    | .mmap _ _ => Nat × Int
    | .poll _ _ => PollStatus
    | .open | .eventfd | .setEventFd _ _ | .sendInterrupt _ _ | .eventfdRead _ => SysStatus

def callLib (c : LibCall) : Prog DevSig c.Res := Prog.perform (S := DevSig) (.lib c)

namespace Dev

def numOfSubRegion (mb : Nat) : Prog DevSig UInt32 := callLib (.numOfSubRegion mb)

def validate (mb : Nat) : Prog DevSig Int := callLib (.validate mb)

def getChanInfo (mb : Nat) (index : UInt32) (chaninfo : MbChanDesc) :
    Prog DevSig (Int × Option MbChanDesc) :=
  callLib (.getChanInfo mb index chaninfo)

def getFreeItemNum (mb : Nat) (index : UInt32) : Prog DevSig Int :=
  callLib (.getFreeItemNum mb index)

def getValidItemNum (mb : Nat) (index : UInt32) : Prog DevSig Int :=
  callLib (.getValidItemNum mb index)

def write (mb : Nat) (source : Mem) (itemNum index : UInt32) : Prog DevSig Int :=
  callLib (.write mb source itemNum index)

def read (mb : Nat) (dest : Mem) (itemNum index : UInt32) : Prog DevSig (Int × Option Mem) :=
  callLib (.read mb dest itemNum index)

def calloc : Prog DevSig Bool := Prog.perform (S := DevSig) .calloc

def free : Prog DevSig Unit := Prog.perform (S := DevSig) .free

def open' : Prog DevSig SysStatus := Prog.perform (S := DevSig) .open

def close (fd : Int) : Prog DevSig Unit := Prog.perform (S := DevSig) (.close fd)

/-- The status of the ioctl and the size of the region. -/
def getMbRegion (fd : Int) : Prog DevSig (SysStatus × UInt32) :=
  Prog.perform (S := DevSig) (.getMbRegion fd)

/-- The address of the mapping, and `errno`. -/
def mmap (size : UInt32) (fd : Int) : Prog DevSig (Nat × Int) :=
  Prog.perform (S := DevSig) (.mmap size fd)

def munmap (addr : Nat) (size : UInt32) : Prog DevSig Unit :=
  Prog.perform (S := DevSig) (.munmap addr size)

def eventfd : Prog DevSig SysStatus := Prog.perform (S := DevSig) .eventfd

def setEventFd (fd : Int) (info : EvfdInfo) : Prog DevSig SysStatus :=
  Prog.perform (S := DevSig) (.setEventFd fd info)

def sendInterrupt (fd : Int) (info : EvfdInfo) : Prog DevSig SysStatus :=
  Prog.perform (S := DevSig) (.sendInterrupt fd info)

def poll (fd : Int) (ms : Int) : Prog DevSig PollStatus :=
  Prog.perform (S := DevSig) (.poll fd ms)

def eventfdRead (fd : Int) : Prog DevSig SysStatus :=
  Prog.perform (S := DevSig) (.eventfdRead fd)

end Dev

/-- `struct rtss_mb_handle`. -/
structure RtssMbHandle where
  fd : Int
  pMbBaseAddr : Nat
  mbSize : UInt32
  subregionIndex : UInt32
  signalId : UInt32
  mode : UInt32
  dev : List UInt8
  eventFd : Int
  clientId : UInt32
  sender : UInt32
  prot : UInt32
  priority : UInt32
  subchanItemSize : UInt32

/-- The block of `calloc`, with both descriptors marked as not open. -/
def RtssMbHandle.blank : RtssMbHandle :=
  ⟨-1, null, 0, 0, 0, 0, [], -1, 0, 0, 0, 0, 0⟩

def RtssMbHandle.evfdInfo (h : RtssMbHandle) (mode : UInt32) (eventFd : Int) : EvfdInfo :=
  ⟨h.signalId, h.clientId, h.sender, h.prot, mode, eventFd⟩

/-- `strncmp` on a string that ends with its list and on a byte array. -/
def strncmpEq : (n : Nat) → (s t : List UInt8) → Bool
  | 0, _, _ => true
  | n + 1, s, t =>
      s.headD 0 == t.headD 0 && (s.headD 0 == 0 || strncmpEq n s.tail t.tail)

/-- The loop of `rtssmb_getdevctx` from index `i`; see `initSubRegions` for the fuel. -/
def findChannel (mb : Nat) (dev : List UInt8) (handle : RtssMbHandle) :
    (fuel : Nat) → (i : UInt32) → Prog DevSig (Int × RtssMbHandle)
  | 0, _ => pure (-enoent, handle)
  | fuel + 1, i => do
      let num ← Dev.numOfSubRegion mb
      if i < num then
        let (nRet, info) ← Dev.getChanInfo mb i ⟨[], 0, 0, 0, 0, 0, 0, 0, 0⟩
        match info with
        | some desc =>
            if nRet ≠ rtssMbReturnSuccess then
              pure (-eio, handle)
            else if strncmpEq mbNameSz dev desc.name then
              if dev.length ≥ rtssMailboxNameSize then
                pure (-enametoolong, handle)
              else
                pure (rtssMbReturnSuccess, { handle with
                  dev := dev
                  pMbBaseAddr := mb
                  subregionIndex := i
                  clientId := desc.receiver
                  sender := desc.sender
                  prot := desc.prot
                  signalId := desc.sig
                  mode := desc.mode
                  priority := desc.prio
                  subchanItemSize := desc.maxItemSize })
            else
              findChannel mb dev handle fuel (i + 1)
        | none => pure (-eio, handle)
      else
        pure (-enoent, handle)

def rtssmbGetdevctx (pMbHandle : Nat) (handle : RtssMbHandle) (dev : List UInt8) :
    Prog DevSig (Int × RtssMbHandle) :=
  if pMbHandle = null then
    pure (-einval, handle)
  else
    findChannel pMbHandle dev handle (2 ^ 32) 0

def mapFailed : Nat := 2 ^ 64 - 1

/-- The new handle is stored through the first argument, which may be `NULL`. -/
def rtssMbOpen (handleIsNull : Bool) (dev : Option (List UInt8)) :
    Prog DevSig (Int × Option RtssMbHandle) := do
  if handleIsNull then
    return (-einval, none)
  let some dev := dev | return (-einval, none)
  let allocated ← Dev.calloc
  if !allocated then
    return (-enomem, none)
  let h := RtssMbHandle.blank
  let nFd ← Dev.open'
  if nFd.ret = -1 then
    Dev.free
    return (-nFd.errno, none)
  let (status, size) ← Dev.getMbRegion nFd.ret
  if status.ret ≠ 0 then
    Dev.close nFd.ret
    Dev.free
    return (-status.errno, none)
  if size = 0 then
    Dev.close nFd.ret
    Dev.free
    return (-eio, none)
  let (pMbHandle, mmapErrno) ← Dev.mmap size nFd.ret
  if pMbHandle = mapFailed ∨ pMbHandle = null then
    Dev.close nFd.ret
    Dev.free
    return (-mmapErrno, none)
  let nRet ← Dev.validate pMbHandle
  if nRet ≠ rtssMbReturnSuccess then
    Dev.munmap pMbHandle size
    Dev.close nFd.ret
    Dev.free
    return (-eagain, none)
  let (nRet, h) ← rtssmbGetdevctx pMbHandle h dev
  if nRet ≠ rtssMbReturnSuccess then
    Dev.munmap pMbHandle size
    Dev.close nFd.ret
    Dev.free
    return (nRet, none)
  let h := { h with mbSize := size }
  if h.mode = rtssMbModeRx then
    let evfd ← Dev.eventfd
    if evfd.ret = -1 then
      Dev.munmap pMbHandle size
      Dev.close nFd.ret
      Dev.free
      return (-evfd.errno, none)
    let h := { h with eventFd := evfd.ret }
    let set ← Dev.setEventFd nFd.ret (h.evfdInfo rtssMbModeRx h.eventFd)
    if set.ret ≠ 0 then
      Dev.close h.eventFd
      Dev.munmap pMbHandle size
      Dev.close nFd.ret
      Dev.free
      return (-set.errno, none)
    return (rtssMbReturnSuccess, some { h with fd := nFd.ret })
  else if h.mode = rtssMbModeTx then
    return (rtssMbReturnSuccess, some { h with eventFd := -1, fd := nFd.ret })
  else
    Dev.munmap pMbHandle size
    Dev.close nFd.ret
    Dev.free
    return (-eio, none)

def rtssmbTriggerIoctl (handle : RtssMbHandle) : Prog DevSig Int := do
  let nRet ← Dev.sendInterrupt handle.fd (handle.evfdInfo rtssMbModeTx 0)
  if nRet.ret ≠ 0 then
    return -nRet.errno
  return rtssMbReturnSuccess

def rtssMbSendTrigger (handle : Option RtssMbHandle) : Prog DevSig Int := do
  let some handle := handle | return -einval
  if handle.fd < 0 then
    return -ebadf
  if handle.mode ≠ rtssMbModeTx then
    return -eperm
  rtssmbTriggerIoctl handle

def rtssMbWriteBatch (handle : Option RtssMbHandle) (buf : Option Mem) (sz : Nat) :
    Prog DevSig Int := do
  let some handle := handle | return -einval
  let some buf := buf | return -einval
  if sz = 0 then
    return -einval
  if handle.fd < 0 then
    return -ebadf
  if handle.subchanItemSize = 0 then
    return -ebadf
  if handle.mode ≠ rtssMbModeTx then
    return -eperm
  let nRet ← Dev.validate handle.pMbBaseAddr
  if nRet ≠ rtssMbReturnSuccess then
    return -eio
  let nFreeItems ← Dev.getFreeItemNum handle.pMbBaseAddr handle.subregionIndex
  if nFreeItems < 0 then
    return -eio
  if nFreeItems.toNat * handle.subchanItemSize.toNat < sz then
    return -enobufs
  let nFreeItems := UInt32.ofNat (sz / handle.subchanItemSize.toNat)
  let nItemsWritten ← Dev.write handle.pMbBaseAddr buf nFreeItems handle.subregionIndex
  if nItemsWritten < 0 then
    return -eio
  return int32 (nItemsWritten.toNat * handle.subchanItemSize.toNat)

def rtssMbWrite (handle : Option RtssMbHandle) (buf : Option Mem) (sz : Nat) :
    Prog DevSig Int := do
  let nBytesWritten ← rtssMbWriteBatch handle buf sz
  if nBytesWritten ≤ 0 then
    return nBytesWritten
  let some handle := handle | return nBytesWritten
  let nRet ← rtssmbTriggerIoctl handle
  if nRet ≠ rtssMbReturnSuccess then
    return nRet
  return nBytesWritten

/-- Where `rtss_mb_read_timed` is between its operations: at its start, or at the
test of its loop with the number of items that it knows of. -/
inductive ReadPoint where
  | start
  | test (nNumItems : Int)

/-- The text from a control point to the next one, or to the return value with the
caller's buffer. -/
def rtssMbReadTimed (handle : Option RtssMbHandle) (buf : Option Mem) (sz : Nat) (ms : Int) :
    ReadPoint → Prog DevSig (ReadPoint ⊕ (Int × Option Mem))
  | .start => do
      let some handle := handle | return .inr (-einval, buf)
      let some buf := buf | return .inr (-einval, none)
      if sz = 0 then
        return .inr (-einval, some buf)
      if ms < -1 then
        return .inr (-einval, some buf)
      if handle.fd < 0 then
        return .inr (-ebadf, some buf)
      if handle.mode ≠ rtssMbModeRx then
        return .inr (-eperm, some buf)
      if handle.subchanItemSize = 0 then
        return .inr (-ebadf, some buf)
      if sz < handle.subchanItemSize.toNat then
        return .inr (-emsgsize, some buf)
      let nNumItems ← Dev.getValidItemNum handle.pMbBaseAddr handle.subregionIndex
      if nNumItems < 0 then
        return .inr (-eio, some buf)
      return .inl (.test nNumItems)
  | .test nNumItems => do
      let some handle := handle | return .inr (-einval, buf)
      let some buf := buf | return .inr (-einval, none)
      if nNumItems = 0 then
        let nRet ← Dev.poll handle.eventFd ms
        if nRet.ret = -1 then
          if nRet.errno = eintr then
            return .inr (-eintr, some buf)
          return .inr (-nRet.errno, some buf)
        if nRet.ret = 0 then
          return .inr (-etimedout, some buf)
        if nRet.pollin then
          let evval ← Dev.eventfdRead handle.eventFd
          if evval.ret = -1 then
            return .inr (-evval.errno, some buf)
        else if nRet.pollerr then
          return .inr (-econnreset, some buf)
        let nNumItems ← Dev.getValidItemNum handle.pMbBaseAddr handle.subregionIndex
        if nNumItems < 0 then
          return .inr (-eio, some buf)
        return .inl (.test nNumItems)
      let itemNum :=
        if nNumItems.toNat * handle.subchanItemSize.toNat > sz then
          UInt32.ofNat (sz / handle.subchanItemSize.toNat)
        else
          UInt32.ofNat nNumItems.toNat
      let (nItemsRead, dest) ← Dev.read handle.pMbBaseAddr buf itemNum handle.subregionIndex
      if nItemsRead < 0 then
        return .inr (-eio, dest)
      return .inr (int32 (nItemsRead.toNat * handle.subchanItemSize.toNat), dest)

def rtssMbRead (handle : Option RtssMbHandle) (buf : Option Mem) (sz : Nat) :
    ReadPoint → Prog DevSig (ReadPoint ⊕ (Int × Option Mem)) :=
  rtssMbReadTimed handle buf sz (-1)

def rtssMbGetFd (handle : Option RtssMbHandle) : Int :=
  match handle with
  | some handle =>
      if handle.fd < 0 then -ebadf
      else if handle.mode ≠ rtssMbModeRx then -eperm
      else handle.eventFd
  | none => -einval

end RtssMailbox
