import RtssMailbox.Library.Program
import RtssMailbox.MailboxLayout

/-!
The mailbox library as programs over mailbox memory. Each register access and
each copy is one operation, in the order of the source, so that the same text
can be run alone, traced, or interleaved with the other processor. A buffer of
the caller is a memory of its own, addressed from its first byte.
-/
namespace RtssMailbox
open Effects ByteMemory

inductive MemOp where
  | getReg (a : Nat)
  | setReg (a : Nat) (v : UInt32)
  | copyIn (a : Nat) (bs : List UInt8)
  | copyOut (a n : Nat)
deriving DecidableEq

/-- The addresses that an operation accesses. -/
def MemOp.bytes : MemOp → List Nat
  | .getReg a | .setReg a _ => byteRange a 4
  | .copyIn a bs => byteRange a bs.length
  | .copyOut a n => byteRange a n

/-- The addresses that an operation accesses as a copy, not as a register. -/
def MemOp.copied : MemOp → List Nat
  | .getReg _ | .setReg _ _ => []
  | .copyIn a bs => byteRange a bs.length
  | .copyOut a n => byteRange a n

/-- The addresses that an operation reads. -/
def MemOp.read : MemOp → List Nat
  | .setReg _ _ | .copyIn _ _ => []
  | .getReg a => byteRange a 4
  | .copyOut a n => byteRange a n

/-- The addresses that an operation writes. -/
def MemOp.written : MemOp → List Nat
  | .getReg _ | .copyOut _ _ => []
  | .setReg a _ => byteRange a 4
  | .copyIn a bs => byteRange a bs.length

def MemSig : Signature where
  Op := MemOp
  Res
    | .getReg _ => UInt32
    | .setReg _ _ => Unit
    | .copyIn _ _ => Unit
    | .copyOut _ _ => List UInt8

/-- What the operations do to a memory that nobody else changes. -/
def memHandler : Handler MemSig Mem
  | .getReg a, m => (load32 m a, m)
  | .setReg a v, m => ((), store32 m a v)
  | .copyIn a bs, m => ((), storeBytes m a bs)
  | .copyOut a n, m => (loadBytes m a n, m)

def getReg (a : Nat) : Prog MemSig UInt32 := Prog.perform (S := MemSig) (.getReg a)

def setReg (a : Nat) (v : UInt32) : Prog MemSig Unit := Prog.perform (S := MemSig) (.setReg a v)

def putBytes (a : Nat) (bs : List UInt8) : Prog MemSig Unit :=
  Prog.perform (S := MemSig) (.copyIn a bs)

def getBytes (a n : Nat) : Prog MemSig (List UInt8) := Prog.perform (S := MemSig) (.copyOut a n)

/-- `libmbcopy_bytes` from a buffer of the caller into the mailbox. -/
def copyIn (dest : Nat) (src : Mem) (off n : Nat) : Prog MemSig Unit :=
  putBytes dest (loadBytes src off n)

/-- `libmbcopy_bytes` out of the mailbox into a buffer of the caller. -/
def copyOut (dest : Mem) (off : Nat) (src n : Nat) : Prog MemSig Mem := do
  let bs ← getBytes src n
  pure (storeBytes dest off bs)

@[simp] theorem run_getReg (a : Nat) (m : Mem) :
    (getReg a).run memHandler m = (load32 m a, m) :=
  (Prog.run_perform memHandler (.getReg a) m).trans rfl

@[simp] theorem run_setReg (a : Nat) (v : UInt32) (m : Mem) :
    (setReg a v).run memHandler m = ((), store32 m a v) :=
  (Prog.run_perform memHandler (.setReg a v) m).trans rfl

@[simp] theorem run_putBytes (a : Nat) (bs : List UInt8) (m : Mem) :
    (putBytes a bs).run memHandler m = ((), storeBytes m a bs) :=
  (Prog.run_perform memHandler (.copyIn a bs) m).trans rfl

@[simp] theorem run_getBytes (a n : Nat) (m : Mem) :
    (getBytes a n).run memHandler m = (loadBytes m a n, m) :=
  (Prog.run_perform memHandler (.copyOut a n) m).trans rfl

@[simp] theorem ops_getReg (a : Nat) (m : Mem) :
    (getReg a).ops memHandler m = [.getReg a] := rfl

@[simp] theorem ops_setReg (a : Nat) (v : UInt32) (m : Mem) :
    (setReg a v).ops memHandler m = [.setReg a v] := rfl

@[simp] theorem ops_putBytes (a : Nat) (bs : List UInt8) (m : Mem) :
    (putBytes a bs).ops memHandler m = [.copyIn a bs] := rfl

@[simp] theorem ops_getBytes (a n : Nat) (m : Mem) :
    (getBytes a n).ops memHandler m = [.copyOut a n] := rfl

def null : Nat := 0

/-- `*dest = *src` with pointers to units of `w` bytes. -/
def assignUnit (w dest src : Nat) : Prog MemSig Unit := do
  let bs ← getBytes src w
  putBytes dest bs

/-- The two loops of `libmbcopy_bytes` over units of `w` bytes: four a turn, then one. -/
def assignUnits (w : Nat) : (count dest src : Nat) → Prog MemSig Unit
  | count + 4, dest, src => do
      assignUnit w dest src
      assignUnit w (dest + w) (src + w)
      assignUnit w (dest + w + w) (src + w + w)
      assignUnit w (dest + w + w + w) (src + w + w + w)
      assignUnits w count (dest + w + w + w + w) (src + w + w + w + w)
  | count + 1, dest, src => do
      assignUnit w dest src
      assignUnits w count (dest + w) (src + w)
  | 0, _, _ => pure ()

def libmbcopyBytes (dest src : Nat) (byteNum : UInt32) : Prog MemSig Unit :=
  if src = null ∨ dest = null ∨ byteNum = 0 then
    pure ()
  else
    let aligned := dest % 8 = 0 ∧ src % 8 = 0
    let wordCount := if aligned then byteNum.toNat / 8 else 0
    let byteCount := if aligned then byteNum.toNat % 8 else byteNum.toNat
    do
      assignUnits 8 wordCount dest src
      assignUnits 1 byteCount (dest + wordCount * 8) (src + wordCount * 8)

theorem assignUnits_succ (w count dest src : Nat) :
    assignUnits w (count + 1) dest src =
      (do assignUnit w dest src; assignUnits w count (dest + w) (src + w)) := by
  induction count using Nat.strongRecOn generalizing dest src with
  | _ count ih =>
      match count with
      | 0 | 1 | 2 | 3 => rfl
      | k + 4 =>
          change (do
            assignUnit w dest src
            assignUnit w (dest + w) (src + w)
            assignUnit w (dest + w + w) (src + w + w)
            assignUnit w (dest + w + w + w) (src + w + w + w)
            assignUnits w (k + 1) (dest + w + w + w + w) (src + w + w + w + w)) = _
          rw [ih k (by omega)]
          rfl

/-- The units are copied as one range, if source and destination share no byte. -/
theorem run_assignUnits (w count dest src : Nat) (m : Mem)
    (h : RangeDisjoint src (count * w) dest (count * w)) :
    (assignUnits w count dest src).run memHandler m =
      ((), storeBytes m dest (loadBytes m src (count * w))) := by
  induction count generalizing dest src m with
  | zero => simp [assignUnits]
  | succ count ih =>
      have hlen : (count + 1) * w = w + count * w := by rw [Nat.add_mul, Nat.one_mul, Nat.add_comm]
      rw [hlen] at h ⊢
      have hrest : RangeDisjoint (src + w) (count * w) (dest + w) (count * w) := by
        unfold RangeDisjoint at h ⊢
        omega
      have hkept : loadBytes (storeBytes m dest (loadBytes m src w)) (src + w) (count * w) =
          loadBytes m (src + w) (count * w) :=
        loadBytes_storeBytes_disjoint _ _ _ _ _ (by
          unfold RangeDisjoint at h ⊢
          rw [loadBytes_length]
          omega)
      simp only [assignUnits_succ, assignUnit, Prog.run_bind, run_getBytes, run_putBytes,
        ih _ _ _ hrest, hkept]
      rw [loadBytes_append, storeBytes_append, loadBytes_length]

/-- Any alignment and any length: the bytes of the source are copied. -/
theorem run_libmbcopyBytes (dest src : Nat) (byteNum : UInt32) (m : Mem) (hdest : dest ≠ null)
    (hsrc : src ≠ null) (h : RangeDisjoint src byteNum.toNat dest byteNum.toNat) :
    (libmbcopyBytes dest src byteNum).run memHandler m =
      ((), storeBytes m dest (loadBytes m src byteNum.toNat)) := by
  have hunits : ∀ words bytes, words * 8 + bytes = byteNum.toNat →
      (do assignUnits 8 words dest src
          assignUnits 1 bytes (dest + words * 8) (src + words * 8)).run memHandler m =
        ((), storeBytes m dest (loadBytes m src byteNum.toNat)) := by
    intro words bytes hsum
    unfold RangeDisjoint at h
    have hkept : loadBytes (storeBytes m dest (loadBytes m src (words * 8))) (src + words * 8)
        bytes = loadBytes m (src + words * 8) bytes :=
      loadBytes_storeBytes_disjoint _ _ _ _ _ (by
        unfold RangeDisjoint
        rw [loadBytes_length]
        omega)
    rw [Prog.run_bind, run_assignUnits _ _ _ _ _ (by unfold RangeDisjoint; omega),
      run_assignUnits _ _ _ _ _ (by unfold RangeDisjoint; omega), Nat.mul_one, hkept, ← hsum,
      loadBytes_append, storeBytes_append, loadBytes_length]
  by_cases hzero : byteNum = 0
  · subst hzero
    simp [libmbcopyBytes]
  · rw [libmbcopyBytes, if_neg (not_or.mpr ⟨hsrc, not_or.mpr ⟨hdest, hzero⟩⟩)]
    by_cases haligned : dest % 8 = 0 ∧ src % 8 = 0
    · simp only [if_pos haligned]
      exact hunits _ _ (Nat.div_add_mod' _ _)
    · simp only [if_neg haligned]
      exact hunits 0 _ (Nat.zero_add _)

/-- A copy of the model is the source's copy of a buffer that lies outside the mailbox. -/
theorem run_copyIn (dest : Nat) (buf : Mem) (off src : Nat) (byteNum : UInt32) (m : Mem)
    (hbuf : loadBytes m src byteNum.toNat = loadBytes buf off byteNum.toNat)
    (hdest : dest ≠ null) (hsrc : src ≠ null)
    (h : RangeDisjoint src byteNum.toNat dest byteNum.toNat) :
    (copyIn dest buf off byteNum.toNat).run memHandler m =
      (libmbcopyBytes dest src byteNum).run memHandler m := by
  rw [run_libmbcopyBytes dest src byteNum m hdest hsrc h, copyIn, run_putBytes, hbuf]

def libMBValidItem (base : Nat) : Prog MemSig UInt32 := do
  let writeIndex ← getReg (base + MbSubRgnDesc.itemInIndex)
  let readIndex ← getReg (base + MbSubRgnDesc.itemOutIndex)
  if writeIndex ≥ readIndex then
    pure (writeIndex - readIndex)
  else
    let maxItemNum ← getReg (base + MbSubRgnDesc.maxItemNum)
    pure (maxItemNum - readIndex + writeIndex)

/-- One item stays reserved, so that equal indices only mean an empty ring. -/
def libMBFreeItem (base : Nat) : Prog MemSig UInt32 := do
  let writeIndex ← getReg (base + MbSubRgnDesc.itemInIndex)
  let readIndex ← getReg (base + MbSubRgnDesc.itemOutIndex)
  if writeIndex ≥ readIndex then
    let maxItemNum ← getReg (base + MbSubRgnDesc.maxItemNum)
    pure (maxItemNum - writeIndex + readIndex - 1)
  else
    pure (readIndex - writeIndex - 1)

/-- One copy between the ring and a buffer: the offsets in both and the number of bytes. -/
structure Span where
  slot : Nat
  off : Nat
  len : Nat
deriving DecidableEq

/-- The copies that `LibMB_Write_Item` and `LibMB_Read_Item` make for `num`
items from slot `index` on: two if the items pass the end of the ring. -/
def ringSpans (index num ringSize itemSize : UInt32) : List Span :=
  if index + num > ringSize then
    let first := ringSize - index
    let rest := index + num - ringSize
    [⟨(index * itemSize).toNat, 0, (first * itemSize).toNat⟩,
      ⟨0, (first * itemSize).toNat, (rest * itemSize).toNat⟩]
  else
    [⟨(index * itemSize).toNat, 0, (num * itemSize).toNat⟩]

def copyIntoRing (ring : Nat) (source : Mem) : List Span → Prog MemSig Unit
  | [] => pure ()
  | s :: rest => do
      copyIn (ring + s.slot) source s.off s.len
      copyIntoRing ring source rest

def copyFromRing (ring : Nat) (dest : Mem) : List Span → Prog MemSig Mem
  | [] => pure dest
  | s :: rest => do
      let dest ← copyOut dest s.off (ring + s.slot) s.len
      copyFromRing ring dest rest

def libMBWriteItem (base : Nat) (source : Mem) (itemNum : UInt32) : Prog MemSig Unit := do
  let itemSize ← getReg (base + MbSubRgnDesc.maxItemSize)
  let itemWriteIndex ← getReg (base + MbSubRgnDesc.itemInIndex)
  let itemRingBufferSize ← getReg (base + MbSubRgnDesc.maxItemNum)
  if itemRingBufferSize = 0 ∨ itemSize = 0 ∨ itemWriteIndex ≥ itemRingBufferSize then
    pure ()
  else
    copyIntoRing (base + mbSubRegionHeaderSz) source
      (ringSpans itemWriteIndex itemNum itemRingBufferSize itemSize)
    setReg (base + MbSubRgnDesc.itemInIndex) ((itemWriteIndex + itemNum) % itemRingBufferSize)

def libMBReadItem (base : Nat) (dest : Mem) (itemNum : UInt32) : Prog MemSig Mem := do
  let itemSize ← getReg (base + MbSubRgnDesc.maxItemSize)
  let itemReadIndex ← getReg (base + MbSubRgnDesc.itemOutIndex)
  let itemRingBufferSize ← getReg (base + MbSubRgnDesc.maxItemNum)
  if itemRingBufferSize = 0 ∨ itemSize = 0 ∨ itemReadIndex ≥ itemRingBufferSize then
    pure dest
  else
    let dest ← copyFromRing (base + mbSubRegionHeaderSz) dest
      (ringSpans itemReadIndex itemNum itemRingBufferSize itemSize)
    setReg (base + MbSubRgnDesc.itemOutIndex) ((itemReadIndex + itemNum) % itemRingBufferSize)
    pure dest

def libMBMailboxSanityCheck (base : Nat) : Prog MemSig Bool :=
  if base ≠ null then do
    let maxItemNum ← getReg (base + MbSubRgnDesc.maxItemNum)
    let maxItemSize ← getReg (base + MbSubRgnDesc.maxItemSize)
    let writeIndex ← getReg (base + MbSubRgnDesc.itemInIndex)
    let readIndex ← getReg (base + MbSubRgnDesc.itemOutIndex)
    pure !(maxItemNum > mbMaxItemNum || maxItemSize > mbMaxSize ||
      writeIndex ≥ maxItemNum || readIndex ≥ maxItemNum)
  else
    pure false

/-- The checks that every operation on a sub-region makes before its own work:
the magic number, the index, and the sanity of the sub-region. The callee is
given the sub-region's address, and `fail` turns an error code into a result. -/
def onSubRegion {α : Type} (mb : Nat) (index : UInt32) (fail : Int → α)
    (body : Nat → Prog MemSig α) : Prog MemSig α := do
  let magic ← getReg (mb + MbDesc.magic)
  if magic = mbMagicNumber then
    let num ← getReg (mb + MbDesc.numOfSubRegion)
    if index < num then
      let start ← getReg (mb + MbDesc.subRegionStartOffset index.toNat)
      if ← libMBMailboxSanityCheck (mb + start.toNat) then
        body (mb + start.toNat)
      else
        pure (fail mbECorruptMailbox)
    else
      pure (fail mbEInvalidIndex)
  else
    pure (fail mbEInvalidMailbox)

def libMBValidate (mb : Nat) : Prog MemSig Int :=
  if mb ≠ null then do
    let magic ← getReg (mb + MbDesc.magic)
    if magic ≠ mbMagicNumber then pure mbEInvalidMailbox else pure mbESuccess
  else
    pure mbENullInput

def libMBWrite (mb : Nat) (source : Option Mem) (itemNum subRegionIndex : UInt32) :
    Prog MemSig Int :=
  match source with
  | some source =>
      if mb ≠ null then
        onSubRegion mb subRegionIndex id fun base => do
          let free ← libMBFreeItem base
          if itemNum ≤ free then
            libMBWriteItem base source itemNum
            pure (int32 itemNum.toNat)
          else
            pure mbENoEnoughBuf
      else
        pure mbENullInput
  | none => pure mbENullInput

/-- The result comes with the destination buffer as the call leaves it. -/
def libMBRead (mb : Nat) (dest : Option Mem) (itemNum subRegionIndex : UInt32) :
    Prog MemSig (Int × Option Mem) :=
  match dest with
  | some dest =>
      if mb ≠ null then
        onSubRegion mb subRegionIndex (fun e => (e, some dest)) fun base => do
          let validItems ← libMBValidItem base
          let readNum := if validItems < itemNum then validItems else itemNum
          if readNum > 0 then
            let dest ← libMBReadItem base dest readNum
            pure (int32 readNum.toNat, some dest)
          else
            pure (0, some dest)
      else
        pure (mbENullInput, some dest)
  | none => pure (mbENullInput, none)

def libMBGetFreeItemNum (mb : Nat) (subRegionIndex : UInt32) : Prog MemSig Int :=
  if mb ≠ null then
    onSubRegion mb subRegionIndex id fun base => do
      let free ← libMBFreeItem base
      pure (int32 free.toNat)
  else
    pure mbENullInput

def libMBGetValidItemNum (mb : Nat) (subRegionIndex : UInt32) : Prog MemSig Int :=
  if mb ≠ null then
    onSubRegion mb subRegionIndex id fun base => do
      let valid ← libMBValidItem base
      pure (int32 valid.toNat)
  else
    pure mbENullInput

/-- The library is built as the client, which sees the owner's modes swapped. -/
def libMBGetChanInfo (mb : Nat) (subRegionIndex : UInt32) (chaninfo : Option MbChanDesc) :
    Prog MemSig (Int × Option MbChanDesc) :=
  match chaninfo with
  | some chaninfo =>
      if mb ≠ null then
        onSubRegion mb subRegionIndex (fun e => (e, some chaninfo)) fun base => do
          let _ ← getReg (base + MbSubRgnDesc.mode)
          let ownerMode ← getReg (base + MbSubRgnDesc.mode)
          let mode := if mbChanRdMode = ownerMode then mbChanWrMode else mbChanRdMode
          let name ← getBytes (base + MbSubRgnDesc.name) mbNameSz
          let sender ← getReg (base + MbSubRgnDesc.sender)
          let receiver ← getReg (base + MbSubRgnDesc.receiver)
          let prot ← getReg (base + MbSubRgnDesc.prot)
          let sig ← getReg (base + MbSubRgnDesc.sig)
          let prio ← getReg (base + MbSubRgnDesc.prio)
          let maxItemNum ← getReg (base + MbSubRgnDesc.maxItemNum)
          let maxItemSize ← getReg (base + MbSubRgnDesc.maxItemSize)
          pure (mbESuccess,
            some ⟨name, sender, receiver, prot, sig, mode, prio, maxItemNum, maxItemSize⟩)
      else
        pure (mbENullInput, some chaninfo)
  | none => pure (mbENullInput, none)

/-- The configuration argument of the source is unused. -/
def libMBChanReset (mb : Nat) (schan : UInt32) : Prog MemSig Int :=
  if mb ≠ null then
    onSubRegion mb schan id fun base =>
      if base ≠ null then do
        setReg (base + MbSubRgnDesc.itemInIndex) 0
        setReg (base + MbSubRgnDesc.itemOutIndex) 0
        pure mbESuccess
      else
        pure mbECorruptMailbox
  else
    pure mbENullInput

end RtssMailbox
