import RtssMailbox.MailboxLibrary

/-!
Planning, checking and creating a mailbox from its configuration records. A
loop that stops at the first bad element is the conjunction of its tests; the
offset arithmetic is that of the 32-bit words of the source.
-/
namespace RtssMailbox
open Effects ByteMemory

/-- The tests of the first loop of `LibMB_Boundary_Check` on one sub-region. -/
def subRegionCovered (hsz : UInt32) (c : MbSubRgnConfig) : Bool :=
  let validSize := c.itemMaxNum * c.itemMaxSize
  let overflow := c.itemMaxNum ≠ 0 && validSize / c.itemMaxNum ≠ c.itemMaxSize
  !(c.itemMaxNum > mbMaxItemNum || c.startAddrOffset ≥ c.endAddrOffset || overflow ||
    c.startAddrOffset + hsz + validSize ≤ c.startAddrOffset ||
    c.startAddrOffset + hsz + validSize > c.endAddrOffset)

/-- The end of the mailbox header with its table, aligned to four bytes. -/
def mailboxHeaderSz (mbCfg : MbConfig) : UInt32 :=
  let chan := mbCfg.numSubRegions - 1
  (sizeofMbDesc.toUInt32 + sizeofMbSubRgnArea.toUInt32 * chan + 3) &&& ~~~3

/-- The regions compared in one turn of the second loop of
`LibMB_Boundary_Check`: the end of the current one and the limit it must not
reach. -/
def neighbours (mbCfg : MbConfig) (subregionCfg : List MbSubRgnConfig) (i : Nat) :
    UInt32 × UInt32 :=
  if i = 0 then
    (mailboxHeaderSz mbCfg, (subregionCfgAt subregionCfg 0).startAddrOffset)
  else if i = mbCfg.numSubRegions.toNat then
    ((subregionCfgAt subregionCfg (i - 1)).endAddrOffset, mbCfg.mbSize)
  else
    ((subregionCfgAt subregionCfg (i - 1)).endAddrOffset,
      (subregionCfgAt subregionCfg i).startAddrOffset)

def apart (mbSize : UInt32) (area : UInt32 × UInt32) : Bool :=
  !(area.1 ≥ area.2 || area.2 > mbSize)

def libMBBoundaryCheck (mbCfg : MbConfig) (subregionCfg : List MbSubRgnConfig) : Bool :=
  if mbCfg.numSubRegions ≤ mbMaxSubRegionNum ∧ mbCfg.numSubRegions > 0 then
    let hsz := mbSubRegionHeaderSz.toUInt32 - 1
    ((List.range mbCfg.numSubRegions.toNat).all fun i =>
      subRegionCovered hsz (subregionCfgAt subregionCfg i)) &&
    (List.range (mbCfg.numSubRegions.toNat + 1)).all fun i =>
      apart mbCfg.mbSize (neighbours mbCfg subregionCfg i)
  else
    false

/-- One turn of the loop of `LibMB_ChanMapInit`. An access outside the array
has no result. -/
def chanMapStep (hsz : UInt32) (pcfgset : List MbSubRgnConfig) (chan : Nat) :
    Option (List MbSubRgnConfig) :=
  if chan = 0 then do
    let c ← pcfgset[chan]?
    let start := hsz + 4
    some (pcfgset.set chan { c with
      startAddrOffset := start
      endAddrOffset :=
        start + (mbSubRegionHeaderSz.toUInt32 - 1) + c.itemMaxNum * c.itemMaxSize })
  else do
    let before ← pcfgset[chan - 1]?
    let c ← pcfgset[chan]?
    let start := before.endAddrOffset + 1
    some (pcfgset.set chan { c with
      startAddrOffset := start
      endAddrOffset :=
        start + (mbSubRegionHeaderSz.toUInt32 - 1) + c.itemMaxNum * c.itemMaxSize })

/-- The result code with the array as the call leaves it; no result if the call
indexes outside the array. -/
def libMBChanMapInit (mbCfg : Option MbConfig) (subregionCfg : Option (List MbSubRgnConfig)) :
    Option (Int × Option (List MbSubRgnConfig)) :=
  match mbCfg, subregionCfg with
  | some mbCfg, some pcfgset =>
      if mbCfg.numSubRegions ≤ mbMaxSubRegionNum then do
        let pcfgset ← (List.range mbCfg.numSubRegions.toNat).foldlM
          (chanMapStep (mailboxHeaderSz mbCfg)) pcfgset
        let last ← pcfgset[(mbCfg.numSubRegions - 1).toNat]?
        let ret := if mbCfg.mbSize < last.endAddrOffset then mbEInvalidCfg else mbESuccess
        some (ret, some pcfgset)
      else
        some (mbENullInput, some pcfgset)
  | _, subregionCfg => some (mbENullInput, subregionCfg)

/-- The fields that `LibMB_Init_Mailbox` sets in a sub-region's header. -/
def initHeader (base : Nat) (c : MbSubRgnConfig) : Prog MemSig Unit := do
  putBytes (base + MbSubRgnDesc.name) c.name.toList
  setReg (base + MbSubRgnDesc.maxItemNum) c.itemMaxNum
  setReg (base + MbSubRgnDesc.maxItemSize) c.itemMaxSize
  setReg (base + MbSubRgnDesc.itemInIndex) 0
  setReg (base + MbSubRgnDesc.itemOutIndex) 0
  setReg (base + MbSubRgnDesc.sender) c.sender
  setReg (base + MbSubRgnDesc.receiver) c.receiver
  setReg (base + MbSubRgnDesc.prot) c.prot
  setReg (base + MbSubRgnDesc.sig) c.sig
  setReg (base + MbSubRgnDesc.mode) c.mode
  setReg (base + MbSubRgnDesc.prio) c.prio

/-- The body of the loop of `LibMB_Init_Mailbox`; false if the sub-region's
address is `NULL`. -/
def initSubRegion (mb : Nat) (c : MbSubRgnConfig) (i : Nat) : Prog MemSig Bool := do
  setReg (mb + MbDesc.subRegionStartOffset i) c.startAddrOffset
  setReg (mb + MbDesc.subRegionEndOffset i) c.endAddrOffset
  let start ← getReg (mb + MbDesc.subRegionStartOffset i)
  if mb + start.toNat ≠ null then
    initHeader (mb + start.toNat) c
    pure true
  else
    pure false

/-- The loop of `LibMB_Init_Mailbox` from index `i`, which reads the number of
sub-regions from the mailbox in every turn. The index is a 32-bit word, so
`2 ^ 32` turns are enough for every number. -/
def initSubRegions (mb : Nat) (subregionCfg : List MbSubRgnConfig) :
    (fuel i : Nat) → Prog MemSig Bool
  | 0, _ => pure true
  | fuel + 1, i => do
      let num ← getReg (mb + MbDesc.numOfSubRegion)
      if i < num.toNat then
        if ← initSubRegion mb (subregionCfgAt subregionCfg i) i then
          initSubRegions mb subregionCfg fuel (i + 1)
        else
          pure false
      else
        pure true

def libMBInitMailbox (mb : Nat) (mbCfg : MbConfig) (subregionCfg : List MbSubRgnConfig) :
    Prog MemSig Bool :=
  if mb ≠ null then do
    putBytes (mb + MbDesc.name) mbCfg.name.toList
    setReg (mb + MbDesc.numOfSubRegion) mbCfg.numSubRegions
    setReg (mb + MbDesc.mbSize) mbCfg.mbSize
    setReg (mb + MbDesc.mbPrio) mbCfg.mbPrio
    initSubRegions mb subregionCfg (2 ^ 32) 0
  else
    pure false

def libMBCreate (mb : Nat) (mbCfg : Option MbConfig)
    (subregionCfg : Option (List MbSubRgnConfig)) : Prog MemSig Int :=
  match mbCfg, subregionCfg with
  | some mbCfg, some subregionCfg =>
      if mb ≠ null then
        if libMBBoundaryCheck mbCfg subregionCfg then do
          if ← libMBInitMailbox mb mbCfg subregionCfg then
            setReg (mb + MbDesc.magic) mbMagicNumber
            pure mbESuccess
          else
            pure mbECorruptMailbox
        else
          pure mbEInvalidCfg
      else
        pure mbENullInput
  | _, _ => pure mbENullInput

theorem initSubRegion_result (mb : Nat) (c : MbSubRgnConfig) (i : Nat) (m : Mem)
    (hmb : mb ≠ null) : ((initSubRegion mb c i).run memHandler m).1 = true := by
  have hbase : ∀ start, mb + start ≠ null := fun start => by simp only [null] at *; omega
  simp [initSubRegion, hbase]

theorem initSubRegions_result (mb : Nat) (subregionCfg : List MbSubRgnConfig) (fuel i : Nat)
    (m : Mem) (hmb : mb ≠ null) :
    ((initSubRegions mb subregionCfg fuel i).run memHandler m).1 = true := by
  induction fuel generalizing i m with
  | zero => rfl
  | succ fuel ih =>
      simp only [initSubRegions, Prog.run_bind, Prog.run_ite]
      split
      · rw [initSubRegion_result _ _ _ _ hmb, if_pos rfl]
        exact ih _ _
      · rfl

theorem libMBInitMailbox_result (mb : Nat) (mbCfg : MbConfig)
    (subregionCfg : List MbSubRgnConfig) (m : Mem) (hmb : mb ≠ null) :
    ((libMBInitMailbox mb mbCfg subregionCfg).run memHandler m).1 = true := by
  simp only [libMBInitMailbox, if_pos hmb, Prog.run_bind]
  exact initSubRegions_result mb subregionCfg _ 0 _ hmb

/-- A non-null mailbox is created exactly if its configuration passes the boundary check. -/
theorem libMBCreate_result (mb : Nat) (mbCfg : MbConfig) (subregionCfg : List MbSubRgnConfig)
    (m : Mem) (hmb : mb ≠ null) :
    ((libMBCreate mb (some mbCfg) (some subregionCfg)).run memHandler m).1 =
      if libMBBoundaryCheck mbCfg subregionCfg then mbESuccess else mbEInvalidCfg := by
  simp only [libMBCreate, if_pos hmb, Prog.run_ite]
  split
  · rw [Prog.run_bind, libMBInitMailbox_result _ _ _ _ hmb, if_pos rfl]
    rfl
  · rfl

theorem libMBCreate_success (mb : Nat) (mbCfg : MbConfig) (subregionCfg : List MbSubRgnConfig)
    (m : Mem)
    (h : ((libMBCreate mb (some mbCfg) (some subregionCfg)).run memHandler m).1 = mbESuccess) :
    mb ≠ null ∧ libMBBoundaryCheck mbCfg subregionCfg = true := by
  by_cases hmb : mb = null
  · simp [libMBCreate, hmb, mbENullInput, mbESuccess] at h
  · refine ⟨hmb, ?_⟩
    rw [libMBCreate_result _ _ _ _ hmb] at h
    by_contra hb
    rw [if_neg hb] at h
    exact absurd h (by decide)

end RtssMailbox
