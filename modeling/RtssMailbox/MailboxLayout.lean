import RtssMailbox.Library.ByteMemory

/-!
The shared-memory format of a mailbox: constants, field offsets and the
configuration records from which a mailbox is created. The structures of the
source are packed, so a field's offset is the sum of the sizes before it.
-/
namespace RtssMailbox

def mbMagicNumber : UInt32 := 0x4D4C3130
def mbNameSz : Nat := 16
def mbMaxSubRegionNum : UInt32 := 253
def mbMaxItemNum : UInt32 := 0x100000
def mbMaxSize : UInt32 := 0x800000

def mbChanRdMode : UInt32 := 0
def mbChanWrMode : UInt32 := 1

def mbESuccess : Int := 0
def mbENullInput : Int := -11
def mbEInvalidCfg : Int := -22
def mbEInvalidIndex : Int := -33
def mbEInvalidMailbox : Int := -44
def mbENoEnoughBuf : Int := -55
def mbECorruptMailbox : Int := -66

/-- The conversion of an unsigned value to `int32_t`. -/
def int32 (n : Nat) : Int :=
  if n % 4294967296 < 2147483648 then n % 4294967296 else n % 4294967296 - 4294967296

theorem int32_of_lt (n : Nat) (h : n < 2147483648) : int32 n = n := by
  unfold int32
  omega

theorem toNat_sub_one (x : UInt32) (h : 0 < x.toNat) : (x - 1).toNat = x.toNat - 1 := by
  have hone : (1 : UInt32) ≤ x := UInt32.le_iff_toNat_le.mpr h
  exact UInt32.toNat_sub_of_le _ _ hone

/-! Fields of `mb_desc_t`. -/

namespace MbDesc
def name : Nat := 0
def magic : Nat := 16
def mbSize : Nat := 20
def mbPrio : Nat := 24
def numOfSubRegion : Nat := 28
def subRegionStartOffset (i : Nat) : Nat := 32 + 8 * i
def subRegionEndOffset (i : Nat) : Nat := 36 + 8 * i
end MbDesc

def sizeofMbDesc : Nat := 40

def sizeofMbSubRgnArea : Nat := 8

/-! Fields of `mbsub_rgn_desc_t`; the ring of items follows its header. -/

namespace MbSubRgnDesc
def name : Nat := 0
def sender : Nat := 16
def receiver : Nat := 20
def prot : Nat := 24
def sig : Nat := 28
def mode : Nat := 32
def prio : Nat := 36
def maxItemNum : Nat := 40
def maxItemSize : Nat := 44
def itemInIndex : Nat := 48
def itemOutIndex : Nat := 52
end MbSubRgnDesc

def mbSubRegionHeaderSz : Nat := 56

/-- `mbconfig_t`; its `mblocator` field is read by no function. -/
structure MbConfig where
  name : Vector UInt8 mbNameSz
  mbSize : UInt32
  mbPrio : UInt32
  numSubRegions : UInt32

structure MbSubRgnConfig where
  name : Vector UInt8 mbNameSz
  sender : UInt32
  receiver : UInt32
  prot : UInt32
  sig : UInt32
  mode : UInt32
  prio : UInt32
  startAddrOffset : UInt32
  endAddrOffset : UInt32
  itemMaxNum : UInt32
  itemMaxSize : UInt32
deriving Inhabited

structure MbChanDesc where
  name : List UInt8
  sender : UInt32
  receiver : UInt32
  prot : UInt32
  sig : UInt32
  mode : UInt32
  prio : UInt32
  maxItemNum : UInt32
  maxItemSize : UInt32
deriving DecidableEq

def subregionCfgAt (subregionCfg : List MbSubRgnConfig) (i : Nat) : MbSubRgnConfig :=
  subregionCfg.getD i default

end RtssMailbox
