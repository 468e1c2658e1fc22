import RtssMailbox.UpdaterCommands

/-!
The messages about one image. A request to read or to flash it, and the response to a
request to read it, have the image's name and the place, the length and the CRC of a
buffer at the same offsets.
-/
namespace RtssMailbox
open ByteMemory

namespace RtssUpdMsgHeader
def imgName : Nat := 20
def flashPartition : Nat := 52
def bufAddr : Nat := 60
def bufLen : Nat := 64
def bufCrc : Nat := 68
end RtssUpdMsgHeader

def imgName (msg : Mem) : CString :=
  (loadBytes msg RtssUpdMsgHeader.imgName rtssUpdImgNameLen).takeWhile (· ≠ 0)

/-- The buffer that a message announces: its place, its length and its CRC. -/
def announced (msg : Mem) : UInt32 × UInt32 × UInt32 :=
  (load32 msg RtssUpdMsgHeader.bufAddr, load32 msg RtssUpdMsgHeader.bufLen,
    load32 msg RtssUpdMsgHeader.bufCrc)

/-- The name as it stands in a zeroed field. -/
def imgNameField (imageNm : CString) : List UInt8 :=
  loadBytes (storeBytes zeroed 0 (imageNm.take rtssUpdImgNameLen)) 0 rtssUpdImgNameLen

/-- The message that requests to flash an image, without its header CRC. -/
def flashimgMsg (imageNm : CString) (gpt partition sVa bufLen bufCrc flashtype : UInt32) : Mem :=
  let body := storeBytes (namedBody imageNm) (RtssUpdMsgHeader.body + rtssUpdImgNameLen)
    [partition.toUInt8, 0, 0, flashtype.toUInt8]
  rtssUpdMsg rtssUpdMsgFlashImage
    (storeWords body (RtssUpdMsgHeader.body + rtssUpdImgNameLen + 4) [gpt, sVa, bufLen, bufCrc])

/-- The message that requests to read an image, without its header CRC. -/
def readimgMsg (imageNm : CString) (partition gpt sVa bufLen : UInt32) : Mem :=
  rtssUpdMsg rtssUpdMsgReadImage
    (storeWords (namedBody imageNm) (RtssUpdMsgHeader.body + rtssUpdImgNameLen)
      [partition, gpt, sVa, bufLen, 0])

theorem loadBytes_sealed (msgId crc : UInt32) (body : Mem) (a n : Nat)
    (ha : RtssUpdMsgHeader.body ≤ a) :
    loadBytes (store32 (rtssUpdMsg msgId body) RtssUpdMsgHeader.headerCrc crc) a n =
      loadBytes body a n := by
  rw [loadBytes_store32_disjoint, rtssUpdMsg, loadBytes_storeWords_disjoint]
  · exact Or.inr ha
  · exact Or.inr (Nat.le_trans (by decide) ha)

theorem load32_sealed (msgId crc : UInt32) (body : Mem) (a : Nat)
    (ha : RtssUpdMsgHeader.body ≤ a) :
    load32 (store32 (rtssUpdMsg msgId body) RtssUpdMsgHeader.headerCrc crc) a = load32 body a :=
  congrArg ofLe32 (loadBytes_sealed msgId crc body a 4 ha)

theorem loadBytes_namedBody (imageNm : CString) :
    loadBytes (namedBody imageNm) RtssUpdMsgHeader.imgName rtssUpdImgNameLen =
      imgNameField imageNm := by
  have hlen : (imageNm.take rtssUpdImgNameLen).length ≤ rtssUpdImgNameLen :=
    List.length_take_le _ _
  rw [namedBody, imgNameField]
  exact (loadBytes_storeBytes_across zeroed _ _ _ hlen).trans
    (loadBytes_storeBytes_across zeroed 0 _ _ hlen).symm

section Flash
variable (imageNm : CString) (gpt partition sVa bufLen bufCrc flashtype crc : UInt32)

theorem flashimgMsg_imgName :
    loadBytes (store32 (flashimgMsg imageNm gpt partition sVa bufLen bufCrc flashtype)
        RtssUpdMsgHeader.headerCrc crc) RtssUpdMsgHeader.imgName rtssUpdImgNameLen =
      imgNameField imageNm := by
  rw [flashimgMsg, loadBytes_sealed _ _ _ _ _ (by decide),
    loadBytes_storeWords_disjoint _ _ _ _ _ (Or.inl (by decide)),
    loadBytes_storeBytes_disjoint _ _ _ _ _ (Or.inl (by decide)), loadBytes_namedBody]

theorem flashimgMsg_partition :
    (store32 (flashimgMsg imageNm gpt partition sVa bufLen bufCrc flashtype)
      RtssUpdMsgHeader.headerCrc crc) RtssUpdMsgHeader.flashPartition = partition.toUInt8 := by
  have hbyte : loadBytes (store32 (flashimgMsg imageNm gpt partition sVa bufLen bufCrc flashtype)
      RtssUpdMsgHeader.headerCrc crc) RtssUpdMsgHeader.flashPartition 1 = [partition.toUInt8] := by
    rw [flashimgMsg, loadBytes_sealed _ _ _ _ _ (by decide),
      loadBytes_storeWords_disjoint _ _ _ _ _ (Or.inl (by decide))]
    exact loadBytes_storeBytes_inside _ _ _ 0 1 (Nat.succ_le_succ (Nat.zero_le _))
  exact List.head_eq_of_cons_eq hbyte

theorem flashimgMsg_announced :
    announced (store32 (flashimgMsg imageNm gpt partition sVa bufLen bufCrc flashtype)
      RtssUpdMsgHeader.headerCrc crc) = (sVa, bufLen, bufCrc) := by
  have hword : ∀ i w, [gpt, sVa, bufLen, bufCrc][i]? = some w →
      load32 (store32 (flashimgMsg imageNm gpt partition sVa bufLen bufCrc flashtype)
        RtssUpdMsgHeader.headerCrc crc)
          (RtssUpdMsgHeader.body + rtssUpdImgNameLen + 4 + 4 * i) = w := by
    intro i w hw
    rw [flashimgMsg, load32_sealed _ _ _ _ (by omega)]
    exact load32_storeWords _ _ i _ w hw
  exact Prod.ext (hword 1 sVa rfl) (Prod.ext (hword 2 bufLen rfl) (hword 3 bufCrc rfl))

end Flash

theorem readimgMsg_imgName (imageNm : CString) (partition gpt sVa bufLen crc : UInt32) :
    loadBytes (store32 (readimgMsg imageNm partition gpt sVa bufLen)
        RtssUpdMsgHeader.headerCrc crc) RtssUpdMsgHeader.imgName rtssUpdImgNameLen =
      imgNameField imageNm := by
  rw [readimgMsg, loadBytes_sealed _ _ _ _ _ (by decide),
    loadBytes_storeWords_disjoint _ _ _ _ _ (Or.inl (by decide)), loadBytes_namedBody]

end RtssMailbox
