import RtssMailbox.UpdaterSteps

/-!
The messages of the commands, and those of the commands that no sequence uses. The RTSS checks
the CRC of a message, and the CRC of the buffer that the message announces: a command sends
nothing that fails one of these checks, and it succeeds if its message was taken whole.
-/
namespace RtssMailbox
open Effects ByteMemory Monitoring Monitor

def rtssUpdMsgBootImage : UInt32 := 9
def rtssUpdMsgBootContinue : UInt32 := 10
def rtssUpdMsgUpdateMrc : UInt32 := 15
def rtssUpdMsgReadOtaMetadata : UInt32 := 16
def rtssUpdMsgWriteOtaMetadata : UInt32 := 17
def rtssUpdMsgEraseOtaMetadata : UInt32 := 18
def rtssUpdMsgTestErrorInjection : UInt32 := 255

/-! The commands that no sequence uses. -/

def rtssUpdaterUpdateMrc (u : Updater) (d1 d2 d3 d4 : UInt32) : Prog UpdSig UInt32 :=
  sendWords u rtssUpdMsgUpdateMrc [d1, d2, d3, d4]

/-- A length that the caller gives is used, whether it fits the images or not. -/
def rtssUpdaterQueryimage (u : Updater) (numImages bufLen bufCrc sVa : UInt32) (pVa : Nat) :
    Prog UpdSig UInt32 := do
  if pVa = null then
    return exitFailure
  let imgLen := numImages * UInt32.ofNat sizeofRtssUpdImageEntry
  let imgLen := if bufLen ≠ 0 ∧ bufLen ≠ imgLen then bufLen else imgLen
  let some crc ← collectCrc bufCrc imgLen | return exitFailure
  sendWords u rtssUpdMsgQueryImages [numImages, sVa, imgLen, crc]

def rtssUpdaterBootimg (u : Updater) (imageNm : Option CString)
    (gpt partition sVa bufLen bufCrc : UInt32) (pVa : Nat) : Prog UpdSig UInt32 := do
  if pVa = null then
    return exitFailure
  let some imageNm := imageNm | return exitFailure
  let some crc ← collectCrc bufCrc bufLen | return exitFailure
  sealAndSend u (rtssUpdMsg rtssUpdMsgBootImage
    (storeWords (namedBody imageNm) (RtssUpdMsgHeader.body + rtssUpdImgNameLen)
      [partition, gpt, sVa, bufLen, crc]))

def rtssUpdaterBootcontinue (u : Updater) : Prog UpdSig UInt32 :=
  sendWords u rtssUpdMsgBootContinue []

def rtssUpdaterInjectfault (u : Updater) (enable trigger : UInt32) : Prog UpdSig UInt32 :=
  sendWords u rtssUpdMsgTestErrorInjection [enable, trigger]

def rtssUpdaterReadMetadata (u : Updater) (sVa bufLen offset size : UInt32) :
    Prog UpdSig UInt32 :=
  sendWords u rtssUpdMsgReadOtaMetadata [sVa, bufLen, 0, offset, size]

/-- A CRC that the caller gives is not sent: its field stays zero. -/
def rtssUpdaterWriteMetadata (u : Updater) (sVa bufLen bufCrc offset size : UInt32)
    (pVa : Nat) : Prog UpdSig UInt32 := do
  if pVa = null then
    return exitFailure
  let some crc ← collectCrc bufCrc bufLen | return exitFailure
  sendWords u rtssUpdMsgWriteOtaMetadata
    [sVa, bufLen, if bufCrc ≠ 0 then 0 else crc, offset, size]

def rtssUpdaterEraseMetadata (u : Updater) (startBlock blockCnt : UInt32) :
    Prog UpdSig UInt32 :=
  sendWords u rtssUpdMsgEraseOtaMetadata [startBlock, blockCnt]

def rtssUpdaterGetImageDigest (u : Updater) (numImages bufLen bufCrc sVa : UInt32) (pVa : Nat) :
    Prog UpdSig UInt32 := do
  if pVa = null then
    return exitFailure
  let some crc ← collectCrc bufCrc bufLen | return exitFailure
  sendWords u rtssUpdMsgGetImageDigest [numImages, sVa, bufLen, crc]

/-! All of the commands. -/

inductive UpdaterCommand where
  | chkgpt
  | fixgpt (gptId sVa bufLen fixtype : UInt32)
  | readgpt (gptId sVa bufLen : UInt32) (pVa : Nat)
  | writegpt (gptId : UInt8) (bufGpt : Option Mem) (sVa bufLen bufCrc : UInt32) (pVa : Nat)
  | updategpt (numImages gpt sVa bufLen bufCrc : UInt32) (pVa : Nat)
  | flashimg (imageNm : Option CString) (gpt partition sVa bufLen bufCrc flashtype : UInt32)
      (pVa : Nat)
  | readimg (imageNm : Option CString) (partition gpt sVa bufLen : UInt32)
  | getBlInfo (numImages bufLen bufCrc sVa : UInt32) (pVa : Nat)
  | getMetadata (sVa bufLen : UInt32)
  | setMetadata (sVa bufLen bufCrc : UInt32) (pVa : Nat)
  | updateArb (d1 d2 d3 d4 : UInt32)
  | updateMrc (d1 d2 d3 d4 : UInt32)
  | queryimage (numImages bufLen bufCrc sVa : UInt32) (pVa : Nat)
  | bootimg (imageNm : Option CString) (gpt partition sVa bufLen bufCrc : UInt32) (pVa : Nat)
  | bootcontinue
  | injectfault (enable trigger : UInt32)
  | readMetadata (sVa bufLen offset size : UInt32)
  | writeMetadata (sVa bufLen bufCrc offset size : UInt32) (pVa : Nat)
  | eraseMetadata (startBlock blockCnt : UInt32)
  | getMetadataInfo
  | updateOtaDoneState (d1 d2 d3 d4 : UInt32)
  | redundancyEstablished (d1 d2 d3 d4 : UInt32)
  | getImageDigest (numImages bufLen bufCrc sVa : UInt32) (pVa : Nat)

/-- A buffer whose CRC stands in a message, behind its length: the number of the CRC's word in
the body, the CRC that the caller gave, what is sent in place of that, how many bytes a CRC is
taken of, and the length that the message announces. -/
structure AnnouncedBuffer where
  crcWord : Nat
  bufCrc : UInt32
  sentCrc : UInt32
  len : UInt32
  bufLen : UInt32

/-- The length of the entries of the images, or the one that the caller gave. -/
def entriesLen (numImages bufLen : UInt32) : UInt32 :=
  let imgLen := numImages * UInt32.ofNat sizeofRtssUpdImageEntry
  if bufLen ≠ 0 ∧ bufLen ≠ imgLen then bufLen else imgLen

/-- A length that is rounded up to whole cache lines. -/
def linesLen (bufLen : UInt32) : UInt32 :=
  let cacheLine := rtssUpdGetCacheLineSz
  let byteAllign := bufLen % cacheLine
  if byteAllign ≠ 0 then bufLen + (cacheLine - byteAllign) else bufLen

namespace UpdaterCommand

def prog (u : Updater) : UpdaterCommand → Prog UpdSig UInt32
  | chkgpt => rtssUpdaterChkgpt u
  | fixgpt gptId sVa bufLen fixtype => rtssUpdaterFixgpt u gptId sVa bufLen fixtype
  | readgpt gptId sVa bufLen pVa => rtssUpdaterReadgpt u gptId sVa bufLen pVa
  | writegpt gptId bufGpt sVa bufLen bufCrc pVa =>
      rtssUpdaterWritegpt u gptId bufGpt sVa bufLen bufCrc pVa
  | updategpt numImages gpt sVa bufLen bufCrc pVa =>
      rtssUpdaterUpdategpt u numImages gpt sVa bufLen bufCrc pVa
  | flashimg imageNm gpt partition sVa bufLen bufCrc flashtype pVa =>
      rtssUpdaterFlashimg u imageNm gpt partition sVa bufLen bufCrc flashtype pVa
  | readimg imageNm partition gpt sVa bufLen =>
      rtssUpdaterReadimg u imageNm partition gpt sVa bufLen
  | getBlInfo numImages bufLen bufCrc sVa pVa =>
      rtssUpdaterGetBlInfo u numImages bufLen bufCrc sVa pVa
  | getMetadata sVa bufLen => rtssUpdaterGetMetadata u sVa bufLen
  | setMetadata sVa bufLen bufCrc pVa => rtssUpdaterSetMetadata u sVa bufLen bufCrc pVa
  | updateArb d1 d2 d3 d4 => rtssUpdaterUpdateArb u d1 d2 d3 d4
  | updateMrc d1 d2 d3 d4 => rtssUpdaterUpdateMrc u d1 d2 d3 d4
  | queryimage numImages bufLen bufCrc sVa pVa =>
      rtssUpdaterQueryimage u numImages bufLen bufCrc sVa pVa
  | bootimg imageNm gpt partition sVa bufLen bufCrc pVa =>
      rtssUpdaterBootimg u imageNm gpt partition sVa bufLen bufCrc pVa
  | bootcontinue => rtssUpdaterBootcontinue u
  | injectfault enable trigger => rtssUpdaterInjectfault u enable trigger
  | readMetadata sVa bufLen offset size => rtssUpdaterReadMetadata u sVa bufLen offset size
  | writeMetadata sVa bufLen bufCrc offset size pVa =>
      rtssUpdaterWriteMetadata u sVa bufLen bufCrc offset size pVa
  | eraseMetadata startBlock blockCnt => rtssUpdaterEraseMetadata u startBlock blockCnt
  | getMetadataInfo => rtssUpdaterGetMetadataInfo u
  | updateOtaDoneState d1 d2 d3 d4 => rtssUpdaterUpdateOtaDoneState u d1 d2 d3 d4
  | redundancyEstablished d1 d2 d3 d4 => rtssUpdaterRedundancyEstablished u d1 d2 d3 d4
  | getImageDigest numImages bufLen bufCrc sVa pVa =>
      rtssUpdaterGetImageDigest u numImages bufLen bufCrc sVa pVa

def msgId : UpdaterCommand → UInt32
  | chkgpt => rtssUpdMsgCheckGpt
  | fixgpt _ _ _ _ => rtssUpdMsgFixGpt
  | readgpt _ _ _ _ => rtssUpdMsgReadGpt
  | writegpt _ _ _ _ _ _ => rtssUpdMsgWriteGpt
  | updategpt _ _ _ _ _ _ => rtssUpdMsgUpdateGpt
  | flashimg _ _ _ _ _ _ _ _ => rtssUpdMsgFlashImage
  | readimg _ _ _ _ _ => rtssUpdMsgReadImage
  | getBlInfo _ _ _ _ _ => rtssUpdMsgGetBootinfo
  | getMetadata _ _ => rtssUpdMsgGetOtaMetadata
  | setMetadata _ _ _ _ => rtssUpdMsgSetOtaMetadata
  | updateArb _ _ _ _ => rtssUpdMsgUpdateArb
  | updateMrc _ _ _ _ => rtssUpdMsgUpdateMrc
  | queryimage _ _ _ _ _ => rtssUpdMsgQueryImages
  | bootimg _ _ _ _ _ _ _ => rtssUpdMsgBootImage
  | bootcontinue => rtssUpdMsgBootContinue
  | injectfault _ _ => rtssUpdMsgTestErrorInjection
  | readMetadata _ _ _ _ => rtssUpdMsgReadOtaMetadata
  | writeMetadata _ _ _ _ _ _ => rtssUpdMsgWriteOtaMetadata
  | eraseMetadata _ _ => rtssUpdMsgEraseOtaMetadata
  | getMetadataInfo => rtssUpdMsgGetOtaMetadatainfo
  | updateOtaDoneState _ _ _ _ => rtssUpdMsgOtaDone
  | redundancyEstablished _ _ _ _ => rtssUpdMsgRedundancyEstablished
  | getImageDigest _ _ _ _ _ => rtssUpdMsgGetImageDigest

/-- The CRC of an update of the GPT is taken of the entries alone, and a CRC for the metadata
that the caller gives is not sent. -/
def buffer : UpdaterCommand → Option AnnouncedBuffer
  | readgpt _ _ bufLen _ => some ⟨3, 0, 0, bufLen, bufLen⟩
  | writegpt _ _ _ bufLen bufCrc _ =>
      some ⟨3, bufCrc, bufCrc, linesLen bufLen, linesLen bufLen⟩
  | updategpt numImages _ _ bufLen bufCrc _ =>
      some ⟨4, bufCrc, bufCrc, numImages * UInt32.ofNat sizeofRtssUpdUpdateGptEntry, bufLen⟩
  | flashimg _ _ _ _ bufLen bufCrc _ _ => some ⟨12, bufCrc, bufCrc, bufLen, bufLen⟩
  | getBlInfo numImages bufLen bufCrc _ _ =>
      some ⟨9, bufCrc, bufCrc, entriesLen numImages bufLen, entriesLen numImages bufLen⟩
  | setMetadata _ bufLen bufCrc _ => some ⟨2, bufCrc, bufCrc, bufLen, bufLen⟩
  | queryimage numImages bufLen bufCrc _ _ =>
      some ⟨3, bufCrc, bufCrc, entriesLen numImages bufLen, entriesLen numImages bufLen⟩
  | bootimg _ _ _ _ bufLen bufCrc _ => some ⟨12, bufCrc, bufCrc, bufLen, bufLen⟩
  | writeMetadata _ bufLen bufCrc _ _ _ => some ⟨2, bufCrc, 0, bufLen, bufLen⟩
  | getImageDigest _ bufLen bufCrc _ _ => some ⟨3, bufCrc, bufCrc, bufLen, bufLen⟩
  | _ => none

end UpdaterCommand

/-- What was loaded from the start of the buffer behind the last store to it, and how the
write of the message has ended. -/
structure CommandWatch where
  loaded : Option (List UInt8)
  sent : Option Int

namespace CommandWatch

def start : CommandWatch := ⟨none, none⟩

def next (s : CommandWatch) : Event UpdSig → CommandWatch
  | ⟨.mbWrite _ _ _, (ret : Int)⟩ => { s with sent := some ret }
  | ⟨.otaLoad offset len, bytes⟩ =>
      { s with loaded := if offset = 0 then some (List.ofFn (n := len) bytes) else none }
  | ⟨.otaStore _ _, _⟩ => { s with loaded := none }
  | _ => s

end CommandWatch

/-- A message with its header filled in, which passes the check of a receiver. -/
structure SealedAs (msgId : UInt32) (msg : Mem) : Prop where
  headerSize : load32 msg RtssUpdMsgHeader.headerSize = UInt32.ofNat sizeofRtssUpdMsgHeader
  ofKind : OfKind msgId msg
  direction : load32 msg RtssUpdMsgHeader.direction = rtssUpdMd2rtss
  status : load32 msg RtssUpdMsgHeader.status = rtssUpdSSuccess
  verifies : CrcVerifies msg

/-- The message has the CRC of the buffer as it was loaded, unless the caller gave one. -/
structure AnnouncedBuffer.Announced (b : AnnouncedBuffer) (loaded : Option (List UInt8))
    (msg : Mem) : Prop where
  announces : bodyWord msg (b.crcWord - 1) = b.bufLen
  given : b.bufCrc ≠ 0 → bodyWord msg b.crcWord = b.sentCrc
  collected : b.bufCrc = 0 → ∃ bytes ∈ loaded, bytes.length = b.len.toNat ∧
    rtssUpdCalculateCrc32 bytes = some (bodyWord msg b.crcWord)

def commandWatch (c : UpdaterCommand) (u : Updater) : Monitor UpdSig CommandWatch where
  next := CommandWatch.next
  allows
    | s, .mbWrite handle msg sz =>
        s.sent = none ∧ handle = u.txClientData ∧ sz = sizeofRtssUpdMsgHeader ∧
          SealedAs c.msgId msg ∧ ∀ b ∈ c.buffer, b.Announced s.loaded msg
    | _, .otaLoad _ _ => True
    | _, .otaStore _ _ => c.msgId = rtssUpdMsgWriteGpt
    | _, _ => False
  assumes _ _ := True

/-- A command succeeds exactly if its message was taken whole. -/
def Concluded (ret : UInt32) (s : CommandWatch) : Prop :=
  (ret = exitSuccess ∨ ret = exitFailure) ∧
    (ret = exitSuccess ↔ s.sent = some (sizeofRtssUpdMsgHeader : Int))

theorem sealedAs_of_crc {msgId crc : UInt32} {body : Mem}
    (hcrc : rtssUpdCalculateCrc32
      (loadBytes (rtssUpdMsg msgId body) 0 sizeofRtssUpdMsgHeader) = some crc) :
    SealedAs msgId (store32 (rtssUpdMsg msgId body) RtssUpdMsgHeader.headerCrc crc) := by
  have hword : ∀ i w, 0 < i →
      [0, UInt32.ofNat sizeofRtssUpdMsgHeader, msgId, rtssUpdMd2rtss, rtssUpdSSuccess][i]? =
        some w →
      load32 (store32 (rtssUpdMsg msgId body) RtssUpdMsgHeader.headerCrc crc) (4 * i) = w := by
    intro i w hi hw
    rw [load32_store32_disjoint _ _ _ _ (Or.inr (by simp only [RtssUpdMsgHeader.headerCrc]; omega))]
    exact Nat.zero_add (4 * i) ▸ load32_storeWords body RtssUpdMsgHeader.headerCrc i _ w hw
  refine ⟨hword 1 _ (by decide) rfl, ofKind_sealed _ _ _, hword 3 _ (by decide) rfl,
    hword 4 _ (by decide) rfl, ?_⟩
  have hzero : store32 (rtssUpdMsg msgId body) RtssUpdMsgHeader.headerCrc 0 =
      rtssUpdMsg msgId body := by
    rw [← headerCrc_rtssUpdMsg msgId body, store32_load32]
  rw [CrcVerifies, load32_store32_same, store32_store32_same, hzero, rtssUpdVerifyCrc32_iff]
  exact hcrc

section Commands
variable {c : UpdaterCommand} {u : Updater} {s : CommandWatch}

theorem concluded_failure (hsent : s.sent ≠ some (sizeofRtssUpdMsgHeader : Int)) :
    Concluded exitFailure s :=
  ⟨Or.inr rfl, fun h => absurd h exitFailure_ne_exitSuccess, fun h => absurd h hsent⟩

theorem failed_concludes (hsent : s.sent = none) :
    (commandWatch c u).Keeps Concluded (.ret exitFailure) s :=
  concluded_failure (hsent ▸ (Option.some_ne_none _).symm)

theorem sealAndSend_concludes {body : Mem} (hsent : s.sent = none)
    (hannounced : ∀ b ∈ c.buffer, b.Announced s.loaded body) :
    (commandWatch c u).Keeps Concluded (sealAndSend u (rtssUpdMsg c.msgId body)) s := by
  have hbytes : loadBytes (rtssUpdMsg c.msgId body) 0 sizeofRtssUpdMsgHeader ≠ [] :=
    List.ne_nil_of_length_pos (by rw [loadBytes_length]; decide)
  obtain ⟨crc, hcrc⟩ := Option.isSome_iff_exists.mp (rtssUpdCalculateCrc32_isSome hbytes)
  rw [sealAndSend, hcrc]
  refine ⟨⟨hsent, rfl, rfl, sealedAs_of_crc hcrc, fun b hb => ?_⟩, fun (ret : Int) _ => ?_⟩
  · obtain ⟨hlen, hgiven, hcollected⟩ := hannounced b hb
    rw [← bodyWord_sealed c.msgId body crc] at hlen hgiven hcollected
    exact ⟨hlen, hgiven, hcollected⟩
  · by_cases hbad : ret ≤ 0 ∨ ret ≠ sizeofRtssUpdMsgHeader
    · simp only [Prog.bind, if_pos hbad]
      refine concluded_failure fun h => ?_
      obtain rfl : ret = sizeofRtssUpdMsgHeader := Option.some.inj h
      exact absurd hbad (by decide)
    · simp only [Prog.bind, if_neg hbad]
      refine ⟨Or.inl rfl, fun _ => ?_, fun _ => rfl⟩
      exact congrArg some (not_not.mp (not_or.mp hbad).2)

/-- A message without a buffer, or whose buffer has no CRC. -/
theorem plain_concludes {body : Mem} (hsent : s.sent = none) (hplain : c.buffer = none) :
    (commandWatch c u).Keeps Concluded (sealAndSend u (rtssUpdMsg c.msgId body)) s :=
  sealAndSend_concludes hsent fun b hb => absurd (hplain ▸ hb) (Option.not_mem_none b)

theorem collectCrc_keeps (bufCrc bufLen : UInt32) :
    (commandWatch c u).Keeps (fun r s' => s'.sent = s.sent ∧ ∀ crc ∈ r,
      (bufCrc ≠ 0 → crc = bufCrc) ∧ (bufCrc = 0 → ∃ bytes ∈ s'.loaded,
        bytes.length = bufLen.toNat ∧ rtssUpdCalculateCrc32 bytes = some crc))
      (collectCrc bufCrc bufLen) s := by
  refine .guard (fun hgiven => ⟨rfl, fun crc hcrc => ?_⟩) fun hzero => ?_
  · cases hcrc
    exact ⟨fun _ => rfl, fun h => absurd h hgiven⟩
  · refine ⟨trivial, fun (bytes : Fin bufLen.toNat → UInt8) _ => ⟨rfl, fun crc hcrc => ?_⟩⟩
    exact ⟨fun h => absurd h hzero, fun _ => ⟨List.ofFn bytes, rfl, List.length_ofFn, hcrc⟩⟩

/-- A command that announces a buffer with its CRC, which it may take first. -/
theorem announcing_concludes (b : AnnouncedBuffer) (hb : c.buffer = some b)
    {body : UInt32 → Mem} {f : Option UInt32 → Prog UpdSig UInt32} (hsent : s.sent = none)
    (hnone : f none = .ret exitFailure)
    (hsome : ∀ crc, f (some crc) = sealAndSend u (rtssUpdMsg c.msgId (body crc)))
    (hlen : ∀ crc, bodyWord (body crc) (b.crcWord - 1) = b.bufLen)
    (hgiven : b.bufCrc ≠ 0 → bodyWord (body b.bufCrc) b.crcWord = b.sentCrc)
    (hcrc : b.bufCrc = 0 → ∀ crc, bodyWord (body crc) b.crcWord = crc) :
    (commandWatch c u).Keeps Concluded (collectCrc b.bufCrc b.len >>= f) s := by
  refine (collectCrc_keeps b.bufCrc b.len).then fun r s' ⟨hsame, hr⟩ => ?_
  have hsent' : s'.sent = none := hsame.trans hsent
  cases r with
  | none =>
      rw [hnone]
      exact failed_concludes hsent'
  | some crc =>
      obtain ⟨hfirst, hloaded⟩ := hr crc rfl
      rw [hsome]
      refine sealAndSend_concludes hsent' fun b' hb' => ?_
      obtain rfl : b = b' := Option.some.inj (hb.symm.trans hb')
      refine ⟨hlen crc, fun h => ?_, fun h => ?_⟩
      · rw [hfirst h]
        exact hgiven h
      · rw [hcrc h]
        exact hloaded h

/-- The CRC of the caller is sent as it is. -/
theorem carrying_concludes (b : AnnouncedBuffer) (hb : c.buffer = some b)
    (hsame : b.sentCrc = b.bufCrc) {body : UInt32 → Mem} {f : Option UInt32 → Prog UpdSig UInt32}
    (hsent : s.sent = none) (hnone : f none = .ret exitFailure)
    (hsome : ∀ crc, f (some crc) = sealAndSend u (rtssUpdMsg c.msgId (body crc)))
    (hlen : ∀ crc, bodyWord (body crc) (b.crcWord - 1) = b.bufLen)
    (hcrc : ∀ crc, bodyWord (body crc) b.crcWord = crc) :
    (commandWatch c u).Keeps Concluded (collectCrc b.bufCrc b.len >>= f) s :=
  announcing_concludes b hb hsent hnone hsome hlen (fun _ => (hcrc _).trans hsame.symm)
    fun _ => hcrc

end Commands

/-- Whatever the channel answers and the buffer holds, a command sends one message at most. It
passes the check of its header and has the CRC of the buffer that it announces, unless the
caller gave one. The command succeeds exactly if the message was taken whole. -/
theorem command_concludes (c : UpdaterCommand) (u : Updater) :
    (commandWatch c u).Keeps Concluded (c.prog u) .start := by
  cases c with
  | chkgpt | fixgpt | getMetadata | updateArb | updateMrc | bootcontinue | injectfault =>
      exact plain_concludes rfl rfl
  | readMetadata | eraseMetadata | getMetadataInfo | updateOtaDoneState =>
      exact plain_concludes rfl rfl
  | redundancyEstablished => exact plain_concludes rfl rfl
  | readimg imageNm partition gpt sVa bufLen =>
      cases imageNm with
      | none => exact failed_concludes rfl
      | some imageNm => exact plain_concludes rfl rfl
  | readgpt gptId sVa bufLen pVa =>
      refine .guard (fun _ => failed_concludes rfl) fun _ => ?_
      exact carrying_concludes ⟨3, 0, 0, bufLen, bufLen⟩ rfl rfl rfl rfl (fun _ => rfl)
        (fun _ => bodyWord_storeWords rfl) fun _ => bodyWord_storeWords rfl
  | updategpt numImages gpt sVa bufLen bufCrc pVa =>
      refine .guard (fun _ => failed_concludes rfl) fun _ => ?_
      exact carrying_concludes ⟨4, bufCrc, bufCrc, _, bufLen⟩ rfl rfl rfl rfl (fun _ => rfl)
        (fun _ => bodyWord_storeWords rfl) fun _ => bodyWord_storeWords rfl
  | setMetadata sVa bufLen bufCrc pVa =>
      refine .guard (fun _ => failed_concludes rfl) fun _ => ?_
      exact carrying_concludes ⟨2, bufCrc, bufCrc, bufLen, bufLen⟩ rfl rfl rfl rfl (fun _ => rfl)
        (fun _ => bodyWord_storeWords rfl) fun _ => bodyWord_storeWords rfl
  | getImageDigest numImages bufLen bufCrc sVa pVa =>
      refine .guard (fun _ => failed_concludes rfl) fun _ => ?_
      exact carrying_concludes ⟨3, bufCrc, bufCrc, bufLen, bufLen⟩ rfl rfl rfl rfl (fun _ => rfl)
        (fun _ => bodyWord_storeWords rfl) fun _ => bodyWord_storeWords rfl
  | getBlInfo numImages bufLen bufCrc sVa pVa =>
      refine .guard (fun _ => failed_concludes rfl) fun _ => ?_
      exact carrying_concludes
        ⟨9, bufCrc, bufCrc, entriesLen numImages bufLen, entriesLen numImages bufLen⟩ rfl rfl rfl
        rfl (fun _ => rfl) (fun _ => bodyWord_storeWords rfl) fun _ => bodyWord_storeWords rfl
  | queryimage numImages bufLen bufCrc sVa pVa =>
      refine .guard (fun _ => failed_concludes rfl) fun _ => ?_
      exact carrying_concludes
        ⟨3, bufCrc, bufCrc, entriesLen numImages bufLen, entriesLen numImages bufLen⟩ rfl rfl rfl
        rfl (fun _ => rfl) (fun _ => bodyWord_storeWords rfl) fun _ => bodyWord_storeWords rfl
  | writeMetadata sVa bufLen bufCrc offset size pVa =>
      refine .guard (fun _ => failed_concludes rfl) fun _ => ?_
      exact announcing_concludes ⟨2, bufCrc, 0, bufLen, bufLen⟩ rfl rfl rfl (fun _ => rfl)
        (fun _ => bodyWord_storeWords rfl)
        (fun hgiven => bodyWord_storeWords (congrArg some (if_pos hgiven)))
        fun hzero _ => bodyWord_storeWords (congrArg some (if_neg (not_not.mpr hzero)))
  | writegpt gptId bufGpt sVa bufLen bufCrc pVa =>
      cases bufGpt with
      | none => exact failed_concludes rfl
      | some bufGpt =>
          refine .guard (fun _ => failed_concludes rfl) fun _ => ?_
          refine .guard (fun _ => failed_concludes rfl) fun _ => ?_
          refine ⟨rfl, fun _ _ => ⟨rfl, fun _ _ => ?_⟩⟩
          refine .guard (fun _ => failed_concludes rfl) fun _ => ?_
          exact carrying_concludes ⟨3, bufCrc, bufCrc, linesLen bufLen, linesLen bufLen⟩ rfl rfl
            rfl rfl (fun _ => rfl) (fun _ => bodyWord_storeWords rfl)
            fun _ => bodyWord_storeWords rfl
  | flashimg imageNm gpt partition sVa bufLen bufCrc flashtype pVa =>
      refine .guard (fun _ => failed_concludes rfl) fun _ => ?_
      cases imageNm with
      | none => exact failed_concludes rfl
      | some imageNm =>
          exact carrying_concludes ⟨12, bufCrc, bufCrc, bufLen, bufLen⟩ rfl rfl rfl rfl
            (fun _ => rfl) (fun _ => load32_storeWords _ _ 2 _ _ rfl)
            fun _ => load32_storeWords _ _ 3 _ _ rfl
  | bootimg imageNm gpt partition sVa bufLen bufCrc pVa =>
      refine .guard (fun _ => failed_concludes rfl) fun _ => ?_
      cases imageNm with
      | none => exact failed_concludes rfl
      | some imageNm =>
          exact carrying_concludes ⟨12, bufCrc, bufCrc, bufLen, bufLen⟩ rfl rfl rfl rfl
            (fun _ => rfl) (fun _ => load32_storeWords _ _ 3 _ _ rfl)
            fun _ => load32_storeWords _ _ 4 _ _ rfl

end RtssMailbox
