import RtssMailbox.GptWrites

/-!
The buffer lengths in the messages, against what the message definitions ask of them:
whole cache lines, and a least length where the RTSS works in the buffer. The updater
rounds what was reported to 16 bytes, or takes the size of its tables as it is. A monitor
follows what was reported and which files were loaded.
-/
namespace RtssMailbox
open Effects ByteMemory Monitoring Monitor

/-- The word of the body that is the buffer length, for the kinds of messages with one. -/
def bufLenWord (msgId : UInt32) : Option Nat :=
  if msgId = rtssUpdMsgGetOtaMetadata ∨ msgId = rtssUpdMsgSetOtaMetadata then some 1
  else if msgId = rtssUpdMsgReadGpt ∨ msgId = rtssUpdMsgWriteGpt ∨ msgId = rtssUpdMsgFixGpt then
    some 2
  else if msgId = rtssUpdMsgUpdateGpt then some 3
  else if msgId = rtssUpdMsgGetBootinfo then some 8
  else if msgId = rtssUpdMsgReadImage ∨ msgId = rtssUpdMsgFlashImage then some 11
  else none

def bufLen (msg : Mem) : Option UInt32 :=
  (bufLenWord (load32 msg RtssUpdMsgHeader.msgId)).map (bodyWord msg)

/-- What the definition of a message asks of its buffer length. The primary GPT has the
size `gpt` by the last report, and `num` is the number of entries of an update. -/
structure LengthMeets (msgId gpt num len : UInt32) : Prop where
  lines : len.toNat % rtssUpdGetCacheLineSz.toNat = 0
  work : msgId = rtssUpdMsgFixGpt → 2 * gpt.toNat ≤ len.toNat
  entries : msgId = rtssUpdMsgUpdateGpt →
    num.toNat * sizeofRtssUpdUpdateGptEntry + 24 * 1024 ≤ len.toNat

/-- What a monitor keeps: the kind of the last message that was sent and the number of
image reads that were sent; the sizes of the primary GPT and of the metadata partition, and
the length of an image that was read, that were reported last; the image table of the boot
information; whether the last file was loaded whole. -/
structure LengthWatch where
  sent : Option UInt32
  reads : Nat
  gpt : UInt32
  metadata : UInt32
  readLen : UInt32
  table : Nat → RtssUpdImageEntry
  loaded : Bool

namespace LengthWatch

def start : LengthWatch := ⟨none, 0, 0, 0, 0, fun _ => ⟨[], 0, 0, 0, 0, 0⟩, false⟩

def send (s : LengthWatch) (msgId : UInt32) : LengthWatch :=
  { s with
    sent := some msgId
    reads := if msgId = rtssUpdMsgReadImage then s.reads + 1 else s.reads }

def receive (s : LengthWatch) (r : Int × Mem) : LengthWatch :=
  { s with
    gpt := if VerifiedAs rtssUpdMsgCheckGpt r then bodyWord r.2 2 else s.gpt
    metadata := if VerifiedAs rtssUpdMsgGetOtaMetadatainfo r then bodyWord r.2 0 else s.metadata
    readLen := if VerifiedAs rtssUpdMsgReadImage r then bodyWord r.2 11 else s.readLen }

/-- What is loaded between the request for the boot information and the next message
are the entries of the image table. -/
def load (s : LengthWatch) (offset : Nat) (bytes : List UInt8) : LengthWatch :=
  if s.sent = some rtssUpdMsgGetBootinfo then
    { s with
      table := fun i =>
        if offset = sizeofRtssUpdImageEntry * i then
          RtssUpdImageEntry.ofBytes fun p => bytes.getD p 0
        else s.table i }
  else s

theorem load_loaded (s : LengthWatch) (offset : Nat) (bytes : List UInt8) :
    (s.load offset bytes).loaded = s.loaded := by
  rw [load]
  split <;> rfl

def next (s : LengthWatch) (e : Event UpdSig) : LengthWatch :=
  match e with
  | ⟨.mbWrite _ msg _, _⟩ => s.send (load32 msg RtssUpdMsgHeader.msgId)
  | ⟨.mbRead _ _ _, r⟩ => s.receive r
  | ⟨.otaLoad offset len, bytes⟩ => s.load offset (List.ofFn (n := len) bytes)
  | ⟨.stat _, _⟩ => { s with loaded := false }
  | ⟨.pread _ count, bytes⟩ =>
      { s with loaded := Option.any (fun bytes => bytes.val.length = count) bytes }
  | _ => s

end LengthWatch

/-- This many bytes, rounded up to 16, are whole cache lines. -/
def FillsLines (n : Nat) : Prop := (n + 15) % 64 < 16

instance (n : Nat) : Decidable (FillsLines n) := inferInstanceAs (Decidable (_ < _))

/-- The images of the table that a sequence asks to be filled in. -/
def SequenceId.images (u : Updater) : SequenceId → Nat
  | .preboot | .postboot | .gptUpdate => u.imgParseInf.numberOfImages
  | .flasher => rtssUpdaterSupportedImgNames.length

/-- An image that is flashed was read by the RTSS before, or comes from a file, whose
length is padded to whole cache lines. -/
def SequenceId.FlashFits : SequenceId → LengthWatch → Prop
  | .postboot, s => s.readLen.toNat % 64 = 0
  | .preboot, s | .flasher, s | .gptUpdate, s => s.loaded = true

instance : (seq : SequenceId) → (s : LengthWatch) → Decidable (seq.FlashFits s)
  | .postboot, _ => inferInstanceAs (Decidable (_ = 0))
  | .preboot, _ | .flasher, _ | .gptUpdate, _ => inferInstanceAs (Decidable (_ = true))

/-- When a message of this kind has a proper buffer length, by what was reported and
configured. The length of a GPT that is written is always padded to whole cache lines. -/
def LengthFits (seq : SequenceId) (u : Updater) (s : LengthWatch) (msgId : UInt32) : Prop :=
  if msgId = rtssUpdMsgGetOtaMetadata ∨ msgId = rtssUpdMsgSetOtaMetadata then
    FillsLines s.metadata.toNat
  else if msgId = rtssUpdMsgReadGpt then FillsLines s.gpt.toNat
  else if msgId = rtssUpdMsgFixGpt then
    FillsLines (2 * s.gpt.toNat) ∧ 2 * s.gpt.toNat + 15 < 4294967296
  else if msgId = rtssUpdMsgUpdateGpt then
    seq.images u % 16 = 0 ∧ seq.images u % 4294967296 * 36 + 24576 < 4294967296
  else if msgId = rtssUpdMsgGetBootinfo then seq.images u % 16 = 0
  else if msgId = rtssUpdMsgReadImage then (s.table s.reads).partitionSizeA.toNat % 64 = 0
  else if msgId = rtssUpdMsgFlashImage then seq.FlashFits s
  else True

instance (seq : SequenceId) (u : Updater) (s : LengthWatch) (msgId : UInt32) :
    Decidable (LengthFits seq u s msgId) :=
  inferInstanceAs (Decidable (ite _ _ _))

instance (msgId gpt num len : UInt32) : Decidable (LengthMeets msgId gpt num len) :=
  decidable_of_iff (len.toNat % rtssUpdGetCacheLineSz.toNat = 0 ∧
      (msgId = rtssUpdMsgFixGpt → 2 * gpt.toNat ≤ len.toNat) ∧
      (msgId = rtssUpdMsgUpdateGpt →
        num.toNat * sizeofRtssUpdUpdateGptEntry + 24 * 1024 ≤ len.toNat))
    ⟨fun h => ⟨h.1, h.2.1, h.2.2⟩, fun h => ⟨h.lines, h.work, h.entries⟩⟩

/-- A message has a buffer length as its definition asks, or none. -/
def MessageMeets (gpt : UInt32) (msg : Mem) : Prop :=
  ∀ len ∈ bufLen msg, LengthMeets (load32 msg RtssUpdMsgHeader.msgId) gpt (bodyWord msg 1) len

-- By name, since another instance goes through all numbers of 32 bits.
instance (gpt : UInt32) (msg : Mem) : Decidable (MessageMeets gpt msg) :=
  Option.decidableForallMem (bufLen msg)

/-- Every message that is sent meets its definition; what is assumed is that the lengths of
its kind fit. -/
def lengthWatch (seq : SequenceId) (u : Updater) : Monitor UpdSig LengthWatch where
  next := LengthWatch.next
  allows s o := ∀ msg ∈ sentMessage o, MessageMeets s.gpt msg
  assumes s e := ∀ msg ∈ sentMessage e.op,
    LengthFits seq u s (load32 msg RtssUpdMsgHeader.msgId)

instance (seq : SequenceId) (u : Updater) (s : LengthWatch) (o : UpdSig.Op) :
    Decidable ((lengthWatch seq u).allows s o) :=
  inferInstanceAs (Decidable (∀ msg ∈ sentMessage o, _))

instance (seq : SequenceId) (u : Updater) (s : LengthWatch) (e : Event UpdSig) :
    Decidable ((lengthWatch seq u).assumes s e) :=
  inferInstanceAs (Decidable (∀ msg ∈ sentMessage e.op, _))

/-! The lengths as numbers. -/

theorem and_not_add_and (n mask : UInt32) :
    (n &&& ~~~mask).toNat + (n &&& mask).toNat = n.toNat := by
  have hdisjoint : (n.toBitVec &&& ~~~mask.toBitVec) &&& (n.toBitVec &&& mask.toBitVec) = 0 := by
    ext i
    simp only [BitVec.getElem_and, BitVec.getElem_not]
    cases n.toBitVec[i] <;> cases mask.toBitVec[i] <;> simp
  have hjoin : (n.toBitVec &&& ~~~mask.toBitVec) ||| (n.toBitVec &&& mask.toBitVec) =
      n.toBitVec := by
    ext i
    simp only [BitVec.getElem_or, BitVec.getElem_and, BitVec.getElem_not]
    cases n.toBitVec[i] <;> cases mask.toBitVec[i] <;> rfl
  have hsum := BitVec.toNat_add_of_and_eq_zero hdisjoint
  rw [BitVec.add_eq_or_of_and_eq_zero _ _ hdisjoint, hjoin] at hsum
  exact hsum.symm

theorem alignnum_toNat (mult num : UInt32) :
    (rtssUpdaterAlignnum mult 16 num).toNat =
      (mult.toNat * num.toNat + 15) % 4294967296 / 16 * 16 := by
  have hsum : (mult * num + 16 - 1).toNat = (mult.toNat * num.toNat + 15) % 4294967296 := by
    rw [UInt32.toNat_sub, UInt32.toNat_add, UInt32.toNat_mul]
    generalize mult.toNat * num.toNat = n
    simp only [UInt32.reduceToNat]
    omega
  have hlow : ((mult * num + 16 - 1) &&& (16 - 1)).toNat = (mult * num + 16 - 1).toNat % 16 :=
    (UInt32.toNat_and _ _).trans (Nat.and_two_pow_sub_one_eq_mod _ 4)
  have hparts := and_not_add_and (mult * num + 16 - 1) (16 - 1)
  rw [hlow, hsum] at hparts
  rw [rtssUpdaterAlignnum]
  omega

theorem alignnum_lines (mult num : UInt32) :
    (rtssUpdaterAlignnum mult 16 num).toNat % 64 = 0 ↔ FillsLines (mult.toNat * num.toNat) := by
  rw [alignnum_toNat, FillsLines]
  omega

theorem le_alignnum (mult num : UInt32) :
    mult.toNat * num.toNat ≤ (rtssUpdaterAlignnum mult 16 num).toNat ↔
      mult.toNat * num.toNat + 15 < 4294967296 := by
  rw [alignnum_toNat]
  omega

theorem writtenLen_lines (bufLen : UInt32) : (writtenLen bufLen).toNat % 64 = 0 := by
  rw [writtenLen]
  split
  · rw [UInt32.toNat_add, UInt32.toNat_sub, UInt32.toNat_mod]
    simp only [rtssUpdGetCacheLineSz, UInt32.reduceToNat]
    omega
  · next hlines =>
      have hzero := congrArg UInt32.toNat (not_not.mp hlines)
      rwa [UInt32.toNat_mod] at hzero

/-! The messages and their lengths. -/

/-- The message is of this kind, with this buffer length, if it has one, and this number of
entries of an update. -/
structure Carries (msgId num : UInt32) (len : Option UInt32) (msg : Mem) : Prop where
  kind : OfKind msgId msg
  length : bufLen msg = len
  entries : msgId = rtssUpdMsgUpdateGpt → bodyWord msg 1 = num

theorem carries_sealed {msgId num : UInt32} {len : Option UInt32} {body : Mem}
    (hlen : (bufLenWord msgId).map (bodyWord body) = len)
    (hnum : msgId = rtssUpdMsgUpdateGpt → bodyWord body 1 = num) (crc : UInt32) :
    Carries msgId num len (store32 (rtssUpdMsg msgId body) RtssUpdMsgHeader.headerCrc crc) := by
  have hkind := ofKind_sealed msgId body crc
  refine ⟨hkind, ?_, fun hupdate => ?_⟩
  · rw [bufLen, hkind, bodyWord_sealed]
    exact hlen
  · rw [bodyWord_sealed]
    exact hnum hupdate

section Commands
variable (u : Updater) {C : UpdSig.Op → Prop}

/-- A message without a buffer length. -/
theorem sendWords_unsized {msgId : UInt32} (hnone : bufLenWord msgId = none)
    (words : List UInt32) : Issues C (Carries msgId 0 none) (sendWords u msgId words) := by
  refine .sealed u (carries_sealed (by rw [hnone]; rfl) ?_)
  rintro rfl
  cases hnone

/-- A message whose buffer length is one of the words that are sent. -/
theorem sendWords_sized {msgId len : UInt32} {i : Nat} (hword : bufLenWord msgId = some i)
    (hkind : msgId ≠ rtssUpdMsgUpdateGpt) {words : List UInt32} (hlen : words[i]? = some len) :
    Issues C (Carries msgId 0 (some len)) (sendWords u msgId words) :=
  .sealed u (carries_sealed (by rw [hword]; exact congrArg some (bodyWord_storeWords hlen))
    fun hupdate => absurd hupdate hkind)

theorem readgpt_carries (gptId sVa bufLen : UInt32) (pVa : Nat) :
    Issues IsOtaLoad (Carries rtssUpdMsgReadGpt 0 (some bufLen))
      (rtssUpdaterReadgpt u gptId sVa bufLen pVa) :=
  .guard .failure (.crc (fun _ => id) .failure fun _ =>
    sendWords_sized u rfl (by decide) rfl)

theorem setMetadata_carries (sVa bufLen bufCrc : UInt32) (pVa : Nat) :
    Issues IsOtaLoad (Carries rtssUpdMsgSetOtaMetadata 0 (some bufLen))
      (rtssUpdaterSetMetadata u sVa bufLen bufCrc pVa) :=
  .guard .failure (.crc (fun _ => id) .failure fun _ =>
    sendWords_sized u rfl (by decide) rfl)

theorem updategpt_carries (numImages gpt sVa bufLen bufCrc : UInt32) (pVa : Nat) :
    Issues IsOtaLoad (Carries rtssUpdMsgUpdateGpt numImages (some bufLen))
      (rtssUpdaterUpdategpt u numImages gpt sVa bufLen bufCrc pVa) :=
  .guard .failure (.crc (fun _ => id) .failure fun _ =>
    .sealed u (carries_sealed (congrArg some (bodyWord_storeWords rfl))
      fun _ => bodyWord_storeWords rfl))

/-- The length is that of the table, which the caller gives as well. -/
theorem getBlInfo_carries (numImages bufCrc sVa : UInt32) (pVa : Nat) :
    Issues IsOtaLoad (Carries rtssUpdMsgGetBootinfo 0
        (some (numImages * UInt32.ofNat sizeofRtssUpdImageEntry)))
      (rtssUpdaterGetBlInfo u numImages (numImages * UInt32.ofNat sizeofRtssUpdImageEntry) bufCrc
        sVa pVa) := by
  refine .guard .failure ?_
  simp only [ite_self]
  exact .crc (fun _ => id) .failure fun _ => sendWords_sized u rfl (by decide) rfl

theorem writegpt_carries (gptId : UInt8) (bufGpt : Mem) (sVa bufLen bufCrc : UInt32) (pVa : Nat) :
    Issues IsLocal (Carries rtssUpdMsgWriteGpt 0 (some (writtenLen bufLen)))
      (rtssUpdaterWritegpt u gptId (some bufGpt) sVa bufLen bufCrc pVa) := by
  refine .guard .failure (.guard .failure ?_)
  refine .bind (.perform trivial) fun _ => .bind (.perform trivial) fun _ => .guard .failure ?_
  exact .crc (fun _ => IsOtaLoad.isLocal) .failure fun _ =>
    sendWords_sized u rfl (by decide) rfl

theorem fixgpt_carries (gptId sVa bufLen fixtype : UInt32) :
    Issues C (Carries rtssUpdMsgFixGpt 0 (some bufLen))
      (rtssUpdaterFixgpt u gptId sVa bufLen fixtype) :=
  .sealed u (carries_sealed
    (congrArg some (load32_storeWords _ (RtssUpdMsgHeader.body + 4) 1 [sVa, bufLen] bufLen rfl))
    fun hupdate => absurd hupdate (by decide))

theorem readimg_carries (imageNm : CString) (partition gpt sVa bufLen : UInt32) :
    Issues C (Carries rtssUpdMsgReadImage 0 (some bufLen))
      (rtssUpdaterReadimg u (some imageNm) partition gpt sVa bufLen) :=
  .sealed u (carries_sealed
    (congrArg some (load32_storeWords _ (RtssUpdMsgHeader.body + rtssUpdImgNameLen) 3
      [partition, gpt, sVa, bufLen, 0] bufLen rfl))
    fun hupdate => absurd hupdate (by decide))

theorem flashimg_carries (imageNm : CString) (gpt partition sVa bufLen bufCrc flashtype : UInt32)
    (pVa : Nat) :
    Issues IsOtaLoad (fun msg => pVa ≠ null ∧ Carries rtssUpdMsgFlashImage 0 (some bufLen) msg)
      (rtssUpdaterFlashimg u (some imageNm) gpt partition sVa bufLen bufCrc flashtype pVa) := by
  unfold rtssUpdaterFlashimg
  split
  · exact .failure
  · next hpVa =>
      refine .crc (fun _ => id) .failure fun crc => .sealed u fun headerCrc => ⟨hpVa, ?_⟩
      refine carries_sealed ?_ (fun hupdate => absurd hupdate (by decide)) headerCrc
      exact congrArg some (load32_storeWords _ (RtssUpdMsgHeader.body + rtssUpdImgNameLen + 4) 2
        [gpt, sVa, bufLen, crc] bufLen rfl)

end Commands

/-! When a length meets its definition. -/

/-- A message with this length meets its definition exactly if the lengths of its kind fit. -/
def MeetsIfFits (seq : SequenceId) (u : Updater) (s : LengthWatch) (msgId num : UInt32)
    (len : Option UInt32) : Prop :=
  (∀ l ∈ len, LengthMeets msgId s.gpt num l) ↔ LengthFits seq u s msgId

section Lengths
variable {seq : SequenceId} {u : Updater} {s : LengthWatch} {msgId num len : UInt32}

theorem meets_iff_lines (hfix : msgId ≠ rtssUpdMsgFixGpt) (hupdate : msgId ≠ rtssUpdMsgUpdateGpt)
    (gpt : UInt32) : LengthMeets msgId gpt num len ↔ len.toNat % 64 = 0 :=
  ⟨fun h => h.lines, fun h => ⟨h, fun hkind => absurd hkind hfix, fun hkind =>
    absurd hkind hupdate⟩⟩

theorem unsized_fits (hnone : bufLenWord msgId = none) : LengthFits seq u s msgId := by
  unfold bufLenWord at hnone
  split_ifs at hnone with hmetadata hgpt hupdate hboot himage
  rw [LengthFits, if_neg hmetadata, if_neg (fun h => hgpt (Or.inl h)),
    if_neg (fun h => hgpt (Or.inr (Or.inr h))), if_neg hupdate, if_neg hboot,
    if_neg (fun h => himage (Or.inl h)), if_neg (fun h => himage (Or.inr h))]
  trivial

theorem meets_unsized (hfits : LengthFits seq u s msgId) : MeetsIfFits seq u s msgId num none :=
  ⟨fun _ => hfits, fun _ => nofun⟩

theorem meets_sized (h : LengthMeets msgId s.gpt num len ↔ LengthFits seq u s msgId) :
    MeetsIfFits seq u s msgId num (some len) := by
  refine Iff.trans ⟨fun hall => hall len rfl, fun hmeets => ?_⟩ h
  rintro _ ⟨⟩
  exact hmeets

/-- The kinds that only ask for whole cache lines. -/
theorem meets_lines (hfix : msgId ≠ rtssUpdMsgFixGpt) (hupdate : msgId ≠ rtssUpdMsgUpdateGpt)
    (h : len.toNat % 64 = 0 ↔ LengthFits seq u s msgId) :
    MeetsIfFits seq u s msgId num (some len) :=
  meets_sized ((meets_iff_lines hfix hupdate s.gpt).trans h)

theorem metadata_meets :
    MeetsIfFits seq u s rtssUpdMsgGetOtaMetadata num
        (some (rtssUpdaterAlignnum 1 16 s.metadata)) ∧
      MeetsIfFits seq u s rtssUpdMsgSetOtaMetadata num
        (some (rtssUpdaterAlignnum 1 16 s.metadata)) := by
  have hlines := alignnum_lines 1 s.metadata
  rw [show UInt32.toNat 1 * s.metadata.toNat = s.metadata.toNat from Nat.one_mul _] at hlines
  exact ⟨meets_lines (by decide) (by decide) hlines, meets_lines (by decide) (by decide) hlines⟩

theorem readgpt_meets :
    MeetsIfFits seq u s rtssUpdMsgReadGpt num (some (rtssUpdaterAlignnum 1 16 s.gpt)) := by
  have hlines := alignnum_lines 1 s.gpt
  rw [show UInt32.toNat 1 * s.gpt.toNat = s.gpt.toNat from Nat.one_mul _] at hlines
  exact meets_lines (by decide) (by decide) hlines

theorem fixgpt_meets :
    MeetsIfFits seq u s rtssUpdMsgFixGpt num (some (rtssUpdaterAlignnum 2 16 s.gpt)) := by
  have hlines := alignnum_lines 2 s.gpt
  have hwork := le_alignnum 2 s.gpt
  refine meets_sized ⟨fun h => ⟨hlines.mp h.lines, hwork.mp (h.work rfl)⟩, fun h => ?_⟩
  exact ⟨hlines.mpr h.1, fun _ => hwork.mpr h.2, fun hkind => absurd hkind (by decide)⟩

theorem writegpt_meets (bufLen : UInt32) :
    MeetsIfFits seq u s rtssUpdMsgWriteGpt num (some (writtenLen bufLen)) :=
  meets_lines (by decide) (by decide) ⟨fun _ => trivial, fun _ => writtenLen_lines bufLen⟩

theorem getBlInfo_meets :
    MeetsIfFits seq u s rtssUpdMsgGetBootinfo num
      (some (UInt32.ofNat (seq.images u) * UInt32.ofNat sizeofRtssUpdImageEntry)) := by
  refine meets_lines (by decide) (by decide) ?_
  change _ ↔ seq.images u % 16 = 0
  rw [UInt32.toNat_mul, UInt32.toNat_ofNat', UInt32.toNat_ofNat']
  generalize seq.images u = n
  simp only [sizeofRtssUpdImageEntry]
  omega

theorem updategpt_meets :
    MeetsIfFits seq u s rtssUpdMsgUpdateGpt (UInt32.ofNat (seq.images u))
      (some (UInt32.ofNat (seq.images u) * UInt32.ofNat sizeofRtssUpdUpdateGptEntry + 0x6000)) := by
  have hlen : (UInt32.ofNat (seq.images u) * UInt32.ofNat sizeofRtssUpdUpdateGptEntry +
      0x6000).toNat = (seq.images u % 4294967296 * 36 + 24576) % 4294967296 := by
    rw [UInt32.toNat_add, UInt32.toNat_mul, UInt32.toNat_ofNat', UInt32.toNat_ofNat']
    generalize seq.images u = n
    simp only [sizeofRtssUpdUpdateGptEntry, UInt32.reduceToNat]
    omega
  have hlines : ∀ n, (n % 4294967296 * 36 + 24576) % 4294967296 % 64 = 0 ↔ n % 16 = 0 := by
    intro n
    have hextra : ∀ k, (k + 24576) % 64 = k % 64 := fun k => Nat.add_mul_mod_self_right k 384 64
    rw [Nat.mod_mod_of_dvd _ (show 64 ∣ 4294967296 by decide), hextra]
    omega
  have hentries : ∀ n, n ≤ n % 4294967296 ↔ n < 4294967296 := by omega
  have hline : rtssUpdGetCacheLineSz.toNat = 64 := rfl
  have hwork : 24 * 1024 = 24576 := rfl
  refine meets_sized ⟨fun h => ?_, fun h => ?_⟩
  · have hlen64 := h.lines
    have hleast := h.entries rfl
    rw [hlen, hline, hlines] at hlen64
    rw [UInt32.toNat_ofNat', hlen, sizeofRtssUpdUpdateGptEntry, hwork] at hleast
    exact ⟨hlen64, (hentries _).mp hleast⟩
  · refine ⟨?_, fun hkind => absurd hkind (by decide), fun _ => ?_⟩
    · rw [hlen, hline, hlines]
      exact h.1
    · rw [UInt32.toNat_ofNat', hlen, sizeofRtssUpdUpdateGptEntry, hwork]
      exact (hentries _).mpr h.2

theorem readimg_meets :
    MeetsIfFits seq u s rtssUpdMsgReadImage num (some (s.table s.reads).partitionSizeA) :=
  meets_lines (by decide) (by decide) Iff.rfl

end Lengths

/-- The message is of this kind, and meets its definition exactly if the lengths fit. -/
structure Meets (seq : SequenceId) (u : Updater) (s : LengthWatch) (msgId : UInt32) (msg : Mem) :
    Prop where
  kind : OfKind msgId msg
  fits : (∀ len ∈ bufLen msg, LengthMeets msgId s.gpt (bodyWord msg 1) len) ↔
    LengthFits seq u s msgId

theorem Carries.meets {seq : SequenceId} {u : Updater} {s : LengthWatch} {msgId num : UInt32}
    {len : Option UInt32} {msg : Mem} (h : Carries msgId num len msg)
    (hmeets : MeetsIfFits seq u s msgId num len) : Meets seq u s msgId msg := by
  refine ⟨h.kind, ?_⟩
  rw [h.length]
  refine Iff.trans (forall_congr' fun l => forall_congr' fun _ => ?_) hmeets
  refine ⟨fun h' => ⟨h'.lines, h'.work, fun hupdate => ?_⟩,
    fun h' => ⟨h'.lines, h'.work, fun hupdate => ?_⟩⟩
  · rw [← h.entries hupdate]
    exact h'.entries hupdate
  · rw [h.entries hupdate]
    exact h'.entries hupdate

/-! The handshake state has what was reported. -/

/-- The handshake state has what was reported, and `n` reads of an image were sent. The
image table only counts for the sequence that reads images. -/
structure Reported (seq : SequenceId) (n : Nat) (hs : Handshake) (s : LengthWatch) : Prop where
  reads : s.reads = n
  gpt : hs.chkGptPrimSize = s.gpt
  metadata : hs.metadatapartitionsz = s.metadata
  readLen : hs.rbtflsbufLen = s.readLen
  table : seq = .postboot → hs.updImgEntryType = s.table

/-- Nor is the image table being read. -/
structure TableClosed (seq : SequenceId) (n : Nat) (hs : Handshake) (s : LengthWatch) : Prop
    extends Reported seq n hs s where
  closed : seq = .postboot → s.sent ≠ some rtssUpdMsgGetBootinfo

theorem afterRead_readLen (hs : Handshake) (r : Int × Mem) :
    (hs.afterRead r).rbtflsbufLen =
      if VerifiedAs rtssUpdMsgReadImage r then bodyWord r.2 11 else hs.rbtflsbufLen := by
  refine afterRead_taken Handshake.rbtflsbufLen (bodyWord · 11) (fun _ _ _ => rfl)
    (fun hs rxMsg => ?_) hs r
  by_cases hid : load32 rxMsg RtssUpdMsgHeader.msgId = rtssUpdMsgReadImage
  · rw [if_pos hid, Handshake.record, hid]
    rfl
  · rw [if_neg hid, Handshake.record]
    split_ifs <;> rfl

theorem afterRead_table (hs : Handshake) (r : Int × Mem) :
    (hs.afterRead r).updImgEntryType = hs.updImgEntryType := by
  rw [afterRead_field Handshake.updImgEntryType (fun _ _ _ => rfl), Handshake.record]
  split_ifs <;> rfl

section Parts
variable {seq : SequenceId} {u : Updater} {n : Nat} {hs : Handshake} {s : LengthWatch}

/-- A message and the response to it. -/
theorem Reported.exchange (h : Reported seq n hs s) (msgId : UInt32) (r : Int × Mem) :
    Reported seq (if msgId = rtssUpdMsgReadImage then n + 1 else n) (hs.afterRead r)
      ((s.send msgId).receive r) where
  reads := by rw [← h.reads]; rfl
  gpt := by rw [afterRead_gpt, h.gpt]; rfl
  metadata := by rw [afterRead_metadata, h.metadata]; rfl
  readLen := by rw [afterRead_readLen, h.readLen]; rfl
  table hseq := (afterRead_table hs r).trans (h.table hseq)

/-- Whether a file was loaded says nothing about what was reported. -/
theorem TableClosed.loading (h : TableClosed seq n hs s) (loaded : Bool) :
    TableClosed seq n hs { s with loaded := loaded } :=
  ⟨⟨h.reads, h.gpt, h.metadata, h.readLen, h.table⟩, h.closed⟩

theorem TableClosed.offline (h : TableClosed seq n hs s) {o : UpdSig.Op} (ho : IsLocal o)
    (r : UpdSig.Res o) : TableClosed seq n hs (s.next ⟨o, r⟩) := by
  cases o with
  | mbWrite _ _ _ => exact ho.elim
  | mbRead _ _ _ => exact ho.elim
  | otaLoad offset len =>
      simp only [LengthWatch.next, LengthWatch.load]
      split
      · next hsent =>
          have hseq : seq ≠ .postboot := fun hseq => h.closed hseq hsent
          exact ⟨⟨h.reads, h.gpt, h.metadata, h.readLen, fun hpost => absurd hpost hseq⟩, h.closed⟩
      · exact h
  | stat _ => exact h.loading false
  | pread _ _ => exact h.loading _
  | _ => exact h

theorem allows_unsent {o : UpdSig.Op} (ho : sentMessage o = none) :
    (lengthWatch seq u).exact.allows s o := by
  have hnone : ∀ msg, msg ∉ sentMessage o := fun msg hmsg => by
    rw [ho] at hmsg
    cases hmsg
  exact fun r => ⟨fun _ msg hmsg => absurd hmsg (hnone msg), fun _ msg hmsg =>
    absurd hmsg (hnone msg)⟩

theorem allows_sent {o : UpdSig.Op} {msg : Mem} {msgId : UInt32} (hmsg : msg ∈ sentMessage o)
    (h : Meets seq u s msgId msg) : (lengthWatch seq u).exact.allows s o := by
  have hkind := h.kind
  have hfits := h.fits
  rw [← show load32 msg RtssUpdMsgHeader.msgId = msgId from hkind] at hfits
  refine fun r => ⟨fun hall msg' hmsg' => ?_, fun hassumed msg' hmsg' => ?_⟩
  · obtain rfl := Option.mem_unique hmsg hmsg'
    exact hfits.mp (hall msg hmsg)
  · obtain rfl := Option.mem_unique hmsg hmsg'
    exact hfits.mpr (hassumed msg hmsg)

theorem TableClosed.local_step (o : UpdSig.Op) (s : LengthWatch) (ho : IsLocal o)
    (h : TableClosed seq n hs s) :
    (lengthWatch seq u).exact.allows s o ∧ ∀ r, (lengthWatch seq u).exact.assumes s ⟨o, r⟩ →
      TableClosed seq n hs ((lengthWatch seq u).exact.next s ⟨o, r⟩) :=
  ⟨allows_unsent (sentMessage_eq_none ho), fun r _ => h.offline ho r⟩

/-- A command whose message meets its definition if the lengths fit, and the wait after it. -/
theorem exchange_lengths {C : UpdSig.Op → Prop} {sends : Mem → Prop} {msgId : UInt32}
    {cmd : Prog UpdSig UInt32} {P : LengthWatch → Prop} (hcmd : Issues C sends cmd)
    (hC : ∀ o s, C o → P s → (lengthWatch seq u).exact.allows s o ∧
      ∀ r, (lengthWatch seq u).exact.assumes s ⟨o, r⟩ → P ((lengthWatch seq u).exact.next s ⟨o, r⟩))
    (hsends : ∀ msg s, sends msg → P s → Meets seq u s msgId msg)
    (hreported : ∀ s, P s → Reported seq n hs s) (hP : P s) :
    (lengthWatch seq u).exact.Passes (fun hs' s' =>
        Reported seq (if msgId = rtssUpdMsgReadImage then n + 1 else n) hs' s' ∧
          s'.sent = some msgId)
      (Sequence.exchange u hs cmd) s := by
  refine exchange_passes (R := fun s' => ∃ s, Reported seq n hs s ∧ s' = s.send msgId)
    (hcmd.keeps hC (fun o msg s hmsg hkind hP => ?_) hP) ?_
  · have hmeets := hsends msg s hkind hP
    refine ⟨allows_sent hmsg hmeets, fun r _ => ⟨s, hreported s hP, ?_⟩⟩
    cases o with
    | mbWrite _ buf _ =>
        cases hmsg
        exact congrArg s.send hmeets.kind
    | _ => cases hmsg
  · rintro _ ⟨s, h, rfl⟩
    exact ⟨allows_unsent rfl, fun r _ _ => ⟨h.exchange msgId r, rfl⟩⟩

/-- The same for a command that is no request of images. -/
theorem exchange_closes {C : UpdSig.Op → Prop} {sends : Mem → Prop} {msgId : UInt32}
    {cmd : Prog UpdSig UInt32} {P : LengthWatch → Prop} (hcmd : Issues C sends cmd)
    (hC : ∀ o s, C o → P s → (lengthWatch seq u).exact.allows s o ∧
      ∀ r, (lengthWatch seq u).exact.assumes s ⟨o, r⟩ → P ((lengthWatch seq u).exact.next s ⟨o, r⟩))
    (hsends : ∀ msg s, sends msg → P s → Meets seq u s msgId msg)
    (hread : msgId ≠ rtssUpdMsgReadImage) (hboot : msgId ≠ rtssUpdMsgGetBootinfo)
    (hreported : ∀ s, P s → Reported seq n hs s) (hP : P s) :
    (lengthWatch seq u).exact.Passes (TableClosed seq n) (Sequence.exchange u hs cmd) s := by
  refine (exchange_lengths hcmd hC hsends hreported hP).mono fun hs' s' ⟨h, hsent⟩ => ?_
  rw [if_neg hread] at h
  exact ⟨h, fun _ hinfo => hboot (Option.some.inj (hsent.symm.trans hinfo))⟩

/-- A message without a length, whatever was sent before it. -/
theorem unsized_closes {msgId : UInt32} (hnone : bufLenWord msgId = none) (words : List UInt32)
    (h : Reported seq n hs s) :
    (lengthWatch seq u).exact.Passes (TableClosed seq n)
      (Sequence.exchange u hs (sendWords u msgId words)) s := by
  refine exchange_closes (C := fun _ => False) (P := Reported seq n hs)
    (sendWords_unsized u hnone words) (fun _ _ ho => ho.elim)
    (fun _ s hmsg _ => hmsg.meets (meets_unsized (unsized_fits hnone))) ?_ ?_ (fun _ => id) h
  · rintro rfl
    cases hnone
  · rintro rfl
    cases hnone

/-- A message with a length, with local operations before it. -/
theorem sized_closes {msgId num len : UInt32} {cmd : Prog UpdSig UInt32}
    (hcmd : Issues IsLocal (Carries msgId num (some len)) cmd)
    (hmeets : ∀ s, Reported seq n hs s → MeetsIfFits seq u s msgId num (some len))
    (hread : msgId ≠ rtssUpdMsgReadImage) (hboot : msgId ≠ rtssUpdMsgGetBootinfo)
    (h : TableClosed seq n hs s) :
    (lengthWatch seq u).exact.Passes (TableClosed seq n) (Sequence.exchange u hs cmd) s :=
  exchange_closes hcmd (TableClosed.local_step)
    (fun _ s hmsg h => hmsg.meets (hmeets s h.toReported)) hread hboot
    (fun _ h => h.toReported) h

theorem lift_closes {α : Type} {p : Prog UpdSig α} (hp : Only IsLocal p)
    (h : TableClosed seq n hs s) :
    (lengthWatch seq u).exact.Passes (fun _ s' => TableClosed seq n hs s') (Sequence.lift p) s :=
  lift_only_passes hp TableClosed.local_step h

/-- The entries that are read are those that the monitor sees. -/
theorem readEntries_reported (left k : Nat) {entries : Nat → RtssUpdImageEntry}
    (hsent : s.sent = some rtssUpdMsgGetBootinfo)
    (h : Reported seq n { hs with updImgEntryType := entries } s) :
    (lengthWatch seq u).exact.Keeps
      (fun entries' s' => Reported seq n { hs with updImgEntryType := entries' } s')
      (readEntries left k entries) s := by
  induction left generalizing k entries s with
  | zero => exact h
  | succ left ih =>
      refine ⟨allows_unsent rfl, fun (bytes : Fin sizeofRtssUpdImageEntry → UInt8) _ => ?_⟩
      have hload : (lengthWatch seq u).exact.next s
          ⟨.otaLoad (sizeofRtssUpdImageEntry * k) sizeofRtssUpdImageEntry, bytes⟩ =
            { s with
              table := fun i =>
                if sizeofRtssUpdImageEntry * k = sizeofRtssUpdImageEntry * i then
                  RtssUpdImageEntry.ofBytes fun p => (List.ofFn bytes).getD p 0
                else s.table i } := if_pos hsent
      rw [hload]
      refine ih (k + 1) hsent ⟨h.reads, h.gpt, h.metadata, h.readLen, fun hseq => ?_⟩
      funext i
      have hentry := congrFun (h.table hseq) i
      have hplace : sizeofRtssUpdImageEntry * k = sizeofRtssUpdImageEntry * i ↔ i = k :=
        (Nat.mul_right_inj (by decide)).trans eq_comm
      simp only [hplace]
      split
      · rfl
      · exact hentry

theorem getBlInfoContext_reported (pVa : Nat) (numberOfImages : UInt32)
    (hsent : s.sent = some rtssUpdMsgGetBootinfo) (h : Reported seq n hs s) :
    (lengthWatch seq u).exact.Keeps
      (fun x s' => Reported seq n { hs with updImgEntryType := x.2 } s')
      (rtssUpdaterGetBlInfoContext hs.updImgEntryType pVa numberOfImages) s :=
  .guard (fun _ => h) fun _ => (readEntries_reported _ 0 hsent h).then fun _ _ h => h

/-- The count of the partitions leaves what was reported, and the table. -/
theorem Reported.counted (h : Reported seq n hs s) {hs' : Handshake}
    (hcounted : hs' ∈ rtssUpdaterGetBlPartitionStatus hs) : Reported seq n hs' s := by
  rw [partitionStatus_sameButCounts hcounted]
  exact ⟨h.reads, h.gpt, h.metadata, h.readLen, h.table⟩

theorem checkBootInfo_reported {cfg : ImgConfig} (hcfg : cfg.numberOfImages = seq.images u)
    (h : TableClosed seq n hs s) :
    (lengthWatch seq u).exact.Passes (Reported seq n) (checkBootInfo u cfg hs) s := by
  refine (lift_closes ((populateContext_only _ _ _).mono fun _ => IsOtaStore.isLocal) h).then
    fun ret s h => ?_
  refine Passes.then (Q := fun _ s => TableClosed seq n hs s) (check_passes fun _ => h)
    fun _ s h => ?_
  rw [hcfg]
  refine (exchange_lengths ((getBlInfo_carries u _ _ _ _).mono fun _ => IsOtaLoad.isLocal)
    TableClosed.local_step (fun _ s hmsg _ => hmsg.meets getBlInfo_meets)
    (fun _ h => h.toReported) h).then fun hs s ⟨h, hsent⟩ => ?_
  refine Passes.then (.lift (getBlInfoContext_reported u.pVa _ hsent h))
    fun (ret, entries) s h => ?_
  refine Passes.then (Q := fun _ s => Reported seq n { hs with updImgEntryType := entries } s)
    (check_passes fun _ => h) fun _ s h => ?_
  refine Passes.then (Q := Reported seq n) (ofOption_passes fun hs' hcounted => h.counted hcounted)
    fun hs s h => ?_
  exact Passes.then (Q := fun _ s => Reported seq n hs s) (check_passes fun _ => h) fun _ s h =>
    .pure h

/-- The length of the load is one of whole cache lines exactly if the file was loaded. -/
def LoadMeets (ret : Int) (s : LengthWatch) : Prop :=
  (UInt32.ofInt ret).toNat % 64 = 0 ↔ s.loaded = true

theorem not_loaded_meets (h : s.loaded = false) : LoadMeets (-1) s := by
  have hlen : (UInt32.ofInt (-1)).toNat % 64 = 63 := by decide
  rw [LoadMeets, hlen, h]
  exact ⟨nofun, nofun⟩

theorem loaded_meets (h : s.loaded = true) {size : Nat} (hsize : size % 64 = 0) :
    LoadMeets (int32 size) s := by
  rw [LoadMeets, ofInt_int32, UInt32.toNat_ofNat', h]
  exact ⟨fun _ => rfl, fun _ => by omega⟩

theorem loadfile_closes (path : CString) (dst : Nat) (h : TableClosed seq n hs s) :
    (lengthWatch seq u).exact.Keeps
      (fun ret s' => TableClosed seq n hs s' ∧ (dst ≠ null → LoadMeets ret s'))
      (rtssUpdaterLoadfile path dst rtssUpdGetCacheLineSz.toNat) s := by
  refine .guard (fun hnull => ⟨h, fun hdst => absurd hnull hdst⟩) fun _ => ?_
  have hmissing : ∀ s, TableClosed seq n hs s → s.loaded = false →
      TableClosed seq n hs s ∧ (dst ≠ null → LoadMeets (-1) s) :=
    fun s h hnot => ⟨h, fun _ => not_loaded_meets hnot⟩
  have hfound : TableClosed seq n hs { s with loaded := false } := h.loading false
  refine ⟨allows_unsent rfl, fun (file : Option (UInt32 × Nat)) _ => ?_⟩
  cases file with
  | none => exact hmissing _ hfound rfl
  | some file =>
      refine .guard (fun _ => hmissing _ hfound rfl) fun _ => ?_
      refine ⟨allows_unsent rfl, fun (fd : Int) _ => .guard (fun _ => hmissing _ hfound rfl)
        fun _ => ?_⟩
      refine ⟨allows_unsent rfl,
        fun (bytes : Option { bytes : List UInt8 // bytes.length ≤ file.2 }) _ => ?_⟩
      cases bytes with
      | none => exact ⟨allows_unsent rfl, fun _ _ => hmissing _ hfound rfl⟩
      | some bytes =>
          have hread : TableClosed seq n hs
              { s with loaded := decide (bytes.val.length = file.2) } := h.loading _
          refine ⟨allows_unsent rfl, fun _ _ => .guard (fun hshort => ?_) fun hwhole => ?_⟩
          · exact ⟨allows_unsent rfl, fun _ _ => hmissing _ hread (decide_eq_false hshort)⟩
          · have hloaded : decide (bytes.val.length = file.2) = true :=
              decide_eq_true (not_not.mp hwhole)
            have hlines : cacheLines file.2 % 64 = 0 := Nat.mul_mod_left _ _
            rw [cacheLines_eq] at hlines
            refine .guard (fun _ => ?_) fun hpad => ?_
            · exact ⟨allows_unsent rfl, fun _ _ => ⟨allows_unsent rfl, fun _ _ =>
                ⟨allows_unsent rfl, fun _ _ => ⟨hread, fun _ => loaded_meets hloaded hlines⟩⟩⟩⟩
            · refine ⟨allows_unsent rfl, fun _ _ => ⟨hread, fun _ => loaded_meets hloaded ?_⟩⟩
              rwa [Nat.eq_zero_of_not_pos hpad, Nat.add_zero] at hlines

theorem flashFits_iff (hseq : seq ≠ .postboot) : seq.FlashFits s ↔ s.loaded = true := by
  cases seq with
  | postboot => exact absurd rfl hseq
  | _ => rfl

theorem flashFile_closes (hseq : seq ≠ .postboot) (path imageNm : CString)
    (partition flashtype : UInt32) (h : TableClosed seq n hs s) :
    (lengthWatch seq u).exact.Passes (TableClosed seq n)
      (flashFile u path imageNm partition flashtype hs) s := by
  refine Passes.then (.lift (loadfile_closes path u.pVa h)) fun ret s h => .guard
    (fun _ => .bind .failure) fun _ => ?_
  refine exchange_closes (P := fun s => TableClosed seq n hs s ∧ (u.pVa ≠ null → LoadMeets ret s))
    (flashimg_carries u _ _ _ _ _ _ _ _) (fun o s ho h => ?_) (fun msg s hmsg h => ?_)
    (show rtssUpdMsgFlashImage ≠ _ by decide) (by decide) (fun s h => h.1.toReported) h
  · refine ⟨allows_unsent (sentMessage_eq_none ho.isLocal), fun r _ =>
      ⟨h.1.offline ho.isLocal r, fun hpVa => ?_⟩⟩
    cases o with
    | otaLoad offset len =>
        have hloaded := LengthWatch.load_loaded s offset (List.ofFn (n := len) r)
        exact (h.2 hpVa).trans (iff_of_eq (congrArg (· = true) hloaded.symm))
    | _ => exact ho.elim
  · exact hmsg.2.meets (meets_lines (by decide) (by decide)
      ((h.2 hmsg.1).trans (flashFits_iff hseq).symm))

theorem readMetadata_closes (h : TableClosed seq n hs s) :
    (lengthWatch seq u).exact.Passes (TableClosed seq n) (readMetadata u hs) s := by
  refine (unsized_closes rfl [] h.toReported).then fun hs s h => ?_
  refine (lift_closes ((mset_only _ _).mono fun _ => IsOtaStore.isLocal) h).then fun _ s h => ?_
  refine sized_closes (sendWords_sized u rfl (by decide) rfl) (fun s h => ?_) (by decide)
    (by decide) h
  rw [h.metadata]
  exact metadata_meets.1

/-- The images are read in the order of the table, and each is flashed with the length that
the response to its read has. -/
theorem mirrorImages_closes (cfg : ImgConfig) (count i : Nat) (h : TableClosed .postboot i hs s) :
    (lengthWatch .postboot u).exact.Passes (TableClosed .postboot (i + count))
      (mirrorImages u cfg (List.range' i count) hs) s := by
  induction count generalizing i hs s with
  | zero => exact .pure h
  | succ count ih =>
      refine (exchange_lengths (C := fun _ => False) (P := Reported .postboot i hs)
        (readimg_carries u _ _ _ _ _) (fun _ _ ho => ho.elim) (fun _ s hmsg h => hmsg.meets ?_)
        (fun _ => id) h.toReported).then fun hs s ⟨h, hsent⟩ => ?_
      · rw [h.table rfl, ← h.reads]
        exact readimg_meets
      · have hread : TableClosed .postboot (i + 1) hs s :=
          ⟨h, fun _ hinfo => absurd (hsent.symm.trans hinfo) (by decide)⟩
        refine (exchange_closes ((flashimg_carries u _ _ _ _ _ _ _ _).mono fun _ =>
          IsOtaLoad.isLocal) TableClosed.local_step (fun _ s hmsg h => hmsg.2.meets ?_)
          (show rtssUpdMsgFlashImage ≠ _ by decide) (by decide) (fun _ h => h.toReported)
          hread).then fun hs s h => ?_
        · rw [h.readLen]
          exact meets_lines (by decide) (by decide) Iff.rfl
        · have hrest := ih (i + 1) h
          rwa [Nat.add_assoc, Nat.add_comm 1 count] at hrest

end Parts

section Sequences
variable (u : Updater) {n : Nat} {hs : Handshake} {s : LengthWatch}

theorem Reported.close {seq : SequenceId} (hseq : seq ≠ .postboot) (h : Reported seq n hs s) :
    TableClosed seq n hs s := ⟨h, fun hpost => absurd hpost hseq⟩

theorem preboot_lengths (h : TableClosed .preboot n hs s) :
    (lengthWatch .preboot u).exact.Keeps (fun ret _ => ret = exitSuccess → True)
      (rtssUpdaterPrebootDemosequence u hs) s := by
  refine status_keeps ((unsized_closes rfl _ h.toReported).then
    fun hs s h => ?_)
  refine (readMetadata_closes h).then fun hs s h => ?_
  refine (checkBootInfo_reported rfl h).then fun hs s h => ?_
  have hseq : SequenceId.preboot ≠ .postboot := nofun
  refine (flashPaths_passes (fun path imageNm hs s h => flashFile_closes hseq path imageNm 1 2 h)
    _ hs (h.close hseq)).then fun hs s h => ?_
  refine (lift_closes ((populateContext_only _ _ _).mono fun _ => IsOtaStore.isLocal) h).then
    fun ret s h => ?_
  refine Passes.then (Q := fun _ s => TableClosed .preboot n hs s) (check_passes fun _ => h)
    fun _ s h => ?_
  refine (sized_closes ((updategpt_carries u _ _ _ _ _ _).mono fun _ => IsOtaLoad.isLocal)
    (fun _ _ => updategpt_meets) (by decide) (by decide) h).then fun _ s _ => ?_
  exact .guard (fun _ => .lift ⟨allows_unsent rfl, fun _ _ => trivial⟩) fun _ => .pure trivial

theorem postboot_lengths (h : TableClosed .postboot 0 hs s) :
    (lengthWatch .postboot u).exact.Keeps (fun ret _ => ret = exitSuccess → True)
      (rtssUpdaterPostbootDemosequence u hs) s := by
  refine status_keeps ((unsized_closes rfl _ h.toReported).then
    fun hs s h => ?_)
  refine .guard (fun _ => .pure trivial) fun _ => ?_
  refine (checkBootInfo_reported rfl h).then fun hs s h => ?_
  refine (unsized_closes rfl _ h).then fun hs s h => ?_
  rw [List.range_eq_range']
  refine (mirrorImages_closes _ _ 0 h).then fun hs s h => ?_
  refine (sized_closes (fixgpt_carries u _ _ _ _) (fun s h => ?_) (by decide) (by decide) h).then
    fun hs s h => ?_
  · rw [h.gpt]
    exact fixgpt_meets
  · refine (unsized_closes rfl _ h.toReported).then
      fun hs s h => ?_
    refine (unsized_closes rfl _ h.toReported).then
      fun hs s h => ?_
    refine (sized_closes ((setMetadata_carries u _ _ _ _).mono fun _ => IsOtaLoad.isLocal)
      (fun s h => ?_) (by decide) (by decide) h).then fun hs s h => ?_
    · rw [h.metadata]
      exact metadata_meets.2
    · exact (unsized_closes rfl _ h.toReported).then
        fun _ _ _ => .pure trivial

theorem flasher_lengths (h : TableClosed .flasher n hs s) :
    (lengthWatch .flasher u).exact.Keeps (fun ret _ => ret = exitSuccess → True)
      (rtssUpdaterDevprogFlasher u hs) s := by
  refine status_keeps ((unsized_closes rfl _ h.toReported).then
    fun hs s h => ?_)
  refine (readMetadata_closes h).then fun hs s h => ?_
  refine (checkBootInfo_reported rfl h).then fun hs s h => ?_
  have hseq : SequenceId.flasher ≠ .postboot := nofun
  have hclosed : TableClosed .flasher n hs s := h.close hseq
  have hflash := fun path imageNm bank hs s (h : TableClosed .flasher n hs s) =>
    flashFile_closes (u := u) hseq path imageNm bank 1 h
  refine Passes.then (Q := fun _ s => TableClosed .flasher n hs s)
    (ofOption_passes fun _ _ => hclosed) fun (startBank, partition) s h => ?_
  refine .guard (fun _ => .guard (fun _ => .bind .failure) fun _ => ?_) fun _ => ?_
  · exact (forBanks_passes (fun bank hs s h => hflash _ _ bank hs s h) _ hs h).then
      fun _ _ _ => .pure trivial
  · refine Passes.then (Q := fun _ s => TableClosed .flasher n hs s)
      (.mk ⟨allows_unsent rfl, fun _ _ _ _ => h⟩) fun cfg s h => ?_
    exact (forBanks_passes (fun bank hs s h => flashPaths_passes
      (fun path imageNm hs s h => hflash path imageNm bank hs s h) _ hs h) _ hs h).then
        fun _ _ _ => .pure trivial

theorem imageUpdateGpt_lengths (h : TableClosed .gptUpdate n hs s) :
    (lengthWatch .gptUpdate u).exact.Keeps (fun ret _ => ret = exitSuccess → True)
      (rtssUpdaterImageUpdateGpt u hs) s := by
  have hstore : ∀ o, IsOtaStore o → IsLocal o := fun _ => IsOtaStore.isLocal
  have hload : ∀ o, IsOtaLoad o → IsLocal o := fun _ => IsOtaLoad.isLocal
  refine status_keeps ((unsized_closes rfl _ h.toReported).then fun hs s h => ?_)
  refine (lift_closes ((mset_only _ _).mono hstore) h).then fun _ s h => ?_
  refine (sized_closes ((readgpt_carries u _ _ _ _).mono hload) (fun s h => ?_) (by decide)
    (by decide) h).then fun hs s h => ?_
  · rw [h.gpt]
    exact readgpt_meets
  · refine (lift_closes ((getGpthdr_only _ _).mono hload) h).then fun (ret, gpthdr) s h => ?_
    have hheader : ∀ s, TableClosed .gptUpdate n hs s →
        TableClosed .gptUpdate n { hs with gpthdr := gpthdr } s :=
      fun s h => ⟨⟨h.reads, h.gpt, h.metadata, h.readLen, h.table⟩, h.closed⟩
    refine Passes.then (Q := fun _ s => TableClosed .gptUpdate n { hs with gpthdr := gpthdr } s)
      (check_passes fun _ => hheader s h) fun _ s h => ?_
    refine Passes.then (Q := fun _ s => TableClosed .gptUpdate n { hs with gpthdr := gpthdr } s)
      (.mk (((modifygpt_only _ _ _).keeps TableClosed.local_step h).mono fun _ _ h _ _ => h))
      fun (gptbuf, gptbufsz) s h => ?_
    refine (lift_closes ((mset_only _ _).mono hstore) h).then fun _ s h => ?_
    refine (sized_closes (writegpt_carries u _ _ _ _ _ _) (fun _ _ => writegpt_meets _)
      (by decide) (by decide) h).then fun hs s h => ?_
    refine (sized_closes (fixgpt_carries u _ _ _ _) (fun s h => ?_) (by decide) (by decide)
      h).then fun _ _ _ => .pure trivial
    rw [h.gpt]
    exact fixgpt_meets

end Sequences

/-- In every run of a sequence, all messages have the buffer lengths that their definitions
ask for exactly if the lengths fit at each message, by what was reported and configured. -/
theorem buffer_lengths_iff (seq : SequenceId) (u : Updater) (t : List (Event UpdSig))
    (q : Prog UpdSig UInt32) (hruns : Runs (seq.prog u .zero) t q) :
    (lengthWatch seq u).Allowed .start t ↔ (lengthWatch seq u).Assumed .start t := by
  have hstart : ∀ seq, TableClosed seq 0 .zero .start :=
    fun _ => ⟨⟨rfl, rfl, rfl, rfl, fun _ => rfl⟩, fun _ => nofun⟩
  have hassumed : (lengthWatch seq u).exact.Assumed .start t := fun _ _ _ _ => trivial
  refine Allowed.exact_iff
    (Keeps.runs (Q := fun ret _ => ret = exitSuccess → True) hruns ?_ hassumed).1
  cases seq with
  | preboot => exact preboot_lengths u (hstart .preboot)
  | postboot => exact postboot_lengths u (hstart .postboot)
  | flasher => exact flasher_lengths u (hstart .flasher)
  | gptUpdate => exact imageUpdateGpt_lengths u (hstart .gptUpdate)

/-- A primary GPT of 64 bytes is read with a buffer of one cache line. -/
theorem buffer_lengths_sample :
    (lengthWatch .gptUpdate .sample).Allowed .start
      (eventTrace World.step (SequenceId.gptUpdate.prog .sample .zero)
        (World.sample [(sampleResponse rtssUpdMsgCheckGpt 0 [1, 1, 64], []),
          (sampleResponse rtssUpdMsgReadGpt 0 [], [])])) :=
  (buffer_lengths_iff .gptUpdate .sample _ _ (runs_eventTrace World.step _ _)).mpr
    (by decide +kernel)

/-- With one image, the boot information is asked for with a buffer of 52 bytes. -/
theorem boot_info_length :
    ¬ ∀ seq u t q, Runs (SequenceId.prog seq u .zero) t q →
      (lengthWatch seq u).Allowed .start t := by
  intro h
  refine absurd (h .preboot .sample _ _ (runs_eventTrace World.step _
    (World.sample (sampleBootResponses (List.replicate 52 0))))) ?_
  decide +kernel

end RtssMailbox
