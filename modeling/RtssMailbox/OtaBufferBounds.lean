import RtssMailbox.FileFlashing
import RtssMailbox.ImageOverrun

/-!
What the updater stores in the OTA buffer, against the size of the buffer. The lengths
come from responses, from files and from the configuration. A monitor follows the sizes
that the messages report and the contents of the GPT file.
-/
namespace RtssMailbox
open Effects ByteMemory Monitoring Monitor

/-- The number of bytes of the partition entries, by the header of a GPT file. -/
def entriesBytes (bufGpt : Mem) : Nat :=
  (load32 bufGpt (lbaSize + RtssGptHeader.numberOfPartitionEntries)).toNat *
    (load32 bufGpt (lbaSize + RtssGptHeader.sizeOfPartitionEntry)).toNat

/-- The header and the partition entries of a GPT file are longer than the file. -/
def GptRefused (bufGpt : Mem) (bufLen : UInt32) : Prop :=
  let headerSize := (load32 bufGpt (lbaSize + RtssGptHeader.headerSize)).toNat
  entriesBytes bufGpt > 4294967295 - headerSize ∨ bufLen.toNat < headerSize + entriesBytes bufGpt

instance (bufGpt : Mem) (bufLen : UInt32) : Decidable (GptRefused bufGpt bufLen) :=
  inferInstanceAs (Decidable (_ ∨ _))

/-- A buffer of `n` bytes has room for a GPT file's length, and for its header and partition
entries if these are not refused. -/
def GptFits (n : Nat) (bufGpt : Mem) (bufSize : Nat) : Prop :=
  (UInt32.ofNat bufSize).toNat ≤ n ∧ (¬ GptRefused bufGpt (UInt32.ofNat bufSize) →
    sizeofRtssGptHeader + entriesBytes bufGpt ≤ n)

instance (n : Nat) (bufGpt : Mem) (bufSize : Nat) : Decidable (GptFits n bufGpt bufSize) :=
  inferInstanceAs (Decidable (_ ∧ _))

/-- What a monitor keeps: the kind of the last message that was sent; the status of the
last whole message that was received; the sizes of the metadata partition and of the
primary GPT that were reported last; the GPT file as far as it was read, in its buffer, and
the length of the last piece. -/
structure SizeWatch where
  sent : Option UInt32
  status : UInt32
  metadata : UInt32
  gpt : UInt32
  bufGpt : Mem
  numBytes : Nat

namespace SizeWatch

def start : SizeWatch := ⟨none, 0, 0, 0, zeroed, 0⟩

def receive (s : SizeWatch) (r : Int × Mem) : SizeWatch :=
  { s with
    status := if r.1 = sizeofRtssUpdMsgHeader then load32 r.2 RtssUpdMsgHeader.status else s.status
    metadata := if VerifiedAs rtssUpdMsgGetOtaMetadatainfo r then bodyWord r.2 0 else s.metadata
    gpt := if VerifiedAs rtssUpdMsgCheckGpt r then bodyWord r.2 2 else s.gpt }

def readPiece (s : SizeWatch) (bytes : List UInt8) : SizeWatch :=
  { s with bufGpt := storeBytes s.bufGpt s.numBytes bytes, numBytes := bytes.length }

def next (heap : Mem) (s : SizeWatch) (e : Event UpdSig) : SizeWatch :=
  match e with
  | ⟨.mbWrite _ msg _, _⟩ => { s with sent := some (load32 msg RtssUpdMsgHeader.msgId) }
  | ⟨.mbRead _ _ _, r⟩ => s.receive r
  | ⟨.fopen _, _⟩ => { s with bufGpt := heap, numBytes := 0 }
  | ⟨.fread _, bytes⟩ => s.readPiece (Subtype.val bytes)
  | _ => s

end SizeWatch

/-- The number of bytes that a sequence zeroes after a successful wait. -/
def SequenceId.fills : SequenceId → SizeWatch → Nat
  | .preboot, s | .flasher, s =>
      if s.sent = some rtssUpdMsgGetOtaMetadatainfo then
        (rtssUpdaterAlignnum 1 16 s.metadata).toNat
      else 0
  | .gptUpdate, s =>
      if s.sent = some rtssUpdMsgCheckGpt then (rtssUpdaterAlignnum 1 16 s.gpt).toNat else 0
  | .postboot, _ => 0

/-- The number of bytes of the tables of images that a sequence makes. -/
def SequenceId.tableBytes (u : Updater) : SequenceId → Nat
  | .preboot | .postboot => sizeofRtssUpdImageEntry * u.imgParseInf.numberOfImages
  | .flasher => sizeofRtssUpdImageEntry * rtssUpdaterSupportedImgNames.length
  | .gptUpdate => 0

/-- The place and the bytes of a store to the OTA buffer. -/
def stored : UpdOp → Option (Nat × List UInt8)
  | .otaStore offset bytes => some (offset, bytes)
  | _ => none

/-- The number of bytes that were asked for from an image file, and those that were read. -/
def imageBytes : Event UpdSig → Option (Nat × List UInt8)
  | ⟨.pread _ count, bytes⟩ => Option.map (fun bytes => (count, bytes.val)) bytes
  | _ => none

/-- The number of bytes that were asked for from a GPT file, and those that were read. -/
def gptBytes : Event UpdSig → Option (Nat × List UInt8)
  | ⟨.fread count, bytes⟩ => some (count, Subtype.val bytes)
  | _ => none

/-- A buffer of `n` bytes has room for what follows an event: for what is zeroed after a
wait, for an image file with its padding, and for a GPT file. -/
def Fits (n : Nat) (seq : SequenceId) (s : SizeWatch) (e : Event UpdSig) : Prop :=
  (∀ r ∈ received e, (s.receive r).status = 0 → seq.fills (s.receive r) ≤ n) ∧
  (∀ x ∈ imageBytes e, x.2.length ≤ n ∧ (x.2.length = x.1 → cacheLines x.1 ≤ n)) ∧
  ∀ x ∈ gptBytes e, x.2.length = x.1 → GptFits n (s.readPiece x.2).bufGpt x.1

instance (n : Nat) (seq : SequenceId) (s : SizeWatch) (e : Event UpdSig) :
    Decidable (Fits n seq s e) :=
  inferInstanceAs (Decidable ((∀ r ∈ received e, _) ∧ (∀ x ∈ imageBytes e, _) ∧
    ∀ x ∈ gptBytes e, _))

/-- Every byte is stored inside of the `n` bytes of the OTA buffer. -/
def sizeWatch (n : Nat) (heap : Mem) (seq : SequenceId) : Monitor UpdSig SizeWatch where
  next := SizeWatch.next heap
  allows _ o := ∀ x ∈ stored o, ∀ i < x.2.length, x.1 + i < n
  assumes := Fits n seq

instance (n : Nat) (heap : Mem) (seq : SequenceId) (s : SizeWatch) (o : UpdSig.Op) :
    Decidable ((sizeWatch n heap seq).allows s o) :=
  inferInstanceAs (Decidable (∀ x ∈ stored o, _))

instance (n : Nat) (heap : Mem) (seq : SequenceId) (s : SizeWatch) (e : Event UpdSig) :
    Decidable ((sizeWatch n heap seq).assumes s e) :=
  inferInstanceAs (Decidable (Fits n seq s e))

/-- The handshake state has what the messages reported. -/
structure Tracks (hs : Handshake) (s : SizeWatch) : Prop where
  status : hs.respStatus = s.status
  metadata : hs.metadatapartitionsz = s.metadata
  gpt : hs.chkGptPrimSize = s.gpt

theorem afterRead_metadata (hs : Handshake) (r : Int × Mem) :
    (hs.afterRead r).metadatapartitionsz =
      if VerifiedAs rtssUpdMsgGetOtaMetadatainfo r then bodyWord r.2 0
      else hs.metadatapartitionsz := by
  refine afterRead_taken Handshake.metadatapartitionsz (bodyWord · 0) (fun _ _ _ => rfl)
    (fun hs rxMsg => ?_) hs r
  by_cases hid : load32 rxMsg RtssUpdMsgHeader.msgId = rtssUpdMsgGetOtaMetadatainfo
  · rw [if_pos hid, Handshake.record, hid]
    rfl
  · rw [if_neg hid, Handshake.record]
    split_ifs <;> rfl

theorem afterRead_gpt (hs : Handshake) (r : Int × Mem) :
    (hs.afterRead r).chkGptPrimSize =
      if VerifiedAs rtssUpdMsgCheckGpt r then bodyWord r.2 2 else hs.chkGptPrimSize := by
  refine afterRead_taken Handshake.chkGptPrimSize (bodyWord · 2) (fun _ _ _ => rfl)
    (fun hs rxMsg => ?_) hs r
  rw [Handshake.record]
  split_ifs <;> rfl

theorem Tracks.receive {hs : Handshake} {s : SizeWatch} (h : Tracks hs s) (r : Int × Mem) :
    Tracks (hs.afterRead r) (s.receive r) where
  status := by rw [afterRead_respStatus, h.status]; rfl
  metadata := by rw [afterRead_metadata, h.metadata]; rfl
  gpt := by rw [afterRead_gpt, h.gpt]; rfl

theorem Tracks.frame {hs hs' : Handshake} {s : SizeWatch} (h : Tracks hs s)
    (hsame : SameResponses hs hs') : Tracks hs' s := by
  rw [hsame]
  exact ⟨h.status, h.metadata, h.gpt⟩

section Parts
variable {n : Nat} {heap : Mem} {seq : SequenceId} {hs : Handshake} {s : SizeWatch}

theorem allows_unstored {o : UpdSig.Op} (ho : stored o = none) :
    (sizeWatch n heap seq).allows s o := by
  intro x hx
  rw [ho] at hx
  cases hx

theorem allows_store {offset : Nat} {bytes : List UInt8} (h : offset + bytes.length ≤ n) :
    (sizeWatch n heap seq).allows s (.otaStore offset bytes) := by
  rintro _ ⟨⟩ i hi
  exact Nat.lt_of_lt_of_le (Nat.add_lt_add_left hi offset) h

theorem loads_track (o : UpdSig.Op) (s : SizeWatch) (ho : IsOtaLoad o) (h : Tracks hs s) :
    (sizeWatch n heap seq).allows s o ∧ ∀ r, (sizeWatch n heap seq).assumes s ⟨o, r⟩ →
      Tracks hs ((sizeWatch n heap seq).next s ⟨o, r⟩) := by
  cases o with
  | otaLoad offset len => exact ⟨allows_unstored rfl, fun _ _ => h⟩
  | _ => exact ho.elim

theorem wait_tracks {u : Updater} {msgId : UInt32} {cmd : Prog UpdSig UInt32}
    (hcmd : (sizeWatch n heap seq).Keeps (fun ret s' => ret = exitSuccess →
      Tracks hs s' ∧ s'.sent = some msgId) cmd s) :
    (sizeWatch n heap seq).Passes (fun hs' s' => Tracks hs' s' ∧ s'.sent = some msgId ∧
      seq.fills s' ≤ n) (Sequence.exchange u hs cmd) s := by
  refine exchange_passes (R := fun s => Tracks hs s ∧ s.sent = some msgId) hcmd ?_
  rintro s ⟨h, hsent⟩
  refine ⟨allows_unstored rfl, fun r hfits hstatus => ⟨h.receive r, hsent, ?_⟩⟩
  exact hfits.1 r rfl ((h.receive r).status.symm.trans hstatus)

theorem issues_track {msgId : UInt32} {cmd : Prog UpdSig UInt32}
    (hcmd : Issues IsOtaLoad (OfKind msgId) cmd) (h : Tracks hs s) :
    (sizeWatch n heap seq).Keeps (fun ret s' => ret = exitSuccess →
      Tracks hs s' ∧ s'.sent = some msgId) cmd s := by
  refine hcmd.keeps loads_track (fun o msg s hmsg hkind h => ?_) h
  cases o with
  | mbWrite _ buf _ =>
      cases hmsg
      exact ⟨allows_unstored rfl, fun _ _ => ⟨⟨h.status, h.metadata, h.gpt⟩, congrArg some hkind⟩⟩
  | _ => cases hmsg

theorem exchange_tracks (u : Updater) {msgId : UInt32} {cmd : Prog UpdSig UInt32}
    (hcmd : Issues IsOtaLoad (OfKind msgId) cmd) (h : Tracks hs s) :
    (sizeWatch n heap seq).Passes (fun hs' s' => Tracks hs' s' ∧ s'.sent = some msgId ∧
      seq.fills s' ≤ n) (Sequence.exchange u hs cmd) s :=
  wait_tracks (issues_track hcmd h)

theorem mset_tracks (dst : Nat) {len : UInt32} (hlen : len.toNat ≤ n) (h : Tracks hs s) :
    (sizeWatch n heap seq).Keeps (fun _ s' => Tracks hs s') (rtssUpdaterMset dst len) s := by
  refine .guard (fun _ => h) fun _ => ⟨allows_store ?_, fun _ _ => h⟩
  rw [List.length_replicate]
  omega

theorem populateNames_tracks (cfg : ImgConfig) {entrySize : Nat}
    (hentry : rtssUpdImgNameLen ≤ entrySize) (left i : Nat)
    (hfit : entrySize * (i + left) ≤ n) (h : Tracks hs s) :
    (sizeWatch n heap seq).Keeps (fun _ s' => Tracks hs s')
      (populateNames cfg entrySize left i) s := by
  induction left generalizing i with
  | zero => exact h
  | succ left ih =>
      refine .guard (fun _ => h) fun _ => ⟨allows_store ?_, fun _ _ => ih (i + 1) ?_⟩
      · have hname : ((cfg.imageNames i).take rtssUpdImgNameLen).length ≤ rtssUpdImgNameLen :=
          List.length_take_le _ _
        rw [Nat.mul_add, Nat.mul_succ] at hfit
        omega
      · rwa [Nat.add_right_comm]

theorem populateContext_tracks (cfg : ImgConfig) {entrySize : Nat}
    (hentry : rtssUpdImgNameLen ≤ entrySize) (pVa : Nat)
    (hfit : entrySize * cfg.numberOfImages ≤ n) (h : Tracks hs s) :
    (sizeWatch n heap seq).Keeps (fun _ s' => Tracks hs s')
      (populateContext cfg entrySize pVa) s := by
  refine .guard (fun _ => h) fun _ => ⟨allows_store ?_, fun _ _ => ?_⟩
  · rwa [List.length_replicate, Nat.zero_add]
  · exact populateNames_tracks cfg hentry _ 0 (by rwa [Nat.zero_add]) h

theorem loadfile_tracks (path : CString) (dst : Nat) (h : Tracks hs s) :
    (sizeWatch n heap seq).Keeps (fun _ s' => Tracks hs s')
      (rtssUpdaterLoadfile path dst rtssUpdGetCacheLineSz.toNat) s := by
  refine .guard (fun _ => h) fun _ => ⟨allows_unstored rfl,
    fun (file : Option (UInt32 × Nat)) _ => ?_⟩
  cases file with
  | none => exact h
  | some file =>
      refine .guard (fun _ => h) fun _ => ⟨allows_unstored rfl, fun (fd : Int) _ => ?_⟩
      refine .guard (fun _ => h) fun _ => ⟨allows_unstored rfl,
        fun (bytes : Option { bytes : List UInt8 // bytes.length ≤ file.2 }) hfits => ?_⟩
      cases bytes with
      | none => exact ⟨allows_unstored rfl, fun _ _ => h⟩
      | some bytes =>
          obtain ⟨hbytes, hpadded⟩ := hfits.2.1 _ rfl
          refine ⟨allows_store (by rwa [Nat.zero_add]), fun _ _ => .guard
            (fun _ => ⟨allows_unstored rfl, fun _ _ => h⟩) fun hwhole => ?_⟩
          have hlines : cacheLines file.2 ≤ n := hpadded (not_not.mp hwhole)
          rw [cacheLines_eq] at hlines
          refine .guard (fun hpad => ?_) fun _ => ⟨allows_unstored rfl, fun _ _ => h⟩
          refine ⟨allows_store ?_, fun _ _ => ⟨allows_store ?_, fun _ _ =>
            ⟨allows_unstored rfl, fun _ _ => h⟩⟩⟩
          · rw [List.length_singleton]
            omega
          · rwa [List.length_replicate]

theorem modifyHeader_word (bufGpt gptHdr : Mem) (field : Nat)
    (h : RangeDisjoint field 4 RtssGptHeader.headerCrc32 40) :
    load32 (modifyHeader bufGpt gptHdr) (lbaSize + field) = load32 bufGpt (lbaSize + field) := by
  have hpart : ∀ b k, RtssGptHeader.headerCrc32 ≤ b → b + k ≤ RtssGptHeader.headerCrc32 + 40 →
      RangeDisjoint (lbaSize + field) 4 (lbaSize + b) k := by
    intro b k hb hk
    simp only [RangeDisjoint] at h ⊢
    omega
  rw [modifyHeader, load32_store32_disjoint _ _ _ _ (hpart _ _ (by decide) (by decide)),
    load32_store32_disjoint _ _ _ _ (hpart _ _ (by decide) (by decide)),
    load32_storeBytes_disjoint, load32_storeBytes_disjoint]
  · rw [loadBytes_length]
    exact hpart RtssGptHeader.alternateLba _ (by decide) (by decide)
  · rw [loadBytes_length]
    exact hpart RtssGptHeader.lastUsableLba _ (by decide) (by decide)

theorem GptFits.modifyHeader {bufGpt : Mem} {bufSize : Nat} (h : GptFits n bufGpt bufSize)
    (gptHdr : Mem) : GptFits n (modifyHeader bufGpt gptHdr) bufSize := by
  simp only [GptFits, GptRefused, entriesBytes] at h ⊢
  rwa [modifyHeader_word _ _ RtssGptHeader.numberOfPartitionEntries (Or.inr (by decide)),
    modifyHeader_word _ _ RtssGptHeader.sizeOfPartitionEntry (Or.inr (by decide)),
    modifyHeader_word _ _ RtssGptHeader.headerSize (Or.inl (by decide))]

theorem readGptFile_tracks (bufSize fuel : Nat) (h : Tracks hs s) :
    (sizeWatch n heap seq).Keeps (fun r s' => Tracks hs s' ∧ ∀ bufGpt ∈ r, GptFits n bufGpt bufSize)
      (readGptFile bufSize fuel s.numBytes s.bufGpt) s := by
  induction fuel generalizing s with
  | zero => exact ⟨h, nofun⟩
  | succ fuel ih =>
      refine ⟨allows_unstored rfl,
        fun (bytes : { bytes : List UInt8 // bytes.length ≤ bufSize }) hfits => ?_⟩
      have h' : Tracks hs (s.readPiece bytes.val) := ⟨h.status, h.metadata, h.gpt⟩
      refine .guard (fun _ => ⟨h', nofun⟩) fun _ => .guard (fun _ => ih h') fun hlong => ⟨h', ?_⟩
      rintro _ ⟨⟩
      exact hfits.2.2 _ rfl (Nat.le_antisymm bytes.property (Nat.le_of_not_lt hlong))

theorem modifygpt_tracks (gfile : CString) (gptHdr : Mem) (h : Tracks hs s) :
    (sizeWatch n heap seq).Keeps (fun r s' => Tracks hs s' ∧ ∀ x ∈ r, GptFits n x.1 x.2)
      (rtssUpdaterModifygptAt heap gfile gptHdr) s := by
  have hnone : ∀ s, Tracks hs s → Tracks hs s ∧ ∀ x ∈ (none : Option (Mem × Nat)),
      GptFits n x.1 x.2 := fun s h => ⟨h, nofun⟩
  refine ⟨allows_unstored rfl, fun _ _ => .guard (fun _ => hnone s h) fun _ => ?_⟩
  have hopened : Tracks hs { s with bufGpt := heap, numBytes := 0 } :=
    ⟨h.status, h.metadata, h.gpt⟩
  refine ⟨allows_unstored rfl, fun _ _ => .guard (fun _ => hnone _ hopened) fun _ => ?_⟩
  refine ⟨allows_unstored rfl, fun (size : Nat × Int) _ => ?_⟩
  refine .guard (fun _ => ⟨allows_unstored rfl, fun _ _ => hnone _ hopened⟩) fun _ => ?_
  refine ⟨allows_unstored rfl, fun _ _ => ?_⟩
  refine .guard (fun _ => ⟨allows_unstored rfl, fun _ _ => hnone _ hopened⟩) fun _ => ?_
  refine (readGptFile_tracks size.1 (size.1 + 1) hopened).then fun r s ⟨h, hfits⟩ => ?_
  cases r with
  | none =>
      exact ⟨allows_unstored rfl, fun _ _ => ⟨allows_unstored rfl, fun _ _ => hnone s h⟩⟩
  | some bufGpt =>
      refine ⟨allows_unstored rfl, fun _ _ => ⟨h, ?_⟩⟩
      rintro _ ⟨⟩
      exact (hfits bufGpt rfl).modifyHeader gptHdr

theorem writegpt_tracks (u : Updater) (gptId : UInt8) {bufGpt : Mem} {bufSize : Nat}
    (hfits : GptFits n bufGpt bufSize) (sVa bufCrc : UInt32) (pVa : Nat) (h : Tracks hs s) :
    (sizeWatch n heap seq).Keeps (fun ret s' => ret = exitSuccess →
      Tracks hs s' ∧ s'.sent = some rtssUpdMsgWriteGpt)
      (rtssUpdaterWritegpt u gptId (some bufGpt) sVa (UInt32.ofNat bufSize) bufCrc pVa) s := by
  have hfailure : ∀ s : SizeWatch, exitFailure = exitSuccess →
      Tracks hs s ∧ s.sent = some rtssUpdMsgWriteGpt :=
    fun _ hret => absurd hret exitFailure_ne_exitSuccess
  refine .guard (fun _ => hfailure s) fun _ => .guard (fun _ => hfailure s) fun haccepted => ?_
  have hroom := hfits.2 haccepted
  have hentries : (loadBytes bufGpt (2 * lbaSize) (entriesBytes bufGpt)).length =
      entriesBytes bufGpt := loadBytes_length _ _ _
  refine ⟨allows_store ?_, fun _ _ => ⟨allows_store ?_, fun _ _ => ?_⟩⟩
  · rw [loadBytes_length]
    omega
  · exact Nat.le_trans (Nat.le_of_eq (congrArg (sizeofRtssGptHeader + ·) hentries)) hroom
  · refine .guard (fun _ => hfailure s) fun _ => ?_
    exact issues_track (.crc (fun _ => id) .failure fun _ => sendWords_issues u _ _) h

theorem words_track (u : Updater) (msgId : UInt32) (words : List UInt32) (h : Tracks hs s) :
    (sizeWatch n heap seq).Passes Tracks (Sequence.exchange u hs (sendWords u msgId words)) s :=
  (exchange_tracks u (sendWords_issues u msgId words) h).mono fun _ _ h => h.1

theorem readMetadata_tracks (u : Updater) (hfills : ∀ s : SizeWatch,
      s.sent = some rtssUpdMsgGetOtaMetadatainfo →
        seq.fills s = (rtssUpdaterAlignnum 1 16 s.metadata).toNat) (h : Tracks hs s) :
    (sizeWatch n heap seq).Passes Tracks (readMetadata u hs) s := by
  refine (exchange_tracks u (sendWords_issues u _ _) h).then fun hs s ⟨h, hsent, hfit⟩ => ?_
  rw [hfills s hsent, ← h.metadata] at hfit
  refine Passes.then (.lift (mset_tracks _ hfit h)) fun _ s h => ?_
  exact words_track u _ _ h

theorem checkBootInfo_tracks (u : Updater) (cfg : ImgConfig)
    (hfit : sizeofRtssUpdImageEntry * cfg.numberOfImages ≤ n) (h : Tracks hs s) :
    (sizeWatch n heap seq).Passes Tracks (checkBootInfo u cfg hs) s := by
  refine Passes.then (.lift (populateContext_tracks cfg (by decide) _ hfit h)) fun ret s h => ?_
  refine Passes.then (Q := fun _ s => Tracks hs s) (check_passes fun _ => h) fun _ s h => ?_
  refine (exchange_tracks u (getBlInfo_issues u _ _ _ _ _) h).then fun hs s ⟨h, _⟩ => ?_
  refine (lift_only_passes (getBlInfoContext_only _ _ _) loads_track h).then
    fun (ret, entries) s h => ?_
  refine Passes.then (Q := fun _ s => Tracks hs s) (check_passes fun _ => h) fun _ s h => ?_
  refine Passes.then (Q := Tracks) (ofOption_passes fun hs' hcounted => ?_) fun hs s h => ?_
  · have hentries : SameResponses hs { hs with updImgEntryType := entries } := rfl
    exact h.frame (hentries.trans (partitionStatus_sameResponses hcounted))
  · exact Passes.then (Q := fun _ s => Tracks hs s) (check_passes fun _ => h) fun _ s h => .pure h

theorem flashFile_tracks (u : Updater) (path imageNm : CString) (partition flashtype : UInt32)
    (h : Tracks hs s) :
    (sizeWatch n heap seq).Passes Tracks (flashFile u path imageNm partition flashtype hs) s := by
  refine Passes.then (.lift (loadfile_tracks path _ h)) fun ret s h => .guard
    (fun _ => .bind .failure) fun _ => ?_
  exact (exchange_tracks u (flashimg_issues u _ _ _ _ _ _ _ _) h).mono fun _ _ h => h.1

end Parts

section Sequences
variable {n : Nat} {heap : Mem} (u : Updater) {hs : Handshake} {s : SizeWatch}

theorem preboot_tracks (hfit : SequenceId.preboot.tableBytes u ≤ n) (h : Tracks hs s) :
    (sizeWatch n heap .preboot).Keeps (fun ret _ => ret = exitSuccess → True)
      (rtssUpdaterPrebootDemosequence u hs) s := by
  refine status_keeps ((words_track u _ _ h).then fun hs s h => ?_)
  have hfills : ∀ s : SizeWatch, s.sent = some rtssUpdMsgGetOtaMetadatainfo →
      SequenceId.preboot.fills s = _ := fun _ hsent => if_pos hsent
  refine (readMetadata_tracks u hfills h).then fun hs s h => ?_
  refine (checkBootInfo_tracks u _ hfit h).then fun hs s h => ?_
  refine (flashPaths_passes (fun path imageNm hs s h => flashFile_tracks u path imageNm 1 2 h) _
    hs h).then fun hs s h => ?_
  have hupdate : sizeofRtssUpdUpdateGptEntry * u.imgParseInf.numberOfImages ≤ n :=
    Nat.le_trans (Nat.mul_le_mul_right _ (by decide)) hfit
  refine Passes.then (.lift (populateContext_tracks _ (by decide) _ hupdate h)) fun ret s h => ?_
  refine Passes.then (Q := fun _ s => Tracks hs s) (check_passes fun _ => h) fun _ s h => ?_
  refine (exchange_tracks u (updategpt_issues u _ _ _ _ _ _) h).then fun _ s _ => ?_
  exact .guard (fun _ => .lift ⟨allows_unstored rfl, fun _ _ => trivial⟩) fun _ => .pure trivial

theorem postboot_tracks (hfit : SequenceId.postboot.tableBytes u ≤ n) (h : Tracks hs s) :
    (sizeWatch n heap .postboot).Keeps (fun ret _ => ret = exitSuccess → True)
      (rtssUpdaterPostbootDemosequence u hs) s := by
  refine status_keeps ((words_track u _ _ h).then fun hs s h => ?_)
  refine .guard (fun _ => .pure trivial) fun _ => ?_
  refine (checkBootInfo_tracks u _ hfit h).then fun hs s h => ?_
  refine (words_track u _ _ h).then fun hs s h => ?_
  refine (mirrorImages_passes (fun imageNm bufLen hs s h => ?_) _ hs h).then fun hs s h => ?_
  · refine (exchange_tracks u (readimg_issues u imageNm 0 0 u.sVa bufLen) h).mono
      fun hs s ⟨h, _⟩ => ?_
    exact (exchange_tracks u (flashimg_issues u _ _ _ _ _ _ _ _) h).mono fun _ _ h => h.1
  · refine (exchange_tracks u (fixgpt_issues u _ _ _ _) h).then fun hs s ⟨h, _⟩ => ?_
    refine (words_track u _ _ h).then fun hs s h => (words_track u _ _ h).then fun hs s h => ?_
    refine (exchange_tracks u (setMetadata_issues u _ _ _ _) h).then fun hs s ⟨h, _⟩ => ?_
    exact (words_track u _ _ h).then fun _ _ _ => .pure trivial

theorem flasher_tracks (hfit : SequenceId.flasher.tableBytes u ≤ n) (h : Tracks hs s) :
    (sizeWatch n heap .flasher).Keeps (fun ret _ => ret = exitSuccess → True)
      (rtssUpdaterDevprogFlasher u hs) s := by
  refine status_keeps ((words_track u _ _ h).then fun hs s h => ?_)
  have hfills : ∀ s : SizeWatch, s.sent = some rtssUpdMsgGetOtaMetadatainfo →
      SequenceId.flasher.fills s = _ := fun _ hsent => if_pos hsent
  refine (readMetadata_tracks u hfills h).then fun hs s h => ?_
  refine (checkBootInfo_tracks u _ hfit h).then fun hs s h => ?_
  refine Passes.then (Q := fun _ s => Tracks hs s) (ofOption_passes fun _ _ => h)
    fun (startBank, partition) s h => ?_
  refine .guard (fun _ => .guard (fun _ => .bind .failure) fun _ => ?_) fun _ => ?_
  · exact (forBanks_passes (fun bank hs s h => flashFile_tracks u _ _ bank 1 h) _ hs h).then
      fun _ _ _ => .pure trivial
  · refine Passes.then (Q := fun _ s => Tracks hs s)
      (.mk ⟨allows_unstored rfl, fun _ _ _ _ => h⟩) fun cfg s h => ?_
    exact (forBanks_passes (fun bank hs s h => flashPaths_passes
      (fun path imageNm hs s h => flashFile_tracks u path imageNm bank 1 h) _ hs h) _ hs h).then
        fun _ _ _ => .pure trivial

theorem imageUpdateGpt_tracks (h : Tracks hs s) :
    (sizeWatch n heap .gptUpdate).Keeps (fun ret _ => ret = exitSuccess → True)
      (rtssUpdaterImageUpdateGptAt heap u hs) s := by
  refine status_keeps ((exchange_tracks u (sendWords_issues u _ _) h).then
    fun hs s ⟨h, hsent, hfit⟩ => ?_)
  rw [show SequenceId.gptUpdate.fills s = (rtssUpdaterAlignnum 1 16 s.gpt).toNat from if_pos hsent,
    ← h.gpt] at hfit
  refine Passes.then (.lift (mset_tracks _ hfit h)) fun _ s h => ?_
  refine (exchange_tracks u (readgpt_issues u _ _ _ _) h).then fun hs s ⟨h, _⟩ => ?_
  refine (lift_only_passes (getGpthdr_only _ _) loads_track h).then fun (ret, gpthdr) s h => ?_
  have hheader : ∀ s, Tracks hs s → Tracks { hs with gpthdr := gpthdr } s :=
    fun s h => h.frame rfl
  refine Passes.then (Q := fun _ s => Tracks { hs with gpthdr := gpthdr } s)
    (check_passes fun _ => hheader s h) fun _ s h => ?_
  refine Passes.then (Q := fun x s => Tracks { hs with gpthdr := gpthdr } s ∧ GptFits n x.1 x.2)
    (.mk ((modifygpt_tracks _ _ h).mono fun r s ⟨h, hfits⟩ x hx => ⟨h, hfits x hx⟩))
    fun (gptbuf, gptbufsz) s ⟨h, hfits⟩ => ?_
  refine Passes.then (.lift (mset_tracks _ hfits.1 h)) fun _ s h => ?_
  refine (wait_tracks (writegpt_tracks u 0 hfits u.sVa 0 u.pVa h)).then fun hs s ⟨h, _⟩ => ?_
  exact (exchange_tracks u (fixgpt_issues u _ _ _ _) h).then fun _ _ _ => .pure trivial

end Sequences

theorem prog_tracks (heap : Mem) (seq : SequenceId) (u : Updater) {n : Nat}
    (htable : seq.tableBytes u ≤ n) :
    (sizeWatch n heap seq).Keeps (fun ret _ => ret = exitSuccess → True)
      (seq.progAt heap u .zero) .start := by
  have hstart : Tracks .zero .start := ⟨rfl, rfl, rfl⟩
  cases seq with
  | preboot => exact preboot_tracks u htable hstart
  | postboot => exact postboot_tracks u htable hstart
  | flasher => exact flasher_tracks u htable hstart
  | gptUpdate => exact imageUpdateGpt_tracks u hstart

/-- In every run of a sequence whose lengths all fit the OTA buffer, and in which no more images
are reported than the handshake state has entries, every byte is stored inside of it. -/
theorem stores_in_bounds (n : Nat) (layout : MemoryLayout) (seq : SequenceId) (u : Updater)
    (htable : seq.tableBytes u ≤ n) (t : List (Event UpdSig)) (q : Prog UpdSig UInt32)
    (hruns : Runs (layout.prog seq u .zero) t q)
    (hfits : (sizeWatch n layout.heap seq).Assumed .start t)
    (hreports : imageReports.Assumed .start t) :
    (sizeWatch n layout.heap seq).Allowed .start t := by
  obtain ⟨q', hruns', -⟩ := layout.runs hruns hreports
  exact (Keeps.runs hruns' (prog_tracks _ seq u htable) hfits).1

/-- The preboot sequence with a buffer of 256 bytes: nothing to zero, one table entry and
an image file of four bytes. -/
theorem stores_in_bounds_sample :
    let w := World.sample (sampleBootResponses (List.replicate 52 0))
    (sizeWatch 256 MemoryLayout.adjacent.heap .preboot).Allowed .start
      (eventTrace World.step (MemoryLayout.adjacent.prog .preboot .sample .zero) w) :=
  stores_in_bounds 256 .adjacent .preboot .sample (by decide) _ _ (runs_eventTrace World.step _ _)
    (by decide +kernel) (by decide +kernel)

/-- A metadata partition that is larger than the buffer is zeroed beyond its end. -/
theorem store_out_of_bounds :
    ¬ ∀ t q, Runs (MemoryLayout.adjacent.prog .preboot .sample .zero) t q →
      (sizeWatch 256 MemoryLayout.adjacent.heap .preboot).Allowed .start t := by
  intro h
  refine absurd (h _ _ (runs_eventTrace World.step _ (World.sample
    [(sampleResponse rtssUpdMsgCheckGpt 0 [], []),
      (sampleResponse rtssUpdMsgGetOtaMetadatainfo 0 [320], []),
      (sampleResponse rtssUpdMsgGetOtaMetadata 1 [], [])]))) ?_
  decide +kernel

end RtssMailbox
