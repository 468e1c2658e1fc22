import RtssMailbox.ConfigFormat
import RtssMailbox.Library.Marks
import RtssMailbox.UpdaterSteps

/-!
The accesses to the image entries of the handshake state, an array of five. Each access is
marked by its index, in programs that are the sequences when the marks are erased.
-/
namespace RtssMailbox
open Effects ByteMemory Monitoring Monitor Sequence

/-- The operations of the updater, and the accesses to the image entries. -/
abbrev EntrySig : Signature := UpdSig.marked Nat

abbrev EntrySequence (α : Type) := OptionT (Prog EntrySig) α

/-- `readEntries`, where each entry that is stored is accessed. -/
def accessEntries : (left k : Nat) → (Nat → RtssUpdImageEntry) →
    Prog EntrySig (Nat → RtssUpdImageEntry)
  | 0, _, entries => pure entries
  | left + 1, k, entries => do
      Prog.mark k
      let bytes ← (Upd.otaLoad (sizeofRtssUpdImageEntry * k) sizeofRtssUpdImageEntry).unmarked
      let entry := RtssUpdImageEntry.ofBytes fun p => bytes.getD p 0
      accessEntries left (k + 1) fun i => if i = k then entry else entries i

def accessBlInfoContext (entries : Nat → RtssUpdImageEntry) (pVa : Nat)
    (numberOfImages : UInt32) : Prog EntrySig (UInt32 × (Nat → RtssUpdImageEntry)) := do
  if pVa = null ∨ numberOfImages = 0 then
    return (exitFailure, entries)
  let entries ← accessEntries numberOfImages.toNat 0 entries
  return (exitSuccess, entries)

/-- The rounds for these entries, where each entry is accessed before it is counted. -/
def accessPartitions : List Nat → Handshake → EntrySequence Handshake
  | [], hs => pure hs
  | k :: rest, hs => do
      markT k
      let hs ← unmarkedT (ofOption (hs.countPartition k))
      accessPartitions rest hs

def accessBlPartitionStatus (hs : Handshake) : EntrySequence Handshake :=
  if hs.numImagesBoot = 0 then
    unmarkedT (ofOption none)
  else
    accessPartitions (List.range hs.numImagesBoot.toNat) hs

def accessBootInfo (u : Updater) (cfg : ImgConfig) (hs : Handshake) :
    EntrySequence Handshake := do
  let ret ← unmarkedT (lift (rtssUpdaterPopulateBlInfoContext cfg u.pVa))
  unmarkedT (check ret)
  let numImages := UInt32.ofNat cfg.numberOfImages
  let bufLen := numImages * UInt32.ofNat sizeofRtssUpdImageEntry
  let hs ← unmarkedT (exchange u hs (rtssUpdaterGetBlInfo u numImages bufLen 0 u.sVa u.pVa))
  let (ret, entries) ← OptionT.lift
    (accessBlInfoContext hs.updImgEntryType u.pVa hs.numImagesBoot)
  unmarkedT (check ret)
  let hs ← accessBlPartitionStatus { hs with updImgEntryType := entries }
  unmarkedT (check (rtssUpdaterValidateBootInfo hs))
  return hs

def accessMirrorImages (u : Updater) (cfg : ImgConfig) :
    List Nat → Handshake → EntrySequence Handshake
  | [], hs => pure hs
  | imgcur :: rest, hs => do
      let imageNm := cfg.imageNames imgcur
      markT imgcur
      let bufLen := (hs.updImgEntryType imgcur).partitionSizeA
      let hs ← unmarkedT (exchange u hs (rtssUpdaterReadimg u (some imageNm) 0 0 u.sVa bufLen))
      let hs ← unmarkedT (exchange u hs (rtssUpdaterFlashimg u (some imageNm) 0 1
        hs.rbtflsbufAddr hs.rbtflsbufLen hs.rbtflsbufCrc 1 u.pVa))
      accessMirrorImages u cfg rest hs

/-- The exit of a sequence, as in `Sequence.status`. -/
def accessStatus (seq : EntrySequence Unit) : Prog EntrySig UInt32 := do
  match ← seq.run with
  | some _ => return exitSuccess
  | none => return exitFailure

/-- The sequences up to the flashing, and what follows it. -/
def accessPreboot (u : Updater) (hs : Handshake) : Prog EntrySig UInt32 :=
  accessStatus do
    let cfg := u.imgParseInf
    let hs ← unmarkedT (exchange u hs (rtssUpdaterChkgpt u))
    let hs ← unmarkedT (readMetadata u hs)
    let hs ← accessBootInfo u cfg hs
    unmarkedT do
      let hs ← flashPaths u cfg 1 2 (List.range cfg.numberOfPaths) hs
      let numImages := UInt32.ofNat cfg.numberOfImages
      let bufLen := numImages * UInt32.ofNat sizeofRtssUpdUpdateGptEntry + 0x6000
      check (← lift (rtssUpdaterPopulateGptUpdateContext cfg u.pVa))
      let _ ← exchange u hs (rtssUpdaterUpdategpt u numImages 0 u.sVa bufLen 0 u.pVa)
      if u.rstskip = 0 then
        lift Upd.reboot

def accessPostboot (u : Updater) (hs : Handshake) : Prog EntrySig UInt32 :=
  accessStatus do
    let cfg := u.imgParseInf
    let hs ← unmarkedT (exchange u hs (rtssUpdaterUpdateOtaDoneState u 0 0 0 0))
    if u.ackstate = 1 then
      return ()
    let hs ← accessBootInfo u cfg hs
    let hs ← unmarkedT (exchange u hs (rtssUpdaterChkgpt u))
    let hs ← accessMirrorImages u cfg (List.range cfg.numberOfImages) hs
    unmarkedT do
      let bufLen := rtssUpdaterAlignnum 2 16 hs.chkGptPrimSize
      let hs ← exchange u hs (rtssUpdaterFixgpt u 0 u.sVa bufLen 1)
      let hs ← exchange u hs (rtssUpdaterRedundancyEstablished u 0 0 0 0)
      let hs ← exchange u hs (rtssUpdaterGetMetadataInfo u)
      let bufLen := rtssUpdaterAlignnum 1 16 hs.metadatapartitionsz
      let hs ← exchange u hs (rtssUpdaterSetMetadata u u.sVa bufLen 0 u.pVa)
      let _ ← exchange u hs (rtssUpdaterUpdateArb u 0 0 0 0)
      return ()

def accessFlasher (u : Updater) (hs : Handshake) : Prog EntrySig UInt32 :=
  accessStatus do
    let hs ← unmarkedT (exchange u hs (rtssUpdaterChkgpt u))
    let hs ← unmarkedT (readMetadata u hs)
    let hs ← accessBootInfo u (rtssUpdaterGetImgInfoDefault u.imgParseInf) hs
    unmarkedT do
      let (startBank, partition) ← ofOption (selectBanks u.partition)
      let banks := List.range' startBank (partition - startBank)
      if u.skipConfigFile = 1 then
        if u.imgPath = [] ∨ u.imgIdentifier = [] then
          failure
        let _ ← forBanks (fun bank => flashFile u u.imgPath u.imgIdentifier bank 1) banks hs
        return ()
      else
        let cfg ← OptionT.mk (rtssUpdaterGetImgParseInfo u.otaCfgPath)
        let _ ← forBanks (fun bank => flashPaths u cfg bank 1 (List.range cfg.numberOfPaths))
          banks hs
        return ()

/-- The sequences with their accesses; the update of the GPT makes none. -/
def SequenceId.accesses : SequenceId → Updater → Handshake → Prog EntrySig UInt32
  | .preboot => accessPreboot
  | .postboot => accessPostboot
  | .flasher => accessFlasher
  | .gptUpdate => fun u hs => (rtssUpdaterImageUpdateGpt u hs).unmarked

/-! Without the marks. -/

section Erasure
variable (u : Updater) (cfg : ImgConfig) (hs : Handshake)

theorem erase_accessEntries (left k : Nat) (entries : Nat → RtssUpdImageEntry) :
    (accessEntries left k entries).erase = readEntries left k entries := by
  induction left generalizing k entries with
  | zero => rfl
  | succ left ih =>
      simp only [accessEntries, readEntries, Prog.erase_bind, Prog.erase_mark,
        Prog.erase_unmarked, Prog.ret_bind, ih]

theorem erase_accessBlInfoContext (entries : Nat → RtssUpdImageEntry) (pVa : Nat)
    (numberOfImages : UInt32) :
    (accessBlInfoContext entries pVa numberOfImages).erase =
      rtssUpdaterGetBlInfoContext entries pVa numberOfImages := by
  rw [accessBlInfoContext, rtssUpdaterGetBlInfoContext]
  split
  · rfl
  · rw [Prog.erase_bind, erase_accessEntries]
    rfl

theorem erase_accessPartitions (images : List Nat) :
    eraseT (accessPartitions images hs) = ofOption (images.foldlM Handshake.countPartition hs) := by
  induction images generalizing hs with
  | nil => rfl
  | cons k rest ih =>
      simp only [accessPartitions, eraseT_bind, eraseT_markT, eraseT_unmarkedT, ih,
        List.foldlM_cons]
      cases hs.countPartition k <;> rfl

theorem erase_accessBlPartitionStatus :
    eraseT (accessBlPartitionStatus hs) = ofOption (rtssUpdaterGetBlPartitionStatus hs) := by
  rw [accessBlPartitionStatus, rtssUpdaterGetBlPartitionStatus]
  split
  · exact eraseT_unmarkedT _
  · exact erase_accessPartitions hs _

theorem erase_accessBootInfo :
    eraseT (accessBootInfo u cfg hs) = checkBootInfo u cfg hs := by
  simp only [accessBootInfo, checkBootInfo, eraseT_bind, eraseT_unmarkedT, eraseT_lift,
    erase_accessBlInfoContext, erase_accessBlPartitionStatus, eraseT_pure]
  rfl

theorem erase_accessMirrorImages (images : List Nat) :
    eraseT (accessMirrorImages u cfg images hs) = mirrorImages u cfg images hs := by
  induction images generalizing hs with
  | nil => rfl
  | cons imgcur rest ih =>
      simp only [accessMirrorImages, mirrorImages, eraseT_bind, eraseT_markT, eraseT_unmarkedT,
        ih]
      rfl

theorem erase_accessStatus (seq : EntrySequence Unit) :
    (accessStatus seq).erase = status (eraseT seq) := by
  refine (Prog.erase_bind seq.run _).trans (congrArg (seq.run.erase >>= ·) (funext fun r => ?_))
  cases r <;> rfl

/-- The marks are all that the accesses add to the sequences. -/
theorem erase_accesses (seq : SequenceId) :
    (seq.accesses u hs).erase = seq.prog u hs := by
  cases seq with
  | preboot =>
      refine (erase_accessStatus _).trans ?_
      simp only [eraseT_bind, eraseT_unmarkedT, erase_accessBootInfo]
      rfl
  | postboot =>
      refine (erase_accessStatus _).trans ?_
      simp only [eraseT_bind, eraseT_unmarkedT, eraseT_ite, eraseT_pure, erase_accessBootInfo,
        erase_accessMirrorImages]
      rfl
  | flasher =>
      refine (erase_accessStatus _).trans ?_
      simp only [eraseT_bind, eraseT_unmarkedT, erase_accessBootInfo]
      rfl
  | gptUpdate => exact Prog.erase_unmarked _

end Erasure

/-! The numbers of images that the responses report. -/

/-- What a monitor keeps: the kind of the last message that was sent; the status of the
last whole message that was received; the number of images that was reported last. -/
structure ImageWatch where
  sent : Option UInt32
  status : UInt32
  images : UInt32

namespace ImageWatch

def start : ImageWatch := ⟨none, 0, 0⟩

def receive (s : ImageWatch) (r : Int × Mem) : ImageWatch :=
  { s with
    status := if r.1 = sizeofRtssUpdMsgHeader then load32 r.2 RtssUpdMsgHeader.status else s.status
    images :=
      if VerifiedAs rtssUpdMsgGetBootinfo r then bodyWord r.2 6
      else if VerifiedAs rtssUpdMsgQueryImages r then bodyWord r.2 0
      else s.images }

def next (s : ImageWatch) : Event UpdSig → ImageWatch
  | ⟨.mbWrite _ msg _, _⟩ => { s with sent := some (load32 msg RtssUpdMsgHeader.msgId) }
  | ⟨.mbRead _ _ _, r⟩ => s.receive r
  | _ => s

/-- After a successful wait for boot information no more images are reported than the
handshake state has entries. -/
def Reports (s : ImageWatch) (e : Event UpdSig) : Prop :=
  ∀ r ∈ received e, s.sent = some rtssUpdMsgGetBootinfo → (s.receive r).status = 0 →
    (s.receive r).images.toNat ≤ rtssUpdaterCfgMaxImages

instance (s : ImageWatch) (e : Event UpdSig) : Decidable (s.Reports e) :=
  inferInstanceAs (Decidable (∀ r ∈ received e, _))

end ImageWatch

/-- Every access to the image entries is inside of their array. -/
def entryWatch : Monitor EntrySig ImageWatch where
  next
    | s, ⟨Sum.inl o, r⟩ => s.next ⟨o, r⟩
    | s, ⟨Sum.inr _, _⟩ => s
  allows
    | _, Sum.inl _ => True
    | _, Sum.inr k => k < rtssUpdaterCfgMaxImages
  assumes
    | s, ⟨Sum.inl o, r⟩ => s.Reports ⟨o, r⟩
    | _, ⟨Sum.inr _, _⟩ => True

instance : (s : ImageWatch) → (o : EntrySig.Op) → Decidable (entryWatch.allows s o)
  | _, Sum.inl _ => isTrue trivial
  | _, Sum.inr k => Nat.decLt k _

instance : (s : ImageWatch) → (e : Event EntrySig) → Decidable (entryWatch.assumes s e)
  | s, ⟨Sum.inl o, r⟩ => inferInstanceAs (Decidable (s.Reports ⟨o, r⟩))
  | _, ⟨Sum.inr _, _⟩ => isTrue trivial

/-- The handshake state has the number of images that was reported last. -/
structure Counts (hs : Handshake) (s : ImageWatch) : Prop where
  status : hs.respStatus = s.status
  images : hs.numImagesBoot = s.images

theorem afterRead_images (hs : Handshake) (r : Int × Mem) :
    (hs.afterRead r).numImagesBoot =
      if VerifiedAs rtssUpdMsgGetBootinfo r then bodyWord r.2 6
      else if VerifiedAs rtssUpdMsgQueryImages r then bodyWord r.2 0
      else hs.numImagesBoot := by
  rw [afterRead_field Handshake.numImagesBoot fun _ _ _ => rfl]
  by_cases hverified : r.1 = sizeofRtssUpdMsgHeader ∧ CrcVerifies r.2
  · have hkind : ∀ msgId, VerifiedAs msgId r ↔ load32 r.2 RtssUpdMsgHeader.msgId = msgId :=
      fun msgId => ⟨fun h => h.2.2, fun h => ⟨hverified.1, hverified.2, h⟩⟩
    rw [if_pos hverified, Handshake.record]
    simp only [hkind]
    by_cases hboot : load32 r.2 RtssUpdMsgHeader.msgId = rtssUpdMsgGetBootinfo
    · rw [hboot]
      rfl
    · rw [if_neg hboot, if_neg hboot]
      by_cases hquery : load32 r.2 RtssUpdMsgHeader.msgId = rtssUpdMsgQueryImages
      · rw [hquery]
        rfl
      · rw [if_neg hquery, if_neg hquery]
        split_ifs <;> rfl
  · rw [if_neg hverified, if_neg fun h => hverified ⟨h.1, h.2.1⟩,
      if_neg fun h => hverified ⟨h.1, h.2.1⟩]

theorem Counts.receive {hs : Handshake} {s : ImageWatch} (h : Counts hs s) (r : Int × Mem) :
    Counts (hs.afterRead r) (s.receive r) where
  status := by rw [afterRead_respStatus, h.status]; rfl
  images := by rw [afterRead_images, h.images]; rfl

theorem Counts.frame {hs hs' : Handshake} {s : ImageWatch} (h : Counts hs s)
    (hsame : SameResponses hs hs') : Counts hs' s := by
  rw [hsame]
  exact ⟨h.status, h.images⟩

section Parts
variable {u : Updater} {cfg : ImgConfig} {hs : Handshake} {s : ImageWatch}

/-- What is known after a wait, by the kind of the message that was sent before it. -/
theorem exchange_counts {msgId : UInt32} {cmd : Prog UpdSig UInt32}
    (hcmd : Issues IsLocal (OfKind msgId) cmd) (h : Counts hs s) :
    entryWatch.unmarked.Passes (fun hs' s' => Counts hs' s' ∧
        (msgId = rtssUpdMsgGetBootinfo → hs'.numImagesBoot.toNat ≤ rtssUpdaterCfgMaxImages))
      (exchange u hs cmd) s := by
  refine exchange_passes (R := fun s => Counts hs s ∧ s.sent = some msgId) ?_ ?_
  · refine hcmd.keeps (fun o s ho h => ⟨trivial, fun r _ => ?_⟩) (fun o msg s hmsg hkind h => ?_) h
    · cases o with
      | mbWrite _ _ _ => exact ho.elim
      | mbRead _ _ _ => exact ho.elim
      | _ => exact h
    · cases o with
      | mbWrite _ buf _ =>
          cases hmsg
          exact ⟨trivial, fun _ _ => ⟨⟨h.status, h.images⟩, congrArg some hkind⟩⟩
      | _ => cases hmsg
  · rintro s ⟨h, hsent⟩
    refine ⟨trivial, fun r hreports hstatus => ⟨h.receive r, fun hkind => ?_⟩⟩
    rw [(h.receive r).images]
    exact hreports r rfl (hkind ▸ hsent) ((h.receive r).status.symm.trans hstatus)

theorem counts_steady : Steady entryWatch.unmarked Counts fun _ => True where
  offline hs o s ho h := by
    refine ⟨trivial, fun r _ => ?_⟩
    cases o with
    | mbWrite _ _ _ => exact ho.elim
    | mbRead _ _ _ => exact ho.elim
    | _ => exact h
  exchange _ _ _ _ _ _ hcmd h := (exchange_counts hcmd h).mono fun _ _ h => h.1

theorem mark_passes {k : Nat} {P : ImageWatch → Prop} (hk : k < rtssUpdaterCfgMaxImages)
    (hs : P s) : entryWatch.Passes (fun _ s' => P s') (markT k) s :=
  .lift ⟨hk, fun _ _ => hs⟩

theorem accessEntries_keeps (left k : Nat) (entries : Nat → RtssUpdImageEntry)
    (hfit : k + left ≤ rtssUpdaterCfgMaxImages) (h : Counts hs s) :
    entryWatch.Keeps (fun _ s' => Counts hs s') (accessEntries left k entries) s := by
  induction left generalizing k entries s with
  | zero => exact h
  | succ left ih =>
      refine Keeps.bind ⟨show k < _ by omega, fun _ _ => ?_⟩
      refine Keeps.then (Keeps.unmarked (((otaLoad_only _ _).mono fun _ => IsOtaLoad.isLocal).keeps
        (counts_steady.offline hs) h)) fun bytes s h => ?_
      exact ih (k + 1) _ (by omega) h

theorem accessPartitions_passes (images : List Nat)
    (hfit : ∀ k ∈ images, k < rtssUpdaterCfgMaxImages) (h : Counts hs s) :
    entryWatch.Passes Counts (accessPartitions images hs) s := by
  induction images generalizing hs s with
  | nil => exact .pure h
  | cons k rest ih =>
      obtain ⟨hk, hrest⟩ := List.forall_mem_cons.mp hfit
      refine (mark_passes hk h).then fun _ s h => ?_
      refine Passes.then (Passes.unmarked (Q := Counts) (ofOption_passes fun hs' hcounted => ?_))
        fun hs s h => ih hrest h
      exact h.frame (countPartition_sameButCounts hcounted).sameResponses

theorem accessBootInfo_passes (hs : Handshake) (h : Counts hs s) :
    entryWatch.Passes Counts (accessBootInfo u cfg hs) s := by
  refine Passes.then (Passes.unmarked (counts_steady.lift
    ((populateContext_only _ _ _).mono fun _ => IsOtaStore.isLocal) h)) fun ret s h => ?_
  refine Passes.then (Q := fun _ s => Counts hs s) (Passes.unmarked (check_passes fun _ => h))
    fun _ s h => ?_
  refine Passes.then (Passes.unmarked (exchange_counts ((getBlInfo_issues u _ _ _ _ _).mono fun _ =>
    IsOtaLoad.isLocal) h)) fun hs s ⟨h, himages⟩ => ?_
  have hfit : hs.numImagesBoot.toNat ≤ rtssUpdaterCfgMaxImages := himages rfl
  refine Passes.then (Q := fun _ s => Counts hs s) (.lift (.guard (fun _ => h) fun _ => ?_))
    fun (ret, entries) s h => ?_
  · exact (accessEntries_keeps _ 0 _ (by rwa [Nat.zero_add]) h).then fun _ _ h => h
  refine Passes.then (Q := fun _ s => Counts hs s) (Passes.unmarked (check_passes fun _ => h))
    fun _ s h => ?_
  have hentries : Counts { hs with updImgEntryType := entries } s := h.frame rfl
  refine Passes.then (Q := Counts) (.guard (fun _ => Passes.unmarked (ofOption_passes nofun))
    fun _ => ?_) fun hs s h => ?_
  · refine accessPartitions_passes _ (fun k hk => ?_) hentries
    exact Nat.lt_of_lt_of_le (List.mem_range.mp hk) hfit
  · exact Passes.then (Q := fun _ s => Counts hs s) (Passes.unmarked (check_passes fun _ => h))
      fun _ s h => .pure h

theorem accessMirrorImages_passes (images : List Nat)
    (hfit : ∀ k ∈ images, k < rtssUpdaterCfgMaxImages) (h : Counts hs s) :
    entryWatch.Passes Counts (accessMirrorImages u cfg images hs) s := by
  induction images generalizing hs s with
  | nil => exact .pure h
  | cons imgcur rest ih =>
      obtain ⟨hk, hrest⟩ := List.forall_mem_cons.mp hfit
      refine (mark_passes hk h).then fun _ s h => ?_
      refine Passes.then (Passes.unmarked (counts_steady.exchange u hs _ _ s trivial
        (readimg_issues u _ _ _ _ _) h)) fun hs s h => ?_
      refine Passes.then (Passes.unmarked (counts_steady.exchange u hs _ _ s trivial
        ((flashimg_issues u _ _ _ _ _ _ _ _).mono fun _ => IsOtaLoad.isLocal) h)) fun hs s h => ?_
      exact ih hrest h

theorem accessStatus_keeps {seq : EntrySequence Unit}
    (h : entryWatch.Passes (fun _ _ => True) seq s) :
    entryWatch.Keeps (fun _ _ => True) (accessStatus seq) s := by
  refine Keeps.then h fun r s' _ => ?_
  cases r <;> trivial

/-- What comes after the last access is of no concern. -/
theorem rest_passes (seq : Sequence Unit) : entryWatch.Passes (fun _ _ => True) (unmarkedT seq) s :=
  Passes.unmarked (Keeps.mono (fun _ _ _ _ _ => trivial)
    (keeps_of_allows (fun _ _ => trivial) seq.run s))

end Parts

section Sequences
variable (u : Updater) (hs : Handshake) {s : ImageWatch}

theorem exchange_words_counts (msgId : UInt32) (words : List UInt32) (h : Counts hs s) :
    entryWatch.Passes Counts (unmarkedT (exchange u hs (sendWords u msgId words))) s :=
  Passes.unmarked (counts_steady.exchange u hs _ _ s trivial (sendWords_issues u _ _) h)

theorem preboot_counts (h : Counts hs s) :
    entryWatch.Keeps (fun _ _ => True) (accessPreboot u hs) s := by
  refine accessStatus_keeps ((exchange_words_counts u hs _ _ h).then fun hs s h => ?_)
  refine Passes.then (Passes.unmarked (counts_steady.readMetadata u trivial trivial hs h))
    fun hs s h => ?_
  exact (accessBootInfo_passes hs h).then fun hs s _ => rest_passes _

theorem flasher_counts (h : Counts hs s) :
    entryWatch.Keeps (fun _ _ => True) (accessFlasher u hs) s := by
  refine accessStatus_keeps ((exchange_words_counts u hs _ _ h).then fun hs s h => ?_)
  refine Passes.then (Passes.unmarked (counts_steady.readMetadata u trivial trivial hs h))
    fun hs s h => ?_
  exact (accessBootInfo_passes hs h).then fun hs s _ => rest_passes _

theorem postboot_counts (hfit : u.imgParseInf.numberOfImages ≤ rtssUpdaterCfgMaxImages)
    (h : Counts hs s) : entryWatch.Keeps (fun _ _ => True) (accessPostboot u hs) s := by
  refine accessStatus_keeps ((exchange_words_counts u hs _ _ h).then fun hs s h => ?_)
  refine .guard (fun _ => .pure trivial) fun _ => ?_
  refine (accessBootInfo_passes hs h).then fun hs s h => ?_
  refine (exchange_words_counts u hs _ _ h).then fun hs s h => ?_
  refine (accessMirrorImages_passes _ (fun k hk => ?_) h).then fun hs s _ => rest_passes _
  exact Nat.lt_of_lt_of_le (List.mem_range.mp hk) hfit

end Sequences

/-- A configuration from a file has no more images than there are entries. -/
theorem ImgConfig.Parsed.at_most {cfg : ImgConfig} (h : cfg.Parsed) :
    cfg.numberOfImages ≤ rtssUpdaterCfgMaxImages := by
  obtain ⟨file, old, hread⟩ := h
  cases file with
  | none => cases hread
  | some file =>
      obtain ⟨entries, htolerated⟩ := tolerated_of_success (congrArg Prod.fst hread)
      obtain ⟨cfg', hread', hholds⟩ := htolerated.read old
      obtain rfl := (Prod.mk.inj (hread.symm.trans hread')).2
      rw [hholds.images]
      exact htolerated.at_most

/-- In every run of a sequence in which no successful wait for boot information leaves a
number of images above five, every access to the image entries is inside of their array. -/
theorem entries_in_bounds (seq : SequenceId) (u : Updater)
    (hcfg : seq = .postboot → u.imgParseInf.Parsed) (t : List (Event EntrySig))
    (q : Prog EntrySig UInt32) (hruns : Runs (seq.accesses u .zero) t q)
    (hreports : entryWatch.Assumed .start t) : entryWatch.Allowed .start t := by
  have hstart : Counts .zero .start := ⟨rfl, rfl⟩
  refine (Keeps.runs (Q := fun _ _ => True) hruns ?_ hreports).1
  cases seq with
  | preboot => exact preboot_counts u .zero hstart
  | postboot => exact postboot_counts u .zero (hcfg rfl).at_most hstart
  | flasher => exact flasher_counts u .zero hstart
  | gptUpdate => exact Keeps.unmarked (keeps_of_allows (fun _ _ => trivial) _ _)

theorem entries_in_bounds_sample :
    let w := World.sample (sampleBootResponses (List.replicate 52 0))
    entryWatch.Allowed .start
      (eventTrace (World.step.marked Nat) (SequenceId.preboot.accesses .sample .zero) w) :=
  entries_in_bounds .preboot .sample nofun _ _ (runs_eventTrace (World.step.marked Nat) _ _)
    (by decide +kernel)

/-- The responses until six images are reported. -/
def sixImagesWorld : World :=
  .sample [(sampleResponse rtssUpdMsgCheckGpt 0 [], []),
    (sampleResponse rtssUpdMsgGetOtaMetadatainfo 0 [], []),
    (sampleResponse rtssUpdMsgGetOtaMetadata 0 [], []),
    (sampleResponse rtssUpdMsgGetBootinfo 0 [1, 1, 0, 1, 1, 0, 6], [])]

/-- With six images a sixth entry is accessed. -/
theorem entry_out_of_bounds :
    ¬ ∀ t q, Runs (SequenceId.preboot.accesses .sample .zero) t q →
      entryWatch.Allowed .start t := by
  intro h
  refine absurd (h _ _ (runs_eventTrace (World.step.marked Nat) _ sixImagesWorld)) ?_
  decide +kernel

end RtssMailbox
