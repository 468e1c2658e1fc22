import RtssMailbox.ImageMessages
import RtssMailbox.ImageOverrun

/-!
The order of the messages. For each sequence there is a script of what it sends in a run
that succeeds: every configured image is flashed, once and in the configured order, before
the update is committed. A monitor compares what is sent with the script.
-/
namespace RtssMailbox
open Effects ByteMemory Monitoring Monitor

/-- What the script says about a message. -/
inductive Sent where
  | readImage (imgName : List UInt8)
  | flashImage (imgName : List UInt8) (partition : UInt8)
  | other (msgId : UInt32)
deriving DecidableEq

def describe (msg : Mem) : Sent :=
  let name := loadBytes msg RtssUpdMsgHeader.imgName rtssUpdImgNameLen
  if OfKind rtssUpdMsgReadImage msg then .readImage name
  else if OfKind rtssUpdMsgFlashImage msg then
    .flashImage name (msg RtssUpdMsgHeader.flashPartition)
  else .other (load32 msg RtssUpdMsgHeader.msgId)

/-- The first images of a configuration are flashed to a partition. -/
def flashes (cfg : ImgConfig) (partition : UInt8) : List Sent :=
  (List.range cfg.numberOfImages).map fun i =>
    .flashImage (imgNameField (cfg.imageNames i)) partition

/-- Each image is flashed to partition 1 right after it was read. -/
def mirrors (cfg : ImgConfig) : List Sent :=
  (List.range cfg.numberOfImages).flatMap fun i =>
    [.readImage (imgNameField (cfg.imageNames i)), .flashImage (imgNameField (cfg.imageNames i)) 1]

/-- The banks that are flashed for the partition option. -/
def selectedBanks (partition : UInt32) : List UInt8 :=
  if partition = 101 then [0, 1]
  else if partition = 0 then [0]
  else if partition = 1 then [1]
  else []

/-- What the flasher flashes to one bank. -/
def bankFlashes (u : Updater) (cfg : ImgConfig) (bank : UInt8) : List Sent :=
  if u.skipConfigFile = 1 then [.flashImage (imgNameField u.imgIdentifier) bank]
  else flashes cfg bank

/-- The kinds of messages of a script that are not about one image. -/
def others (msgIds : List UInt32) : List Sent := msgIds.map .other

/-- The script of a sequence; the flasher reads this configuration itself. -/
def SequenceId.script (u : Updater) (cfg : ImgConfig) : SequenceId → List Sent
  | .preboot =>
      others [rtssUpdMsgCheckGpt, rtssUpdMsgGetOtaMetadatainfo, rtssUpdMsgGetOtaMetadata,
        rtssUpdMsgGetBootinfo] ++ (flashes u.imgParseInf 1 ++ others [rtssUpdMsgUpdateGpt])
  | .postboot =>
      if u.ackstate = 1 then others [rtssUpdMsgOtaDone]
      else
        others [rtssUpdMsgOtaDone, rtssUpdMsgGetBootinfo, rtssUpdMsgCheckGpt] ++
          (mirrors u.imgParseInf ++ others [rtssUpdMsgFixGpt, rtssUpdMsgRedundancyEstablished,
            rtssUpdMsgGetOtaMetadatainfo, rtssUpdMsgSetOtaMetadata, rtssUpdMsgUpdateArb])
  | .flasher =>
      others [rtssUpdMsgCheckGpt, rtssUpdMsgGetOtaMetadatainfo, rtssUpdMsgGetOtaMetadata,
        rtssUpdMsgGetBootinfo] ++ (selectedBanks u.partition).flatMap (bankFlashes u cfg)
  | .gptUpdate =>
      others [rtssUpdMsgCheckGpt, rtssUpdMsgReadGpt, rtssUpdMsgWriteGpt, rtssUpdMsgFixGpt]

/-- The configuration that a sequence works with. -/
def SequenceId.config (u : Updater) (cfg : ImgConfig) : SequenceId → ImgConfig
  | .preboot | .postboot => u.imgParseInf
  | .flasher | .gptUpdate => cfg

/-- What a monitor keeps: the messages that were sent, and the status of the last whole
message that was received. -/
structure SendWatch where
  sent : List Sent
  status : UInt32

def SendWatch.start : SendWatch := ⟨[], 0⟩

def SendWatch.next (s : SendWatch) (e : Event UpdSig) : SendWatch :=
  match sentMessage e.op with
  | some msg => { s with sent := s.sent ++ [describe msg] }
  | none =>
      match received e with
      | some r =>
          { s with
            status :=
              if r.1 = sizeofRtssUpdMsgHeader then load32 r.2 RtssUpdMsgHeader.status
              else s.status }
      | none => s

/-- What was read from the configuration file. -/
def configRead : Event UpdSig → Option (Option ImgConfig)
  | ⟨.cfgfileRead _, cfg⟩ => some cfg
  | _ => none

/-- A message is only sent as the script's next one, and when the wait after the message
before has left a status of zero. The configuration file, if it can be read, has this
configuration. -/
def sendWatch (seq : SequenceId) (u : Updater) (cfg : ImgConfig) : Monitor UpdSig SendWatch where
  next := SendWatch.next
  allows s o := ∀ msg ∈ sentMessage o, (s.sent ≠ [] → s.status = 0) ∧
    s.sent ++ [describe msg] <+: seq.script u cfg
  assumes _ e := ∀ r ∈ configRead e, ∀ cfg' ∈ r, cfg' = cfg

section Steps
variable {seq : SequenceId} {u : Updater} {cfg : ImgConfig} {rest : List Sent} {d : Sent}
variable {hs hs' : Handshake} {s : SendWatch} {o : UpdSig.Op}

theorem next_local (ho : IsLocal o) (r : UpdSig.Res o) : s.next ⟨o, r⟩ = s := by
  cases o with
  | mbWrite _ _ _ | mbRead _ _ _ => exact ho.elim
  | _ => rfl

theorem sendWatch_allows_unsent (ho : sentMessage o = none) :
    (sendWatch seq u cfg).allows s o := by
  intro msg hmsg
  rw [ho] at hmsg
  cases hmsg

/-- What is left of the script, while every wait has left a status of zero. -/
structure Ahead (seq : SequenceId) (u : Updater) (cfg : ImgConfig) (rest : List Sent)
    (hs : Handshake) (s : SendWatch) : Prop where
  script : s.sent ++ rest = seq.script u cfg
  status : s.status = 0
  response : hs.respStatus = 0

namespace Ahead

theorem start (seq : SequenceId) (u : Updater) (cfg : ImgConfig) :
    Ahead seq u cfg (seq.script u cfg) .zero .start := ⟨rfl, rfl, rfl⟩

theorem done (h : Ahead seq u cfg [] hs s) : s.sent = seq.script u cfg :=
  (List.append_nil _).symm.trans h.script

theorem frame (h : Ahead seq u cfg rest hs s) (hsame : SameResponses hs hs') :
    Ahead seq u cfg rest hs' s := by
  refine ⟨h.script, h.status, ?_⟩
  rw [hsame]
  exact h.response

theorem offline (h : Ahead seq u cfg rest hs s) (ho : IsLocal o) :
    (sendWatch seq u cfg).allows s o ∧ ∀ r, (sendWatch seq u cfg).assumes s ⟨o, r⟩ →
      Ahead seq u cfg rest hs ((sendWatch seq u cfg).next s ⟨o, r⟩) := by
  refine ⟨sendWatch_allows_unsent (sentMessage_eq_none ho), fun r _ => ?_⟩
  rw [show (sendWatch seq u cfg).next s ⟨o, r⟩ = s from next_local ho r]
  exact h

theorem send (h : Ahead seq u cfg (d :: rest) hs s) {msg : Mem} (hmsg : msg ∈ sentMessage o)
    (hd : describe msg = d) :
    (sendWatch seq u cfg).allows s o ∧ ∀ r, (sendWatch seq u cfg).assumes s ⟨o, r⟩ →
      Ahead seq u cfg rest hs ((sendWatch seq u cfg).next s ⟨o, r⟩) := by
  have hscript : (s.sent ++ [describe msg]) ++ rest = seq.script u cfg := by
    rw [hd, List.append_assoc]
    exact h.script
  refine ⟨fun msg' hmsg' => ?_, fun r _ => ?_⟩
  · cases Option.mem_unique hmsg hmsg'
    exact ⟨fun _ => h.status, rest, hscript⟩
  · have hnext : (sendWatch seq u cfg).next s ⟨o, r⟩ =
        { s with sent := s.sent ++ [describe msg] } := by
      simp only [sendWatch, SendWatch.next, Option.mem_def.mp hmsg]
    rw [hnext]
    exact ⟨hscript, h.status, h.response⟩

/-- A wait that leaves a status of zero has not received another one. -/
theorem wait (h : Ahead seq u cfg rest hs s) (r : Int × Mem)
    (hstatus : (hs.afterRead r).respStatus = 0) :
    Ahead seq u cfg rest (hs.afterRead r) (s.next ⟨waitRead u, r⟩) := by
  refine ⟨h.script, ?_, hstatus⟩
  rw [afterRead_respStatus] at hstatus
  change (if r.1 = sizeofRtssUpdMsgHeader then load32 r.2 RtssUpdMsgHeader.status
    else s.status) = 0
  by_cases hwhole : r.1 = sizeofRtssUpdMsgHeader
  · rw [if_pos hwhole] at hstatus ⊢
    exact hstatus
  · rw [if_neg hwhole]
    exact h.status

variable {α : Type}

theorem lift (h : Ahead seq u cfg rest hs s) {p : Prog UpdSig α} (hp : Only IsLocal p) :
    (sendWatch seq u cfg).Passes (fun _ s => Ahead seq u cfg rest hs s) (Sequence.lift p) s :=
  lift_only_passes hp (fun _ _ ho h => h.offline ho) h

theorem exchange (h : Ahead seq u cfg (d :: rest) hs s) {cmd : Prog UpdSig UInt32}
    (hcmd : Issues IsLocal (fun msg => describe msg = d) cmd) :
    (sendWatch seq u cfg).Passes (Ahead seq u cfg rest) (Sequence.exchange u hs cmd) s := by
  refine exchange_passes (R := Ahead seq u cfg rest hs) (hcmd.keeps
    (P := Ahead seq u cfg (d :: rest) hs) (fun _ _ ho h => h.offline ho)
    (fun _ _ _ hmsg hd h => h.send hmsg hd) h) fun s h => ?_
  exact ⟨sendWatch_allows_unsent rfl, fun r _ hstatus => h.wait r hstatus⟩

end Ahead

end Steps

/-! What the commands send. -/

theorem describe_other {msgId : UInt32} (hread : msgId ≠ rtssUpdMsgReadImage)
    (hflash : msgId ≠ rtssUpdMsgFlashImage) {msg : Mem} (hmsg : OfKind msgId msg) :
    describe msg = .other msgId := by
  rw [describe, if_neg (hmsg.other hread), if_neg (hmsg.other hflash), hmsg]

section Commands
variable (u : Updater)

theorem readimg_describes (imageNm : CString) (partition gpt sVa bufLen : UInt32) :
    Issues IsLocal (fun msg => describe msg = .readImage (imgNameField imageNm))
      (rtssUpdaterReadimg u (some imageNm) partition gpt sVa bufLen) := by
  refine .sealed u fun crc => ?_
  rw [describe, if_pos (ofKind_sealed _ _ crc)]
  exact congrArg Sent.readImage (readimgMsg_imgName imageNm partition gpt sVa bufLen crc)

theorem flashimg_describes (imageNm : CString)
    (gpt partition sVa bufLen bufCrc flashtype : UInt32) (pVa : Nat) :
    Issues IsLocal
      (fun msg => describe msg = .flashImage (imgNameField imageNm) partition.toUInt8)
      (rtssUpdaterFlashimg u (some imageNm) gpt partition sVa bufLen bufCrc flashtype pVa) := by
  have hsends : ∀ crc headerCrc, describe
      (store32 (flashimgMsg imageNm gpt partition sVa bufLen crc flashtype)
        RtssUpdMsgHeader.headerCrc headerCrc) =
      .flashImage (imgNameField imageNm) partition.toUInt8 := by
    intro crc headerCrc
    have hkind : OfKind rtssUpdMsgFlashImage
        (store32 (flashimgMsg imageNm gpt partition sVa bufLen crc flashtype)
          RtssUpdMsgHeader.headerCrc headerCrc) := ofKind_sealed _ _ headerCrc
    rw [describe, if_neg (hkind.other (by decide)), if_pos hkind, flashimgMsg_imgName,
      flashimgMsg_partition]
  exact .guard .failure (.crc (fun _ => IsOtaLoad.isLocal) .failure fun crc =>
    .sealed u (hsends crc))

end Commands

/-! The parts of a sequence, each with what it sends. -/

namespace Ahead
variable {seq : SequenceId} {u : Updater} {cfg : ImgConfig} {rest : List Sent}
variable {hs : Handshake} {s : SendWatch}

theorem command {msgId : UInt32} (h : Ahead seq u cfg (.other msgId :: rest) hs s)
    (hread : msgId ≠ rtssUpdMsgReadImage) (hflash : msgId ≠ rtssUpdMsgFlashImage)
    {cmd : Prog UpdSig UInt32} (hcmd : Issues IsLocal (OfKind msgId) cmd) :
    (sendWatch seq u cfg).Passes (Ahead seq u cfg rest) (Sequence.exchange u hs cmd) s :=
  h.exchange (hcmd.imp fun _ hmsg => describe_other hread hflash hmsg)

theorem readMetadata
    (h : Ahead seq u cfg
      (others [rtssUpdMsgGetOtaMetadatainfo, rtssUpdMsgGetOtaMetadata] ++ rest) hs s) :
    (sendWatch seq u cfg).Passes (Ahead seq u cfg rest) (RtssMailbox.readMetadata u hs) s := by
  refine (h.command (by decide) (by decide) (sendWords_issues u _ _)).then fun hs s h => ?_
  refine (h.lift ((mset_only _ _).mono fun _ => IsOtaStore.isLocal)).then fun _ s h => ?_
  exact h.command (by decide) (by decide) (sendWords_issues u _ _)

theorem check {ret : UInt32} (h : Ahead seq u cfg rest hs s) :
    (sendWatch seq u cfg).Passes (fun _ s => Ahead seq u cfg rest hs s) (Sequence.check ret) s :=
  check_passes fun _ => h

theorem checkBootInfo (h : Ahead seq u cfg (.other rtssUpdMsgGetBootinfo :: rest) hs s)
    (images : ImgConfig) :
    (sendWatch seq u cfg).Passes (Ahead seq u cfg rest) (RtssMailbox.checkBootInfo u images hs)
      s := by
  refine (h.lift ((populateContext_only _ _ _).mono fun _ => IsOtaStore.isLocal)).then
    fun ret s h => h.check.then fun _ s h => ?_
  refine (h.command (by decide) (by decide) ((getBlInfo_issues u _ _ _ _ _).mono fun _ =>
    IsOtaLoad.isLocal)).then fun hs s h => ?_
  refine (h.lift ((getBlInfoContext_only _ _ _).mono fun _ => IsOtaLoad.isLocal)).then
    fun (ret, entries) s h => h.check.then fun _ s h => ?_
  refine Passes.then (Q := Ahead seq u cfg rest) (ofOption_passes fun hs' hcounted => ?_)
    fun hs s h => h.check.then fun _ s h => .pure h
  have hentries : SameResponses hs { hs with updImgEntryType := entries } := rfl
  exact h.frame (hentries.trans (partitionStatus_sameResponses hcounted))

theorem flashFile {imageNm : CString} {partition : UInt32}
    (h : Ahead seq u cfg (.flashImage (imgNameField imageNm) partition.toUInt8 :: rest) hs s)
    (path : CString) (flashtype : UInt32) :
    (sendWatch seq u cfg).Passes (Ahead seq u cfg rest)
      (RtssMailbox.flashFile u path imageNm partition flashtype hs) s := by
  refine (h.lift (loadfile_only _ _ _)).then fun ret s h => .guard (fun _ => ?_) fun _ => ?_
  · exact .bind .failure
  · exact h.exchange (flashimg_describes u _ _ _ _ _ _ _ _)

theorem flashPaths {images : ImgConfig} (partition flashtype : UInt32) {paths : List Nat}
    (h : Ahead seq u cfg (paths.map (fun i =>
      .flashImage (imgNameField (images.imageNames i)) partition.toUInt8) ++ rest) hs s) :
    (sendWatch seq u cfg).Passes (Ahead seq u cfg rest)
      (RtssMailbox.flashPaths u images partition flashtype paths hs) s := by
  induction paths generalizing hs s with
  | nil => exact .pure h
  | cons imgcur paths ih => exact (h.flashFile _ flashtype).then fun hs s h => ih h

theorem mirrorImages {images : ImgConfig} {imgs : List Nat}
    (h : Ahead seq u cfg (imgs.flatMap (fun i =>
      [.readImage (imgNameField (images.imageNames i)),
        .flashImage (imgNameField (images.imageNames i)) 1]) ++ rest) hs s) :
    (sendWatch seq u cfg).Passes (Ahead seq u cfg rest)
      (RtssMailbox.mirrorImages u images imgs hs) s := by
  induction imgs generalizing hs s with
  | nil => exact .pure h
  | cons imgcur imgs ih =>
      refine (h.exchange (readimg_describes u _ _ _ _ _)).then fun hs s h => ?_
      exact (h.exchange (flashimg_describes u _ _ 1 _ _ _ _ _)).then fun hs s h => ih h

theorem forBanks {flash : UInt32 → Handshake → Sequence Handshake} (sends : UInt8 → List Sent)
    (hflash : ∀ (bank : UInt32) rest hs s, Ahead seq u cfg (sends bank.toUInt8 ++ rest) hs s →
      (sendWatch seq u cfg).Passes (Ahead seq u cfg rest) (flash bank hs) s)
    {banks : List Nat}
    (h : Ahead seq u cfg
      (banks.flatMap (fun bank => sends (UInt32.ofNat bank).toUInt8) ++ rest) hs s) :
    (sendWatch seq u cfg).Passes (Ahead seq u cfg rest) (RtssMailbox.forBanks flash banks hs)
      s := by
  induction banks generalizing hs s with
  | nil => exact .pure h
  | cons bank banks ih =>
      rw [List.flatMap_cons, List.append_assoc] at h
      exact (hflash _ _ hs s h).then fun hs s h => ih h

end Ahead

theorem selectBanks_eq {partition : UInt32} {start stop : Nat}
    (h : (start, stop) ∈ selectBanks partition) :
    (List.range' start (stop - start)).map (fun bank => (UInt32.ofNat bank).toUInt8) =
      selectedBanks partition := by
  unfold selectBanks at h
  unfold selectedBanks
  split_ifs at h ⊢ <;> cases h <;> rfl

/-! The sequences. -/

section Sequences
variable (u : Updater) (cfg : ImgConfig)

theorem preboot_sends (hpaths : u.imgParseInf.numberOfPaths = u.imgParseInf.numberOfImages) :
    (sendWatch .preboot u cfg).Keeps
      (fun ret s => ret = exitSuccess → s.sent = SequenceId.script u cfg .preboot)
      (rtssUpdaterPrebootDemosequence u .zero) .start := by
  have h := Ahead.start .preboot u cfg
  refine status_keeps ((h.command (by decide) (by decide) (sendWords_issues u _ _)).then
    fun hs s h => ?_)
  refine h.readMetadata.then fun hs s h => (h.checkBootInfo _).then fun hs s h => ?_
  rw [flashes, ← hpaths] at h
  refine (h.flashPaths 1 2).then fun hs s h => ?_
  refine (h.lift ((populateContext_only _ _ _).mono fun _ => IsOtaStore.isLocal)).then
    fun ret s h => h.check.then fun _ s h => ?_
  refine (h.command (by decide) (by decide) ((updategpt_issues u _ _ _ _ _ _).mono fun _ =>
    IsOtaLoad.isLocal)).then fun hs s h => .mono (Q := fun _ s => Ahead .preboot u cfg [] hs s)
      (fun _ _ h => h.done) ?_
  exact .guard (fun _ => h.lift reboot_only) fun _ => .pure h

theorem postboot_sends :
    (sendWatch .postboot u cfg).Keeps
      (fun ret s => ret = exitSuccess → s.sent = SequenceId.script u cfg .postboot)
      (rtssUpdaterPostbootDemosequence u .zero) .start := by
  have hscript : SequenceId.script u cfg .postboot = .other rtssUpdMsgOtaDone ::
      if u.ackstate = 1 then [] else
        others [rtssUpdMsgGetBootinfo, rtssUpdMsgCheckGpt] ++
          (mirrors u.imgParseInf ++ others [rtssUpdMsgFixGpt, rtssUpdMsgRedundancyEstablished,
            rtssUpdMsgGetOtaMetadatainfo, rtssUpdMsgSetOtaMetadata, rtssUpdMsgUpdateArb]) := by
    rw [SequenceId.script]
    split <;> rfl
  have h := Ahead.start .postboot u cfg
  rw [hscript] at h
  refine status_keeps ((h.command (by decide) (by decide) (sendWords_issues u _ _)).then
    fun hs s h => .guard (fun hack => ?_) fun hack => ?_)
  · rw [if_pos hack] at h
    exact .pure h.done
  · rw [if_neg hack] at h
    refine (h.checkBootInfo _).then fun hs s h => ?_
    refine (h.command (by decide) (by decide) (sendWords_issues u _ _)).then fun hs s h => ?_
    refine h.mirrorImages.then fun hs s h => ?_
    refine (h.command (by decide) (by decide) (fixgpt_issues u _ _ _ _)).then fun hs s h => ?_
    refine (h.command (by decide) (by decide) (sendWords_issues u _ _)).then fun hs s h => ?_
    refine (h.command (by decide) (by decide) (sendWords_issues u _ _)).then fun hs s h => ?_
    refine (h.command (by decide) (by decide) ((setMetadata_issues u _ _ _ _).mono fun _ =>
      IsOtaLoad.isLocal)).then fun hs s h => ?_
    exact (h.command (by decide) (by decide) (sendWords_issues u _ _)).then
      fun hs s h => .pure h.done

theorem Ahead.getImgParseInfo {seq : SequenceId} {u : Updater} {cfg : ImgConfig}
    {rest : List Sent} {hs : Handshake} {s : SendWatch} (h : Ahead seq u cfg rest hs s)
    (cfgfile : CString) :
    (sendWatch seq u cfg).Passes (fun images s => images = cfg ∧ Ahead seq u cfg rest hs s)
      (OptionT.mk (rtssUpdaterGetImgParseInfo cfgfile)) s := by
  obtain ⟨hallows, hnext⟩ := h.offline (o := .cfgfileRead cfgfile) trivial
  exact .mk ⟨hallows, fun r hr images himages => ⟨hr r rfl images himages, hnext r hr⟩⟩

theorem flasher_sends (hpaths : cfg.numberOfPaths = cfg.numberOfImages) :
    (sendWatch .flasher u cfg).Keeps
      (fun ret s => ret = exitSuccess → s.sent = SequenceId.script u cfg .flasher)
      (rtssUpdaterDevprogFlasher u .zero) .start := by
  have h := Ahead.start .flasher u cfg
  refine status_keeps ((h.command (by decide) (by decide) (sendWords_issues u _ _)).then
    fun hs s h => ?_)
  refine h.readMetadata.then fun hs s h => (h.checkBootInfo _).then fun hs s h => ?_
  have hrest : (others []).append ((selectedBanks u.partition).flatMap (bankFlashes u cfg)) =
      (selectedBanks u.partition).flatMap (bankFlashes u cfg) ++ [] := (List.append_nil _).symm
  refine Passes.then (Q := fun banks s => banks ∈ selectBanks u.partition ∧
    Ahead .flasher u cfg _ hs s) (ofOption_passes fun _ hbanks => ⟨hbanks, h⟩)
    fun (startBank, partition) s ⟨hbanks, h⟩ => ?_
  change Ahead .flasher u cfg ((others []).append _) hs s at h
  rw [hrest, ← selectBanks_eq hbanks, List.flatMap_map] at h
  refine .guard (fun hskip => .guard (fun _ => ?_) fun _ => ?_) fun hskip => ?_
  · exact .bind .failure
  · simp only [bankFlashes, if_pos hskip] at h
    exact (h.forBanks (fun bank => [.flashImage (imgNameField u.imgIdentifier) bank])
      fun _ _ _ _ h => h.flashFile _ 1).then fun hs s h => .pure h.done
  · simp only [bankFlashes, if_neg hskip] at h
    refine (h.getImgParseInfo u.otaCfgPath).then fun images s ⟨himages, h⟩ => ?_
    rw [himages, hpaths]
    exact (h.forBanks (flashes cfg) fun bank _ _ _ h => h.flashPaths bank 1).then
      fun hs s h => .pure h.done

theorem gptUpdate_sends (heap : Mem) :
    (sendWatch .gptUpdate u cfg).Keeps
      (fun ret s => ret = exitSuccess → s.sent = SequenceId.script u cfg .gptUpdate)
      (rtssUpdaterImageUpdateGptAt heap u .zero) .start := by
  have h := Ahead.start .gptUpdate u cfg
  refine status_keeps ((h.command (by decide) (by decide) (sendWords_issues u _ _)).then
    fun hs s h => ?_)
  refine (h.lift ((mset_only _ _).mono fun _ => IsOtaStore.isLocal)).then fun _ s h => ?_
  refine (h.command (by decide) (by decide) ((readgpt_issues u _ _ _ _).mono fun _ =>
    IsOtaLoad.isLocal)).then fun hs s h => ?_
  refine (h.lift ((getGpthdr_only _ _).mono fun _ => IsOtaLoad.isLocal)).then
    fun (ret, gpthdr) s h => h.check.then fun _ s h => ?_
  have h : Ahead .gptUpdate u cfg _ { hs with gpthdr := gpthdr } s := h.frame rfl
  refine Passes.then (Q := fun _ s => Ahead .gptUpdate u cfg _ _ s) (.mk (Keeps.mono
    (fun _ _ h _ _ => h) ((modifygpt_only _ _ _).keeps (fun _ _ ho h => h.offline ho) h)))
    fun (gptbuf, gptbufsz) s h => ?_
  refine (h.lift ((mset_only _ _).mono fun _ => IsOtaStore.isLocal)).then fun _ s h => ?_
  refine (h.command (by decide) (by decide) (writegpt_issues u _ _ _ _ _ _)).then
    fun hs s h => ?_
  exact (h.command (by decide) (by decide) (fixgpt_issues u _ _ _ _)).then
    fun hs s h => .pure h.done

end Sequences

/-! No message stands twice in a script. -/

theorem imgNameField_injective : ∀ a ∈ rtssUpdaterSupportedImgNames,
    ∀ b ∈ rtssUpdaterSupportedImgNames, imgNameField a = imgNameField b → a = b := by
  decide

/-- The images of a configuration from a file have different name fields. -/
theorem ImgConfig.Parsed.index_unique {cfg : ImgConfig} (h : cfg.Parsed) {i j : Nat}
    (hi : i < cfg.numberOfImages) (hj : j < cfg.numberOfImages)
    (hfield : imgNameField (cfg.imageNames i) = imgNameField (cfg.imageNames j)) : i = j := by
  obtain ⟨-, hdistinct, hsupported⟩ := h.spec
  have hname := imgNameField_injective _ (hsupported i hi) _ (hsupported j hj) hfield
  rcases Nat.lt_trichotomy i j with hlt | heq | hgt
  · exact absurd hname (hdistinct i j hlt hj)
  · exact heq
  · exact absurd hname.symm (hdistinct j i hgt hi)

theorem flashes_nodup {cfg : ImgConfig} (h : cfg.Parsed) (partition : UInt8) :
    (flashes cfg partition).Nodup := by
  refine List.Nodup.map_on (fun i hi j hj hsame => ?_) List.nodup_range
  exact h.index_unique (List.mem_range.mp hi) (List.mem_range.mp hj) (Sent.flashImage.inj hsame).1

theorem mirrors_nodup {cfg : ImgConfig} (h : cfg.Parsed) : (mirrors cfg).Nodup := by
  refine List.nodup_flatMap.mpr ⟨fun i _ => ?_, ?_⟩
  · refine List.nodup_cons.mpr ⟨fun hmem => ?_, List.nodup_singleton _⟩
    cases List.mem_singleton.mp hmem
  · refine List.Pairwise.imp_of_mem (fun {i j} hi hj hne => ?_) List.nodup_range
    refine List.disjoint_left.mpr fun d hd hd' => hne ?_
    refine h.index_unique (List.mem_range.mp hi) (List.mem_range.mp hj) ?_
    simp only [List.mem_cons, List.not_mem_nil, or_false] at hd hd'
    rcases hd with rfl | rfl
    · exact hd'.elim Sent.readImage.inj fun hsame => nomatch hsame
    · exact hd'.elim (fun hsame => nomatch hsame) fun hsame => (Sent.flashImage.inj hsame).1

theorem bankFlashes_nodup (u : Updater) {cfg : ImgConfig} (h : cfg.Parsed) (bank : UInt8) :
    (bankFlashes u cfg bank).Nodup := by
  rw [bankFlashes]
  split
  · exact List.nodup_singleton _
  · exact flashes_nodup h bank

/-- What is flashed to a bank is flashed to this bank. -/
theorem mem_bankFlashes {u : Updater} {cfg : ImgConfig} {bank : UInt8} {d : Sent}
    (h : d ∈ bankFlashes u cfg bank) : ∃ name, d = .flashImage name bank := by
  rw [bankFlashes] at h
  split at h
  · exact ⟨_, List.mem_singleton.mp h⟩
  · obtain ⟨i, -, rfl⟩ := List.mem_map.mp h
    exact ⟨_, rfl⟩

theorem selectedBanks_nodup (partition : UInt32) : (selectedBanks partition).Nodup := by
  unfold selectedBanks
  split_ifs <;> decide

theorem others_around_nodup {first last : List UInt32} {images : List Sent}
    (hothers : (first ++ last).Nodup) (himages : images.Nodup)
    (hkind : ∀ msgId, Sent.other msgId ∉ images) :
    (others first ++ (images ++ others last)).Nodup := by
  have hinj : Function.Injective Sent.other := fun _ _ hsame => Sent.other.inj hsame
  have hswap : (images ++ (others first ++ others last)).Nodup := by
    rw [others, others, ← List.map_append]
    refine List.nodup_append.mpr ⟨himages, hothers.map hinj, fun d hd d' hd' hsame => ?_⟩
    obtain ⟨msgId, -, rfl⟩ := List.mem_map.mp hd'
    exact hkind msgId (hsame ▸ hd)
  exact (List.perm_append_comm_assoc _ _ _).nodup_iff.mpr hswap

theorem script_nodup (seq : SequenceId) (u : Updater) (cfg : ImgConfig)
    (h : (seq.config u cfg).Parsed) : (seq.script u cfg).Nodup := by
  cases seq with
  | preboot =>
      refine others_around_nodup (by decide) (flashes_nodup h 1) fun msgId hmem => ?_
      obtain ⟨i, -, hsame⟩ := List.mem_map.mp hmem
      cases hsame
  | postboot =>
      rw [SequenceId.script]
      split
      · exact List.nodup_singleton _
      · refine others_around_nodup (by decide) (mirrors_nodup h) fun msgId hmem => ?_
        obtain ⟨i, -, hsame⟩ := List.mem_flatMap.mp hmem
        simp only [List.mem_cons, List.not_mem_nil, or_false, reduceCtorEq] at hsame
  | flasher =>
      have hbanks : ((selectedBanks u.partition).flatMap (bankFlashes u cfg)).Nodup := by
        refine List.nodup_flatMap.mpr ⟨fun bank _ => bankFlashes_nodup u h bank, ?_⟩
        refine (selectedBanks_nodup u.partition).imp fun {a b} hne => ?_
        refine List.disjoint_left.mpr fun d hd hd' => hne ?_
        obtain ⟨name, rfl⟩ := mem_bankFlashes hd
        obtain ⟨name', hsame⟩ := mem_bankFlashes hd'
        exact (Sent.flashImage.inj hsame).2
      have hothers : ([rtssUpdMsgCheckGpt, rtssUpdMsgGetOtaMetadatainfo,
          rtssUpdMsgGetOtaMetadata, rtssUpdMsgGetBootinfo] ++ []).Nodup := by decide
      have hscript := others_around_nodup hothers hbanks fun msgId hmem => by
        obtain ⟨bank, -, hmem⟩ := List.mem_flatMap.mp hmem
        obtain ⟨name, hsame⟩ := mem_bankFlashes hmem
        cases hsame
      rwa [show others [] = [] from rfl, List.append_nil] at hscript
  | gptUpdate => exact List.Nodup.map (fun _ _ => Sent.other.inj) (by decide)

/-- Every run follows the script of its sequence, and goes on only after a status of zero.
A run that succeeds has sent the whole script. -/
theorem script_followed (heap : Mem) (seq : SequenceId) (u : Updater) (cfg : ImgConfig)
    (t : List (Event UpdSig)) (q : Prog UpdSig UInt32) (hcfg : (seq.config u cfg).Parsed)
    (hruns : Runs (seq.progAt heap u .zero) t q) (hread : (sendWatch seq u cfg).Assumed .start t) :
    (sendWatch seq u cfg).Allowed .start t ∧
      (q = .ret exitSuccess →
        ((sendWatch seq u cfg).after .start t).sent = seq.script u cfg) := by
  have hkeeps : (sendWatch seq u cfg).Keeps
      (fun ret s => ret = exitSuccess → s.sent = seq.script u cfg) (seq.progAt heap u .zero)
        .start := by
    cases seq with
    | preboot => exact preboot_sends u cfg hcfg.spec.1
    | postboot => exact postboot_sends u cfg
    | flasher => exact flasher_sends u cfg hcfg.spec.1
    | gptUpdate => exact gptUpdate_sends u cfg heap
  obtain ⟨hallowed, hrest⟩ := Keeps.runs hruns hkeeps hread
  refine ⟨hallowed, ?_⟩
  rintro rfl
  exact hrest rfl

/-- While no more images are reported than the handshake state has entries, every run follows
the script of its sequence, and goes on only after a status of zero. A run that succeeds has
sent the whole script, which has no message twice. -/
theorem commit_after_flashing (layout : MemoryLayout) (seq : SequenceId) (u : Updater)
    (cfg : ImgConfig) (t : List (Event UpdSig)) (q : Prog UpdSig UInt32)
    (hcfg : (seq.config u cfg).Parsed) (hruns : Runs (layout.prog seq u .zero) t q)
    (hread : (sendWatch seq u cfg).Assumed .start t) (hreports : imageReports.Assumed .start t) :
    (sendWatch seq u cfg).Allowed .start t ∧ (seq.script u cfg).Nodup ∧
      (q = .ret exitSuccess →
        ((sendWatch seq u cfg).after .start t).sent = seq.script u cfg) := by
  obtain ⟨q', hruns', hret⟩ := layout.runs hruns hreports
  obtain ⟨hallowed, hsent⟩ := script_followed _ seq u cfg t q' hcfg hruns' hread
  exact ⟨hallowed, script_nodup seq u cfg hcfg, fun hq => hsent (hret _ hq)⟩

def sampleCfgfile : List UInt8 := cString "SAIL_HYP /var/sailhyp.elf\n"

theorem sample_parsed : Updater.sample.imgParseInf.Parsed := by
  refine ⟨some sampleCfgfile, Updater.sample.imgParseInf, Prod.ext (by decide) ?_⟩
  refine congrArg₂ (ImgConfig.mk 1 1) (funext fun k => ?_) (funext fun k => ?_)
  · cases k <;> rfl
  · cases k <;> rfl

def samplePrebootWorld : World :=
  .sample (sampleBootResponses (List.replicate 52 0) ++
    [(sampleResponse rtssUpdMsgFlashImage 0 [], []), (sampleResponse rtssUpdMsgUpdateGpt 0 [], [])])

/-- The preboot sequence sends its whole script. -/
theorem commit_after_flashing_sample :
    ((sendWatch .preboot .sample Updater.sample.imgParseInf).after .start (eventTrace World.step
      (MemoryLayout.adjacent.prog .preboot .sample .zero) samplePrebootWorld)).sent =
        SequenceId.preboot.script .sample Updater.sample.imgParseInf := by
  have hrun : (∀ e ∈ eventTrace World.step (MemoryLayout.adjacent.prog .preboot .sample .zero)
      samplePrebootWorld, (configRead e).isNone) ∧
      ((MemoryLayout.adjacent.prog .preboot .sample .zero).run World.step
        samplePrebootWorld).1 = exitSuccess := by
    decide +kernel
  refine (commit_after_flashing .adjacent .preboot .sample _ _ _ sample_parsed
    (runs_eventTrace World.step _ samplePrebootWorld) ?_ (by decide +kernel)).2.2
      (congrArg Prog.ret hrun.2)
  intro past e rest hsplit r hr
  have hnone := hrun.1 e (hsplit.symm ▸ List.mem_append_right past List.mem_cons_self)
  rw [hr] at hnone
  cases hnone

/-- 24 images are reported, and the last entry in the OTA buffer has 1 and 0 as the sizes of
the partitions. Behind the array these are the numbers of images and of paths. -/
def overrunWorld : World :=
  { World.sample [(sampleResponse rtssUpdMsgCheckGpt 0 [], []),
      (sampleResponse rtssUpdMsgGetOtaMetadatainfo 0 [], []),
      (sampleResponse rtssUpdMsgGetOtaMetadata 0 [], []),
      (sampleResponse rtssUpdMsgGetBootinfo 0 [1, 1, 0, 1, 1, 0, 24], []),
      (sampleResponse rtssUpdMsgUpdateGpt 0 [], [])] with
    ota := storeBytes (store32 zeroed (sizeofRtssUpdImageEntry * 23 + 40) 1)
      (sizeofRtssUpdImageEntry * 23 + 48) (cString "SAIL") }

/-- The update of the GPT is committed there, and nothing was flashed. -/
theorem commit_without_flashing :
    ¬ ∀ t, Runs (MemoryLayout.adjacent.prog .preboot .sample .zero) t (.ret exitSuccess) →
      ((sendWatch .preboot .sample Updater.sample.imgParseInf).after .start t).sent =
        SequenceId.preboot.script .sample Updater.sample.imgParseInf := by
  intro h
  have hruns := runs_eventTrace World.step (MemoryLayout.adjacent.prog .preboot .sample .zero)
    overrunWorld
  have hrun : ((MemoryLayout.adjacent.prog .preboot .sample .zero).run World.step
      overrunWorld).1 = exitSuccess := by
    decide +kernel
  rw [hrun] at hruns
  refine absurd (h _ hruns) ?_
  decide +kernel

end RtssMailbox
