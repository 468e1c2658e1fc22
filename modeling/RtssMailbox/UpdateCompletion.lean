import RtssMailbox.BootStateCheck
import RtssMailbox.BufferLengths
import RtssMailbox.FileFlashing
import RtssMailbox.ImageOverrun
import RtssMailbox.Library.Layers
import RtssMailbox.UpdaterAccounting

/-!
Updates that complete. While every message is sent whole and gets a good response of its own
kind, and the files are not empty, every sequence that `main` starts ends with
`EXIT_SUCCESS`. Whenever one fails, there is a first answer that is to blame.
-/
namespace RtssMailbox
open Effects ByteMemory Monitoring Monitor

/-- What was last exchanged: a message that waits for its response, or boot information,
whose image entries are read then. -/
inductive Exchanged where
  | nothing
  | sent (msgId : UInt32)
  | bootInfo

def Exchanged.next : Exchanged → Event UpdSig → Exchanged
  | _, ⟨.mbWrite _ msg _, _⟩ => .sent (load32 msg RtssUpdMsgHeader.msgId)
  | .sent msgId, ⟨.mbRead _ _ _, _⟩ =>
      if msgId = rtssUpdMsgGetBootinfo then .bootInfo else .nothing
  | s, ⟨.otaLoad _ _, _⟩ => s
  | _, _ => .nothing

/-- A size that is not zero in units of 16 bytes. -/
def Roundable (size : UInt32) : Prop := 0 < size.toNat ∧ size.toNat + 15 < 4294967296

/-- A response that lets every sequence go on. Boot information is about at least one image,
and at most as many as the handshake state has entries. -/
structure GoodResponse (msgId : UInt32) (r : Int × Mem) : Prop where
  verified : VerifiedAs msgId r
  status : load32 r.2 RtssUpdMsgHeader.status = 0
  gptSize : msgId = rtssUpdMsgCheckGpt → Roundable (bodyWord r.2 2)
  metadataSize : msgId = rtssUpdMsgGetOtaMetadatainfo → Roundable (bodyWord r.2 0)
  bootInfo : msgId = rtssUpdMsgGetBootinfo →
    GptsValid r.2 ∧ 0 < reportedImages r.2 ∧ reportedImages r.2 ≤ rtssUpdaterCfgMaxImages
  readLen : msgId = rtssUpdMsgReadImage → bodyWord r.2 11 ≠ 0

/-- An image entry that counts as booted from partition A. -/
def RtssUpdImageEntry.Passes (entry : RtssUpdImageEntry) : Prop :=
  entry.bootPartition = 0 ∨ entry.bootPartition = 2

/-- The answers that no failure can be blamed on. A file that cannot be read is not to blame,
as its length is unsigned; an empty one is. -/
def Cooperates (gpt : List UInt8) : Exchanged → Event UpdSig → Prop
  | _, ⟨.mbWrite _ _ sz, (ret : Int)⟩ => ret = sz
  | .sent msgId, ⟨.mbRead _ _ _, r⟩ => GoodResponse msgId r
  | .bootInfo, ⟨.otaLoad _ len, bytes⟩ =>
      (RtssUpdImageEntry.ofBytes fun p => (List.ofFn (n := len) bytes).getD p 0).Passes
  | _, ⟨.stat _, (found : Option (UInt32 × Nat))⟩ =>
      ∀ file ∈ found, 0 < file.2 ∧ file.2 + 63 < 4294967296
  | _, ⟨.cfgfileRead _, (cfg : Option ImgConfig)⟩ => cfg.isSome
  | _, ⟨.access _, (found : Bool)⟩ => found
  | _, ⟨.fopen _, (opened : Bool)⟩ => opened
  | _, ⟨.calloc _, (allocated : Bool)⟩ => allocated
  | _, ⟨.ftell, (told : Nat × Int)⟩ => told = (gpt.length, 0)
  | _, ⟨.fread count, (bytes : { bytes : List UInt8 // bytes.length ≤ count })⟩ =>
      count = gpt.length → bytes.val = gpt
  | _, _ => True

/-- The RTSS and the system do their part; `gpt` is the content of the GPT file. -/
def cooperation (gpt : List UInt8) : Monitor UpdSig Exchanged where
  next := Exchanged.next
  allows _ _ := True
  assumes := Cooperates gpt

/-! The commands. -/

section Commands
variable {gpt : List UInt8} {u : Updater} {s : Exchanged}

/-- The command is sent, and waits for its response. -/
def Sends (gpt : List UInt8) (msgId : UInt32) (cmd : Prog UpdSig UInt32) : Prop :=
  ∀ s, (cooperation gpt).Keeps (fun ret s' => ret = exitSuccess ∧ s' = .sent msgId) cmd s

theorem sealAndSend_sends (msgId : UInt32) (body : Mem) :
    Sends gpt msgId (sealAndSend u (rtssUpdMsg msgId body)) := by
  intro s
  unfold sealAndSend
  obtain ⟨crc, hcrc⟩ := Option.isSome_iff_exists.mp (header_crc (rtssUpdMsg msgId body))
  rw [hcrc]
  refine ⟨trivial, fun (ret : Int) hret => ?_⟩
  obtain rfl : ret = sizeofRtssUpdMsgHeader := hret
  exact ⟨rfl, congrArg Exchanged.sent (ofKind_sealed msgId body crc)⟩

theorem sendWords_sends (msgId : UInt32) (words : List UInt32) :
    Sends gpt msgId (sendWords u msgId words) :=
  sealAndSend_sends msgId _

/-- A buffer has a CRC unless its length is zero. -/
theorem collectCrc_sends {msgId bufCrc bufLen : UInt32} (hlen : bufLen ≠ 0)
    {f : Option UInt32 → Prog UpdSig UInt32} (hf : ∀ crc, Sends gpt msgId (f (some crc))) :
    Sends gpt msgId (collectCrc bufCrc bufLen >>= f) := by
  intro s
  have hcollect : (cooperation gpt).Keeps (fun r _ => r.isSome) (collectCrc bufCrc bufLen) s := by
    refine .guard (fun _ => (rfl : (some bufCrc).isSome = true)) fun _ => ⟨trivial, ?_⟩
    intro (bytes : Fin bufLen.toNat → UInt8) _
    refine rtssUpdCalculateCrc32_isSome (List.ne_nil_of_length_pos ?_)
    rw [List.length_ofFn]
    exact Nat.pos_of_ne_zero fun hzero => hlen (UInt32.toNat_inj.mp hzero)
  refine hcollect.then fun r s hr => ?_
  obtain ⟨crc, rfl⟩ := Option.isSome_iff_exists.mp hr
  exact hf crc s

theorem Sends.guard {msgId : UInt32} {c : Prop} [Decidable c] {p q : Prog UpdSig UInt32}
    (hc : ¬ c) (hq : Sends gpt msgId q) : Sends gpt msgId (if c then p else q) := by
  rwa [if_neg hc]

theorem readgpt_sends (gptId sVa : UInt32) {bufLen : UInt32} (hlen : bufLen ≠ 0) {pVa : Nat}
    (hpVa : pVa ≠ null) :
    Sends gpt rtssUpdMsgReadGpt (rtssUpdaterReadgpt u gptId sVa bufLen pVa) :=
  .guard hpVa (collectCrc_sends hlen fun _ => sendWords_sends _ _)

theorem updategpt_sends {numImages : UInt32}
    (hlen : numImages * UInt32.ofNat sizeofRtssUpdUpdateGptEntry ≠ 0)
    (table sVa bufLen bufCrc : UInt32) {pVa : Nat} (hpVa : pVa ≠ null) :
    Sends gpt rtssUpdMsgUpdateGpt
      (rtssUpdaterUpdategpt u numImages table sVa bufLen bufCrc pVa) :=
  .guard hpVa (collectCrc_sends hlen fun _ => sendWords_sends _ _)

theorem setMetadata_sends (sVa : UInt32) {bufLen : UInt32} (hlen : bufLen ≠ 0) (bufCrc : UInt32)
    {pVa : Nat} (hpVa : pVa ≠ null) :
    Sends gpt rtssUpdMsgSetOtaMetadata (rtssUpdaterSetMetadata u sVa bufLen bufCrc pVa) :=
  .guard hpVa (collectCrc_sends hlen fun _ => sendWords_sends _ _)

theorem getBlInfo_sends (numImages : UInt32) {bufLen : UInt32} (hlen : bufLen ≠ 0)
    (bufCrc sVa : UInt32) {pVa : Nat} (hpVa : pVa ≠ null) :
    Sends gpt rtssUpdMsgGetBootinfo (rtssUpdaterGetBlInfo u numImages bufLen bufCrc sVa pVa) := by
  refine .guard hpVa (collectCrc_sends ?_ fun _ => sendWords_sends _ _)
  split
  · exact hlen
  · next hsame => exact not_not.mp (not_and.mp hsame hlen) ▸ hlen

theorem flashimg_sends (imageNm : CString) (table partition sVa : UInt32) {bufLen : UInt32}
    (hlen : bufLen ≠ 0) (bufCrc flashtype : UInt32) {pVa : Nat} (hpVa : pVa ≠ null) :
    Sends gpt rtssUpdMsgFlashImage
      (rtssUpdaterFlashimg u (some imageNm) table partition sVa bufLen bufCrc flashtype pVa) :=
  .guard hpVa (collectCrc_sends hlen fun _ => sealAndSend_sends _ _)

/-- A good response is taken, and what it says is kept. -/
theorem exchange_completes {msgId : UInt32} {cmd : Prog UpdSig UInt32}
    (hcmd : Sends gpt msgId cmd) (hs : Handshake) :
    (cooperation gpt).Completes (fun hs' s' => ∃ r, GoodResponse msgId r ∧ hs' = hs.afterRead r ∧
      (msgId = rtssUpdMsgGetBootinfo → s' = .bootInfo)) (Sequence.exchange u hs cmd) s := by
  rw [Monitor.Completes, Sequence.exchange_run]
  refine (hcmd s).then fun ret s' ⟨hret, hsent⟩ => .guard (fun _ => ?_)
    fun hne => absurd hret hne
  subst hsent
  rw [Sequence.response_run, handler_eq]
  refine ⟨trivial, fun (r : Int × Mem) (hr : GoodResponse msgId r) => .guard
    (fun hbad => absurd ?_ hbad) fun _ => ?_⟩
  · rw [afterRead_respStatus, if_pos hr.verified.1, hr.status]
  · exact ⟨_, rfl, r, hr, rfl, fun hid => if_pos hid⟩

end Commands

/-! The boot information. -/

/-- A configuration whose images can be asked for. -/
structure ImgConfig.Listed (cfg : ImgConfig) : Prop where
  positive : 0 < cfg.numberOfImages
  atMost : cfg.numberOfImages ≤ rtssUpdaterCfgMaxImages
  named : ∀ i < cfg.numberOfImages, cfg.imageNames i ≠ []

theorem ImgConfig.Listed.default (cfg : ImgConfig) : (rtssUpdaterGetImgInfoDefault cfg).Listed where
  positive := Nat.succ_pos _
  atMost := Nat.le_refl _
  named i hi := by
    change rtssUpdaterSupportedImgNames.getD i _ ≠ []
    rw [List.getD_eq_getElem _ _ hi]
    exact (supportedName _ (List.getElem_mem hi)).1

theorem ImgConfig.Parsed.listed {cfg : ImgConfig} (h : cfg.Parsed) : cfg.Listed where
  positive := by
    obtain ⟨file, old, hread⟩ := h
    unfold rtssUpdaterCfgfileRead at hread
    split at hread
    · cases hread
    · split at hread
      · cases hread
      · split at hread
        · cases hread
        · dsimp only at hread
          split at hread
          · cases hread
          · next hne =>
              cases hread
              exact Nat.pos_of_ne_zero hne
  atMost := h.at_most
  named i hi := (supportedName _ (h.spec.2.2 i hi)).1

/-- A table with entries of this size has a length. -/
theorem ImgConfig.Listed.tableLen {cfg : ImgConfig} (h : cfg.Listed) (entrySize : Nat)
    (hpos : 0 < entrySize) (hsmall : entrySize ≤ sizeofRtssUpdImageEntry) :
    UInt32.ofNat cfg.numberOfImages * UInt32.ofNat entrySize ≠ 0 := by
  obtain ⟨hpositive, hatMost, -⟩ := h
  simp only [rtssUpdaterCfgMaxImages] at hatMost
  simp only [sizeofRtssUpdImageEntry] at hsmall
  have hproduct : 0 < cfg.numberOfImages * entrySize := Nat.mul_pos hpositive hpos
  have hbound : cfg.numberOfImages * entrySize ≤ 5 * 52 := Nat.mul_le_mul hatMost hsmall
  rw [← UInt32.ofNat_mul]
  intro hzero
  have hlen := congrArg UInt32.toNat hzero
  rw [UInt32.toNat_ofNat', UInt32.toNat_zero] at hlen
  omega

/-- Nothing has been counted yet. -/
def Handshake.Fresh (hs : Handshake) : Prop := hs.bootPartitionPass = 0 ∧ hs.Uncounted

theorem afterRead_fresh {hs : Handshake} (h : hs.Fresh) (r : Int × Mem) :
    (hs.afterRead r).Fresh := by
  refine ⟨?_, afterRead_uncounted h.2 r⟩
  rw [afterRead_field Handshake.bootPartitionPass fun _ _ _ => rfl, Handshake.record]
  split_ifs <;> exact h.1

theorem gptsValid_afterRead (hs : Handshake) {r : Int × Mem}
    (hr : VerifiedAs rtssUpdMsgGetBootinfo r) (hvalid : GptsValid r.2) :
    (hs.afterRead r).GptsValid := by
  obtain ⟨hwhole, hcrc, hid⟩ := hr
  simp only [Handshake.GptsValid, Handshake.afterRead, if_pos hwhole, if_pos hcrc,
    Handshake.record, hid]
  exact hvalid

/-- Entries that pass are all counted as such. -/
theorem countPartitions_pass {images : List Nat} (hs : Handshake)
    (h : ∀ k ∈ images, (hs.updImgEntryType k).Passes) :
    images.foldlM Handshake.countPartition hs =
      some { hs with bootPartitionPass := hs.bootPartitionPass + UInt32.ofNat images.length } := by
  induction images generalizing hs with
  | nil =>
      have hsame : hs.bootPartitionPass + UInt32.ofNat 0 = hs.bootPartitionPass :=
        UInt32.add_zero _
      exact congrArg (fun pass => some { hs with bootPartitionPass := pass }) hsame.symm
  | cons k images ih =>
      obtain ⟨hk, hrest⟩ := List.forall_mem_cons.mp h
      have hcount : hs.countPartition k =
          some { hs with bootPartitionPass := hs.bootPartitionPass + 1 } := by
        obtain hzero | htwo := hk
        · simp only [Handshake.countPartition, if_pos hzero]
        · simp only [Handshake.countPartition, htwo]
          rfl
      rw [List.foldlM_cons, hcount]
      refine (ih { hs with bootPartitionPass := hs.bootPartitionPass + 1 } hrest).trans ?_
      rw [List.length_cons, UInt32.ofNat_add, UInt32.add_assoc, UInt32.add_comm 1]
      rfl

/-- Boot information below valid GPTs with entries that pass is accepted. -/
theorem validateBootInfo_passes (hs : Handshake) (hfresh : hs.Fresh) (hvalid : hs.GptsValid)
    (hne : 0 < hs.numImagesBoot.toNat)
    (hentries : ∀ k < hs.numImagesBoot.toNat, (hs.updImgEntryType k).Passes) :
    ∃ hs', rtssUpdaterGetBlPartitionStatus hs = some hs' ∧
      rtssUpdaterValidateBootInfo hs' = exitSuccess := by
  have hsome : hs.numImagesBoot ≠ 0 := fun hzero => by simp [hzero] at hne
  refine ⟨_, (if_neg hsome).trans (countPartitions_pass hs fun k hk =>
    hentries k (List.mem_range.mp hk)), ?_⟩
  obtain ⟨hprimHeader, hprimEntry, hsecHeader, hsecEntry⟩ := hvalid
  obtain ⟨hpass, hfail⟩ := hfresh
  rw [rtssUpdaterValidateBootInfo, if_pos ⟨hprimEntry, hprimHeader, hsecEntry, hsecHeader⟩]
  simp only [List.length_range, UInt32.ofNat_toNat, hpass, UInt32.zero_add]
  rw [hfail]
  rfl

section Parts
variable {gpt : List UInt8} {u : Updater} {s : Exchanged}

theorem check_completes {ret : UInt32} (hret : ret = exitSuccess) {s : Exchanged} :
    (cooperation gpt).Completes (fun _ s' => s' = s) (Sequence.check ret) s :=
  .guard (fun _ => .pure rfl) fun hne => absurd hret hne

theorem populateNames_keeps {cfg : ImgConfig} (entrySize left i : Nat)
    (hnamed : ∀ k < i + left, cfg.imageNames k ≠ []) :
    (cooperation gpt).Keeps (fun ret _ => ret = exitSuccess) (populateNames cfg entrySize left i)
      s := by
  induction left generalizing i s with
  | zero => rfl
  | succ left ih =>
      refine .guard (fun hempty => absurd hempty (hnamed i (by omega))) fun _ => ?_
      exact ⟨trivial, fun _ _ => ih (i + 1) fun k hk => hnamed k (by omega)⟩

theorem populateContext_keeps {cfg : ImgConfig} (h : cfg.Listed) (entrySize : Nat) {pVa : Nat}
    (hpVa : pVa ≠ null) :
    (cooperation gpt).Keeps (fun ret _ => ret = exitSuccess) (populateContext cfg entrySize pVa)
      s := by
  refine .guard (fun hnull => absurd hnull hpVa) fun _ => ⟨trivial, fun _ _ => ?_⟩
  exact populateNames_keeps entrySize _ 0 fun k hk => h.named k (by rwa [Nat.zero_add] at hk)

/-- The entries that are read pass, and those before them stay. -/
theorem readEntries_keeps (left k : Nat) (entries : Nat → RtssUpdImageEntry) :
    (cooperation gpt).Keeps (fun entries' _ => ∀ i < k + left, (i < k → (entries i).Passes) →
      (entries' i).Passes) (readEntries left k entries) .bootInfo := by
  induction left generalizing k entries with
  | zero => exact fun i hi h => h hi
  | succ left ih =>
      refine ⟨trivial, fun bytes hentry => (ih (k + 1) _).mono fun entries' _ h i hi hbefore => ?_⟩
      refine h i (by omega) fun hik => ?_
      by_cases hlast : i = k
      · rw [if_pos hlast]
        exact hentry
      · rw [if_neg hlast]
        exact hbefore (by omega)

theorem checkBootInfo_completes {cfg : ImgConfig} (hcfg : cfg.Listed) (hpVa : u.pVa ≠ null)
    {hs : Handshake} (hfresh : hs.Fresh) :
    (cooperation gpt).Completes (fun _ _ => True) (checkBootInfo u cfg hs) s := by
  refine (Completes.lift (populateContext_keeps hcfg _ hpVa)).then fun ret s hret => ?_
  refine (check_completes hret).then fun _ s _ => ?_
  have hlen := hcfg.tableLen sizeofRtssUpdImageEntry (by decide) (by decide)
  refine (exchange_completes (getBlInfo_sends _ hlen 0 u.sVa hpVa) hs).then
    fun hs s ⟨r, hr, hhs, hinfo⟩ => ?_
  subst hhs
  obtain rfl := hinfo rfl
  obtain ⟨hvalid, hreported, -⟩ := hr.bootInfo rfl
  rw [← (afterRead_bootinfo hs hr.verified).2] at hreported
  replace hvalid := gptsValid_afterRead hs hr.verified hvalid
  replace hfresh := afterRead_fresh hfresh r
  generalize hs.afterRead r = hs at hvalid hreported hfresh
  have hsome : ¬ (u.pVa = null ∨ hs.numImagesBoot = 0) :=
    not_or.mpr ⟨hpVa, fun hzero => by simp [hzero] at hreported⟩
  have hread : (cooperation gpt).Keeps (fun r _ => r.1 = exitSuccess ∧
      ∀ k < hs.numImagesBoot.toNat, (r.2 k).Passes)
      (rtssUpdaterGetBlInfoContext hs.updImgEntryType u.pVa hs.numImagesBoot) .bootInfo := by
    refine .guard (fun hnone => absurd hnone hsome) fun _ => ?_
    refine (readEntries_keeps _ 0 _).then fun entries _ h => ⟨rfl, fun k hk => ?_⟩
    exact h k (by rwa [Nat.zero_add]) fun hneg => absurd hneg (Nat.not_lt_zero k)
  refine (Completes.lift hread).then fun (ret, entries) s ⟨hret, hentries⟩ => ?_
  refine (check_completes hret).then fun _ s _ => ?_
  obtain ⟨hs', hstatus, haccepted⟩ := validateBootInfo_passes
    { hs with updImgEntryType := entries } hfresh hvalid hreported hentries
  refine Completes.then (Q := fun hs'' _ => hs'' = hs') ⟨hs', hstatus, rfl⟩ fun _ s h => ?_
  subst h
  exact (check_completes haccepted).then fun _ s _ => .pure trivial

theorem mset_keeps (dst : Nat) (len : UInt32) :
    (cooperation gpt).Keeps (fun _ _ => True) (rtssUpdaterMset dst len) s :=
  .guard (fun _ => trivial) fun _ => ⟨trivial, fun _ _ => trivial⟩

theorem readMetadata_completes {hs : Handshake} (hfresh : hs.Fresh) :
    (cooperation gpt).Completes (fun hs' _ => hs'.Fresh) (readMetadata u hs) s := by
  refine (exchange_completes (sendWords_sends _ _) hs).then fun _ s ⟨r, _, hhs, _⟩ => ?_
  subst hhs
  refine (Completes.lift (mset_keeps _ _)).then fun _ s _ => ?_
  refine (exchange_completes (sendWords_sends _ _) _).mono fun _ s ⟨r', _, hhs, _⟩ => ?_
  subst hhs
  exact afterRead_fresh (afterRead_fresh hfresh r) r'

/-- A load that fails has a length that is not zero, too. -/
theorem loadfile_keeps (path : CString) (dst : Nat) :
    (cooperation gpt).Keeps (fun ret _ => UInt32.ofInt ret ≠ 0)
      (rtssUpdaterLoadfile path dst rtssUpdGetCacheLineSz.toNat) s := by
  have hfail : UInt32.ofInt (-1) ≠ 0 := by decide
  refine .guard (fun _ => hfail) fun _ => ⟨trivial, fun found hfound => ?_⟩
  cases found with
  | none => exact hfail
  | some file =>
      obtain ⟨mode, fsize⟩ := file
      obtain ⟨hpos, hsmall⟩ : 0 < fsize ∧ fsize + 63 < 4294967296 := hfound _ rfl
      have hsize : ∀ n < 64, UInt32.ofInt (int32 (fsize + n)) ≠ 0 := by
        intro n hn hzero
        have hlen := congrArg UInt32.toNat hzero
        rw [ofInt_int32, UInt32.toNat_ofNat', UInt32.toNat_zero] at hlen
        omega
      have hline : rtssUpdGetCacheLineSz.toNat = 64 := rfl
      refine .guard (fun _ => hfail) fun _ => ⟨trivial, fun (fd : Int) _ => ?_⟩
      refine .guard (fun _ => hfail) fun _ => ⟨trivial, fun bytes _ => ?_⟩
      cases bytes with
      | none => exact ⟨trivial, fun _ _ => hfail⟩
      | some bytes =>
          refine ⟨trivial, fun _ _ => .guard (fun _ => ⟨trivial, fun _ _ => hfail⟩) fun _ =>
            .guard (fun _ => ?_) fun _ => ⟨trivial, fun _ _ => hsize 0 (by decide)⟩⟩
          refine ⟨trivial, fun _ _ => ⟨trivial, fun _ _ => ⟨trivial, fun _ _ => hsize _ ?_⟩⟩⟩
          rw [hline]
          split
          · omega
          · omega

theorem flashFile_completes (hpVa : u.pVa ≠ null) (path imageNm : CString)
    (partition flashtype : UInt32) (hs : Handshake) :
    (cooperation gpt).Completes (fun _ _ => True)
      (flashFile u path imageNm partition flashtype hs) s := by
  refine (Completes.lift (loadfile_keeps path u.pVa)).then fun ret s hlen => ?_
  refine .guard (fun hzero => absurd (UInt32.le_zero_iff.mp hzero) hlen) fun _ => ?_
  exact (exchange_completes (flashimg_sends imageNm 0 partition u.sVa hlen 0 flashtype hpVa)
    hs).mono fun _ _ _ => trivial

theorem flashPaths_completes (hpVa : u.pVa ≠ null) (cfg : ImgConfig)
    (partition flashtype : UInt32) (images : List Nat) (hs : Handshake) :
    (cooperation gpt).Completes (fun _ _ => True)
      (flashPaths u cfg partition flashtype images hs) s := by
  induction images generalizing hs s with
  | nil => exact .pure trivial
  | cons imgcur rest ih =>
      exact (flashFile_completes hpVa _ _ partition flashtype hs).then fun hs s _ => ih hs

theorem forBanks_completes {flash : UInt32 → Handshake → Sequence Handshake}
    (hflash : ∀ bank hs s, (cooperation gpt).Completes (fun _ _ => True) (flash bank hs) s)
    (banks : List Nat) (hs : Handshake) :
    (cooperation gpt).Completes (fun _ _ => True) (forBanks flash banks hs) s := by
  induction banks generalizing hs s with
  | nil => exact .pure trivial
  | cons bank rest ih => exact (hflash _ hs s).then fun hs s _ => ih hs

/-- The buffer that a response names has a length, so that it can be flashed. -/
theorem mirrorImages_completes (hpVa : u.pVa ≠ null) (cfg : ImgConfig) (images : List Nat)
    (hs : Handshake) :
    (cooperation gpt).Completes (fun _ _ => True) (mirrorImages u cfg images hs) s := by
  induction images generalizing hs s with
  | nil => exact .pure trivial
  | cons imgcur rest ih =>
      refine (exchange_completes (sealAndSend_sends _ _) hs).then fun _ s ⟨r, hr, hhs, _⟩ => ?_
      subst hhs
      have hlen : (hs.afterRead r).rbtflsbufLen ≠ 0 := by
        rw [afterRead_readLen, if_pos hr.verified]
        exact hr.readLen rfl
      refine (exchange_completes (flashimg_sends _ 0 1 _ hlen _ 1 hpVa) _).then fun hs s _ => ?_
      exact ih hs

/-- The rounded size of a good response is a length. -/
theorem alignnum_ne_zero {size : UInt32} (h : Roundable size) :
    rtssUpdaterAlignnum 1 16 size ≠ 0 := by
  intro hzero
  have hlen := congrArg UInt32.toNat hzero
  obtain ⟨hpos, hsmall⟩ := h
  rw [alignnum_toNat, UInt32.toNat_zero, UInt32.toNat_one] at hlen
  omega

theorem readGptFile_reads (heap : Mem) (hne : gpt ≠ []) (fuel : Nat) :
    (cooperation gpt).Keeps (fun r _ => r = some (bufferedGpt heap gpt))
      (readGptFile gpt.length (fuel + 1) 0 heap) s := by
  refine ⟨trivial, fun bytes hbytes => ?_⟩
  obtain ⟨bytes, hle⟩ := bytes
  obtain rfl : bytes = gpt := hbytes rfl
  refine .guard (fun hempty => absurd (List.eq_nil_of_length_eq_zero hempty) hne) fun _ => ?_
  refine .guard (fun hshort => absurd hshort (Nat.lt_irrefl _)) fun _ => ?_
  rfl

theorem modifygpt_completes (heap : Mem) (hne : gpt ≠ []) (gfile : CString) (gptHdr : Mem) :
    (cooperation gpt).Completes
      (fun r _ => r = (modifyHeader (bufferedGpt heap gpt) gptHdr, gpt.length))
      (OptionT.mk (rtssUpdaterModifygptAt heap gfile gptHdr)) s := by
  have hdone : ∀ b : Bool, b = true → ¬ (!b) = true := by
    rintro _ rfl
    exact Bool.false_ne_true
  change (cooperation gpt).Keeps _ (rtssUpdaterModifygptAt heap gfile gptHdr) s
  refine ⟨trivial, fun (found : Bool) hfound => ?_⟩
  refine .guard (fun hnot => absurd hnot (hdone found hfound)) fun _ => ?_
  refine ⟨trivial, fun (opened : Bool) hopened => ?_⟩
  refine .guard (fun hnot => absurd hnot (hdone opened hopened)) fun _ => ?_
  refine ⟨trivial, fun (told : Nat × Int) htold => ?_⟩
  obtain ⟨hsize, herrno⟩ : told.1 = gpt.length ∧ told.2 = 0 := Prod.ext_iff.mp htold
  refine .guard (fun hbad => absurd herrno hbad) fun _ => ?_
  rw [hsize]
  refine ⟨trivial, fun (allocated : Bool) hallocated => ?_⟩
  refine .guard (fun hnot => absurd hnot (hdone allocated hallocated)) fun _ => ?_
  refine (readGptFile_reads heap hne gpt.length).then fun r s hr => ?_
  subst hr
  exact ⟨trivial, fun _ _ => ⟨_, rfl, rfl⟩⟩

theorem writegpt_sends {bufGpt : Mem} {bufLen : UInt32} (haccepted : ¬ GptRefused bufGpt bufLen)
    (hentries : entriesBytes bufGpt ≠ 0) (hlen : writtenLen bufLen ≠ 0) (gptId : UInt8)
    (sVa : UInt32) {pVa : Nat} (hpVa : pVa ≠ null) :
    Sends gpt rtssUpdMsgWriteGpt
      (rtssUpdaterWritegpt u gptId (some bufGpt) sVa bufLen 0 pVa) := by
  intro s
  refine .guard (fun hnull => absurd hnull hpVa) fun _ => ?_
  refine .guard (fun hrefused => absurd hrefused haccepted) fun _ => ?_
  refine ⟨trivial, fun _ _ => ⟨trivial, fun _ _ => ?_⟩⟩
  refine .guard (fun hempty => absurd hempty hentries) fun _ => ?_
  exact collectCrc_sends hlen (fun _ => sendWords_sends _ _) _

theorem status_completes {seq : Sequence Unit}
    (h : (cooperation gpt).Completes (fun _ _ => True) seq s) :
    (cooperation gpt).Keeps (fun ret _ => ret = exitSuccess) (Sequence.status seq) s := by
  refine Keeps.then h fun r s hr => ?_
  obtain ⟨_, rfl, -⟩ := hr
  rfl

end Parts

/-! The sequences. -/

/-- What a sequence asks of the globals, and of the GPT file in its buffer. -/
def SequenceId.Ready (u : Updater) (heap : Mem) (gpt : List UInt8) : SequenceId → Prop
  | .preboot | .postboot => u.imgParseInf.Listed
  | .flasher =>
      (selectBanks u.partition).isSome ∧
        (u.skipConfigFile = 1 → u.imgPath ≠ [] ∧ u.imgIdentifier ≠ [])
  | .gptUpdate => gpt ≠ [] ∧ ¬ GptUnsent heap gpt

section Sequences
variable {heap : Mem} {gpt : List UInt8} {u : Updater} {s : Exchanged} (hpVa : u.pVa ≠ null)
variable {hs : Handshake} (hfresh : hs.Fresh)
include hpVa hfresh

theorem preboot_completes (h : u.imgParseInf.Listed) :
    (cooperation gpt).Keeps (fun ret _ => ret = exitSuccess)
      (rtssUpdaterPrebootDemosequence u hs) s := by
  refine status_completes ?_
  refine (exchange_completes (sendWords_sends _ _) hs).then fun _ s ⟨r, _, hhs, _⟩ => ?_
  subst hhs
  refine (readMetadata_completes (afterRead_fresh hfresh r)).then fun hs s hfresh => ?_
  refine (checkBootInfo_completes h hpVa hfresh).then fun hs s _ => ?_
  refine (flashPaths_completes hpVa _ _ _ _ hs).then fun hs s _ => ?_
  refine (Completes.lift (populateContext_keeps h _ hpVa)).then fun ret s hret => ?_
  refine (check_completes hret).then fun _ s _ => ?_
  have hlen := h.tableLen sizeofRtssUpdUpdateGptEntry (by decide) (by decide)
  refine (exchange_completes (updategpt_sends hlen 0 u.sVa _ 0 hpVa) hs).then fun hs s _ => ?_
  refine .guard (fun _ => ?_) fun _ => .pure trivial
  exact Completes.lift (Keeps.perform (M := cooperation gpt) trivial fun _ _ => trivial)

theorem postboot_completes (h : u.imgParseInf.Listed) :
    (cooperation gpt).Keeps (fun ret _ => ret = exitSuccess)
      (rtssUpdaterPostbootDemosequence u hs) s := by
  refine status_completes ?_
  refine (exchange_completes (sendWords_sends _ _) hs).then fun _ s ⟨r, _, hhs, _⟩ => ?_
  subst hhs
  refine .guard (fun _ => .pure trivial) fun _ => ?_
  refine (checkBootInfo_completes h hpVa (afterRead_fresh hfresh r)).then fun hs s _ => ?_
  refine (exchange_completes (sendWords_sends _ _) hs).then fun hs s _ => ?_
  refine (mirrorImages_completes hpVa _ _ hs).then fun hs s _ => ?_
  refine (exchange_completes (sealAndSend_sends _ _) hs).then fun hs s _ => ?_
  refine (exchange_completes (sendWords_sends _ _) hs).then fun hs s _ => ?_
  refine (exchange_completes (sendWords_sends _ _) hs).then fun _ s ⟨r, hr, hhs, _⟩ => ?_
  subst hhs
  have hsize : Roundable (hs.afterRead r).metadatapartitionsz := by
    rw [afterRead_metadata, if_pos hr.verified]
    exact hr.metadataSize rfl
  refine (exchange_completes (setMetadata_sends u.sVa (alignnum_ne_zero hsize) 0 hpVa) _).then
    fun hs s _ => ?_
  exact (exchange_completes (sendWords_sends _ _) hs).then fun _ _ _ => .pure trivial

theorem flasher_completes (hbanks : (selectBanks u.partition).isSome)
    (hpath : u.skipConfigFile = 1 → u.imgPath ≠ [] ∧ u.imgIdentifier ≠ []) :
    (cooperation gpt).Keeps (fun ret _ => ret = exitSuccess) (rtssUpdaterDevprogFlasher u hs)
      s := by
  obtain ⟨banks, hselected⟩ := Option.isSome_iff_exists.mp hbanks
  refine status_completes ?_
  refine (exchange_completes (sendWords_sends _ _) hs).then fun _ s ⟨r, _, hhs, _⟩ => ?_
  subst hhs
  refine (readMetadata_completes (afterRead_fresh hfresh r)).then fun hs s hfresh => ?_
  refine (checkBootInfo_completes (.default _) hpVa hfresh).then fun hs s _ => ?_
  refine Completes.then (Q := fun b _ => b = banks) ⟨banks, hselected, rfl⟩ fun b s hb => ?_
  subst hb
  refine .guard (fun hskip => ?_) fun _ => ?_
  · obtain ⟨hpath, hidentifier⟩ := hpath hskip
    refine .guard (fun hempty => absurd hempty (not_or.mpr ⟨hpath, hidentifier⟩)) fun _ => ?_
    exact (forBanks_completes (fun _ hs s => flashFile_completes hpVa _ _ _ _ hs) _ hs).then
      fun _ _ _ => .pure trivial
  · have hread : (cooperation gpt).Completes (fun _ _ => True)
        (OptionT.mk (rtssUpdaterGetImgParseInfo u.otaCfgPath)) s := by
      refine ⟨trivial, fun (cfg : Option ImgConfig) (hcfg : cfg.isSome = true) => ?_⟩
      obtain ⟨cfg, rfl⟩ := Option.isSome_iff_exists.mp hcfg
      exact ⟨cfg, rfl, trivial⟩
    refine hread.then fun cfg s _ => ?_
    exact (forBanks_completes (fun _ hs s => flashPaths_completes hpVa _ _ _ _ hs) _ hs).then
      fun _ _ _ => .pure trivial

omit hfresh in
theorem imageUpdateGpt_completes (hne : gpt ≠ []) (h : ¬ GptUnsent heap gpt) :
    (cooperation gpt).Keeps (fun ret _ => ret = exitSuccess)
      (rtssUpdaterImageUpdateGptAt heap u hs) s := by
  obtain ⟨haccepted, hrest⟩ := not_or.mp h
  obtain ⟨hentries, hlen⟩ := not_or.mp hrest
  refine status_completes ?_
  refine (exchange_completes (sendWords_sends _ _) hs).then fun _ s ⟨r, hr, hhs, _⟩ => ?_
  subst hhs
  have hsize : Roundable (hs.afterRead r).chkGptPrimSize := by
    rw [afterRead_gpt, if_pos hr.verified]
    exact hr.gptSize rfl
  refine (Completes.lift (mset_keeps _ _)).then fun _ s _ => ?_
  refine (exchange_completes (readgpt_sends 0 u.sVa (alignnum_ne_zero hsize) hpVa) _).then
    fun hs s _ => ?_
  have hgpthdr : (cooperation gpt).Keeps (fun r _ => r.1 = exitSuccess)
      (rtssUpdaterGetGpthdr u.pVa hs.gpthdr) s :=
    .guard (fun hnull => absurd hnull hpVa) fun _ => ⟨trivial, fun _ _ => rfl⟩
  refine (Completes.lift hgpthdr).then fun (ret, gpthdr) s hret => ?_
  refine (check_completes hret).then fun _ s _ => ?_
  refine (modifygpt_completes heap hne _ gpthdr).then fun _ s hfile => ?_
  subst hfile
  refine (Completes.lift (mset_keeps _ _)).then fun _ s _ => ?_
  refine (exchange_completes (writegpt_sends
    (fun hrefused => haccepted ((gptRefused_modifyHeader _ gpthdr _).mp hrefused))
    (fun hempty => hentries ((entriesBytes_modifyHeader _ gpthdr).symm.trans hempty))
    hlen 0 u.sVa hpVa) _).then fun hs s _ => ?_
  exact (exchange_completes (sealAndSend_sends _ _) hs).then fun _ _ _ => .pure trivial

theorem sequence_completes {id : SequenceId} (h : id.Ready u heap gpt) :
    (cooperation gpt).Keeps (fun ret _ => ret = exitSuccess) (id.progAt heap u hs) s := by
  cases id with
  | preboot => exact preboot_completes hpVa hfresh h
  | postboot => exact postboot_completes hpVa hfresh h
  | flasher => exact flasher_completes hpVa hfresh h.1 h.2
  | gptUpdate => exact imageUpdateGpt_completes hpVa h.1 h.2

end Sequences

/-- The RTSS reports no more images than there are entries. -/
theorem cooperation_few (gpt : List UInt8) :
    ReportsFew (cooperation gpt) fun _ _ => True where
  steady := {
    offline := fun _ _ _ _ _ => ⟨trivial, fun _ _ => trivial⟩
    exchange := fun _ _ _ _ _ _ _ _ =>
      Keeps.mono (fun _ _ _ _ _ => trivial) (keeps_of_allows (fun _ _ => trivial) _ _) }
  bootInfo u hs cmd s hcmd _ := by
    refine exchange_passes (R := fun s => s = .sent rtssUpdMsgGetBootinfo) ?_ ?_
    · refine hcmd.keeps (P := fun _ => True) (fun _ _ _ _ => ⟨trivial, fun _ _ => trivial⟩)
        (fun o msg s hmsg hkind _ => ⟨trivial, fun r _ => ?_⟩) trivial
      cases o with
      | mbWrite _ _ _ =>
          cases hmsg
          exact congrArg Exchanged.sent hkind
      | _ => cases hmsg
    · rintro _ rfl
      refine ⟨trivial, fun (r : Int × Mem) (hr : GoodResponse rtssUpdMsgGetBootinfo r) _ => ?_⟩
      rw [(afterRead_bootinfo hs hr.verified).2]
      exact (hr.bootInfo rfl).2.2

/-! What the command line and the configuration make sure of. -/

theorem selectBanks_isSome {partition : UInt32} (h : partition ≤ 1) :
    (selectBanks partition).isSome := by
  have hcases : partition = 0 ∨ partition = 1 := by
    simp only [← UInt32.toNat_inj, UInt32.le_iff_toNat_le, UInt32.toNat_zero,
      UInt32.toNat_one] at h ⊢
    omega
  obtain rfl | rfl := hcases
  · rfl
  · rfl

theorem getoptStep_banks {args args' : RtssUpdaterArgopt}
    {p : RtssUpdaterOption × Option CString} (h : (selectBanks args.partition).isSome)
    (hstep : getoptStep args p = some args') : (selectBanks args'.partition).isSome := by
  obtain ⟨option, optarg⟩ := p
  cases option with
  | help | unknown => cases hstep
  | ackstate | rstskip =>
      cases hstep
      exact h
  | restart | partition | configfile | gptUpdate | elfFilePath | imageIdentifier | kpiconfig =>
      cases optarg with
      | none => cases hstep
      | some s =>
          simp only [getoptStep, Option.bind_eq_bind, Option.bind_some] at hstep
          split at hstep
          · cases hstep
          · next hgood =>
              cases hstep
              first | exact h | exact selectBanks_isSome (UInt32.not_lt.mp hgood)

/-- A command line that is accepted selects banks. -/
theorem parsed_banks {args args' : RtssUpdaterArgopt} {argc : Nat}
    {found : List (RtssUpdaterOption × Option CString)}
    (hparsed : rtssUpdaterGetoptParser args argc found = some args') :
    (selectBanks args'.partition).isSome := by
  have hall : ∀ args : RtssUpdaterArgopt, (selectBanks args.partition).isSome →
      found.foldlM getoptStep args = some args' → (selectBanks args'.partition).isSome := by
    clear hparsed
    intro args h hfound
    induction found generalizing args with
    | nil =>
        cases hfound
        exact h
    | cons p found ih =>
        rw [List.foldlM_cons] at hfound
        obtain ⟨args₁, hstep, hrest⟩ := Option.bind_eq_some_iff.mp hfound
        exact ih args₁ (getoptStep_banks h hstep) hrest
  unfold rtssUpdaterGetoptParser at hparsed
  dsimp only at hparsed
  split at hparsed
  · cases hparsed
  · exact hall _ rfl hparsed

/-- The sequence that `main` picks finds what it asks for. -/
theorem sequence_ready {args args' : RtssUpdaterArgopt} {argc : Nat}
    {found : List (RtssUpdaterOption × Option CString)}
    (hparsed : rtssUpdaterGetoptParser args argc found = some args') {cfg : ImgConfig}
    (hcfg : args'.SkipsConfig ∨ cfg.Parsed) {id : SequenceId} (hid : args'.sequence = some id)
    {heap : Mem} {gpt : List UInt8} (hgpt : id = .gptUpdate → gpt ≠ [] ∧ ¬ GptUnsent heap gpt)
    (hpath : id = .flasher → args'.skipConfigFile = 1 →
      args'.imgPath.string ≠ [] ∧ args'.identifier ≠ []) (mem : UpdaterMemory) :
    id.Ready (args'.updater (mem.updater cfg)) heap gpt := by
  have hrestart : id = .preboot ∨ id = .postboot → cfg.Listed := by
    intro hboot
    refine (hcfg.resolve_left ?_).listed
    unfold RtssUpdaterArgopt.sequence at hid
    rintro (⟨htwo, -⟩ | ⟨hgpt, -⟩)
    · split_ifs at hid with hne hzero hone
      · cases hid
        exact hboot.elim (fun h => by cases h) fun h => by cases h
      · exact absurd (htwo.symm.trans hzero) (by decide)
      · exact absurd (htwo.symm.trans hone) (by decide)
      · cases hid
        exact hboot.elim (fun h => by cases h) fun h => by cases h
    · rw [if_pos hgpt] at hid
      cases hid
      exact hboot.elim (fun h => by cases h) fun h => by cases h
  cases id with
  | preboot => exact hrestart (.inl rfl)
  | postboot => exact hrestart (.inr rfl)
  | flasher => exact ⟨parsed_banks hparsed, hpath rfl⟩
  | gptUpdate => exact hgpt rfl

/-! An RTSS that answers every message with the same body. -/

theorem bodyWord_sampleResponse (msgId status : UInt32) {words : List UInt32} {i : Nat}
    {w : UInt32} (hw : words[i]? = some w) :
    bodyWord (sampleResponse msgId status words) i = w := by
  have hbehind : ∀ a, a + 4 ≤ RtssUpdMsgHeader.body →
      RangeDisjoint (RtssUpdMsgHeader.body + 4 * i) 4 a 4 := fun a ha => .inr (by omega)
  rw [bodyWord, sampleResponse, load32_store32_disjoint _ _ _ _ (hbehind _ (by decide)),
    load32_store32_disjoint _ _ _ _ (hbehind _ (by decide))]
  refine Eq.trans ?_ (load32_storeWords zeroed RtssUpdMsgHeader.body i words w hw)
  exact congrArg ofLe32 (loadBytes_storeWords_disjoint _ _ _ _ _ (.inr (Nat.le_add_right _ _)))

def cooperativeResponse (msgId : UInt32) : Mem := sampleResponse msgId 0 (List.replicate 12 1)

theorem goodResponse_cooperative (msgId : UInt32) :
    GoodResponse msgId ((sizeofRtssUpdMsgHeader : Int), cooperativeResponse msgId) := by
  have hone : ∀ i < 12, bodyWord (cooperativeResponse msgId) i = 1 := fun i hi =>
    bodyWord_sampleResponse msgId 0 (List.getElem?_replicate_of_lt hi)
  have hsize : Roundable 1 := ⟨by decide, by decide⟩
  exact {
    verified := verifiedAs_sampleResponse msgId 0 _
    status := status_sampleResponse msgId 0 _
    gptSize := fun _ => by rwa [hone 2 (by decide)]
    metadataSize := fun _ => by rwa [hone 0 (by decide)]
    bootInfo := fun _ => by
      rw [reportedImages, hone 6 (by decide)]
      exact ⟨⟨hone 0 (by decide), hone 1 (by decide), hone 3 (by decide), hone 4 (by decide)⟩,
        Nat.one_pos, by decide⟩
    readLen := fun _ => by
      rw [hone 11 (by decide)]
      decide }

def cooperativeAnswer (gpt : List UInt8) (s : Exchanged) : (o : UpdSig.Op) → UpdSig.Res o
  | .mbWrite _ _ sz => (sz : Int)
  | .mbRead _ _ _ =>
      match s with
      | .sent msgId => ((sizeofRtssUpdMsgHeader : Int), cooperativeResponse msgId)
      | _ => ((0 : Int), zeroed)
  | .otaLoad _ _ => fun _ => (0 : UInt8)
  | .cfgfileRead _ => some ImgConfig.none
  | .stat _ => none
  | .open _ => (-1 : Int)
  | .pread _ _ => none
  | .access _ | .fopen _ | .calloc _ => true
  | .ftell => (gpt.length, (0 : Int))
  | .fread count => ⟨gpt.take count, List.length_take_le _ _⟩
  | .otaStore _ _ | .close _ | .free | .fclose | .reboot => ()

theorem cooperates_answer (gpt : List UInt8) (s : Exchanged) (o : UpdSig.Op) :
    (cooperation gpt).assumes s ⟨o, cooperativeAnswer gpt s o⟩ := by
  cases o with
  | mbWrite _ _ _ => rfl
  | mbRead _ _ _ =>
      cases s with
      | sent msgId => exact goodResponse_cooperative msgId
      | nothing | bootInfo => trivial
  | otaLoad _ len =>
      cases s with
      | nothing | sent _ => trivial
      | bootInfo =>
          have hzero : (fun p => (List.ofFn fun _ : Fin len => (0 : UInt8)).getD p 0) = zeroed := by
            funext p
            rw [List.getD_eq_getElem?_getD, List.getElem?_ofFn]
            split
            · rfl
            · rfl
          refine .inl ?_
          change load32 (fun p => (List.ofFn fun _ : Fin len => (0 : UInt8)).getD p 0) 32 = 0
          rw [hzero]
          rfl
  | stat _ => exact fun _ hfile => absurd hfile (Option.not_mem_none _)
  | ftell => rfl
  | fread count => exact fun hcount => hcount ▸ List.take_length
  | cfgfileRead _ | access _ | fopen _ | calloc _ => rfl
  | _ => trivial

/-- The configuration that one line makes. -/
def oneImageConfig : ImgConfig :=
  (rtssUpdaterCfgfileRead (some (cString "SAIL_HYP /a\n")) .none rtssUpdaterSupportedImgNames
    rtssUpdaterCfgMaxImages).2

def prebootOptions : List (RtssUpdaterOption × Option CString) :=
  [(.restart, some (cString "0")), (.configfile, some (cString "/var/otacfg"))]

def prebootArgs : RtssUpdaterArgopt := (rtssUpdaterGetoptParser .zero 5 prebootOptions).getD .zero

def mappedMemory : UpdaterMemory :=
  ⟨.blank, .blank, ⟨65536, 0x90E00000, 4096⟩, rtssOtaCtx⟩

end RtssMailbox
