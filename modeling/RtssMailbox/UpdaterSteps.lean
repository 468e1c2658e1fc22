import RtssMailbox.ImageMessages
import RtssMailbox.Library.Monitor
import RtssMailbox.UpdaterSequences

/-!
The steps of the update sequences, for any monitor: what a command sends, what the wait
after it makes of the handshake state, and which operations the helpers perform.
-/
namespace RtssMailbox
open Effects ByteMemory Monitoring Monitor

def sentMessage : UpdOp → Option Mem
  | .mbWrite _ buf _ => some buf
  | _ => none

def received : Event UpdSig → Option (Int × Mem)
  | ⟨.mbRead _ _ _, r⟩ => some r
  | _ => none

def CrcVerifies (rxMsg : Mem) : Prop :=
  rtssUpdVerifyCrc32 (load32 rxMsg RtssUpdMsgHeader.headerCrc)
    (loadBytes (store32 rxMsg RtssUpdMsgHeader.headerCrc 0) 0 sizeofRtssUpdMsgHeader) = rtssUpdEOk

instance (rxMsg : Mem) : Decidable (CrcVerifies rxMsg) := inferInstanceAs (Decidable (_ = _))

/-- A message of this kind is received whole and verifies. -/
def VerifiedAs (msgId : UInt32) (r : Int × Mem) : Prop :=
  r.1 = sizeofRtssUpdMsgHeader ∧ CrcVerifies r.2 ∧ load32 r.2 RtssUpdMsgHeader.msgId = msgId

instance (msgId : UInt32) (r : Int × Mem) : Decidable (VerifiedAs msgId r) :=
  inferInstanceAs (Decidable (_ ∧ _))

section Responses
variable (msgId status : UInt32) (words : List UInt32)

theorem headerCrc_rtssUpdMsg (body : Mem) :
    load32 (rtssUpdMsg msgId body) RtssUpdMsgHeader.headerCrc = 0 :=
  load32_storeWords body RtssUpdMsgHeader.headerCrc 0 _ 0 rfl

theorem status_sampleResponse :
    load32 (sampleResponse msgId status words) RtssUpdMsgHeader.status = status := by
  rw [sampleResponse, load32_store32_disjoint _ _ _ _ (Or.inr (by decide)), load32_store32_same]

theorem msgId_sampleResponse :
    load32 (sampleResponse msgId status words) RtssUpdMsgHeader.msgId = msgId := by
  rw [sampleResponse, load32_store32_disjoint _ _ _ _ (Or.inr (by decide)),
    load32_store32_disjoint _ _ _ _ (Or.inl (by decide)), msgId_rtssUpdMsg]

/-- The CRC of a response verifies. -/
theorem crcVerifies_sampleResponse : CrcVerifies (sampleResponse msgId status words) := by
  have hzero : ∀ m : Mem, load32 m RtssUpdMsgHeader.headerCrc = 0 →
      store32 m RtssUpdMsgHeader.headerCrc 0 = m := by
    intro m hm
    rw [← hm, store32_load32]
  have hsome : ∀ m : Mem,
      (rtssUpdCalculateCrc32 (loadBytes m 0 sizeofRtssUpdMsgHeader)).isSome :=
    fun m => rtssUpdCalculateCrc32_isSome nofun
  unfold CrcVerifies sampleResponse
  rw [load32_store32_same, store32_store32_same, hzero]
  · rw [rtssUpdVerifyCrc32_iff, ← Option.some_get (hsome _)]
    rfl
  · rw [load32_store32_disjoint _ _ _ _ (Or.inl (by decide)), headerCrc_rtssUpdMsg]

theorem verifiedAs_sampleResponse :
    VerifiedAs msgId ((sizeofRtssUpdMsgHeader : Int), sampleResponse msgId status words) :=
  ⟨rfl, crcVerifies_sampleResponse _ _ _, msgId_sampleResponse _ _ _⟩

end Responses
/-- What the handler makes of the outcome of its read. -/
def Handshake.afterRead (hs : Handshake) (r : Int × Mem) : Handshake :=
  if r.1 = sizeofRtssUpdMsgHeader then
    let hs := { hs with
      respStatus := load32 r.2 RtssUpdMsgHeader.status
      msgId := load32 r.2 RtssUpdMsgHeader.msgId }
    if CrcVerifies r.2 then hs.record r.2 else hs
  else
    hs

/-- The read that a wait makes. -/
def waitRead (u : Updater) : UpdSig.Op := .mbRead u.rxClientData zeroed sizeofRtssUpdMsgHeader

/-- The CRC's place is not looked at. -/
theorem record_headerCrc (hs : Handshake) (rxMsg : Mem) (crc : UInt32) :
    hs.record (store32 rxMsg RtssUpdMsgHeader.headerCrc crc) = hs.record rxMsg := by
  have hword : ∀ a, 4 ≤ a →
      load32 (store32 rxMsg RtssUpdMsgHeader.headerCrc crc) a = load32 rxMsg a :=
    fun a ha => load32_store32_disjoint _ _ _ _ (Or.inr (by
      simp only [RtssUpdMsgHeader.headerCrc]
      omega))
  have hbody : ∀ i, bodyWord (store32 rxMsg RtssUpdMsgHeader.headerCrc crc) i = bodyWord rxMsg i :=
    fun i => hword _ (by simp only [RtssUpdMsgHeader.body]; omega)
  simp only [Handshake.record, hbody, hword RtssUpdMsgHeader.msgId (by decide)]

theorem handler_eq (u : Updater) (hs : Handshake) :
    rtssUpdaterCbkNotifyHandler u hs =
      Prog.op (S := UpdSig) (waitRead u) fun r => .ret (hs.afterRead r) := by
  refine congrArg (Prog.op (S := UpdSig) (waitRead u)) (funext fun (ret, rxMsg) => ?_)
  by_cases hwhole : ret = sizeofRtssUpdMsgHeader
  · subst hwhole
    have hgood : ¬ ((sizeofRtssUpdMsgHeader : Int) ≤ 0 ∨
      (sizeofRtssUpdMsgHeader : Int) ≠ sizeofRtssUpdMsgHeader) := by decide
    simp only [Prog.bind, if_neg hgood, Handshake.afterRead, record_headerCrc]
    by_cases hcrc : CrcVerifies rxMsg
    · rw [if_pos hcrc]
      exact if_neg (not_not.mpr hcrc)
    · rw [if_neg hcrc]
      exact if_pos hcrc
  · have hbad : ret ≤ 0 ∨ ret ≠ sizeofRtssUpdMsgHeader := Or.inr hwhole
    simp only [Prog.bind, if_pos hbad, Handshake.afterRead, if_neg hwhole]
    rfl

@[simp] theorem record_respStatus (hs : Handshake) (rxMsg : Mem) :
    (hs.record rxMsg).respStatus = hs.respStatus := by
  simp only [Handshake.record]
  split_ifs <;> rfl

/-- The status after a wait is that of a whole message, verified or not. -/
theorem afterRead_respStatus (hs : Handshake) (r : Int × Mem) :
    (hs.afterRead r).respStatus =
      if r.1 = sizeofRtssUpdMsgHeader then load32 r.2 RtssUpdMsgHeader.status
      else hs.respStatus := by
  simp only [Handshake.afterRead]
  split
  · split
    · rw [record_respStatus]
    · rfl
  · rfl

theorem record_header (hs : Handshake) (status msgId : UInt32) (rxMsg : Mem) :
    { hs with respStatus := status, msgId := msgId }.record rxMsg =
      { hs.record rxMsg with respStatus := status, msgId := msgId } := by
  simp only [Handshake.record]
  split_ifs <;> rfl

/-- What a wait makes of a field, other than the two that are taken from every message. -/
theorem afterRead_field {α : Type} (field : Handshake → α)
    (hheader : ∀ hs status msgId,
      field { hs with respStatus := status, msgId := msgId } = field hs)
    (hs : Handshake) (r : Int × Mem) :
    field (hs.afterRead r) =
      if r.1 = sizeofRtssUpdMsgHeader ∧ CrcVerifies r.2 then field (hs.record r.2)
      else field hs := by
  by_cases hverified : r.1 = sizeofRtssUpdMsgHeader ∧ CrcVerifies r.2
  · rw [if_pos hverified, ← hheader (hs.record r.2) _ _, ← record_header, Handshake.afterRead,
      if_pos hverified.1]
    exact congrArg field (if_pos hverified.2)
  · rw [if_neg hverified, Handshake.afterRead]
    split
    · next hwhole =>
        refine Eq.trans ?_ (hheader hs (load32 r.2 RtssUpdMsgHeader.status)
          (load32 r.2 RtssUpdMsgHeader.msgId))
        exact congrArg field (if_neg fun hcrc => hverified ⟨hwhole, hcrc⟩)
    · rfl

/-- A field that is taken from the messages of one kind. -/
theorem afterRead_taken {α : Type} (field : Handshake → α) (value : Mem → α) {msgId : UInt32}
    (hheader : ∀ hs status msgId,
      field { hs with respStatus := status, msgId := msgId } = field hs)
    (hrecord : ∀ hs rxMsg, field (hs.record rxMsg) =
      if load32 rxMsg RtssUpdMsgHeader.msgId = msgId then value rxMsg else field hs)
    (hs : Handshake) (r : Int × Mem) :
    field (hs.afterRead r) = if VerifiedAs msgId r then value r.2 else field hs := by
  rw [afterRead_field field hheader, hrecord]
  by_cases hkind : VerifiedAs msgId r
  · rw [if_pos hkind, if_pos ⟨hkind.1, hkind.2.1⟩, if_pos hkind.2.2]
  · rw [if_neg hkind]
    split_ifs with hverified hid
    · exact absurd ⟨hverified.1, hverified.2, hid⟩ hkind
    · rfl
    · rfl

theorem exitFailure_ne_exitSuccess : exitFailure ≠ exitSuccess := by decide

/-! What a command performs: operations of one kind, and then the message. -/

/-- The program performs operations of the kind `C` and then sends one message of the kind
`sends`, or fails. -/
def Issues (C : UpdSig.Op → Prop) (sends : Mem → Prop) : Prog UpdSig UInt32 → Prop
  | .ret a => a ≠ exitSuccess
  | .op o k => (C o ∧ ∀ r, Issues C sends (k r)) ∨
      (∃ msg ∈ sentMessage o, sends msg) ∧ ∀ r, ∃ a, k r = .ret a

namespace Issues
variable {C : UpdSig.Op → Prop} {sends : Mem → Prop}

theorem failure : Issues C sends (.ret exitFailure) := exitFailure_ne_exitSuccess

theorem mono {C' : UpdSig.Op → Prop} {p : Prog UpdSig UInt32} (hp : Issues C sends p)
    (hC : ∀ o, C o → C' o) : Issues C' sends p := by
  induction p with
  | ret a => exact hp
  | op o k ih =>
      cases hp with
      | inl h => exact .inl ⟨hC o h.1, fun r => ih r (h.2 r)⟩
      | inr h => exact .inr h

/-- What is known of every message of the kind is known of the one that is sent. -/
theorem imp {sends' : Mem → Prop} {p : Prog UpdSig UInt32} (hp : Issues C sends p)
    (hsends : ∀ msg, sends msg → sends' msg) : Issues C sends' p := by
  induction p with
  | ret a => exact hp
  | op o k ih =>
      cases hp with
      | inl h => exact .inl ⟨h.1, fun r => ih r (h.2 r)⟩
      | inr h =>
          obtain ⟨⟨msg, hmsg, hkind⟩, hrest⟩ := h
          exact .inr ⟨⟨msg, hmsg, hsends msg hkind⟩, hrest⟩

theorem bind {α : Type} {p : Prog UpdSig α} {f : α → Prog UpdSig UInt32} (hp : Only C p)
    (hf : ∀ a, Issues C sends (f a)) : Issues C sends (p >>= f) := by
  induction p with
  | ret a => exact hf a
  | op o k ih => exact .inl ⟨hp.1, fun r => ih r (hp.2 r)⟩

theorem guard {c : Prop} [Decidable c] {p q : Prog UpdSig UInt32} (hp : Issues C sends p)
    (hq : Issues C sends q) : Issues C sends (if c then p else q) := by
  split
  · exact hp
  · exact hq

theorem sealed (u : Updater) {msg : Mem}
    (hsends : ∀ crc, sends (store32 msg RtssUpdMsgHeader.headerCrc crc)) :
    Issues C sends (sealAndSend u msg) := by
  unfold sealAndSend
  cases rtssUpdCalculateCrc32 (loadBytes msg 0 sizeofRtssUpdMsgHeader) with
  | none => exact .failure
  | some crc =>
      refine .inr ⟨⟨_, rfl, hsends crc⟩, fun (ret : Int) => ?_⟩
      by_cases hbad : ret ≤ 0 ∨ ret ≠ sizeofRtssUpdMsgHeader
      · exact ⟨exitFailure, by simp only [Prog.bind, if_pos hbad]; rfl⟩
      · exact ⟨exitSuccess, by simp only [Prog.bind, if_neg hbad]; rfl⟩

/-- For a monitor: the operations of the kind keep what holds before the message, and the
message is allowed and establishes what holds after it. -/
theorem keeps {σ : Type} {M : Monitor UpdSig σ} {P R : σ → Prop} {p : Prog UpdSig UInt32} {s : σ}
    (hp : Issues C sends p)
    (hC : ∀ o s, C o → P s → M.allows s o ∧ ∀ r, M.assumes s ⟨o, r⟩ → P (M.next s ⟨o, r⟩))
    (hsend : ∀ o msg s, msg ∈ sentMessage o → sends msg → P s →
      M.allows s o ∧ ∀ r, M.assumes s ⟨o, r⟩ → R (M.next s ⟨o, r⟩))
    (hs : P s) : M.Keeps (fun ret s' => ret = exitSuccess → R s') p s := by
  induction p generalizing s with
  | ret a => exact fun hret => absurd hret hp
  | op o k ih =>
      cases hp with
      | inl h =>
          obtain ⟨hallows, hnext⟩ := hC o s h.1 hs
          exact ⟨hallows, fun r hr => ih r (h.2 r) (hnext r hr)⟩
      | inr h =>
          obtain ⟨⟨msg, hmsg, hkind⟩, hrest⟩ := h
          obtain ⟨hallows, hnext⟩ := hsend o msg s hmsg hkind hs
          refine ⟨hallows, fun r hr => ?_⟩
          obtain ⟨a, ha⟩ := hrest r
          rw [ha]
          exact fun _ => hnext r hr

end Issues

def OfKind (msgId : UInt32) (msg : Mem) : Prop := load32 msg RtssUpdMsgHeader.msgId = msgId

instance (msgId : UInt32) (msg : Mem) : Decidable (OfKind msgId msg) :=
  inferInstanceAs (Decidable (_ = _))

theorem OfKind.other {msgId msgId' : UInt32} {msg : Mem} (h : OfKind msgId msg)
    (hne : msgId ≠ msgId') : ¬ OfKind msgId' msg :=
  fun h' => hne (h.symm.trans h')

theorem ofKind_sealed (msgId : UInt32) (body : Mem) (crc : UInt32) :
    OfKind msgId (store32 (rtssUpdMsg msgId body) RtssUpdMsgHeader.headerCrc crc) := by
  rw [OfKind, load32_store32_disjoint _ _ _ _ (Or.inr (by decide)), msgId_rtssUpdMsg]

theorem bodyWord_sealed (msgId : UInt32) (body : Mem) (crc : UInt32) :
    bodyWord (store32 (rtssUpdMsg msgId body) RtssUpdMsgHeader.headerCrc crc) = bodyWord body :=
  funext fun _ => load32_sealed _ _ _ _ (Nat.le_add_right _ _)

theorem bodyWord_storeWords {words : List UInt32} {i : Nat} {w : UInt32}
    (hw : words[i]? = some w) :
    bodyWord (storeWords zeroed RtssUpdMsgHeader.body words) i = w :=
  load32_storeWords zeroed _ i words w hw

def IsOtaLoad : UpdSig.Op → Prop
  | .otaLoad _ _ => True
  | _ => False

def IsOtaStore : UpdSig.Op → Prop
  | .otaStore _ _ => True
  | _ => False

/-- The operations that exchange no message. -/
def IsLocal : UpdSig.Op → Prop
  | .mbWrite _ _ _ | .mbRead _ _ _ => False
  | _ => True

theorem sentMessage_eq_none {o : UpdSig.Op} (ho : IsLocal o) : sentMessage o = none := by
  cases o with
  | mbWrite _ _ _ => exact ho.elim
  | _ => rfl

theorem IsOtaLoad.isLocal {o : UpdSig.Op} (h : IsOtaLoad o) : IsLocal o := by
  cases o <;> trivial

theorem IsOtaStore.isLocal {o : UpdSig.Op} (h : IsOtaStore o) : IsLocal o := by
  cases o <;> trivial

section Commands
variable (u : Updater)

theorem sendWords_issues {C : UpdSig.Op → Prop} (msgId : UInt32) (words : List UInt32) :
    Issues C (OfKind msgId) (sendWords u msgId words) :=
  .sealed u (ofKind_sealed msgId _)

theorem collectCrc_only (bufCrc bufLen : UInt32) : Only IsOtaLoad (collectCrc bufCrc bufLen) :=
  .guard (.ret _) (.bind (.bind (.perform trivial) fun _ => .ret _) fun _ => .ret _)

/-- A command that announces a buffer goes on with the CRC, if there is one. -/
theorem Issues.crc {C : UpdSig.Op → Prop} {sends : Mem → Prop} {bufCrc bufLen : UInt32}
    {f : Option UInt32 → Prog UpdSig UInt32} (hC : ∀ o, IsOtaLoad o → C o)
    (hnone : Issues C sends (f none)) (hsome : ∀ crc, Issues C sends (f (some crc))) :
    Issues C sends (collectCrc bufCrc bufLen >>= f) := by
  refine .bind ((collectCrc_only bufCrc bufLen).mono hC) fun r => ?_
  cases r with
  | none => exact hnone
  | some crc => exact hsome crc

theorem readgpt_issues (gptId sVa bufLen : UInt32) (pVa : Nat) :
    Issues IsOtaLoad (OfKind rtssUpdMsgReadGpt) (rtssUpdaterReadgpt u gptId sVa bufLen pVa) :=
  .guard .failure (.crc (fun _ => id) .failure fun _ => sendWords_issues u _ _)

theorem updategpt_issues (numImages gpt sVa bufLen bufCrc : UInt32) (pVa : Nat) :
    Issues IsOtaLoad (OfKind rtssUpdMsgUpdateGpt)
      (rtssUpdaterUpdategpt u numImages gpt sVa bufLen bufCrc pVa) :=
  .guard .failure (.crc (fun _ => id) .failure fun _ => sendWords_issues u _ _)

theorem setMetadata_issues (sVa bufLen bufCrc : UInt32) (pVa : Nat) :
    Issues IsOtaLoad (OfKind rtssUpdMsgSetOtaMetadata)
      (rtssUpdaterSetMetadata u sVa bufLen bufCrc pVa) :=
  .guard .failure (.crc (fun _ => id) .failure fun _ => sendWords_issues u _ _)

theorem getBlInfo_issues (numImages bufLen bufCrc sVa : UInt32) (pVa : Nat) :
    Issues IsOtaLoad (OfKind rtssUpdMsgGetBootinfo)
      (rtssUpdaterGetBlInfo u numImages bufLen bufCrc sVa pVa) :=
  .guard .failure (.crc (fun _ => id) .failure fun _ => sendWords_issues u _ _)

theorem readimg_issues {C : UpdSig.Op → Prop} (imageNm : CString)
    (partition gpt sVa bufLen : UInt32) :
    Issues C (OfKind rtssUpdMsgReadImage)
      (rtssUpdaterReadimg u (some imageNm) partition gpt sVa bufLen) :=
  .sealed u (ofKind_sealed _ _)

theorem flashimg_issues (imageNm : CString) (gpt partition sVa bufLen bufCrc flashtype : UInt32)
    (pVa : Nat) :
    Issues IsOtaLoad (OfKind rtssUpdMsgFlashImage)
      (rtssUpdaterFlashimg u (some imageNm) gpt partition sVa bufLen bufCrc flashtype pVa) :=
  .guard .failure (.crc (fun _ => id) .failure fun _ => .sealed u (ofKind_sealed _ _))

theorem writegpt_issues (gptId : UInt8) (bufGpt : Mem) (sVa bufLen bufCrc : UInt32) (pVa : Nat) :
    Issues IsLocal (OfKind rtssUpdMsgWriteGpt)
      (rtssUpdaterWritegpt u gptId (some bufGpt) sVa bufLen bufCrc pVa) := by
  refine .guard .failure (.guard .failure ?_)
  refine .bind (.perform trivial) fun _ => .bind (.perform trivial) fun _ => .guard .failure ?_
  exact .crc (fun _ => IsOtaLoad.isLocal) .failure fun _ => sendWords_issues u _ _

theorem fixgpt_issues {C : UpdSig.Op → Prop} (gptId sVa bufLen fixtype : UInt32) :
    Issues C (OfKind rtssUpdMsgFixGpt) (rtssUpdaterFixgpt u gptId sVa bufLen fixtype) :=
  .sealed u (ofKind_sealed _ _)

end Commands

/-! What the helpers perform. -/

theorem mset_only (dst : Nat) (len : UInt32) : Only IsOtaStore (rtssUpdaterMset dst len) :=
  .guard (.ret _) (.bind (.perform trivial) fun _ => .ret _)

theorem loadfile_only (path : CString) (dst alignment : Nat) :
    Only IsLocal (rtssUpdaterLoadfile path dst alignment) := by
  refine .guard (.ret _) (.bind (.perform trivial) fun found => ?_)
  cases found with
  | none => exact .ret _
  | some file =>
      refine .guard (.ret _) (.bind (.perform trivial) fun fd => .guard (.ret _) ?_)
      refine .bind (.perform trivial) fun bytes => ?_
      cases bytes with
      | none => exact .bind (.perform trivial) fun _ => .ret _
      | some bytes =>
          refine .bind (.perform trivial) fun _ => .guard ?_ (.guard ?_ ?_)
          · exact .bind (.perform trivial) fun _ => .ret _
          · refine .bind (.perform trivial) fun _ => .bind (.perform trivial) fun _ => ?_
            exact .bind (.perform trivial) fun _ => .ret _
          · exact .bind (.perform trivial) fun _ => .ret _

theorem populateNames_only (cfg : ImgConfig) (entrySize left i : Nat) :
    Only IsOtaStore (populateNames cfg entrySize left i) := by
  induction left generalizing i with
  | zero => exact .ret _
  | succ left ih => exact .guard (.ret _) (.bind (.perform trivial) fun _ => ih (i + 1))

theorem populateContext_only (cfg : ImgConfig) (entrySize pVa : Nat) :
    Only IsOtaStore (populateContext cfg entrySize pVa) :=
  .guard (.ret _) (.bind (.perform trivial) fun _ => populateNames_only cfg entrySize _ 0)

theorem otaLoad_only (offset len : Nat) : Only IsOtaLoad (Upd.otaLoad offset len) :=
  .bind (.perform trivial) fun _ => .ret _

theorem readEntries_only (left k : Nat) (entries : Nat → RtssUpdImageEntry) :
    Only IsOtaLoad (readEntries left k entries) := by
  induction left generalizing k entries with
  | zero => exact .ret _
  | succ left ih => exact .bind (otaLoad_only _ _) fun _ => ih _ _

theorem getBlInfoContext_only (entries : Nat → RtssUpdImageEntry) (pVa : Nat)
    (numberOfImages : UInt32) :
    Only IsOtaLoad (rtssUpdaterGetBlInfoContext entries pVa numberOfImages) :=
  .guard (.ret _) (.bind (readEntries_only _ _ _) fun _ => .ret _)

theorem getGpthdr_only (pVa : Nat) (gpthdr : Mem) :
    Only IsOtaLoad (rtssUpdaterGetGpthdr pVa gpthdr) :=
  .guard (.ret _) (.bind (otaLoad_only _ _) fun _ => .ret _)

theorem readGptFile_only (bufSize fuel numBytes : Nat) (bufGpt : Mem) :
    Only IsLocal (readGptFile bufSize fuel numBytes bufGpt) := by
  induction fuel generalizing numBytes bufGpt with
  | zero => exact .ret _
  | succ fuel ih =>
      exact .bind (.perform trivial) fun bytes => .guard (.ret _) (.guard (ih _ _) (.ret _))

theorem modifygpt_only (heap : Mem) (gfile : CString) (gptHdr : Mem) :
    Only IsLocal (rtssUpdaterModifygptAt heap gfile gptHdr) := by
  refine .bind (.perform trivial) fun found => .guard (.ret _) ?_
  refine .bind (.perform trivial) fun opened => .guard (.ret _) ?_
  refine .bind (.perform trivial) fun size => .guard ?_ ?_
  · exact .bind (.perform trivial) fun _ => .ret _
  · refine .bind (.perform trivial) fun allocated => .guard ?_ ?_
    · exact .bind (.perform trivial) fun _ => .ret _
    · refine .bind (readGptFile_only _ _ _ _) fun read => ?_
      cases read with
      | none =>
          exact .bind (.perform trivial) fun _ => .bind (.perform trivial) fun _ => .ret _
      | some bufGpt => exact .bind (.perform trivial) fun _ => .ret _

theorem getImgParseInfo_only (cfgfile : CString) :
    Only IsLocal (rtssUpdaterGetImgParseInfo cfgfile) := ⟨trivial, fun _ => trivial⟩

theorem reboot_only : Only IsLocal Upd.reboot := ⟨trivial, fun _ => trivial⟩

/-! The parts of a sequence. -/

section Parts
variable {σ α : Type} {M : Monitor UpdSig σ} {s : σ}

theorem check_passes {ret : UInt32} {Q : Unit → σ → Prop} (h : ret = exitSuccess → Q () s) :
    M.Passes Q (Sequence.check ret) s :=
  .guard (fun hret => .pure (h hret)) fun _ => .failure

theorem ofOption_passes {r : Option α} {Q : α → σ → Prop} (h : ∀ a ∈ r, Q a s) :
    M.Passes Q (Sequence.ofOption r) s := h

theorem lift_only_passes {C : UpdSig.Op → Prop} {P : σ → Prop} {p : Prog UpdSig α}
    (hp : Only C p)
    (hC : ∀ o s, C o → P s → M.allows s o ∧ ∀ r, M.assumes s ⟨o, r⟩ → P (M.next s ⟨o, r⟩))
    (hs : P s) : M.Passes (fun _ s' => P s') (Sequence.lift p) s :=
  .lift (hp.keeps hC hs)

/-- A command, and the wait after it. -/
theorem exchange_passes {u : Updater} {hs : Handshake} {cmd : Prog UpdSig UInt32} {R : σ → Prop}
    {Q : Handshake → σ → Prop} (hcmd : M.Keeps (fun ret s' => ret = exitSuccess → R s') cmd s)
    (hread : ∀ s', R s' → M.allows s' (waitRead u) ∧ ∀ r : Int × Mem,
      M.assumes s' ⟨waitRead u, r⟩ → (hs.afterRead r).respStatus = 0 →
        Q (hs.afterRead r) (M.next s' ⟨waitRead u, r⟩)) :
    M.Passes Q (Sequence.exchange u hs cmd) s := by
  rw [Monitor.Passes, Sequence.exchange_run]
  refine hcmd.then fun ret s' hsent => .guard (fun hret => ?_) fun _ => fun _ ha => nomatch ha
  rw [Sequence.response_run, handler_eq]
  obtain ⟨hallows, hnext⟩ := hread s' (hsent hret)
  refine ⟨hallows, fun r hr => .guard (fun _ => fun _ ha => nomatch ha) fun hstatus => ?_⟩
  rintro _ ⟨⟩
  exact hnext r hr (not_not.mp hstatus)

theorem status_keeps {seq : Sequence Unit} {R : σ → Prop} (h : M.Passes (fun _ s' => R s') seq s) :
    M.Keeps (fun ret s' => ret = exitSuccess → R s') (Sequence.status seq) s := by
  refine Keeps.then h fun r s' hr => ?_
  cases r with
  | none => exact fun hret => absurd hret exitFailure_ne_exitSuccess
  | some a => exact fun _ => hr a rfl

end Parts

/-- The handshake states differ at most in what the sequences put there themselves. -/
def SameResponses (hs hs' : Handshake) : Prop :=
  hs' = { hs with
    bootPartitionPass := hs'.bootPartitionPass
    bootPartitionFail := hs'.bootPartitionFail
    updImgEntryType := hs'.updImgEntryType
    gpthdr := hs'.gpthdr }

theorem SameResponses.trans {hs hs' hs'' : Handshake} (h : SameResponses hs hs')
    (h' : SameResponses hs' hs'') : SameResponses hs hs'' := by
  rw [SameResponses, h', h]

/-- The handshake states differ at most in the counts of the partitions. -/
def SameButCounts (hs hs' : Handshake) : Prop :=
  hs' = { hs with
    bootPartitionPass := hs'.bootPartitionPass
    bootPartitionFail := hs'.bootPartitionFail }

theorem SameButCounts.sameResponses {hs hs' : Handshake} (h : SameButCounts hs hs') :
    SameResponses hs hs' := by
  rw [h]
  rfl

theorem countPartition_sameButCounts {hs hs' : Handshake} {k : Nat}
    (h : hs' ∈ hs.countPartition k) : SameButCounts hs hs' := by
  simp only [Handshake.countPartition] at h
  split_ifs at h <;> cases h <;> rfl

theorem foldlM_sameButCounts {images : List Nat} {hs hs' : Handshake}
    (h : hs' ∈ images.foldlM Handshake.countPartition hs) : SameButCounts hs hs' := by
  induction images generalizing hs with
  | nil =>
      cases h
      rfl
  | cons k images ih =>
      obtain ⟨mid, hmid, hrest⟩ := Option.bind_eq_some_iff.mp h
      have hfirst := countPartition_sameButCounts hmid
      rw [SameButCounts, ih hrest, hfirst]

theorem partitionStatus_sameButCounts {hs hs' : Handshake}
    (h : hs' ∈ rtssUpdaterGetBlPartitionStatus hs) : SameButCounts hs hs' := by
  rw [rtssUpdaterGetBlPartitionStatus] at h
  split at h
  · cases h
  · exact foldlM_sameButCounts h

theorem partitionStatus_sameResponses {hs hs' : Handshake}
    (h : hs' ∈ rtssUpdaterGetBlPartitionStatus hs) : SameResponses hs hs' :=
  (partitionStatus_sameButCounts h).sameResponses

/-- The monitor lets a sequence keep `P` as long as its commands are of the kinds `K`. -/
structure Steady {σ : Type} (M : Monitor UpdSig σ) (P : Handshake → σ → Prop)
    (K : UInt32 → Prop) : Prop where
  offline : ∀ hs o s, IsLocal o → P hs s →
    M.allows s o ∧ ∀ r, M.assumes s ⟨o, r⟩ → P hs (M.next s ⟨o, r⟩)
  exchange : ∀ (u : Updater) (hs : Handshake) (msgId : UInt32) (cmd : Prog UpdSig UInt32) (s : σ),
    K msgId → Issues IsLocal (OfKind msgId) cmd → P hs s →
      M.Passes P (Sequence.exchange u hs cmd) s

namespace Steady
variable {σ α : Type} {M : Monitor UpdSig σ} {P : Handshake → σ → Prop} {K : UInt32 → Prop}

theorem lift (h : Steady M P K) {p : Prog UpdSig α} (hp : Only IsLocal p) {hs : Handshake}
    {s : σ} (hs' : P hs s) : M.Passes (fun _ s' => P hs s') (Sequence.lift p) s :=
  lift_only_passes hp (h.offline hs) hs'

variable (u : Updater) (cfg : ImgConfig)

theorem readMetadata (h : Steady M P K) (hinfo : K rtssUpdMsgGetOtaMetadatainfo)
    (hdata : K rtssUpdMsgGetOtaMetadata) (hs : Handshake) {s : σ} (hP : P hs s) :
    M.Passes P (RtssMailbox.readMetadata u hs) s := by
  refine (h.exchange u hs _ _ s hinfo (sendWords_issues u _ _) hP).then fun hs s hP => ?_
  refine (h.lift ((mset_only _ _).mono fun _ => IsOtaStore.isLocal) hP).then fun _ s hP => ?_
  exact h.exchange u hs _ _ s hdata (sendWords_issues u _ _) hP

theorem checkBootInfo (h : Steady M P K)
    (hframe : ∀ hs hs' s, SameResponses hs hs' → P hs s → P hs' s)
    (hinfo : K rtssUpdMsgGetBootinfo) (hs : Handshake) {s : σ} (hP : P hs s) :
    M.Passes P (RtssMailbox.checkBootInfo u cfg hs) s := by
  refine (h.lift ((populateContext_only _ _ _).mono fun _ => IsOtaStore.isLocal) hP).then
    fun ret s hP => ?_
  refine Passes.then (Q := fun _ s => P hs s) (check_passes fun _ => hP) fun _ s hP => ?_
  refine (h.exchange u hs _ _ s hinfo ((getBlInfo_issues u _ _ _ _ _).mono fun _ =>
    IsOtaLoad.isLocal) hP).then fun hs s hP => ?_
  refine (h.lift ((getBlInfoContext_only _ _ _).mono fun _ => IsOtaLoad.isLocal) hP).then
    fun (ret, entries) s hP => ?_
  refine Passes.then (Q := fun _ s => P hs s) (check_passes fun _ => hP) fun _ s hP => ?_
  refine Passes.then (Q := P) (ofOption_passes fun hs' hcounted => ?_) fun hs s hP => ?_
  · have hentries : SameResponses hs { hs with updImgEntryType := entries } := rfl
    exact hframe hs hs' s (hentries.trans (partitionStatus_sameResponses hcounted)) hP
  · exact Passes.then (Q := fun _ s => P hs s) (check_passes fun _ => hP) fun _ s hP => .pure hP

theorem flashFile (h : Steady M P K) (hflash : K rtssUpdMsgFlashImage) (path imageNm : CString)
    (partition flashtype : UInt32) (hs : Handshake) {s : σ} (hP : P hs s) :
    M.Passes P (RtssMailbox.flashFile u path imageNm partition flashtype hs) s := by
  refine (h.lift (loadfile_only _ _ _) hP).then fun ret s hP => .guard (fun _ => ?_) fun _ => ?_
  · exact .bind .failure
  · exact h.exchange u hs _ _ s hflash ((flashimg_issues u _ _ _ _ _ _ _ _).mono fun _ =>
      IsOtaLoad.isLocal) hP

end Steady

/-- The monitor asks something only of messages of this kind. -/
def AsksOf {σ : Type} (M : Monitor UpdSig σ) (msgId : UInt32) : Prop :=
  ∀ s o, (∀ msg ∈ sentMessage o, ¬ OfKind msgId msg) → M.allows s o

namespace AsksOf
variable {σ : Type} {M : Monitor UpdSig σ} {msgId : UInt32} {s : σ} {o : UpdSig.Op}

theorem unsent (h : AsksOf M msgId) (ho : sentMessage o = none) : M.allows s o := by
  refine h s o fun msg hmsg => ?_
  rw [ho] at hmsg
  cases hmsg

theorem other (h : AsksOf M msgId) {msgId' : UInt32} {msg : Mem} (hmsg : msg ∈ sentMessage o)
    (hkind : OfKind msgId' msg) (hne : msgId' ≠ msgId) : M.allows s o := by
  refine h s o fun msg' hmsg' => ?_
  cases Option.mem_unique hmsg hmsg'
  exact hkind.other hne

/-- Nothing is asked of an exchange of another kind. -/
theorem steady (h : AsksOf M msgId) : Steady M (fun _ _ => True) (· ≠ msgId) where
  offline _ _ _ ho _ := ⟨h.unsent (sentMessage_eq_none ho), fun _ _ => trivial⟩
  exchange _ _ _ _ _ hid hcmd hP :=
    exchange_passes (R := fun _ => True) (hcmd.keeps (P := fun _ => True)
      (fun _ _ ho _ => ⟨h.unsent (sentMessage_eq_none ho), fun _ _ => trivial⟩)
      (fun _ _ _ hmsg hkind _ => ⟨h.other hmsg hkind hid, fun _ _ => trivial⟩) hP)
      fun _ _ => ⟨h.unsent rfl, fun _ _ _ => trivial⟩

end AsksOf

section Loops
variable {σ : Type} {M : Monitor UpdSig σ} {P : Handshake → σ → Prop} {u : Updater}
variable {cfg : ImgConfig}

/-- What holds for every file holds for the loop over them. -/
theorem flashPaths_passes {partition flashtype : UInt32}
    (hflash : ∀ path imageNm hs s, P hs s →
      M.Passes P (flashFile u path imageNm partition flashtype hs) s)
    (images : List Nat) (hs : Handshake) {s : σ} (hP : P hs s) :
    M.Passes P (flashPaths u cfg partition flashtype images hs) s := by
  induction images generalizing hs s with
  | nil => exact .pure hP
  | cons imgcur rest ih => exact (hflash _ _ hs s hP).then fun hs s hP => ih hs hP

/-- What holds for every image that is read and flashed holds for the loop over them. -/
theorem mirrorImages_passes
    (hmirror : ∀ imageNm bufLen hs s, P hs s → M.Passes
      (fun hs => M.Passes P (Sequence.exchange u hs
        (rtssUpdaterFlashimg u (some imageNm) 0 1 hs.rbtflsbufAddr hs.rbtflsbufLen
          hs.rbtflsbufCrc 1 u.pVa)))
      (Sequence.exchange u hs (rtssUpdaterReadimg u (some imageNm) 0 0 u.sVa bufLen)) s)
    (images : List Nat) (hs : Handshake) {s : σ} (hP : P hs s) :
    M.Passes P (mirrorImages u cfg images hs) s := by
  induction images generalizing hs s with
  | nil => exact .pure hP
  | cons imgcur rest ih =>
      exact (hmirror _ _ hs s hP).then fun hs s hflash => hflash.then fun hs s hP => ih hs hP

/-- What holds for every bank holds for the loop over them. -/
theorem forBanks_passes {flash : UInt32 → Handshake → Sequence Handshake}
    (hflash : ∀ bank hs s, P hs s → M.Passes P (flash bank hs) s)
    (banks : List Nat) (hs : Handshake) {s : σ} (hP : P hs s) :
    M.Passes P (forBanks flash banks hs) s := by
  induction banks generalizing hs s with
  | nil => exact .pure hP
  | cons bank rest ih => exact (hflash _ hs s hP).then fun hs s hP => ih hs hP

end Loops

/-! The sequences, from what is known of their parts. -/

section Sequences
variable {σ : Type} {M : Monitor UpdSig σ} {P R : Handshake → σ → Prop} {K K' : UInt32 → Prop}
variable {u : Updater}

theorem preboot_keeps (h : Steady M P K) (h' : Steady M R K')
    (hK : K rtssUpdMsgCheckGpt ∧ K rtssUpdMsgGetOtaMetadatainfo ∧ K rtssUpdMsgGetOtaMetadata)
    (hboot : ∀ hs s, P hs s → M.Passes R (checkBootInfo u u.imgParseInf hs) s)
    (hflash : ∀ path imageNm hs s, R hs s → M.Passes R (flashFile u path imageNm 1 2 hs) s)
    (hupdate : K' rtssUpdMsgUpdateGpt) (hs : Handshake) {s : σ} (hP : P hs s) :
    M.Keeps (fun ret s' => ret = exitSuccess → ∃ hs, R hs s')
      (rtssUpdaterPrebootDemosequence u hs) s := by
  refine status_keeps ?_
  refine (h.exchange u hs _ _ s hK.1 (sendWords_issues u _ _) hP).then fun hs s hP => ?_
  refine (h.readMetadata u hK.2.1 hK.2.2 hs hP).then fun hs s hP => ?_
  refine (hboot hs s hP).then fun hs s hR => ?_
  refine (flashPaths_passes hflash _ hs hR).then fun hs s hR => ?_
  refine (h'.lift ((populateContext_only _ _ _).mono fun _ => IsOtaStore.isLocal) hR).then
    fun ret s hR => ?_
  refine Passes.then (Q := fun _ s => R hs s) (check_passes fun _ => hR) fun _ s hR => ?_
  refine (h'.exchange u hs _ _ s hupdate ((updategpt_issues u _ _ _ _ _ _).mono fun _ =>
    IsOtaLoad.isLocal) hR).then fun hs s hR => .mono (fun _ s hR => ⟨hs, hR⟩) ?_
  exact .guard (fun _ => h'.lift reboot_only hR) fun _ => .pure hR

theorem postboot_keeps (h : Steady M P K)
    (hframe : ∀ hs hs' s, SameResponses hs hs' → P hs s → P hs' s)
    (hK : ∀ msgId, msgId ≠ rtssUpdMsgFlashImage → K msgId)
    (hmirror : ∀ images hs s, P hs s → M.Passes P (mirrorImages u u.imgParseInf images hs) s)
    (hs : Handshake) {s : σ} (hP : P hs s) :
    M.Keeps (fun ret s' => ret = exitSuccess → ∃ hs, P hs s')
      (rtssUpdaterPostbootDemosequence u hs) s := by
  have hwords : ∀ (msgId : UInt32) words hs s, msgId ≠ rtssUpdMsgFlashImage → P hs s →
      M.Passes P (Sequence.exchange u hs (sendWords u msgId words)) s :=
    fun msgId words hs s hid hP => h.exchange u hs _ _ s (hK _ hid) (sendWords_issues u _ _) hP
  refine status_keeps ((hwords _ _ hs s (by decide) hP).then fun hs s hP => ?_)
  refine .guard (fun _ => .pure ⟨hs, hP⟩) fun _ => ?_
  refine (h.checkBootInfo u _ hframe (hK _ (by decide)) hs hP).then fun hs s hP => ?_
  refine (hwords _ _ hs s (by decide) hP).then fun hs s hP => ?_
  refine (hmirror _ hs s hP).then fun hs s hP => ?_
  refine (h.exchange u hs _ _ s (hK _ (by decide)) (fixgpt_issues u _ _ _ _) hP).then
    fun hs s hP => ?_
  refine (hwords _ _ hs s (by decide) hP).then fun hs s hP => ?_
  refine (hwords _ _ hs s (by decide) hP).then fun hs s hP => ?_
  refine (h.exchange u hs _ _ s (hK _ (by decide)) ((setMetadata_issues u _ _ _ _).mono fun _ =>
    IsOtaLoad.isLocal) hP).then fun hs s hP => ?_
  exact (hwords _ _ hs s (by decide) hP).then fun hs s hP => .pure ⟨hs, hP⟩

theorem flasher_keeps (h : Steady M P K)
    (hframe : ∀ hs hs' s, SameResponses hs hs' → P hs s → P hs' s)
    (hK : ∀ msgId, msgId ≠ rtssUpdMsgFlashImage → K msgId)
    (hflash : ∀ path imageNm bank hs s,
      (u.skipConfigFile = 1 → path = u.imgPath ∧ imageNm = u.imgIdentifier) → P hs s →
        M.Passes P (flashFile u path imageNm bank 1 hs) s)
    (hs : Handshake) {s : σ} (hP : P hs s) :
    M.Keeps (fun ret s' => ret = exitSuccess → ∃ hs, P hs s')
      (rtssUpdaterDevprogFlasher u hs) s := by
  refine status_keeps ?_
  refine (h.exchange u hs _ _ s (hK _ (by decide)) (sendWords_issues u _ _) hP).then
    fun hs s hP => ?_
  refine (h.readMetadata u (hK _ (by decide)) (hK _ (by decide)) hs hP).then fun hs s hP => ?_
  refine (h.checkBootInfo u _ hframe (hK _ (by decide)) hs hP).then fun hs s hP => ?_
  refine Passes.then (Q := fun _ s => P hs s) (ofOption_passes fun _ _ => hP)
    fun (startBank, partition) s hP => ?_
  have hsingle := fun bank hs s (hP : P hs s) =>
    hflash u.imgPath u.imgIdentifier bank hs s (fun _ => ⟨rfl, rfl⟩) hP
  refine .guard (fun _ => .guard (fun _ => ?_) fun _ => ?_) fun hconfig => ?_
  · exact .bind .failure
  · exact (forBanks_passes hsingle _ hs hP).then fun hs s hP => .pure ⟨hs, hP⟩
  · refine Passes.then (Q := fun _ s => P hs s) ?_ fun cfg s hP => ?_
    · exact .mk (Keeps.mono (fun _ s hP _ _ => hP)
        ((getImgParseInfo_only _).keeps (h.offline hs) hP))
    · exact (forBanks_passes (fun bank hs s hP =>
        flashPaths_passes (fun _ _ hs s hP => hflash _ _ _ hs s
          (fun hskip => absurd hskip hconfig) hP) _ hs hP) _ hs hP).then
          fun hs s hP => .pure ⟨hs, hP⟩

theorem imageUpdateGpt_keeps (h : Steady M P fun _ => True)
    (hframe : ∀ hs hs' s, SameResponses hs hs' → P hs s → P hs' s)
    (hs : Handshake) {s : σ} (hP : P hs s) :
    M.Keeps (fun ret s' => ret = exitSuccess → ∃ hs, P hs s') (rtssUpdaterImageUpdateGpt u hs)
      s := by
  refine status_keeps ?_
  refine (h.exchange u hs _ _ s trivial (sendWords_issues u _ _) hP).then fun hs s hP => ?_
  refine (h.lift ((mset_only _ _).mono fun _ => IsOtaStore.isLocal) hP).then fun _ s hP => ?_
  refine (h.exchange u hs _ _ s trivial ((readgpt_issues u _ _ _ _).mono fun _ =>
    IsOtaLoad.isLocal) hP).then fun hs s hP => ?_
  refine (h.lift ((getGpthdr_only _ _).mono fun _ => IsOtaLoad.isLocal) hP).then
    fun (ret, gpthdr) s hP => ?_
  refine Passes.then (Q := fun _ s => P { hs with gpthdr := gpthdr } s)
    (check_passes fun _ => hframe hs _ s rfl hP) fun _ s hP => ?_
  refine Passes.then (Q := fun _ s => P { hs with gpthdr := gpthdr } s) ?_
    fun (gptbuf, gptbufsz) s hP => ?_
  · exact .mk (Keeps.mono (fun _ s hP _ _ => hP) ((modifygpt_only _ _ _).keeps (h.offline _) hP))
  · refine (h.lift ((mset_only _ _).mono fun _ => IsOtaStore.isLocal) hP).then fun _ s hP => ?_
    refine (h.exchange u _ _ _ s trivial (writegpt_issues u _ _ _ _ _ _) hP).then
      fun hs s hP => ?_
    exact (h.exchange u hs _ _ s trivial (fixgpt_issues u _ _ _ _) hP).then
      fun hs s hP => .pure ⟨hs, hP⟩

end Sequences

/-! The sequences up to the boot information, and after it. -/

/-- The start of the preboot sequence and of the flasher. -/
def askBootInfo (u : Updater) (cfg : ImgConfig) (hs : Handshake) : Sequence Handshake := do
  let hs ← Sequence.exchange u hs (rtssUpdaterChkgpt u)
  let hs ← readMetadata u hs
  checkBootInfo u cfg hs

/-- What the preboot sequence does after the boot information. -/
def prebootUpdate (u : Updater) (hs : Handshake) : Sequence Unit := do
  let cfg := u.imgParseInf
  let hs ← flashPaths u cfg 1 2 (List.range cfg.numberOfPaths) hs
  let numImages := UInt32.ofNat cfg.numberOfImages
  let bufLen := numImages * UInt32.ofNat sizeofRtssUpdUpdateGptEntry + 0x6000
  Sequence.check (← Sequence.lift (rtssUpdaterPopulateGptUpdateContext cfg u.pVa))
  let _ ← Sequence.exchange u hs (rtssUpdaterUpdategpt u numImages 0 u.sVa bufLen 0 u.pVa)
  if u.rstskip = 0 then
    Sequence.lift Upd.reboot

/-- What the postboot sequence does after the boot information. -/
def postbootUpdate (u : Updater) (hs : Handshake) : Sequence Unit := do
  let cfg := u.imgParseInf
  let hs ← Sequence.exchange u hs (rtssUpdaterChkgpt u)
  let hs ← mirrorImages u cfg (List.range cfg.numberOfImages) hs
  let bufLen := rtssUpdaterAlignnum 2 16 hs.chkGptPrimSize
  let hs ← Sequence.exchange u hs (rtssUpdaterFixgpt u 0 u.sVa bufLen 1)
  let hs ← Sequence.exchange u hs (rtssUpdaterRedundancyEstablished u 0 0 0 0)
  let hs ← Sequence.exchange u hs (rtssUpdaterGetMetadataInfo u)
  let bufLen := rtssUpdaterAlignnum 1 16 hs.metadatapartitionsz
  let hs ← Sequence.exchange u hs (rtssUpdaterSetMetadata u u.sVa bufLen 0 u.pVa)
  let _ ← Sequence.exchange u hs (rtssUpdaterUpdateArb u 0 0 0 0)
  return ()

/-- What the flasher does after the boot information. -/
def flasherUpdate (u : Updater) (hs : Handshake) : Sequence Unit := do
  let (startBank, partition) ← Sequence.ofOption (selectBanks u.partition)
  let banks := List.range' startBank (partition - startBank)
  if u.skipConfigFile = 1 then
    if u.imgPath = [] ∨ u.imgIdentifier = [] then
      failure
    let _ ← forBanks (fun bank => flashFile u u.imgPath u.imgIdentifier bank 1) banks hs
    return ()
  else
    let cfg ← OptionT.mk (rtssUpdaterGetImgParseInfo u.otaCfgPath)
    let _ ← forBanks (fun bank => flashPaths u cfg bank 1 (List.range cfg.numberOfPaths))
      banks hs
    return ()

theorem preboot_parts (u : Updater) (hs : Handshake) :
    rtssUpdaterPrebootDemosequence u hs =
      Sequence.status (askBootInfo u u.imgParseInf hs >>= prebootUpdate u) := by
  simp only [askBootInfo, Prog.bindT_bindT]
  rfl

theorem flasher_parts (u : Updater) (hs : Handshake) :
    rtssUpdaterDevprogFlasher u hs = Sequence.status
      (askBootInfo u (rtssUpdaterGetImgInfoDefault u.imgParseInf) hs >>= flasherUpdate u) := by
  simp only [askBootInfo, Prog.bindT_bindT]
  rfl

/-! What the sequences may get to, for a monitor whose assumptions are about what is received. -/

section Ways
variable {σ : Type} {M : Monitor UpdSig σ} {u : Updater} {hs : Handshake} {s : σ}

theorem header_crc (msg : Mem) :
    (rtssUpdCalculateCrc32 (loadBytes msg 0 sizeofRtssUpdMsgHeader)).isSome :=
  rtssUpdCalculateCrc32_isSome nofun

/-- An image whose message is not allowed, when its bytes are zeros. -/
theorem flashimg_violates {P : σ → Prop} (hassumes : ∀ s e, received e = none → M.assumes s e)
    (hpVa : u.pVa ≠ null) (imageNm : CString) {bufLen : UInt32} (hlen : 0 < bufLen.toNat)
    (gpt partition flashtype : UInt32)
    (hload : ∀ s len r, P s → P (M.next s ⟨.otaLoad 0 len, r⟩))
    (hbad : ∀ s crc headerCrc, P s → ¬ M.allows s (.mbWrite u.txClientData
      (store32 (flashimgMsg imageNm gpt partition u.sVa bufLen crc flashtype)
        RtssUpdMsgHeader.headerCrc headerCrc) sizeofRtssUpdMsgHeader)) (hs : P s) :
    M.Violates (rtssUpdaterFlashimg u (some imageNm) gpt partition u.sVa bufLen 0 flashtype
      u.pVa) s := by
  have hcollect : M.May (fun r s' => r.isSome ∧ P s') (collectCrc 0 bufLen) s := by
    have hne : List.ofFn (fun _ : Fin bufLen.toNat => (0 : UInt8)) ≠ [] :=
      List.ne_nil_of_length_pos (by rw [List.length_ofFn]; exact hlen)
    exact ⟨fun _ : Fin bufLen.toNat => (0 : UInt8), hassumes s _ rfl,
      rtssUpdCalculateCrc32_isSome hne, hload _ _ _ hs⟩
  unfold rtssUpdaterFlashimg
  rw [if_neg hpVa]
  refine Violates.bind (hcollect.mono fun r s ⟨hr, hs⟩ => ?_)
  obtain ⟨crc, rfl⟩ := Option.isSome_iff_exists.mp hr
  obtain ⟨headerCrc, hcrc⟩ := Option.isSome_iff_exists.mp (header_crc
    (flashimgMsg imageNm gpt partition u.sVa bufLen crc flashtype))
  show M.Violates (sealAndSend u (flashimgMsg imageNm gpt partition u.sVa bufLen crc flashtype)) s
  unfold sealAndSend
  rw [hcrc]
  exact ⟨(0 : Int), hassumes s _ rfl, Or.inl (hbad s crc headerCrc hs)⟩

/-- A file that is missing: the length of the load is -1, as an unsigned number. -/
theorem missing_file_violates {P : σ → Prop} (hassumes : ∀ s e, received e = none → M.assumes s e)
    (hpVa : u.pVa ≠ null) (path imageNm : CString) (partition flashtype : UInt32)
    (hstat : ∀ s, P (M.next s ⟨.stat path, none⟩))
    (hload : ∀ s len r, P s → P (M.next s ⟨.otaLoad 0 len, r⟩))
    (hbad : ∀ s crc headerCrc, P s → ¬ M.allows s (.mbWrite u.txClientData
      (store32 (flashimgMsg imageNm 0 partition u.sVa 0xFFFFFFFF crc flashtype)
        RtssUpdMsgHeader.headerCrc headerCrc) sizeofRtssUpdMsgHeader)) :
    M.Violates (flashFile u path imageNm partition flashtype hs).run s := by
  have hmissing : M.May (fun r s' => r = some (-1 : Int) ∧ P s')
      (Sequence.lift (rtssUpdaterLoadfile path u.pVa rtssUpdGetCacheLineSz.toNat)).run s := by
    refine May.bind ?_
    unfold rtssUpdaterLoadfile
    rw [if_neg hpVa]
    exact ⟨(none : Option (UInt32 × Nat)), hassumes s _ rfl, rfl, hstat s⟩
  refine Violates.next (hmissing.mono fun r s ⟨hr, hs⟩ => ⟨-1, hr, ?_⟩)
  have hlen : UInt32.ofInt (-1) = 0xFFFFFFFF := by decide
  simp only [hlen]
  rw [if_neg (by decide), Sequence.exchange_run]
  exact Violates.first (flashimg_violates hassumes hpVa imageNm (by decide) 0 partition flashtype
    hload hbad hs)

end Ways

end RtssMailbox
