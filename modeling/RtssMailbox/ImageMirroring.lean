import RtssMailbox.ImageMessages
import RtssMailbox.UpdaterSteps

/-!
The loop that mirrors the images. What is flashed is taken from the handshake state,
where the response to the last request to read an image should have put it. A monitor
keeps the last request to read an image, until something else is sent.
-/
namespace RtssMailbox
open Effects ByteMemory Monitoring Monitor

def loaded : Event UpdSig → Option (List UInt8)
  | ⟨.otaLoad _ len, bytes⟩ => some (List.ofFn (n := len) bytes)
  | _ => none

/-- The message is whole, verifies, and is a response to a request to read this image. -/
def VerifiedRead (req : Mem) (r : Int × Mem) : Prop :=
  r.1 = sizeofRtssUpdMsgHeader ∧ CrcVerifies r.2 ∧
    load32 r.2 RtssUpdMsgHeader.msgId = rtssUpdMsgReadImage ∧ imgName r.2 = imgName req

instance (req : Mem) (r : Int × Mem) : Decidable (VerifiedRead req r) :=
  inferInstanceAs (Decidable (_ ∧ _))

/-- A successful response to the request is received, and it announces this buffer. -/
def AnswersRead (req : Mem) (buffer : UInt32 × UInt32 × UInt32) (e : Event UpdSig) : Prop :=
  ∃ r ∈ received e, VerifiedRead req r ∧ load32 r.2 RtssUpdMsgHeader.status = 0 ∧
    announced r.2 = buffer

instance (req : Mem) (buffer : UInt32 × UInt32 × UInt32) (e : Event UpdSig) :
    Decidable (AnswersRead req buffer e) :=
  inferInstanceAs (Decidable (∃ r ∈ received e, _))

/-- No read fails, and a message that reports success is the response. A CRC that is
computed from the OTA buffer is zero, as the one in the response is then. -/
def FaithfulRead (req : Mem) (e : Event UpdSig) : Prop :=
  (∀ r ∈ received e, r.1 = sizeofRtssUpdMsgHeader ∧
    (load32 r.2 RtssUpdMsgHeader.status = 0 → VerifiedRead req r)) ∧
  ∀ bytes ∈ loaded e, ∀ crc ∈ rtssUpdCalculateCrc32 bytes, crc = 0

instance (req : Mem) (e : Event UpdSig) : Decidable (FaithfulRead req e) :=
  inferInstanceAs (Decidable ((∀ r ∈ received e, _) ∧ ∀ bytes ∈ loaded e,
    ∀ crc ∈ rtssUpdCalculateCrc32 bytes, _))

/-- The request to read an image, with all that has happened since, if it is the last
message that was sent. -/
abbrev Mirror := Option (Mem × List (Event UpdSig))

def Mirror.next (s : Mirror) (e : Event UpdSig) : Mirror :=
  match sentMessage e.op with
  | some msg => if OfKind rtssUpdMsgReadImage msg then some (msg, []) else none
  | none => s.map fun x => (x.1, x.2 ++ [e])

/-- The request was for the image that the message names, and the buffer that the
message announces is the one of a response to it. -/
def Mirror.Justifies (s : Mirror) (msg : Mem) : Prop :=
  ∃ x ∈ s, imgName msg = imgName x.1 ∧ ∃ e ∈ x.2, AnswersRead x.1 (announced msg) e

instance (s : Mirror) (msg : Mem) : Decidable (s.Justifies msg) :=
  inferInstanceAs (Decidable (∃ x ∈ s, _))

/-- An image is only flashed as the response to the request to read it says; after such
a request, all that happens is assumed to be faithful. -/
def mirror : Monitor UpdSig Mirror where
  next := Mirror.next
  allows s o := ∀ msg ∈ sentMessage o, OfKind rtssUpdMsgFlashImage msg → s.Justifies msg
  assumes s e := ∀ x ∈ s, FaithfulRead x.1 e

instance (s : Mirror) (o : UpdSig.Op) : Decidable (mirror.allows s o) :=
  inferInstanceAs (Decidable (∀ msg ∈ sentMessage o, _))

instance (s : Mirror) (e : Event UpdSig) : Decidable (mirror.assumes s e) :=
  inferInstanceAs (Decidable (∀ x ∈ s, _))

/-- The last request was for this image, and the handshake state has the buffer of a
response to it. -/
def Mirror.Answered (imageNm : CString) (hs : Handshake) (s : Mirror) : Prop :=
  ∃ x ∈ s, loadBytes x.1 RtssUpdMsgHeader.imgName rtssUpdImgNameLen = imgNameField imageNm ∧
    ∃ e ∈ x.2, AnswersRead x.1 (hs.rbtflsbufAddr, hs.rbtflsbufLen, hs.rbtflsbufCrc) e

theorem Mirror.Answered.next {imageNm : CString} {hs : Handshake} {s : Mirror}
    (h : s.Answered imageNm hs) {e : Event UpdSig} (he : sentMessage e.op = none) :
    (Mirror.next s e).Answered imageNm hs := by
  obtain ⟨x, hx, hname, e', hmem, hanswers⟩ := h
  cases hx
  refine ⟨(x.1, x.2 ++ [e]), ?_, hname, e', List.mem_append_left [e] hmem, hanswers⟩
  simp only [Mirror.next, he, Option.map_some, Option.mem_def]

theorem imgName_congr {msg msg' : Mem}
    (h : loadBytes msg RtssUpdMsgHeader.imgName rtssUpdImgNameLen =
      loadBytes msg' RtssUpdMsgHeader.imgName rtssUpdImgNameLen) : imgName msg = imgName msg' := by
  simp only [imgName, h]

theorem mirror_asks : AsksOf mirror rtssUpdMsgFlashImage :=
  fun _ _ ho msg hmsg hflash => absurd hflash (ho msg hmsg)

/-- A successful wait after a request to read an image leaves the response's buffer in
the handshake state. -/
theorem readImage_passes (u : Updater) (hs : Handshake) (imageNm : CString)
    (partition gpt sVa bufLen : UInt32) (s : Mirror) :
    mirror.Passes (fun hs s => s.Answered imageNm hs) (Sequence.exchange u hs
      (rtssUpdaterReadimg u (some imageNm) partition gpt sVa bufLen)) s := by
  have hissues : Issues (fun _ => False) (fun msg => OfKind rtssUpdMsgReadImage msg ∧
      loadBytes msg RtssUpdMsgHeader.imgName rtssUpdImgNameLen = imgNameField imageNm)
      (rtssUpdaterReadimg u (some imageNm) partition gpt sVa bufLen) :=
    .sealed u fun crc => ⟨ofKind_sealed _ _ crc, readimgMsg_imgName imageNm _ _ _ _ crc⟩
  refine exchange_passes (R := fun s => ∃ req, s = some (req, []) ∧
    loadBytes req RtssUpdMsgHeader.imgName rtssUpdImgNameLen = imgNameField imageNm)
    (hissues.keeps (P := fun _ => True) (fun _ _ ho => ho.elim) ?_ trivial) ?_
  · intro o msg s hmsg hkind _
    refine ⟨fun msg' hmsg' hflash => ?_, fun r _ => ⟨msg, ?_, hkind.2⟩⟩
    · cases Option.mem_unique hmsg hmsg'
      exact absurd (hkind.1.symm.trans hflash) (by decide)
    · simp only [mirror, Mirror.next, Option.mem_def.mp hmsg, if_pos hkind.1]
  · rintro s ⟨req, rfl, hname⟩
    refine ⟨mirror_asks.unsent rfl, fun r hr hstatus => ?_⟩
    obtain ⟨hret, hresponse⟩ := (hr _ rfl).1 r rfl
    rw [afterRead_respStatus, if_pos hret] at hstatus
    have hverified := hresponse hstatus
    obtain ⟨-, hcrc, hid, -⟩ := hverified
    refine ⟨_, rfl, hname, _, List.mem_singleton_self _, r, rfl, hresponse hstatus, hstatus, ?_⟩
    simp only [Handshake.afterRead, if_pos hret, if_pos hcrc, Handshake.record, hid]
    rfl

theorem collectCrc_mirror (imageNm : CString) (hs : Handshake) {s : Mirror}
    (hs' : s.Answered imageNm hs) :
    mirror.Keeps (fun r s' => s'.Answered imageNm hs ∧ ∀ crc ∈ r, crc = hs.rbtflsbufCrc)
      (collectCrc hs.rbtflsbufCrc hs.rbtflsbufLen) s := by
  refine .guard (fun _ => ⟨hs', ?_⟩) fun hzero => ?_
  · rintro _ ⟨⟩
    rfl
  · refine ⟨mirror_asks.unsent rfl, fun r hr => ⟨hs'.next (e := ⟨_, r⟩) rfl, fun crc hcrc => ?_⟩⟩
    obtain ⟨x, hx, -⟩ := hs'
    rw [not_not.mp hzero]
    exact (hr x hx).2 _ rfl crc hcrc

theorem flashImage_passes (u : Updater) (imageNm : CString) (gpt partition flashtype : UInt32)
    (hs : Handshake) {s : Mirror} (hs' : s.Answered imageNm hs) :
    mirror.Passes (fun _ _ => True) (Sequence.exchange u hs
      (rtssUpdaterFlashimg u (some imageNm) gpt partition hs.rbtflsbufAddr hs.rbtflsbufLen
        hs.rbtflsbufCrc flashtype u.pVa)) s := by
  refine exchange_passes (R := fun _ => True) (.guard (fun _ => fun _ => trivial) fun _ =>
    (collectCrc_mirror imageNm hs hs').then fun r s hr => ?_)
    fun s _ => ⟨mirror_asks.unsent rfl, fun _ _ _ => trivial⟩
  cases r with
  | none => exact fun _ => trivial
  | some crc =>
      obtain ⟨⟨x, hx, hname, e, hmem, hanswers⟩, hcrc⟩ := hr
      have hissues : Issues (fun _ => False) (fun msg =>
          loadBytes msg RtssUpdMsgHeader.imgName rtssUpdImgNameLen = imgNameField imageNm ∧
          announced msg = (hs.rbtflsbufAddr, hs.rbtflsbufLen, hs.rbtflsbufCrc))
          (sealAndSend u (flashimgMsg imageNm gpt partition hs.rbtflsbufAddr hs.rbtflsbufLen
            crc flashtype)) := by
        refine .sealed u fun headerCrc => ⟨flashimgMsg_imgName imageNm _ _ _ _ _ _ headerCrc, ?_⟩
        rw [flashimgMsg_announced, hcrc crc rfl]
      refine hissues.keeps (P := (· = s)) (fun _ _ ho => ho.elim) ?_ rfl
      rintro o msg s hmsg ⟨hmsgName, hannounced⟩ rfl
      refine ⟨fun msg' hmsg' _ => ?_, fun _ _ => trivial⟩
      cases Option.mem_unique hmsg hmsg'
      rw [← hannounced] at hanswers
      exact ⟨x, hx, imgName_congr (hmsgName.trans hname.symm), e, hmem, hanswers⟩

/-- In every run whose requests to read an image are all faithfully answered, an image is
only flashed with the buffer of the response to the request before. -/
theorem mirroring_keeps_identity (u : Updater) (hs : Handshake) (t : List (Event UpdSig))
    (q : Prog UpdSig UInt32) (hruns : Runs (rtssUpdaterPostbootDemosequence u hs) t q)
    (hfaithful : mirror.Assumed none t) : mirror.Allowed none t := by
  refine (Keeps.runs hruns (postboot_keeps mirror_asks.steady (fun _ _ _ _ => id) (fun _ => id)
    ?_ hs trivial)
    hfaithful).1
  intro images hs s _
  refine mirrorImages_passes (fun imageNm bufLen hs s _ => ?_) images hs trivial
  exact (readImage_passes u hs imageNm 0 0 u.sVa bufLen s).mono fun hs s hanswered =>
    flashImage_passes u imageNm 0 1 1 hs hanswered

def Updater.samplePair : Updater :=
  { Updater.sample with
    imgParseInf := ⟨2, 2, fun i => if i = 0 then cString "SAIL_HYP" else cString "SAIL_SW1",
      fun _ => cString "/var/sailhyp.elf"⟩ }

def samplePairResponses : List (Mem × List UInt8) :=
  [(sampleResponse rtssUpdMsgOtaDone 0 [], []),
    (sampleResponse rtssUpdMsgGetBootinfo 0 [1, 1, 0, 1, 1, 0, 2], []),
    (sampleResponse rtssUpdMsgCheckGpt 0 [], []),
    (sampleResponse rtssUpdMsgReadImage 0
      [0x4C494153, 0x5059485F, 0, 0, 0, 0, 0, 0, 0, 0, 0x90E00000, 4096, 0xC0FFEE], []),
    (sampleResponse rtssUpdMsgFlashImage 0 [], [])]

theorem mirroring_keeps_identity_sample :
    let w := World.sample (samplePairResponses ++ [(sampleResponse rtssUpdMsgReadImage 1 [], [])])
    mirror.Allowed none
      (eventTrace World.step (rtssUpdaterPostbootDemosequence .samplePair .zero) w) :=
  mirroring_keeps_identity .samplePair .zero _ _ (runs_eventTrace World.step _ _)
    (by decide +kernel)

/-- When the response for the second image cannot be read, the second image is flashed
with the buffer of the first one. -/
theorem mirroring_loses_identity :
    ¬ ∀ t q, Runs (rtssUpdaterPostbootDemosequence .samplePair .zero) t q →
      mirror.Allowed none t := by
  intro h
  refine absurd (h _ _ (runs_eventTrace World.step _ (World.sample samplePairResponses))) ?_
  decide +kernel

end RtssMailbox
