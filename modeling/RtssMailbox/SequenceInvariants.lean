import RtssMailbox.Library.Layers
import RtssMailbox.UpdaterSteps

/-!
Conditions that the update sequences keep. Apart from the two helpers that open a file, a
sequence does nothing but exchange messages over its two channels, access the OTA buffer
and a few calls that hold nothing.
-/
namespace RtssMailbox
open Effects ByteMemory Monitoring Monitor

/-- The operations of a sequence outside of the two helpers that open a file. -/
def Plain (u : Updater) : UpdSig.Op → Prop
  | .mbWrite handle _ _ => handle = u.txClientData
  | .mbRead handle _ _ => handle = u.rxClientData
  | .otaLoad _ _ | .otaStore _ _ | .cfgfileRead _ | .reboot => True
  | _ => False

section Commands
variable {u : Updater}

theorem IsOtaLoad.plain {o : UpdSig.Op} (h : IsOtaLoad o) : Plain u o := by
  cases o with
  | otaLoad _ _ => trivial
  | _ => exact h.elim

theorem IsOtaStore.plain {o : UpdSig.Op} (h : IsOtaStore o) : Plain u o := by
  cases o with
  | otaStore _ _ => trivial
  | _ => exact h.elim

theorem sealAndSend_plain (msg : Mem) : Only (Plain u) (sealAndSend u msg) := by
  unfold sealAndSend
  cases rtssUpdCalculateCrc32 (loadBytes msg 0 sizeofRtssUpdMsgHeader) with
  | none => exact .ret _
  | some crc =>
      refine .bind (.bind (.perform rfl) fun (ret : Int) => .guard (.ret _) (.ret _)) fun ret => ?_
      exact .guard (.ret _) (.ret _)

theorem sendWords_plain (msgId : UInt32) (words : List UInt32) :
    Only (Plain u) (sendWords u msgId words) :=
  sealAndSend_plain _

/-- A command that takes the CRC of its buffer before it is sent. -/
theorem collectCrc_plain {bufCrc bufLen : UInt32} {f : Option UInt32 → Prog UpdSig UInt32}
    (hnone : Only (Plain u) (f none)) (hsome : ∀ crc, Only (Plain u) (f (some crc))) :
    Only (Plain u) (collectCrc bufCrc bufLen >>= f) := by
  refine .bind ((collectCrc_only bufCrc bufLen).mono fun _ => IsOtaLoad.plain) fun r => ?_
  cases r with
  | none => exact hnone
  | some crc => exact hsome crc

theorem readgpt_plain (gptId sVa bufLen : UInt32) (pVa : Nat) :
    Only (Plain u) (rtssUpdaterReadgpt u gptId sVa bufLen pVa) :=
  .guard (.ret _) (collectCrc_plain (.ret _) fun _ => sendWords_plain _ _)

theorem updategpt_plain (numImages gpt sVa bufLen bufCrc : UInt32) (pVa : Nat) :
    Only (Plain u) (rtssUpdaterUpdategpt u numImages gpt sVa bufLen bufCrc pVa) :=
  .guard (.ret _) (collectCrc_plain (.ret _) fun _ => sendWords_plain _ _)

theorem setMetadata_plain (sVa bufLen bufCrc : UInt32) (pVa : Nat) :
    Only (Plain u) (rtssUpdaterSetMetadata u sVa bufLen bufCrc pVa) :=
  .guard (.ret _) (collectCrc_plain (.ret _) fun _ => sendWords_plain _ _)

theorem getBlInfo_plain (numImages bufLen bufCrc sVa : UInt32) (pVa : Nat) :
    Only (Plain u) (rtssUpdaterGetBlInfo u numImages bufLen bufCrc sVa pVa) :=
  .guard (.ret _) (collectCrc_plain (.ret _) fun _ => sendWords_plain _ _)

theorem flashimg_plain (imageNm : CString) (gpt partition sVa bufLen bufCrc flashtype : UInt32)
    (pVa : Nat) :
    Only (Plain u)
      (rtssUpdaterFlashimg u (some imageNm) gpt partition sVa bufLen bufCrc flashtype pVa) :=
  .guard (.ret _) (collectCrc_plain (.ret _) fun _ => sealAndSend_plain _)

theorem writegpt_plain (gptId : UInt8) (bufGpt : Mem) (sVa bufLen bufCrc : UInt32) (pVa : Nat) :
    Only (Plain u) (rtssUpdaterWritegpt u gptId (some bufGpt) sVa bufLen bufCrc pVa) := by
  refine .guard (.ret _) (.guard (.ret _) (.bind (.perform trivial) fun _ => ?_))
  refine .bind (.perform trivial) fun _ => .guard (.ret _) ?_
  exact collectCrc_plain (.ret _) fun _ => sendWords_plain _ _

theorem exchange_plain (hs : Handshake) {cmd : Prog UpdSig UInt32} (hcmd : Only (Plain u) cmd) :
    Only (Plain u) (Sequence.exchange u hs cmd).run := by
  rw [Sequence.exchange_run]
  refine .bind hcmd fun ret => .guard ?_ (.ret _)
  rw [Sequence.response_run, handler_eq]
  exact ⟨rfl, fun r => .guard (.ret _) (.ret _)⟩

end Commands

/-- What a monitor has to let the operations of a sequence keep, but for the helper for the
GPT file. -/
structure Upholds {σ : Type} (M : Monitor UpdSig σ) (P : σ → Prop) (u : Updater) : Prop where
  plain : ∀ o s, Plain u o → P s →
    M.allows s o ∧ ∀ r, M.assumes s ⟨o, r⟩ → P (M.next s ⟨o, r⟩)
  loadfile : ∀ path,
    M.Preserves P (rtssUpdaterLoadfile path u.pVa rtssUpdGetCacheLineSz.toNat)

namespace Upholds
variable {σ : Type} {M : Monitor UpdSig σ} {P : σ → Prop} {u : Updater} (h : Upholds M P u)
include h

theorem only {α : Type} {p : Prog UpdSig α} (hp : Only (Plain u) p) : M.Preserves P p :=
  .only hp h.plain

theorem exchange (hs : Handshake) {cmd : Prog UpdSig UInt32} (hcmd : Only (Plain u) cmd) :
    M.Preserves P (Sequence.exchange u hs cmd).run :=
  h.only (exchange_plain hs hcmd)

theorem words (hs : Handshake) (msgId : UInt32) (words : List UInt32) :
    M.Preserves P (Sequence.exchange u hs (sendWords u msgId words)).run :=
  h.exchange hs (sendWords_plain msgId words)

theorem sealed (hs : Handshake) (msg : Mem) :
    M.Preserves P (Sequence.exchange u hs (sealAndSend u msg)).run :=
  h.exchange hs (sealAndSend_plain msg)

theorem stores {α : Type} {p : Prog UpdSig α} (hp : Only IsOtaStore p) :
    M.Preserves P (Sequence.lift p).run :=
  .lift (h.only (hp.mono fun _ => IsOtaStore.plain))

theorem loads {α : Type} {p : Prog UpdSig α} (hp : Only IsOtaLoad p) :
    M.Preserves P (Sequence.lift p).run :=
  .lift (h.only (hp.mono fun _ => IsOtaLoad.plain))

omit h in
theorem check (ret : UInt32) : M.Preserves P (Sequence.check ret).run :=
  .guard (fun _ => .pure ()) fun _ => .failure

theorem readMetadata (hs : Handshake) : M.Preserves P (RtssMailbox.readMetadata u hs).run := by
  refine .next (h.words hs _ _) fun hs => .next (h.stores (mset_only _ _)) fun _ => ?_
  exact h.words hs _ _

theorem checkBootInfo (cfg : ImgConfig) (hs : Handshake) :
    M.Preserves P (RtssMailbox.checkBootInfo u cfg hs).run := by
  refine .next (h.stores (populateContext_only _ _ _)) fun ret => .next (check ret) fun _ => ?_
  refine .next (h.exchange hs (getBlInfo_plain _ _ _ _ _)) fun hs => ?_
  refine .next (h.loads (getBlInfoContext_only _ _ _)) fun (ret, entries) => ?_
  refine .next (check ret) fun _ => .next (.ret _) fun hs => .next (check _) fun _ => ?_
  exact .pure hs

theorem flashFile (path imageNm : CString) (partition flashtype : UInt32) (hs : Handshake) :
    M.Preserves P (RtssMailbox.flashFile u path imageNm partition flashtype hs).run := by
  refine .next (.lift (h.loadfile path)) fun ret => .guard (fun _ => ?_) fun _ => ?_
  · exact .next .failure fun _ => h.exchange hs (flashimg_plain _ _ _ _ _ _ _ _)
  · exact h.exchange hs (flashimg_plain _ _ _ _ _ _ _ _)

theorem flashPaths (cfg : ImgConfig) (partition flashtype : UInt32) (images : List Nat)
    (hs : Handshake) :
    M.Preserves P (RtssMailbox.flashPaths u cfg partition flashtype images hs).run := by
  induction images generalizing hs with
  | nil => exact .pure hs
  | cons imgcur rest ih => exact .next (h.flashFile _ _ _ _ hs) fun hs => ih hs

theorem mirrorImages (cfg : ImgConfig) (images : List Nat) (hs : Handshake) :
    M.Preserves P (RtssMailbox.mirrorImages u cfg images hs).run := by
  induction images generalizing hs with
  | nil => exact .pure hs
  | cons imgcur rest ih =>
      refine .next (h.sealed hs _) fun hs => ?_
      exact .next (h.exchange hs (flashimg_plain _ _ _ _ _ _ _ _)) fun hs => ih hs

omit h in
theorem forBanks {flash : UInt32 → Handshake → Sequence Handshake}
    (hflash : ∀ bank hs, M.Preserves P (flash bank hs).run) (banks : List Nat) (hs : Handshake) :
    M.Preserves P (RtssMailbox.forBanks flash banks hs).run := by
  induction banks generalizing hs with
  | nil => exact .pure hs
  | cons bank rest ih => exact .next (hflash _ hs) fun hs => ih hs

omit h in
theorem status {seq : Sequence Unit} (hseq : M.Preserves P seq.run) :
    M.Preserves P (Sequence.status seq) := by
  refine hseq.bind fun r => ?_
  cases r with
  | none => exact .ret _
  | some _ => exact .ret _

theorem preboot (hs : Handshake) : M.Preserves P (rtssUpdaterPrebootDemosequence u hs) := by
  refine status (.next (h.words hs _ _) fun hs => .next (h.readMetadata hs) fun hs => ?_)
  refine .next (h.checkBootInfo _ hs) fun hs => .next (h.flashPaths _ _ _ _ hs) fun hs => ?_
  refine .next (h.stores (populateContext_only _ _ _)) fun ret => .next (check ret) fun _ => ?_
  refine .next (h.exchange hs (updategpt_plain _ _ _ _ _ _)) fun _ => .guard (fun _ => ?_)
    fun _ => .pure ()
  exact .lift (h.only (.perform trivial))

theorem postboot (hs : Handshake) : M.Preserves P (rtssUpdaterPostbootDemosequence u hs) := by
  refine status (.next (h.words hs _ _) fun hs => .guard (fun _ => .pure ()) fun _ => ?_)
  refine .next (h.checkBootInfo _ hs) fun hs => .next (h.words hs _ _) fun hs => ?_
  refine .next (h.mirrorImages _ _ hs) fun hs => .next (h.sealed hs _) fun hs => ?_
  refine .next (h.words hs _ _) fun hs => .next (h.words hs _ _) fun hs => ?_
  refine .next (h.exchange hs (setMetadata_plain _ _ _ _)) fun hs => ?_
  exact .next (h.words hs _ _) fun _ => .pure ()

theorem flasher (hs : Handshake) : M.Preserves P (rtssUpdaterDevprogFlasher u hs) := by
  refine status (.next (h.words hs _ _) fun hs => .next (h.readMetadata hs) fun hs => ?_)
  refine .next (h.checkBootInfo _ hs) fun hs => .next (.ret _) fun (startBank, partition) => ?_
  refine .guard (fun _ => .guard (fun _ => ?_) fun _ => ?_) fun _ => .next ?_ fun cfg => ?_
  · exact .next .failure fun _ => .next (forBanks (fun _ hs => h.flashFile _ _ _ _ hs) _ hs)
      fun _ => .pure ()
  · exact .next (forBanks (fun _ hs => h.flashFile _ _ _ _ hs) _ hs) fun _ => .pure ()
  · exact h.only (.perform trivial)
  · exact .next (forBanks (fun _ hs => h.flashPaths _ _ _ _ hs) _ hs) fun _ => .pure ()

/-- Of what another condition is that the helper for the GPT file leads to, the GPT update
ends with the one or the other. -/
theorem imageUpdateGpt {P' : σ → Prop} (h' : Upholds M P' u)
    (hmodify : ∀ gfile gptHdr s, P s →
      M.Keeps (fun r s' => r.elim (P s') fun _ => P' s') (rtssUpdaterModifygpt gfile gptHdr) s)
    (hs : Handshake) {s : σ} (hP : P s) :
    M.Keeps (fun _ s' => P s' ∨ P' s') (rtssUpdaterImageUpdateGpt u hs) s := by
  have hend : ∀ s, P s → P s ∨ P' s := fun _ => .inl
  refine Keeps.then (Q := fun _ s' => P s' ∨ P' s') ?_ fun r s' hs' => ?_
  · refine (h.words hs _ _).upTo hP hend fun hs s hP => ?_
    refine (h.stores (mset_only _ _)).upTo hP hend fun _ s hP => ?_
    refine (h.exchange hs (readgpt_plain _ _ _ _)).upTo hP hend fun hs s hP => ?_
    refine (h.loads (getGpthdr_only _ _)).upTo hP hend fun (ret, gpthdr) s hP => ?_
    refine (check ret).upTo hP hend fun _ s hP => ?_
    refine (hmodify _ _ s hP).then fun r s hr => ?_
    cases r with
    | none => exact .inl hr
    | some file =>
        refine .mono (fun _ _ => .inr) (Preserves.next (h'.stores (mset_only _ _)) (fun _ => ?_)
          s hr)
        refine .next (h'.exchange _ (writegpt_plain _ _ _ _ _ _)) fun hs => ?_
        exact .next (h'.sealed hs _) fun _ => .pure ()
  · cases r with
    | none => exact hs'
    | some _ => exact hs'

/-- The other sequences keep what their operations and the load of a file keep. -/
theorem sequence {id : SequenceId} (hid : id ≠ .gptUpdate) (hs : Handshake) :
    M.Preserves P (id.prog u hs) := by
  cases id with
  | preboot => exact h.preboot hs
  | postboot => exact h.postboot hs
  | flasher => exact h.flasher hs
  | gptUpdate => exact absurd rfl hid

end Upholds
end RtssMailbox
