import RtssMailbox.UpdaterSteps

/-!
The waits of the update sequences. A monitor follows the commands that are sent and
what happens after each. A sequence may only send a command when the wait for the
one before has received its response.
-/
namespace RtssMailbox
open Effects ByteMemory Monitoring Monitor

def sentMsgId : UpdOp → Option UInt32
  | .mbWrite _ buf _ => some (load32 buf RtssUpdMsgHeader.msgId)
  | _ => none

/-- A message is received whole, verifies, answers the command and reports success. -/
def Responds (msgId : UInt32) (e : Event UpdSig) : Prop :=
  ∃ r ∈ received e, r.1 = sizeofRtssUpdMsgHeader ∧ CrcVerifies r.2 ∧
    load32 r.2 RtssUpdMsgHeader.msgId = msgId ∧ load32 r.2 RtssUpdMsgHeader.status = 0

/-- No read fails, and a message that reports success verifies and answers the command. -/
def Conclusive (msgId : UInt32) (e : Event UpdSig) : Prop :=
  ∀ r ∈ received e, r.1 = sizeofRtssUpdMsgHeader ∧
    (load32 r.2 RtssUpdMsgHeader.status = 0 →
      CrcVerifies r.2 ∧ load32 r.2 RtssUpdMsgHeader.msgId = msgId)

instance (msgId : UInt32) (e : Event UpdSig) : Decidable (Responds msgId e) :=
  inferInstanceAs (Decidable (∃ r ∈ received e, _))

instance (msgId : UInt32) (e : Event UpdSig) : Decidable (Conclusive msgId e) :=
  inferInstanceAs (Decidable (∀ r ∈ received e, _))

/-- The last command that was sent, with all that has happened since. -/
abbrev Wait := Option (UInt32 × List (Event UpdSig))

/-- The wait for the last command, if there is one, has received its response. -/
def Wait.Over (w : Wait) : Prop := ∀ x ∈ w, ∃ e ∈ x.2, Responds x.1 e

instance (w : Wait) : Decidable w.Over := inferInstanceAs (Decidable (∀ x ∈ w, _))

def Wait.next (w : Wait) (e : Event UpdSig) : Wait :=
  match sentMsgId e.op with
  | some msgId => some (msgId, [])
  | none => w.map fun x => (x.1, x.2 ++ [e])

/-- A command is only sent when the wait for the one before is over; all that happens
in a wait is assumed to be conclusive. -/
def waits : Monitor UpdSig Wait where
  next := Wait.next
  allows w o := (sentMsgId o).isSome → w.Over
  assumes w e := ∀ x ∈ w, Conclusive x.1 e

instance (w : Wait) (o : UpdSig.Op) : Decidable (waits.allows w o) :=
  inferInstanceAs (Decidable (_ → _))

instance (w : Wait) (e : Event UpdSig) : Decidable (waits.assumes w e) :=
  inferInstanceAs (Decidable (∀ x ∈ w, _))

theorem Wait.Over.next {w : Wait} (hw : w.Over) {e : Event UpdSig} (he : sentMsgId e.op = none) :
    (w.next e).Over := by
  intro x hnext
  simp only [Wait.next, he] at hnext
  cases w with
  | none => cases hnext
  | some x₀ =>
      cases hnext
      obtain ⟨e', hmem, hresponds⟩ := hw x₀ rfl
      exact ⟨e', List.mem_append_left _ hmem, hresponds⟩

theorem sentMsgId_eq_none {o : UpdSig.Op} (ho : IsLocal o) : sentMsgId o = none := by
  cases o with
  | mbWrite _ _ _ => exact ho.elim
  | _ => rfl

theorem sentMsgId_of_sent {o : UpdSig.Op} {msg : Mem} (ho : msg ∈ sentMessage o) :
    sentMsgId o = some (load32 msg RtssUpdMsgHeader.msgId) := by
  cases o with
  | mbWrite _ buf _ =>
      cases ho
      rfl
  | _ => cases ho

theorem waits_offline (o : UpdSig.Op) (w : Wait) (ho : IsLocal o) (hw : w.Over) :
    waits.allows w o ∧ ∀ r, waits.assumes w ⟨o, r⟩ → (waits.next w ⟨o, r⟩).Over :=
  ⟨fun _ => hw, fun _ _ => hw.next (sentMsgId_eq_none ho)⟩

/-- If what happens in the wait is conclusive, a status of zero comes from the response. -/
theorem Conclusive.responds {msgId : UInt32} {u : Updater} {hs : Handshake} {r : Int × Mem}
    (h : Conclusive msgId ⟨waitRead u, r⟩) (hstatus : (hs.afterRead r).respStatus = 0) :
    Responds msgId ⟨waitRead u, r⟩ := by
  obtain ⟨hret, hresponse⟩ := h r rfl
  rw [afterRead_respStatus, if_pos hret] at hstatus
  obtain ⟨hcrc, hid⟩ := hresponse hstatus
  exact ⟨r, rfl, hret, hcrc, hid, hstatus⟩

/-- Every command of a sequence is sent when no wait is open, and the wait after it is
over when the sequence goes on. -/
theorem waits_steady : Steady waits (fun _ w => w.Over) fun _ => True where
  offline _ := waits_offline
  exchange u hs msgId cmd w _ hcmd hw := by
    refine exchange_passes (R := fun w => w = some (msgId, []))
      (hcmd.keeps waits_offline (fun o msg w hmsg hkind hw => ⟨fun _ => hw, fun r _ => ?_⟩) hw) ?_
    · show Wait.next w ⟨o, r⟩ = _
      simp only [Wait.next, sentMsgId_of_sent hmsg, show load32 msg _ = msgId from hkind]
    · rintro w rfl
      refine ⟨nofun, fun r hr hstatus x hx => ?_⟩
      cases hx
      exact ⟨_, List.mem_singleton_self _, (hr _ rfl).responds hstatus⟩

theorem SequenceId.sound (u : Updater) (hs : Handshake) {w : Wait} (hw : w.Over)
    (seq : SequenceId) :
    waits.Keeps (fun ret w' => ret = exitSuccess → w'.Over) (seq.prog u hs) w := by
  suffices h : waits.Keeps (fun ret w' => ret = exitSuccess → ∃ _hs : Handshake, w'.Over)
      (seq.prog u hs) w from h.mono fun _ _ hover hret => (hover hret).elim fun _ hover => hover
  have hframe := fun hs hs' (w : Wait) (_ : SameResponses hs hs') (hw : w.Over) => hw
  have hflash := fun path imageNm bank flashtype hs (w : Wait) (hw : w.Over) =>
    waits_steady.flashFile u trivial path imageNm bank flashtype hs hw
  cases seq with
  | preboot =>
      exact preboot_keeps waits_steady waits_steady ⟨trivial, trivial, trivial⟩
        (fun hs w hw => waits_steady.checkBootInfo u _ hframe trivial hs hw)
        (fun _ _ hs w hw => hflash _ _ _ _ hs w hw) trivial hs hw
  | postboot =>
      refine postboot_keeps waits_steady hframe (fun _ _ => trivial) (fun images hs w hw => ?_)
        hs hw
      refine mirrorImages_passes (fun imageNm bufLen hs w hw => ?_) images hs hw
      refine (waits_steady.exchange u hs _ _ w trivial (readimg_issues u _ _ _ _ _) hw).mono
        fun hs w hw => ?_
      exact waits_steady.exchange u hs _ _ w trivial ((flashimg_issues u _ _ _ _ _ _ _ _).mono
        fun _ => IsOtaLoad.isLocal) hw
  | flasher =>
      exact flasher_keeps waits_steady hframe (fun _ _ => trivial)
        (fun _ _ _ hs w _ hw => hflash _ _ _ _ hs w hw) hs hw
  | gptUpdate => exact imageUpdateGpt_keeps waits_steady hframe hs hw

/-- In every run whose waits are all conclusive, a command is only sent, and the
sequence only succeeds, when the wait for the command before is over. -/
theorem responses_awaited (seq : SequenceId) (u : Updater) (hs : Handshake)
    (t : List (Event UpdSig)) (q : Prog UpdSig UInt32) (hruns : Runs (seq.prog u hs) t q)
    (hconclusive : waits.Assumed none t) :
    waits.Allowed none t ∧ (q = .ret exitSuccess → (waits.after none t).Over) := by
  obtain ⟨hallowed, hrest⟩ := (seq.sound u hs (w := none) nofun).runs hruns hconclusive
  refine ⟨hallowed, ?_⟩
  rintro rfl
  exact hrest rfl

/-- The first response succeeds and the second one refuses the command. -/
theorem responses_awaited_sample :
    let w := World.sample
      [(sampleResponse rtssUpdMsgCheckGpt 0 [], []),
        (sampleResponse rtssUpdMsgGetOtaMetadatainfo 1 [], [])]
    waits.Allowed none (eventTrace World.step (SequenceId.preboot.prog .sample .zero) w) :=
  (responses_awaited .preboot .sample .zero _ _ (runs_eventTrace World.step _ _)
    (by decide +kernel)).1

/-- When every read fails, the status of the handshake state stays zero, and the
preboot sequence sends one command after the other. -/
theorem responses_not_awaited :
    ¬ ∀ t q, Runs (SequenceId.preboot.prog .sample .zero) t q → waits.Allowed none t := by
  intro h
  refine absurd (h _ _ (runs_eventTrace World.step _ (World.sample []))) ?_
  decide +kernel

end RtssMailbox
