import RtssMailbox.CommandLine
import RtssMailbox.ImageOverrun

/-!
The strings of the command line, from the option to the use. They are copied with a limit
into arrays, and the image identifier is copied once more into the shorter field of a
message.
-/
namespace RtssMailbox
open Effects ByteMemory Monitoring Monitor

/-- The string that starts at the image identifier. Without a terminator there it goes on in
the fields behind, up to the first of these numbers, which is small. -/
def RtssUpdaterArgopt.identifier (args : RtssUpdaterArgopt) : CString :=
  cStringAt (args.imgIdentifier.bytes ++ (args.kpipath.bytes ++ le32 args.restart))

/-- What the sequences see of the arguments. -/
def RtssUpdaterArgopt.updater (args : RtssUpdaterArgopt) (u : Updater) : Updater :=
  { u with
    imgPath := args.imgPath.string
    otaCfgPath := args.otaCfgPath.string
    imgIdentifier := args.identifier
    gptUpdate := args.gptUpdate.string
    partition := args.partition
    skipConfigFile := args.skipConfigFile
    ackstate := args.ackstate
    rstskip := args.rstskip }

/-- A message that flashes an image carries this name, with its terminator. -/
def CarriesName (s : CString) (o : UpdSig.Op) : Prop :=
  ∀ msg ∈ sentMessage o, OfKind rtssUpdMsgFlashImage msg →
    HoldsString (loadBytes msg RtssUpdMsgHeader.imgName rtssUpdImgNameLen) s

/-- A string is accepted if it fits with its terminator, it is what is stored then, and as an
image identifier it is the name in every message that flashes the image, while no more images
are reported than the handshake state has entries. -/
structure UsedExactly (o : StringOption) (args : RtssUpdaterArgopt) (s : CString) : Prop where
  accepted : (getoptStep args (o.option, some s)).isSome ↔ s.length < rtssUpdaterCfgMaxImagepathLen
  stored : ∀ args' ∈ getoptStep args (o.option, some s), ∀ args'', o.Later args' args'' →
    HoldsString (o.slot args'').bytes s
  flashed : o = .imageIdentifier → ∀ args' ∈ getoptStep args (o.option, some s),
    ∀ args'', o.Later args' args'' → args''.skipConfigFile = 1 →
      ∀ (layout : MemoryLayout) u hs t q,
        Runs (layout.prog .flasher (args''.updater u) hs) t q →
          imageReports.Assumed hs.reported t → ∀ e ∈ t, CarriesName s e.op

def nameWatch (s : CString) : Monitor UpdSig Unit where
  next _ _ := ()
  allows _ o := CarriesName s o
  assumes _ _ := True

section Names
variable {s : CString}

theorem imgNameField_eq (s : CString) :
    imgNameField s =
      s.take rtssUpdImgNameLen ++ List.replicate (rtssUpdImgNameLen - s.length) 0 := by
  have hlen : (s.take rtssUpdImgNameLen).length ≤ rtssUpdImgNameLen := List.length_take_le _ _
  have hzeros : ∀ a n, loadBytes zeroed a n = List.replicate n 0 :=
    fun _ _ => loadBytes_eq_replicate fun _ _ => rfl
  rw [imgNameField, loadBytes_storeBytes_across _ _ _ _ hlen, hzeros, List.length_take]
  congr 2
  omega

theorem imgNameField_length (s : CString) : (imgNameField s).length = rtssUpdImgNameLen :=
  loadBytes_length _ _ _

/-- The field of a message holds a name that is shorter than it. -/
theorem imgNameField_holds_iff (hs : 0 ∉ s) :
    HoldsString (imgNameField s) s ↔ s.length < rtssUpdImgNameLen := by
  constructor
  · intro h
    rw [← imgNameField_length s]
    exact h.lt
  · intro hlen
    refine .of_lt ?_ (by rw [imgNameField_length]; exact hlen)
    rw [imgNameField_eq, List.take_of_length_le (Nat.le_of_lt hlen)]
    exact cStringAt_padded hs _

theorem nameWatch_asks : AsksOf (nameWatch s) rtssUpdMsgFlashImage :=
  fun _ _ ho msg hmsg hflash => absurd hflash (ho msg hmsg)

theorem flashFile_named (u : Updater) (path : CString) (hname : HoldsString (imgNameField s) s)
    (partition flashtype : UInt32) (hs : Handshake) :
    (nameWatch s).Passes (fun _ _ => True) (flashFile u path s partition flashtype hs) () := by
  have hload : (nameWatch s).Passes (fun _ _ => True) (Sequence.lift
      (rtssUpdaterLoadfile path u.pVa rtssUpdGetCacheLineSz.toNat)) () :=
    lift_only_passes (P := fun _ => True) (loadfile_only _ _ _) (fun _ _ ho _ =>
      ⟨nameWatch_asks.unsent (sentMessage_eq_none ho), fun _ _ => trivial⟩) trivial
  refine hload.then fun ret _ _ => .guard (fun _ => .bind .failure) fun _ => ?_
  have hissues : Issues IsOtaLoad
      (fun msg => loadBytes msg RtssUpdMsgHeader.imgName rtssUpdImgNameLen = imgNameField s)
      (rtssUpdaterFlashimg u (some s) 0 partition u.sVa (UInt32.ofInt ret) 0 flashtype u.pVa) :=
    .guard .failure (.crc (fun _ => id) .failure fun crc =>
      .sealed u fun headerCrc => flashimgMsg_imgName s _ _ _ _ _ _ headerCrc)
  refine exchange_passes (R := fun _ => True) ?_
    fun _ _ => ⟨nameWatch_asks.unsent rfl, fun _ _ _ => trivial⟩
  refine hissues.keeps (P := fun _ => True) (fun o _ ho _ => ?_) (fun o msg _ hmsg hfield _ => ?_)
    trivial
  · exact ⟨nameWatch_asks.unsent (sentMessage_eq_none ho.isLocal), fun _ _ => trivial⟩
  · refine ⟨fun msg' hmsg' _ => ?_, fun _ _ => trivial⟩
    cases Option.mem_unique hmsg hmsg'
    rw [hfield]
    exact hname

/-- Without a configuration file every image is flashed under the identifier. -/
theorem flasher_named {u : Updater} (hskip : u.skipConfigFile = 1)
    (hidentifier : u.imgIdentifier = s) (hname : HoldsString (imgNameField s) s) (hs : Handshake) :
    (nameWatch s).Keeps (fun _ _ => True) (rtssUpdaterDevprogFlasher u hs) () := by
  refine Keeps.mono (fun _ _ _ => trivial) (flasher_keeps (P := fun _ _ => True)
    nameWatch_asks.steady (fun _ _ _ _ => id) (fun _ => id) (fun path imageNm bank hs _ h _ => ?_)
    hs trivial)
  obtain ⟨-, rfl⟩ := h hskip
  rw [hidentifier]
  exact flashFile_named u path hname bank 1 hs

/-- The messages that flash an image carry this name; no more images are reported than the
handshake state has entries. -/
def reportedNames (s : CString) : Monitor UpdSig ImageWatch where
  next := ImageWatch.next
  allows _ o := CarriesName s o
  assumes := ImageWatch.Reports

instance (w : ImageWatch) (e : Event UpdSig) : Decidable ((reportedNames s).assumes w e) :=
  inferInstanceAs (Decidable (w.Reports e))

theorem askBootInfo_may (s : CString) :
    (reportedNames s).May (fun r _ => r.isSome) (askBootInfo .sample
      (rtssUpdaterGetImgInfoDefault Updater.sample.imgParseInf) .zero).run .start := by
  refine .of_run World.step (.sample (sampleBootResponses (List.replicate 52 0))) ?_ ?_
  · change imageReports.Assumed _ _
    decide +kernel
  · decide +kernel

/-- An identifier that does not fit into the field of a message is sent without its end. -/
theorem flasher_cuts {args : RtssUpdaterArgopt} (hskip : args.skipConfigFile = 1)
    (hpartition : args.partition = 0) (hpath : args.imgPath.string ≠ [])
    (hidentifier : args.identifier = s) (hne : s ≠ []) (hname : ¬ HoldsString (imgNameField s) s) :
    (reportedNames s).Violates (rtssUpdaterDevprogFlasher (args.updater .sample) .zero)
      .start := by
  have hpVa : (args.updater .sample).pVa ≠ null := by
    change Updater.sample.pVa ≠ null
    decide
  have hassumes : ∀ w e, received e = none → (reportedNames s).assumes w e := by
    intro w e he r hr
    rw [he] at hr
    cases hr
  rw [flasher_parts]
  refine Violates.first (Violates.next (p := askBootInfo (args.updater .sample) _ .zero)
    ((askBootInfo_may s).mono fun r w hr => ?_))
  obtain ⟨hs, rfl⟩ := Option.isSome_iff_exists.mp hr
  refine ⟨hs, rfl, ?_⟩
  have hbanks : (reportedNames s).May (fun r _ => r = some (0, 1))
      (Sequence.ofOption (selectBanks (args.updater .sample).partition)).run w := by
    change selectBanks args.partition = some (0, 1)
    rw [hpartition]
    decide
  refine Violates.next (hbanks.mono fun r _ hr => ⟨_, hr, ?_⟩)
  have hgiven : ¬ ((args.updater .sample).imgPath = [] ∨
      (args.updater .sample).imgIdentifier = []) := by
    rw [not_or]
    exact ⟨hpath, fun hnil => hne (hidentifier.symm.trans hnil)⟩
  have hskip' : (args.updater .sample).skipConfigFile = 1 := hskip
  simp only [if_pos hskip', if_neg hgiven]
  refine Violates.first (Violates.first (missing_file_violates (P := fun _ => True) hassumes hpVa
    _ _ _ _ (fun _ => trivial) (fun _ _ _ _ => trivial) fun _ crc headerCrc _ hcarries => hname ?_))
  have hfield := hcarries _ rfl (ofKind_sealed _ _ headerCrc)
  rw [flashimgMsg_imgName] at hfield
  change HoldsString (imgNameField args.identifier) s at hfield
  rwa [hidentifier] at hfield

end Names

/-- The lengths of the strings that an option uses exactly: those that fit, but not a single
character; an identifier has to fit into the field of a message. What is too long is only
refused where the 32-bit length is 1. -/
def StringOption.Exact (o : StringOption) (length : Nat) : Prop :=
  2 ≤ length ∧ length < (if o = .imageIdentifier then rtssUpdImgNameLen
    else rtssUpdaterCfgMaxImagepathLen) ∨
  rtssUpdaterCfgMaxImagepathLen ≤ length ∧ length % 4294967296 = 1

section Strings
variable {o : StringOption} {args args' args'' : RtssUpdaterArgopt} {s : CString}

/-- A string that fits is stored whole. -/
theorem stored_string (hs : 0 ∉ s) (hfits : s.length < rtssUpdaterCfgMaxImagepathLen)
    (hstep : getoptStep args (o.option, some s) = some args') (hlater : o.Later args' args'') :
    HoldsString (o.slot args'').bytes s := by
  have hlen : optargLen s = s.length := by
    rw [optargLen_eq, Nat.mod_eq_of_lt (Nat.lt_trans hfits (by decide))]
  have hlimit : s.length ≤ o.limit := by
    have hcases := o.limit_cases
    simp only [rtssUpdaterCfgMaxImagepathLen] at hfits
    omega
  rw [hlater.slot]
  refine ImgSlot.holds _ ?_ hfits
  rw [ImgSlot.string, o.step_slot args s hstep, hlen, List.take_length, fillString_string hs,
    List.take_of_length_le hlimit]

theorem later_flashes (args : RtssUpdaterArgopt) :
    ∃ args', StringOption.Later .imageIdentifier args args' ∧ args'.skipConfigFile = 1 ∧
      args'.partition = 0 ∧ args'.imgPath.string ≠ [] := by
  have hpath : cStringAt (rtssUpdaterMcpy (rtssUpdaterMsetArray args.imgPath.bytes 0
      rtssUpdaterCfgMaxImagepathLen) rtssUpdaterCfgMaxImagepathLen (cString "/x")
      (optargLen (cString "/x"))).2 = cString "/x" := by
    rw [copyOptarg_eq, fillString_string (by decide)]
    decide
  exact ⟨_, ⟨[(.partition, some (cString "0")), (.elfFilePath, some (cString "/x"))], by decide,
    rfl⟩, rfl, rfl, fun hnil => absurd (hpath.symm.trans hnil) (by decide)⟩

/-- An identifier that is used exactly fits into the field of a message: a longer one would be
sent without its end. -/
theorem UsedExactly.identifier_short (h : UsedExactly .imageIdentifier args s) (hs : 0 ∉ s)
    (hne : s ≠ []) (hfits : s.length < rtssUpdaterCfgMaxImagepathLen) :
    s.length < rtssUpdImgNameLen := by
  by_contra hlong
  obtain ⟨args₁, hstep⟩ := Option.isSome_iff_exists.mp (h.accepted.mpr hfits)
  obtain ⟨args₂, hlater, hskip, hpartition, hpath⟩ := later_flashes args₁
  have hstored := h.stored args₁ hstep args₂ hlater
  have hname : ¬ HoldsString (imgNameField s) s :=
    fun hholds => hlong ((imgNameField_holds_iff hs).mp hholds)
  obtain ⟨t, q, hruns, hreports, hviolated⟩ := (flasher_cuts hskip hpartition hpath
    (hstored.append _) hne hname).exists_run
  replace hruns : Runs (SequenceId.flasher.progAt zeroed (args₂.updater .sample) .zero) t q :=
    hruns
  obtain ⟨q', hruns', -⟩ := MemoryLayout.adjacent.runs_prog hruns hreports
  refine hviolated fun past e rest hsplit => ?_
  exact h.flashed rfl args₁ hstep args₂ hlater hskip .adjacent .sample .zero t q' hruns'
    hreports e (hsplit ▸ List.mem_append_right past List.mem_cons_self)

/-- Such a string is accepted and stored, and as an identifier it is in every message. -/
theorem usedExactly_of_fits (hs : 0 ∉ s) (hmany : 2 ≤ s.length)
    (hshort : s.length < if o = .imageIdentifier then rtssUpdImgNameLen
      else rtssUpdaterCfgMaxImagepathLen) : UsedExactly o args s := by
  have hfits : s.length < rtssUpdaterCfgMaxImagepathLen := by
    refine Nat.lt_of_lt_of_le hshort ?_
    split <;> decide
  refine ⟨?_, fun args₁ hstep args₂ hlater => stored_string hs hfits hstep hlater, ?_⟩
  · have hcases := o.limit_cases
    have hlen := optargLen_eq s
    rw [o.step_isSome]
    simp only [rtssUpdaterCfgMaxImagepathLen] at hfits ⊢
    omega
  · rintro rfl args₁ hstep args₂ hlater hskip layout u hs' t q hruns hreports
    obtain ⟨q', hruns', -⟩ := layout.runs hruns hreports
    have hstored := stored_string hs hfits hstep hlater
    have hname : HoldsString (imgNameField s) s := by
      rw [imgNameField_holds_iff hs]
      rwa [if_pos rfl] at hshort
    have hkeeps := flasher_named (u := args₂.updater u) hskip (hstored.append _) hname hs'
    exact allowed_unit.mp (Keeps.runs hruns' hkeeps fun _ _ _ _ => trivial).1

/-- So is one that does not fit and is refused. -/
theorem usedExactly_of_refused (hlong : rtssUpdaterCfgMaxImagepathLen ≤ s.length)
    (hrefused : getoptStep args (o.option, some s) = none) : UsedExactly o args s := by
  refine ⟨?_, ?_, ?_⟩
  · rw [hrefused]
    exact ⟨nofun, fun hfits => absurd hlong (Nat.not_le.mpr hfits)⟩
  · rw [hrefused]
    exact nofun
  · rw [hrefused]
    exact fun _ => nofun

/-- The strings of the command line are used exactly at these lengths. -/
theorem usedExactly_iff (o : StringOption) (args : RtssUpdaterArgopt) (s : CString) (hs : 0 ∉ s)
    (hne : s ≠ []) : UsedExactly o args s ↔ o.Exact s.length := by
  have hpos : 0 < s.length := List.length_pos_iff.mpr hne
  have hcases := o.limit_cases
  have hlen := optargLen_eq s
  constructor
  · intro h
    have haccepted := h.accepted
    rw [o.step_isSome] at haccepted
    by_cases hfits : s.length < rtssUpdaterCfgMaxImagepathLen
    · refine .inl ⟨?_, ?_⟩
      · have hmany := haccepted.mpr hfits
        simp only [rtssUpdaterCfgMaxImagepathLen] at hfits
        omega
      · split
        · next hidentifier =>
            subst hidentifier
            exact h.identifier_short hs hne hfits
        · exact hfits
    · have hone := mt haccepted.mp hfits
      refine .inr ⟨Nat.not_lt.mp hfits, ?_⟩
      omega
  · rintro (⟨hmany, hshort⟩ | ⟨hlong, hone⟩)
    · exact usedExactly_of_fits hs hmany hshort
    · refine usedExactly_of_refused hlong ?_
      rw [← Option.not_isSome_iff_eq_none, o.step_isSome]
      omega

end Strings

def RtssUpdaterArgopt.zero : RtssUpdaterArgopt :=
  let slot : ImgSlot := ⟨List.replicate rtssUpdaterCfgMaxImagepathLen 0, List.length_replicate⟩
  ⟨slot, slot, slot, slot, 0, 0, 0, slot, 0, 0⟩

theorem usedExactly_configfile :
    (0 ∉ cString "/var/otacfg" ∧ cString "/var/otacfg" ≠ []) ∧
      (UsedExactly .configfile .zero (cString "/var/otacfg") ↔
        StringOption.Exact .configfile (cString "/var/otacfg").length) :=
  ⟨⟨by decide, nofun⟩, usedExactly_iff .configfile .zero (cString "/var/otacfg") (by decide) nofun⟩

/-- A path of 128 characters is accepted for the GPT file, without its last one; a path of one
character is refused. -/
theorem gptUpdate_not_exact :
    let args := RtssUpdaterArgopt.zero
    ¬ (∀ s : CString, 0 ∉ s → s ≠ [] → UsedExactly .gptUpdate args s) ∧
      (getoptStep args (.gptUpdate, some (List.replicate 128 97))).isSome ∧
      getoptStep args (.gptUpdate, some [97]) = none := by
  have haccepted : (getoptStep .zero (.gptUpdate, some (List.replicate 128 97))).isSome := by
    refine (StringOption.step_isSome .gptUpdate .zero (List.replicate 128 97)).mpr ?_
    rw [optargLen_eq, List.length_replicate]
    decide
  refine ⟨fun h => ?_, haccepted, by decide⟩
  have hnul : 0 ∉ List.replicate 128 (97 : UInt8) :=
    fun hmem => absurd (List.eq_of_mem_replicate hmem) (by decide)
  have hfits := (h (List.replicate 128 97) hnul nofun).accepted.mp haccepted
  rw [List.length_replicate] at hfits
  exact absurd hfits (by decide)

end RtssMailbox
