import RtssMailbox.EntryAccesses
import RtssMailbox.Library.Agreement
import RtssMailbox.StringSlots

/-!
What a number of reported images above five does. The entries behind the fifth are stored
over the variables that lie behind the handshake state's array, and the sequence goes on with
what these hold then. Which variables these are depends on the layout of the memory, and so does
what a header reads that a GPT file is too short for. While no more than five images are
reported the sequences are those that know nothing of the overrun.
-/
namespace RtssMailbox
open Effects ByteMemory Monitoring Monitor Sequence

/-- What the variables hold after this number of image entries was stored to the array, and
what the heap holds where the GPT file's buffer is put. -/
structure MemoryLayout where
  overrun : Nat → Updater × Handshake → Updater × Handshake
  heap : Mem
  within : ∀ count g, count ≤ rtssUpdaterCfgMaxImages → overrun count g = g

namespace MemoryLayout
variable (layout : MemoryLayout)

/-- `RtssMailbox.checkBootInfo`, with what the image entries leave of the variables. -/
def checkBootInfo (u : Updater) (hs : Handshake) : Sequence (Updater × Handshake) := do
  check (← lift (rtssUpdaterPopulateBlInfoContext u.imgParseInf u.pVa))
  let numImages := UInt32.ofNat u.imgParseInf.numberOfImages
  let bufLen := numImages * UInt32.ofNat sizeofRtssUpdImageEntry
  let hs ← exchange u hs (rtssUpdaterGetBlInfo u numImages bufLen 0 u.sVa u.pVa)
  let (ret, entries) ← lift
    (rtssUpdaterGetBlInfoContext hs.updImgEntryType u.pVa hs.numImagesBoot)
  check ret
  let (u, hs) := layout.overrun hs.numImagesBoot.toNat (u, { hs with updImgEntryType := entries })
  let hs ← ofOption (rtssUpdaterGetBlPartitionStatus hs)
  check (rtssUpdaterValidateBootInfo hs)
  return (u, hs)

def prebootDemosequence (u : Updater) (hs : Handshake) : Prog UpdSig UInt32 :=
  status do
    let hs ← exchange u hs (rtssUpdaterChkgpt u)
    let hs ← readMetadata u hs
    let (u, hs) ← layout.checkBootInfo u hs
    prebootUpdate u hs

def postbootDemosequence (u : Updater) (hs : Handshake) : Prog UpdSig UInt32 :=
  status do
    let hs ← exchange u hs (rtssUpdaterUpdateOtaDoneState u 0 0 0 0)
    if u.ackstate = 1 then
      return ()
    let (u, hs) ← layout.checkBootInfo u hs
    postbootUpdate u hs

/-- The supported names are put into the place of the configuration. -/
def devprogFlasher (u : Updater) (hs : Handshake) : Prog UpdSig UInt32 :=
  status do
    let hs ← exchange u hs (rtssUpdaterChkgpt u)
    let hs ← readMetadata u hs
    let u := { u with imgParseInf := rtssUpdaterGetImgInfoDefault u.imgParseInf }
    let (u, hs) ← layout.checkBootInfo u hs
    flasherUpdate u hs

/-- The sequences over this memory; the update of the GPT reads no image entries. -/
def prog : SequenceId → Updater → Handshake → Prog UpdSig UInt32
  | .preboot => layout.prebootDemosequence
  | .postboot => layout.postbootDemosequence
  | .flasher => layout.devprogFlasher
  | .gptUpdate => rtssUpdaterImageUpdateGptAt layout.heap

end MemoryLayout

/-- No more images are reported in a wait for boot information than there are entries. -/
def imageReports : Monitor UpdSig ImageWatch where
  next := ImageWatch.next
  allows _ _ := True
  assumes := ImageWatch.Reports

instance (s : ImageWatch) (e : Event UpdSig) : Decidable (imageReports.assumes s e) :=
  inferInstanceAs (Decidable (s.Reports e))

/-- The monitor's state for a handshake state that is given. -/
def Handshake.reported (hs : Handshake) : ImageWatch := ⟨none, hs.respStatus, hs.numImagesBoot⟩

/-- What makes sure that no more images are reported than there are entries. -/
structure ReportsFew {σ : Type} (M : Monitor UpdSig σ) (P : Handshake → σ → Prop) : Prop where
  steady : Steady M P fun _ => True
  bootInfo : ∀ u hs cmd s, Issues IsLocal (OfKind rtssUpdMsgGetBootinfo) cmd → P hs s →
    M.Passes (fun hs' _ => hs'.numImagesBoot.toNat ≤ rtssUpdaterCfgMaxImages)
      (exchange u hs cmd) s

theorem imageReports_few : ReportsFew imageReports Counts where
  steady := counts_steady
  bootInfo _ _ _ _ hcmd h := (exchange_counts hcmd h).mono fun _ _ h => h.2 rfl

theorem status_agrees {σ : Type} {M : Monitor UpdSig σ} {p q : Sequence Unit} {s : σ}
    (h : M.AgreesT Eq p q s) : M.Agrees Eq (status p) (status q) s := by
  refine Agrees.then h fun r r' s hr => ?_
  cases hr with
  | none => exact .refl _ s
  | some => exact .refl _ s

/-- After the boot information the flasher has no use for the supported names any more. -/
theorem flashPaths_default (u : Updater) (images cfg : ImgConfig) (partition flashtype : UInt32) :
    flashPaths { u with imgParseInf := images } cfg partition flashtype =
      flashPaths u cfg partition flashtype := by
  funext paths
  induction paths with
  | nil => rfl
  | cons imgcur rest ih =>
      funext hs
      simp only [flashPaths, ih]
      rfl

theorem flasherUpdate_default (u : Updater) (images : ImgConfig) (hs : Handshake) :
    flasherUpdate { u with imgParseInf := images } hs = flasherUpdate u hs := by
  simp only [flasherUpdate, flashPaths_default]
  rfl

section Agreement
variable {σ : Type} {M : Monitor UpdSig σ} {P : Handshake → σ → Prop} (h : ReportsFew M P)
variable (layout : MemoryLayout) (u : Updater) (hs : Handshake) {s : σ}
include h

theorem checkBootInfo_agrees (hP : P hs s) :
    M.AgreesT (fun g hs' => g = (u, hs')) (layout.checkBootInfo u hs)
      (checkBootInfo u u.imgParseInf hs) s := by
  refine .passed (h.steady.lift ((populateContext_only _ _ _).mono fun _ => IsOtaStore.isLocal) hP)
    fun ret s hP => ?_
  refine .passed (Q := fun _ s => P hs s) (check_passes fun _ => hP) fun _ s hP => ?_
  refine .passed (h.bootInfo u hs _ s ((getBlInfo_issues u _ _ _ _ _).mono fun _ =>
    IsOtaLoad.isLocal) hP) fun hs s hfew => ?_
  refine .next (.refl _ s) fun (ret, entries) _ s hsame => ?_
  subst hsame
  refine .next (.refl _ s) fun _ _ s _ => ?_
  rw [layout.within _ _ hfew]
  refine .next (.refl _ s) fun hs' _ s hsame => ?_
  subst hsame
  exact .next (.refl _ s) fun _ _ s _ => .pure rfl

theorem exchange_words_agrees {α : Type} {f g : Handshake → Sequence α} (msgId : UInt32)
    (words : List UInt32) (hP : P hs s) (hf : ∀ hs s, P hs s → M.AgreesT Eq (f hs) (g hs) s) :
    M.AgreesT Eq (exchange u hs (sendWords u msgId words) >>= f)
      (exchange u hs (sendWords u msgId words) >>= g) s :=
  .passed (h.steady.exchange u hs _ _ s trivial (sendWords_issues u _ _) hP) hf

/-- The same, up to what follows the boot information. -/
theorem prebootDemosequence_agrees (hP : P hs s) :
    M.Agrees Eq (layout.prebootDemosequence u hs) (rtssUpdaterPrebootDemosequence u hs) s := by
  refine status_agrees (exchange_words_agrees h u hs _ _ hP fun hs s hP => ?_)
  refine .passed (h.steady.readMetadata u trivial trivial hs hP) fun hs s hP => ?_
  refine .next (checkBootInfo_agrees h layout u hs hP) fun g hs s hg => ?_
  subst hg
  exact .refl _ s

theorem postbootDemosequence_agrees (hP : P hs s) :
    M.Agrees Eq (layout.postbootDemosequence u hs) (rtssUpdaterPostbootDemosequence u hs) s := by
  refine status_agrees (exchange_words_agrees h u hs _ _ hP fun hs s hP => ?_)
  refine .guard (fun _ => .refl _ s) fun _ => ?_
  refine .next (checkBootInfo_agrees h layout u hs hP) fun g hs s hg => ?_
  subst hg
  exact .refl _ s

theorem devprogFlasher_agrees (hP : P hs s) :
    M.Agrees Eq (layout.devprogFlasher u hs) (rtssUpdaterDevprogFlasher u hs) s := by
  refine status_agrees (exchange_words_agrees h u hs _ _ hP fun hs s hP => ?_)
  refine .passed (h.steady.readMetadata u trivial trivial hs hP) fun hs s hP => ?_
  refine .next (checkBootInfo_agrees h layout _ hs hP) fun g hs s hg => ?_
  subst hg
  change M.AgreesT Eq (flasherUpdate _ hs) (flasherUpdate u hs) s
  rw [flasherUpdate_default]
  exact .refl _ s

/-- While no more images are reported than there are entries, the sequences are those without
an overrun. -/
theorem prog_agrees (seq : SequenceId) (hP : P hs s) :
    M.Agrees Eq (layout.prog seq u hs) (seq.progAt layout.heap u hs) s := by
  cases seq with
  | preboot => exact prebootDemosequence_agrees h layout u hs hP
  | postboot => exact postbootDemosequence_agrees h layout u hs hP
  | flasher => exact devprogFlasher_agrees h layout u hs hP
  | gptUpdate => exact .refl _ s

end Agreement

namespace MemoryLayout
variable (layout : MemoryLayout) {seq : SequenceId} {u : Updater} {hs : Handshake}
variable {t : List (Event UpdSig)} {q : Prog UpdSig UInt32}

theorem agrees (seq : SequenceId) (u : Updater) (hs : Handshake) :
    imageReports.Agrees Eq (layout.prog seq u hs) (seq.progAt layout.heap u hs) hs.reported :=
  prog_agrees imageReports_few layout u hs seq ⟨rfl, rfl⟩

/-- A run in which no more images are reported than there are entries is a run without an
overrun, to the same result. -/
theorem runs (hruns : Runs (layout.prog seq u hs) t q)
    (hreports : imageReports.Assumed hs.reported t) :
    ∃ q', Runs (seq.progAt layout.heap u hs) t q' ∧ ∀ ret, q = .ret ret → q' = .ret ret :=
  (layout.agrees seq u hs).runs_same hruns hreports

/-- ... and the other way round. -/
theorem runs_prog (hruns : Runs (seq.progAt layout.heap u hs) t q)
    (hreports : imageReports.Assumed hs.reported t) :
    ∃ q', Runs (layout.prog seq u hs) t q' ∧ ∀ ret, q = .ret ret → q' = .ret ret :=
  ((layout.agrees seq u hs).symm.mono fun _ _ => Eq.symm).runs_same hruns hreports

end MemoryLayout

/-! One layout: the arguments follow the handshake state, without a gap. -/

/-- The bytes of an entry, as they are stored. -/
def RtssUpdImageEntry.bytes (entry : RtssUpdImageEntry) : List UInt8 :=
  entry.imgName ++ [entry.bootPartition, entry.bootGptId, entry.partitionSizeA,
    entry.partitionSizeB, entry.isTwoGptTableEntriesMatching].flatMap le32

/-- The bytes from the start of the array on. -/
def entryBytes (entries : Nat → RtssUpdImageEntry) : Mem := fun p =>
  (entries (p / sizeofRtssUpdImageEntry)).bytes.getD (p % sizeofRtssUpdImageEntry) 0

/-! The offsets of fields behind the array, from its start: `gpthdr`, `metadatapartitionsz`,
and the end of `rtss_updater_handshake_t`. -/
namespace HandshakeOffset
def gpthdr : Nat := 1120
def metadatapartitionsz : Nat := 1228
def size : Nat := 1236
end HandshakeOffset

/-! The offsets of the fields of `rtss_updater_argopt_t`. -/
namespace ArgoptOffset
def numberOfImages : Nat := 0
def numberOfPaths : Nat := 4
def imageNames : Nat := 8
def imagePaths : Nat := 648
def imgPath : Nat := 1288
def otaCfgPath : Nat := 1928
def imgIdentifier : Nat := 2056
def partition : Nat := 2316
def skipConfigFile : Nat := 2320
def gptUpdate : Nat := 2324
def ackstate : Nat := 2452
def rstskip : Nat := 2456
def size : Nat := 2464
end ArgoptOffset

def storeSlots (m : Mem) (a : Nat) (slots : Nat → CString) : Mem :=
  (List.range rtssUpdaterCfgMaxImages).foldl (fun m i =>
    storeBytes m (a + rtssUpdaterCfgMaxImagepathLen * i)
      ((slots i).take rtssUpdaterCfgMaxImagepathLen)) m

/-- `rtss_updater_args` as bytes. -/
def Updater.argBytes (u : Updater) : Mem :=
  let m := store32 zeroed ArgoptOffset.numberOfImages (UInt32.ofNat u.imgParseInf.numberOfImages)
  let m := store32 m ArgoptOffset.numberOfPaths (UInt32.ofNat u.imgParseInf.numberOfPaths)
  let m := storeSlots m ArgoptOffset.imageNames u.imgParseInf.imageNames
  let m := storeSlots m ArgoptOffset.imagePaths u.imgParseInf.imagePaths
  let m := storeBytes m ArgoptOffset.imgPath u.imgPath
  let m := storeBytes m ArgoptOffset.otaCfgPath u.otaCfgPath
  let m := storeBytes m ArgoptOffset.imgIdentifier u.imgIdentifier
  let m := store32 m ArgoptOffset.partition u.partition
  let m := store32 m ArgoptOffset.skipConfigFile u.skipConfigFile
  let m := storeBytes m ArgoptOffset.gptUpdate u.gptUpdate
  let m := store32 m ArgoptOffset.ackstate u.ackstate
  store32 m ArgoptOffset.rstskip u.rstskip

/-- The string at this offset, up to the end of the arguments. -/
def argString (m : Mem) (a : Nat) : CString := cStringAt (loadBytes m a (ArgoptOffset.size - a))

/-- What the arguments are with these bytes; the two numbers are not negative. -/
def Updater.ofArgBytes (u : Updater) (m : Mem) : Updater :=
  { u with
    imgParseInf :=
      { numberOfImages := (load32 m ArgoptOffset.numberOfImages).toNat
        numberOfPaths := (load32 m ArgoptOffset.numberOfPaths).toNat
        imageNames := fun i =>
          argString m (ArgoptOffset.imageNames + rtssUpdaterCfgMaxImagepathLen * i)
        imagePaths := fun i =>
          argString m (ArgoptOffset.imagePaths + rtssUpdaterCfgMaxImagepathLen * i) }
    imgPath := argString m ArgoptOffset.imgPath
    otaCfgPath := argString m ArgoptOffset.otaCfgPath
    imgIdentifier := argString m ArgoptOffset.imgIdentifier
    gptUpdate := argString m ArgoptOffset.gptUpdate
    partition := load32 m ArgoptOffset.partition
    skipConfigFile := load32 m ArgoptOffset.skipConfigFile
    ackstate := load32 m ArgoptOffset.ackstate
    rstskip := load32 m ArgoptOffset.rstskip }

namespace MemoryLayout

/-- What is stored behind the array overwrites what was there. -/
def storedOver (count : Nat) : Updater × Handshake → Updater × Handshake
  | (u, hs) =>
    let stop := sizeofRtssUpdImageEntry * count
    let behind (old : Mem) (a : Nat) : Mem := fun p =>
      if a + p < stop then entryBytes hs.updImgEntryType (a + p) else old p
    let size := behind (store32 zeroed 0 hs.metadatapartitionsz) HandshakeOffset.metadatapartitionsz
    (u.ofArgBytes (behind u.argBytes HandshakeOffset.size),
      { hs with
        gpthdr := behind hs.gpthdr HandshakeOffset.gpthdr
        metadatapartitionsz := load32 size 0 })

def adjacent : MemoryLayout where
  overrun count g := if count ≤ rtssUpdaterCfgMaxImages then g else storedOver count g
  heap := zeroed
  within _ _ hcount := if_pos hcount

end MemoryLayout

end RtssMailbox
