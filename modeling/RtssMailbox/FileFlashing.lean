import RtssMailbox.ImageMessages
import RtssMailbox.UpdaterSteps

/-!
The files that are flashed. A monitor follows how a file is looked for, opened and read,
and what the updater has stored in the OTA buffer since the RTSS may have written there
last. An image may only be flashed from a file that was loaded.
-/
namespace RtssMailbox
open Effects ByteMemory Monitoring Monitor

/-- The size of a buffer of whole cache lines for this many bytes. -/
def cacheLines (n : Nat) : Nat :=
  (n + rtssUpdGetCacheLineSz.toNat - 1) / rtssUpdGetCacheLineSz.toNat *
    rtssUpdGetCacheLineSz.toNat

/-- A file's bytes, with zeros up to whole cache lines. -/
def padded (contents : List UInt8) : List UInt8 :=
  contents ++ List.replicate (cacheLines contents.length - contents.length) 0

/-! What the events say about files and the OTA buffer. -/

def found : Event UpdSig → Option (Option (UInt32 × Nat))
  | ⟨.stat _, file⟩ => some file
  | _ => none

def openedAs : Event UpdSig → Option Int
  | ⟨.open _, fd⟩ => some fd
  | _ => none

/-- The number of bytes that were asked for, and those that were read. -/
def readFile : Event UpdSig → Option (Nat × Option (List UInt8))
  | ⟨.pread _ count, bytes⟩ => some (count, Option.map Subtype.val bytes)
  | _ => none

/-- The bytes that were loaded from the OTA buffer, and where. -/
def loadedFrom : Event UpdSig → Option (Nat × List UInt8)
  | ⟨.otaLoad offset len, bytes⟩ => some (offset, List.ofFn (n := len) bytes)
  | _ => none

/-- The size of a file that its owner may read. -/
def readable (file : Option (UInt32 × Nat)) : Option Nat :=
  file.bind fun file => if file.1 &&& 256 = 0 then none else some file.2

/-- What a monitor keeps: the size of the last readable file that was found, whether it
is open, its contents if they were read whole since the last message, and the bytes in
the OTA buffer that are the updater's own. -/
structure FileWatch where
  size : Option Nat
  opened : Bool
  contents : Option (List UInt8)
  ota : Nat → Option UInt8

namespace FileWatch

def start : FileWatch := ⟨none, false, none, fun _ => none⟩

def find (s : FileWatch) (file : Option (UInt32 × Nat)) : FileWatch :=
  { s with size := readable file, opened := false, contents := none }

def open' (s : FileWatch) (fd : Int) : FileWatch := { s with opened := fd ≠ -1, contents := none }

def read (s : FileWatch) (bytes : Option (List UInt8)) : FileWatch :=
  { s with contents := bytes.filter fun bytes => s.opened ∧ s.size = some bytes.length }

def store (s : FileWatch) (offset : Nat) (bytes : List UInt8) : FileWatch :=
  { s with ota := fun p =>
      if offset ≤ p ∧ p < offset + bytes.length then bytes[p - offset]? else s.ota p }

def next (s : FileWatch) (e : Event UpdSig) : FileWatch :=
  match e with
  | ⟨.stat _, file⟩ => s.find file
  | ⟨.open _, fd⟩ => s.open' fd
  | ⟨.pread _ _, bytes⟩ => s.read (Option.map Subtype.val bytes)
  | ⟨.otaStore offset bytes, _⟩ => s.store offset bytes
  | ⟨.mbWrite _ _ _, _⟩ => { s with contents := none }
  | ⟨.mbRead _ _ _, _⟩ => { s with ota := fun _ => none }
  | _ => s

/-- The OTA buffer starts with these bytes. -/
def Holds (s : FileWatch) (bytes : List UInt8) : Prop := ∀ i < bytes.length, s.ota i = bytes[i]?

instance (s : FileWatch) (bytes : List UInt8) : Decidable (s.Holds bytes) :=
  inferInstanceAs (Decidable (∀ i < bytes.length, _))

/-- A file has been loaded since the last message, and this message announces its bytes
with their padding, which are in the OTA buffer. -/
def MayFlash (s : FileWatch) (msg : Mem) : Prop :=
  ∃ contents ∈ s.contents, s.Holds (padded contents) ∧
    (load32 msg RtssUpdMsgHeader.bufLen).toNat = (padded contents).length ∧
    rtssUpdCalculateCrc32 (padded contents) = some (load32 msg RtssUpdMsgHeader.bufCrc)

instance (s : FileWatch) (msg : Mem) : Decidable (s.MayFlash msg) :=
  inferInstanceAs (Decidable (∃ contents ∈ s.contents, _))

/-- A file is found, is readable, can be opened and is read whole, and its size with the
padding is a 32-bit number, or zero as one. -/
def Loads (e : Event UpdSig) : Prop :=
  (∀ file ∈ found e, ∃ size ∈ readable file,
    cacheLines size < 4294967296 ∨ cacheLines size % 4294967296 = 0) ∧
  (∀ fd ∈ openedAs e, fd ≠ -1) ∧
  ∀ x ∈ readFile e, x.2.map List.length = some x.1

instance (e : Event UpdSig) : Decidable (Loads e) :=
  inferInstanceAs (Decidable ((∀ file ∈ found e, _) ∧ (∀ fd ∈ openedAs e, _) ∧
    ∀ x ∈ readFile e, _))

/-- What is loaded from the OTA buffer is what the updater has stored there. -/
def Stable (s : FileWatch) (e : Event UpdSig) : Prop :=
  ∀ x ∈ loadedFrom e, ∀ i < x.2.length, ∀ b ∈ s.ota (x.1 + i), x.2[i]? = some b

instance (s : FileWatch) (e : Event UpdSig) : Decidable (s.Stable e) :=
  inferInstanceAs (Decidable (∀ x ∈ loadedFrom e, _))

end FileWatch

/-- An image is only flashed from a loaded file. -/
def fileWatch : Monitor UpdSig FileWatch where
  next := FileWatch.next
  allows s o := ∀ msg ∈ sentMessage o, OfKind rtssUpdMsgFlashImage msg → s.MayFlash msg
  assumes s e := FileWatch.Loads e ∧ s.Stable e

instance (s : FileWatch) (o : UpdSig.Op) : Decidable (fileWatch.allows s o) :=
  inferInstanceAs (Decidable (∀ msg ∈ sentMessage o, _))

instance (s : FileWatch) (e : Event UpdSig) : Decidable (fileWatch.assumes s e) :=
  inferInstanceAs (Decidable (_ ∧ _))

theorem cacheLines_eq (n : Nat) :
    cacheLines n = n + if n % rtssUpdGetCacheLineSz.toNat = 0 then 0
      else rtssUpdGetCacheLineSz.toNat - n % rtssUpdGetCacheLineSz.toNat := by
  have hline : rtssUpdGetCacheLineSz.toNat = 64 := rfl
  rw [cacheLines, hline]
  split <;> omega

theorem padded_length (contents : List UInt8) :
    (padded contents).length = cacheLines contents.length := by
  rw [padded, List.length_append, List.length_replicate, cacheLines_eq]
  omega

theorem padded_eq (contents : List UInt8) :
    padded contents = contents ++ List.replicate
      (if contents.length % rtssUpdGetCacheLineSz.toNat = 0 then 0
        else rtssUpdGetCacheLineSz.toNat - contents.length % rtssUpdGetCacheLineSz.toNat) 0 := by
  rw [padded, cacheLines_eq, Nat.add_sub_cancel_left]

theorem ofInt_int32 (n : Nat) : UInt32.ofInt (int32 n) = UInt32.ofNat n := by
  apply UInt32.toNat.inj
  rw [UInt32.ofInt, UInt32.toNat_ofNat', UInt32.toNat_ofNat', int32]
  split <;> omega

namespace FileWatch
variable {s : FileWatch}

theorem Holds.store_append {bytes : List UInt8} (h : s.Holds bytes) (more : List UInt8) :
    (s.store bytes.length more).Holds (bytes ++ more) := by
  intro i hi
  rw [List.length_append] at hi
  simp only [store]
  by_cases hlt : i < bytes.length
  · rw [if_neg (by omega), List.getElem?_append_left hlt]
    exact h i hlt
  · rw [if_pos ⟨Nat.le_of_not_lt hlt, hi⟩, List.getElem?_append_right (Nat.le_of_not_lt hlt)]

theorem Holds.of_append {bytes more : List UInt8} (h : s.Holds (bytes ++ more)) :
    s.Holds bytes := by
  intro i hi
  have hbyte := h i (by rw [List.length_append]; omega)
  rwa [List.getElem?_append_left hi] at hbyte

theorem holds_store (s : FileWatch) (bytes : List UInt8) : (s.store 0 bytes).Holds bytes := by
  have hnil : s.Holds [] := fun i hi => absurd hi (Nat.not_lt_zero i)
  exact hnil.store_append bytes

theorem Holds.loaded {bytes : List UInt8} (h : s.Holds bytes) {n : Nat} (hn : n = bytes.length)
    {r : Fin n → UInt8} (hr : s.Stable ⟨.otaLoad 0 n, r⟩) : List.ofFn r = bytes := by
  subst hn
  refine List.ext_getElem? fun i => ?_
  by_cases hi : i < bytes.length
  · have hload := hr _ rfl i (by rw [List.length_ofFn]; exact hi) bytes[i] ?_
    · exact hload.trans (List.getElem?_eq_getElem hi).symm
    · rw [Nat.zero_add, h i hi, List.getElem?_eq_getElem hi]
      rfl
  · rw [List.getElem?_eq_none (by rw [List.length_ofFn]; omega), List.getElem?_eq_none (by omega)]

theorem asks : AsksOf fileWatch rtssUpdMsgFlashImage :=
  fun _ _ ho msg hmsg hflash => absurd hflash (ho msg hmsg)

/-- A file has been loaded whole, and its bytes are in the OTA buffer with their padding. -/
structure Loaded (s : FileWatch) (size : Nat) (contents : List UInt8) : Prop where
  whole : s.contents = some contents
  holds : s.Holds (padded contents)
  length : size = (padded contents).length
  narrow : size < 4294967296 ∨ size % 4294967296 = 0

/-- What the padding leaves in the OTA buffer behind a file's bytes. -/
theorem Holds.pad {contents : List UInt8} (h : s.Holds contents) (psize : Nat) :
    ((s.store contents.length [0]).store contents.length (List.replicate psize 0)).Holds
      (contents ++ List.replicate psize 0) :=
  Holds.store_append (h.store_append [0]).of_append _

theorem loadfile_keeps (path : CString) {dst : Nat} (hdst : dst ≠ null) (s : FileWatch) :
    fileWatch.Keeps (fun ret s => ∃ size contents, ret = int32 size ∧ Loaded s size contents)
      (rtssUpdaterLoadfile path dst rtssUpdGetCacheLineSz.toNat) s := by
  refine .guard (fun hnull => absurd hnull hdst) fun _ => ?_
  refine ⟨asks.unsent rfl, fun (file : Option (UInt32 × Nat)) ⟨hfile, _⟩ => ?_⟩
  obtain ⟨size, hsize, hnarrow⟩ := hfile.1 file rfl
  cases file with
  | none => cases hsize
  | some file =>
      obtain ⟨mode, fsize⟩ := file
      refine .guard (fun hmode => ?_) fun hmode => ?_
      · simp only [readable, Option.bind_some, if_pos hmode] at hsize
        cases hsize
      · have hfound : readable (some (mode, fsize)) = some fsize := if_neg hmode
        rw [hfound] at hsize
        obtain rfl : fsize = size := Option.some.inj hsize
        refine ⟨asks.unsent rfl, fun (fd : Int) ⟨hopen, _⟩ => ?_⟩
        have hfd : fd ≠ -1 := hopen.2.1 fd rfl
        refine .guard (fun hbad => absurd hbad hfd) fun _ => ?_
        refine ⟨asks.unsent rfl,
          fun (bytes : Option { bytes : List UInt8 // bytes.length ≤ fsize }) ⟨hread, _⟩ => ?_⟩
        have hwhole := hread.2.2 _ rfl
        cases bytes with
        | none => cases hwhole
        | some bytes =>
            obtain ⟨contents, hle⟩ := bytes
            obtain rfl : contents.length = fsize := Option.some.inj hwhole
            have hcontents : (((s.find (some (mode, contents.length))).open' fd).read
                (some contents)).contents = some contents := by
              simp [read, open', find, hfd, hfound]
            have hlength : cacheLines contents.length = (padded contents).length :=
              (padded_length contents).symm
            refine ⟨asks.unsent rfl, fun _ _ => .guard (fun hshort => absurd rfl hshort)
              fun _ => .guard (fun hpad => ?_) fun hpad => ?_⟩
            · refine ⟨asks.unsent rfl, fun _ _ => ⟨asks.unsent rfl, fun _ _ =>
                ⟨asks.unsent rfl, fun _ _ => ?_⟩⟩⟩
              refine ⟨cacheLines contents.length, contents, ?_, hcontents, ?_, hlength, hnarrow⟩
              · rw [cacheLines_eq]
              · rw [padded_eq]
                exact (holds_store _ contents).pad _
            · refine ⟨asks.unsent rfl, fun _ _ => ?_⟩
              have hnone : cacheLines contents.length = contents.length := by
                rw [cacheLines_eq]
                omega
              refine ⟨contents.length, contents, rfl, hcontents, ?_, hnone ▸ hlength,
                hnone ▸ hnarrow⟩
              rw [padded, hnone, Nat.sub_self, List.replicate_zero, List.append_nil]
              exact holds_store _ contents

theorem Loaded.toNat {size : Nat} {contents : List UInt8} (h : Loaded s size contents)
    (hsize : ¬ UInt32.ofNat size ≤ 0) : (UInt32.ofNat size).toNat = (padded contents).length := by
  rw [UInt32.not_le, UInt32.lt_iff_toNat_lt, UInt32.toNat_ofNat'] at hsize
  have hnarrow := h.narrow
  rw [UInt32.toNat_ofNat', ← h.length]
  simp only [UInt32.toNat_zero] at hsize
  omega

theorem collectCrc_keeps {size : Nat} {contents : List UInt8} (h : Loaded s size contents)
    (hsize : ¬ UInt32.ofNat size ≤ 0) :
    fileWatch.Keeps (fun r s' => s' = s ∧ r = rtssUpdCalculateCrc32 (padded contents))
      (collectCrc 0 (UInt32.ofNat size)) s := by
  refine .guard (fun hgiven => absurd rfl hgiven) fun _ => ?_
  refine ⟨asks.unsent rfl, fun (bytes : Fin (UInt32.ofNat size).toNat → UInt8) ⟨_, hstable⟩ =>
    ⟨rfl, ?_⟩⟩
  exact congrArg rtssUpdCalculateCrc32 (h.holds.loaded (h.toNat hsize) hstable)

theorem flashimg_keeps (u : Updater) (imageNm : CString) (gpt partition flashtype : UInt32)
    {size : Nat} {contents : List UInt8} (h : Loaded s size contents)
    (hsize : ¬ UInt32.ofNat size ≤ 0) :
    fileWatch.Keeps (fun ret _ => ret = exitSuccess → True) (rtssUpdaterFlashimg u (some imageNm)
      gpt partition u.sVa (UInt32.ofNat size) 0 flashtype u.pVa) s := by
  refine .guard (fun _ _ => trivial) fun _ => (collectCrc_keeps h hsize).then ?_
  rintro r _ ⟨rfl, hcrc⟩
  cases r with
  | none => exact fun _ => trivial
  | some crc =>
      have hissues : Issues (fun _ => False)
          (fun msg => announced msg = (u.sVa, UInt32.ofNat size, crc))
          (sealAndSend u (flashimgMsg imageNm gpt partition u.sVa (UInt32.ofNat size) crc
            flashtype)) := .sealed u fun headerCrc => flashimgMsg_announced _ _ _ _ _ _ _ headerCrc
      refine hissues.keeps (P := fun s => Loaded s size contents) (fun _ _ ho => ho.elim) ?_ h
      intro o msg s hmsg hannounced h
      refine ⟨fun msg' hmsg' _ => ?_, fun _ _ => trivial⟩
      cases Option.mem_unique hmsg hmsg'
      simp only [announced, Prod.mk.injEq] at hannounced
      obtain ⟨-, hlen, hcrc'⟩ := hannounced
      refine ⟨contents, h.whole, h.holds, ?_, ?_⟩
      · rw [hlen, h.toNat hsize]
      · rw [hcrc', hcrc]

theorem flashFile_passes (u : Updater) (path imageNm : CString) (partition flashtype : UInt32)
    (hs : Handshake) (s : FileWatch) :
    fileWatch.Passes (fun _ _ => True) (flashFile u path imageNm partition flashtype hs) s := by
  have hread : ∀ s : FileWatch, fileWatch.allows s (waitRead u) ∧ ∀ r : Int × Mem,
      fileWatch.assumes s ⟨waitRead u, r⟩ → (hs.afterRead r).respStatus = 0 → True :=
    fun s => ⟨asks.unsent rfl, fun _ _ _ => trivial⟩
  by_cases hpVa : u.pVa = null
  · refine Passes.then (Q := fun _ _ => True) (.lift (.guard (fun _ => trivial)
      fun hne => absurd hpVa hne)) fun ret s _ => .guard (fun _ => .bind .failure) fun _ => ?_
    refine exchange_passes (R := fun _ => True) (.guard (fun _ _ => trivial)
      fun hne => absurd hpVa hne) fun s _ => hread s
  · refine Passes.then (.lift (loadfile_keeps path hpVa s)) ?_
    rintro _ s ⟨size, contents, rfl, h⟩
    rw [ofInt_int32]
    refine .guard (fun _ => .bind .failure) fun hsize => ?_
    exact exchange_passes (R := fun _ => True) (flashimg_keeps u imageNm 0 partition flashtype
      h hsize) fun s _ => hread s

end FileWatch

/-- In every run of the sequences that flash files, if the files can be loaded, an image
is only flashed from a loaded file. -/
theorem loaded_images_flashed (seq : SequenceId) (hseq : seq = .preboot ∨ seq = .flasher)
    (u : Updater) (hs : Handshake) (t : List (Event UpdSig)) (q : Prog UpdSig UInt32)
    (hruns : Runs (seq.prog u hs) t q) (hloads : fileWatch.Assumed .start t) :
    fileWatch.Allowed .start t := by
  refine (Keeps.runs (Q := fun ret _ => ret = exitSuccess → ∃ _ : Handshake, True) hruns ?_
    hloads).1
  obtain rfl | rfl := hseq
  · exact preboot_keeps FileWatch.asks.steady FileWatch.asks.steady (by decide)
      (fun hs s _ => FileWatch.asks.steady.checkBootInfo u _ (fun _ _ _ _ => id) (by decide) hs
        trivial)
      (fun path imageNm hs s _ => FileWatch.flashFile_passes u path imageNm 1 2 hs s)
      (by decide) hs trivial
  · exact flasher_keeps FileWatch.asks.steady (fun _ _ _ _ => id) (fun _ => id)
      (fun path imageNm bank hs s _ _ => FileWatch.flashFile_passes u path imageNm bank 1 hs s)
      hs trivial

theorem loaded_images_flashed_sample :
    let w := World.sample (sampleBootResponses (List.replicate 52 0))
    fileWatch.Allowed .start (eventTrace World.step (SequenceId.preboot.prog .sample .zero) w) :=
  loaded_images_flashed .preboot (Or.inl rfl) .sample .zero _ _ (runs_eventTrace World.step _ _)
    (by decide +kernel)

theorem missing_file_flashed {u : Updater} {hs : Handshake} {s : FileWatch} (hpVa : u.pVa ≠ null)
    (path imageNm : CString) (partition flashtype : UInt32) :
    fileWatch.unassuming.Violates (flashFile u path imageNm partition flashtype hs).run s := by
  refine missing_file_violates (P := fun s : FileWatch => s.contents = none)
    (fun _ _ _ => trivial) hpVa path imageNm partition flashtype (fun _ => rfl) (fun _ _ _ => id)
    fun s crc headerCrc hcontents hallows => ?_
  obtain ⟨contents, hmem, -⟩ := hallows _ rfl (ofKind_sealed _ _ headerCrc)
  rw [hcontents] at hmem
  cases hmem

/-- When the file of an image is missing, the image is flashed with 4294967295 bytes. -/
theorem unloaded_image_flashed :
    ¬ ∀ t q, Runs (rtssUpdaterPrebootDemosequence .sample .zero) t q →
      fileWatch.Allowed .start t := by
  intro h
  have hboot : fileWatch.unassuming.May (fun r _ => r.isSome)
      (askBootInfo .sample Updater.sample.imgParseInf .zero).run .start := by
    refine .of_run World.step (.sample (sampleBootResponses (List.replicate 52 0)))
      (fun _ _ _ _ => trivial) ?_
    decide +kernel
  have hviolates :
      fileWatch.unassuming.Violates (rtssUpdaterPrebootDemosequence .sample .zero) .start := by
    rw [preboot_parts]
    refine Violates.first (Violates.next (hboot.mono fun r s hr => ?_))
    obtain ⟨hs, rfl⟩ := Option.isSome_iff_exists.mp hr
    exact ⟨hs, rfl, Violates.first (Violates.first (missing_file_flashed (by decide) _ _ 1 2))⟩
  obtain ⟨t, q, hruns, -, hviolated⟩ := hviolates.exists_run
  exact hviolated (h t q hruns)

end RtssMailbox
