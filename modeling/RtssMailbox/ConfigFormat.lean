import Mathlib.Data.List.Forall2
import RtssMailbox.Library.Tokens
import RtssMailbox.UpdaterConfig

/-!
The format of the OTA configuration file, as it is documented and as the parser takes it.
Both list one entry for each line; they differ in what a line may look like and in blank
lines, and the parser does what is documented on the files where this makes no difference.
-/
namespace RtssMailbox
open Tokens

/-- The documented form of a line: a name, spaces, and a path that fits with its NUL. -/
structure DocumentedLine (line : List UInt8) (name path : CString) : Prop where
  form : ∃ k, trimLineEnd line = name ++ 32 :: (List.replicate k 32 ++ path)
  word : Word 32 path
  no_nul : 0 ∉ path
  fits : path.length < rtssUpdaterCfgMaxImagepathLen

/-- What the parser takes for a line: two words up to the first NUL, with the end of the
line cut off from the second one. -/
structure ToleratedLine (line : List UInt8) (name path : CString) : Prop where
  form : ∃ token, TwoWords 32 (line.takeWhile (· ≠ 0)) name token ∧ trimLineEnd token = path
  fits : path.length ≤ rtssUpdaterCfgMaxImagepathLen

/-- Lines of one form that list entries: one to five, each with a supported name of its own. -/
structure Lists (form : List UInt8 → CString → CString → Prop) (lines : List (List UInt8))
    (entries : List (CString × CString)) : Prop where
  lines : List.Forall₂ (fun line e => form line e.1 e.2) lines entries
  not_empty : entries ≠ []
  at_most : entries.length ≤ rtssUpdaterCfgMaxImages
  supported : ∀ e ∈ entries, e.1 ∈ rtssUpdaterSupportedImgNames
  distinct : (entries.map Prod.fst).Nodup

def nonEmptyLines (file : List UInt8) : List (List UInt8) :=
  (getlines file).filter fun line => trimLineEnd line ≠ []

def Documented (file : List UInt8) : List (CString × CString) → Prop :=
  Lists DocumentedLine (nonEmptyLines file)

def Tolerated (file : List UInt8) : List (CString × CString) → Prop :=
  Lists ToleratedLine (getlines file)

/-- A configuration of these entries. -/
structure ImgConfig.Holds (cfg : ImgConfig) (entries : List (CString × CString)) : Prop where
  images : cfg.numberOfImages = entries.length
  paths : cfg.numberOfPaths = entries.length
  entry : ∀ i (hi : i < entries.length),
    cfg.imageNames i = entries[i].1 ∧ cfg.imagePaths i = entries[i].2

/-- The parser accepts the file if and only if it is of the documented form, and then the
configuration holds its entries. -/
def ReadsAsDocumented (file : List UInt8) (old : ImgConfig) : Prop :=
  let r := rtssUpdaterCfgfileRead (some file) old rtssUpdaterSupportedImgNames
    rtssUpdaterCfgMaxImages
  (r.1 = exitSuccess ↔ ∃ entries, Documented file entries) ∧
    ∀ entries, Documented file entries → r.1 = exitSuccess → r.2.Holds entries

/-- A line on which the two forms agree. -/
structure RegularLine (line : List UInt8) : Prop where
  no_nul : 0 ∉ line
  no_leading : line.head? ≠ some 32
  no_trailing : line.getLast? ≠ some 32
  path : ∀ name path, ToleratedLine line name path →
    path ≠ [] ∧ path.length ≠ rtssUpdaterCfgMaxImagepathLen

/-! The end of a line. -/

theorem trimLineEnd_crlf (b : List UInt8) : trimLineEnd (b ++ [13, 10]) = b := by
  simp [trimLineEnd]

theorem trimLineEnd_lf (b : List UInt8) (hb : b.getLast? ≠ some 13) :
    trimLineEnd (b ++ [10]) = b := by
  have hlf : (b ++ [10])[b.length]? = some 10 := by simp
  have hcr : ¬ (b.length + 1 ≥ 2 ∧ (b ++ [10])[b.length - 1]? = some 13) := by
    rintro ⟨hlen, hcr⟩
    rw [List.getElem?_append_left (by omega), ← List.getLast?_eq_getElem?] at hcr
    exact hb hcr
  simp only [trimLineEnd, List.length_append, List.length_singleton]
  rw [if_neg (fun h => hcr ⟨h.1, h.2.1⟩), if_pos ⟨by omega, hlf⟩]
  simp

theorem trimLineEnd_none (s : List UInt8) (hs : s.getLast? ≠ some 10) : trimLineEnd s = s := by
  rw [List.getLast?_eq_getElem?] at hs
  rw [trimLineEnd, if_neg (fun h => hs h.2.2), if_neg (fun h => hs h.2)]

theorem exists_lineEnd (line : List UInt8) : ∃ ending, line = trimLineEnd line ++ ending ∧
    (ending = [13, 10] ∨ ending = [10] ∨ ending = []) := by
  by_cases hlf : line.getLast? = some 10
  · obtain ⟨b, rfl⟩ := List.getLast?_eq_some_iff.mp hlf
    by_cases hcr : b.getLast? = some 13
    · obtain ⟨b, rfl⟩ := List.getLast?_eq_some_iff.mp hcr
      refine ⟨[13, 10], ?_, Or.inl rfl⟩
      rw [List.append_assoc]
      exact congrArg (· ++ [13, 10]) (trimLineEnd_crlf b).symm
    · exact ⟨[10], congrArg (· ++ [10]) (trimLineEnd_lf b hcr).symm, Or.inr (Or.inl rfl)⟩
  · refine ⟨[], ?_, Or.inr (Or.inr rfl)⟩
    rw [trimLineEnd_none line hlf, List.append_nil]

theorem trimLineEnd_space (s token : List UInt8) :
    trimLineEnd (s ++ 32 :: token) = s ++ 32 :: trimLineEnd token := by
  by_cases hlf : token.getLast? = some 10
  · obtain ⟨b, rfl⟩ := List.getLast?_eq_some_iff.mp hlf
    by_cases hcr : b.getLast? = some 13
    · obtain ⟨b, rfl⟩ := List.getLast?_eq_some_iff.mp hcr
      have hline := trimLineEnd_crlf (s ++ 32 :: b)
      simp only [List.append_assoc, List.cons_append, List.nil_append] at hline ⊢
      rw [hline, trimLineEnd_crlf]
    · have hlast : (s ++ 32 :: b).getLast? ≠ some 13 := by
        rw [List.getLast?_append_cons, List.getLast?_cons]
        cases hb : b.getLast? with
        | none => simp
        | some x => simpa [hb] using hcr
      have hline := trimLineEnd_lf (s ++ 32 :: b) hlast
      simp only [List.append_assoc, List.cons_append] at hline ⊢
      rw [hline, trimLineEnd_lf b hcr]
  · have hlast : (s ++ 32 :: token).getLast? ≠ some 10 := by
      rw [List.getLast?_append_cons, List.getLast?_cons]
      cases hb : token.getLast? with
      | none => simp
      | some x => simpa [hb] using hlf
    rw [trimLineEnd_none _ hlast, trimLineEnd_none _ hlf]

/-! The two forms of a line. -/

theorem ToleratedLine.unique {line : List UInt8} {name path name' path' : CString}
    (h : ToleratedLine line name path) (h' : ToleratedLine line name' path') :
    name = name' ∧ path = path' := by
  obtain ⟨token, hwords, rfl⟩ := h.form
  obtain ⟨token', hwords', rfl⟩ := h'.form
  obtain ⟨rfl, rfl⟩ := hwords.unique hwords'
  exact ⟨rfl, rfl⟩

theorem supportedName : ∀ name ∈ rtssUpdaterSupportedImgNames,
    name ≠ [] ∧ 32 ∉ name ∧ 0 ∉ name ∧ name.head? ≠ some 32 ∧
      name.length ≤ rtssUpdaterCfgMaxImagepathLen ∧
      rtssUpdaterSupportedImgNames.count name = 1 := by
  decide

theorem takeWhile_no_nul {line : List UInt8} (h : 0 ∉ line) : line.takeWhile (· ≠ 0) = line :=
  List.takeWhile_eq_self_iff.mpr fun _ hb => decide_eq_true fun heq => h (heq ▸ hb)

/-- The last of the spaces between two words, apart from the others. -/
theorem last_space (name s : List UInt8) (k : Nat) :
    name ++ 32 :: (List.replicate k 32 ++ s) = (name ++ List.replicate k 32) ++ 32 :: s := by
  have hshift : (32 :: List.replicate k 32 : List UInt8) = List.replicate k 32 ++ [32] := by
    rw [← List.replicate_succ, List.replicate_succ']
  rw [← List.cons_append, hshift, List.append_assoc, List.append_assoc]
  rfl

theorem DocumentedLine.spelled {line : List UInt8} {name path : CString}
    (h : DocumentedLine line name path) :
    ∃ k ending, line = name ++ 32 :: (List.replicate k 32 ++ (path ++ ending)) ∧
      trimLineEnd (path ++ ending) = path ∧
      (ending = [13, 10] ∨ ending = [10] ∨ ending = []) := by
  obtain ⟨k, hform⟩ := h.form
  obtain ⟨ending, hline, hending⟩ := exists_lineEnd line
  rw [hform] at hline
  refine ⟨k, ending, ?_, ?_, hending⟩
  · rw [hline]
    simp only [List.append_assoc, List.cons_append]
  · have htrim := trimLineEnd_space (name ++ List.replicate k 32) (path ++ ending)
    have hsame : (name ++ List.replicate k 32) ++ 32 :: (path ++ ending) = line := by
      rw [← last_space, hline]
      simp only [List.append_assoc, List.cons_append]
    rw [hsame, hform, last_space] at htrim
    exact ((List.cons.inj (List.append_cancel_left htrim)).2).symm

section Lines
variable {line : List UInt8} {name path : CString}

theorem ending_free {ending : List UInt8}
    (h : ending = [13, 10] ∨ ending = [10] ∨ ending = []) : 32 ∉ ending ∧ 0 ∉ ending := by
  rcases h with rfl | rfl | rfl <;> decide

theorem DocumentedLine.no_nul_line (h : DocumentedLine line name path)
    (hname : name ∈ rtssUpdaterSupportedImgNames) : 0 ∉ line := by
  obtain ⟨k, ending, rfl, -, hending⟩ := h.spelled
  have hfree := (supportedName name hname).2.2.1
  simp [hfree, h.no_nul, (ending_free hending).2]

theorem DocumentedLine.tolerated (h : DocumentedLine line name path)
    (hname : name ∈ rtssUpdaterSupportedImgNames) : ToleratedLine line name path := by
  obtain ⟨hne, hfree, -⟩ := supportedName name hname
  obtain ⟨k, ending, hline, htrim, hending⟩ := h.spelled
  refine ⟨⟨path ++ ending, ?_, htrim⟩, Nat.le_of_lt h.fits⟩
  rw [takeWhile_no_nul (h.no_nul_line hname)]
  refine ⟨⟨hne, hfree⟩, ⟨?_, ?_⟩, 0, k, 0, ?_⟩
  · exact fun hnil => h.word.ne_nil (List.append_eq_nil_iff.mp hnil).1
  · rw [List.mem_append]
    exact fun hmem => hmem.elim h.word.free (ending_free hending).1
  · rw [List.replicate_zero, List.append_nil, List.nil_append]
    exact hline

theorem DocumentedLine.regular (h : DocumentedLine line name path)
    (hname : name ∈ rtssUpdaterSupportedImgNames) : RegularLine line := by
  obtain ⟨hne, -, -, hhead, -⟩ := supportedName name hname
  obtain ⟨k, ending, hline, -, hending⟩ := h.spelled
  refine ⟨h.no_nul_line hname, ?_, ?_, fun name' path' h' => ?_⟩
  · rw [hline, List.head?_append_of_ne_nil _ hne]
    exact hhead
  · have hlast : (path ++ ending).getLast? ≠ some 32 := by
      intro hlast
      have hmem := List.mem_of_getLast? hlast
      exact (List.mem_append.mp hmem).elim h.word.free (ending_free hending).1
    have hne' : path ++ ending ≠ [] := fun hnil =>
      h.word.ne_nil (List.append_eq_nil_iff.mp hnil).1
    have hshape : line = (name ++ 32 :: List.replicate k 32) ++ (path ++ ending) := by
      rw [hline, List.append_assoc, List.cons_append]
    rw [hshape, List.getLast?_append_of_ne_nil _ hne']
    exact hlast
  · obtain ⟨rfl, rfl⟩ := h'.unique (h.tolerated hname)
    exact ⟨h.word.ne_nil, Nat.ne_of_lt h.fits⟩

/-- A tolerated line in the documented form needs no more than to be regular. -/
theorem ToleratedLine.documented (h : ToleratedLine line name path) (hregular : RegularLine line) :
    DocumentedLine line name path := by
  obtain ⟨hne, hlen⟩ := hregular.path name path h
  obtain ⟨token, ⟨hname, htoken, i, k, j, hline⟩, htrim⟩ := h.form
  rw [takeWhile_no_nul hregular.no_nul] at hline
  have hi : i = 0 := by
    cases i with
    | zero => rfl
    | succ i => exact absurd (by rw [hline]; rfl) hregular.no_leading
  have hj : j = 0 := by
    cases j with
    | zero => rfl
    | succ j =>
        refine absurd ?_ hregular.no_trailing
        rw [hline, List.replicate_succ']
        simp only [← List.append_assoc, ← List.cons_append]
        exact List.getLast?_concat
  subst hi hj
  simp only [List.replicate_zero, List.nil_append, List.append_nil] at hline
  obtain ⟨ending, hend, -⟩ := exists_lineEnd token
  rw [htrim] at hend
  have hsub : ∀ b ∈ path, b ∈ token := by
    intro b hb
    rw [hend]
    exact List.mem_append_left _ hb
  refine ⟨⟨k, ?_⟩, ⟨hne, fun hmem => htoken.free (hsub _ hmem)⟩, ?_, Nat.lt_of_le_of_ne h.fits hlen⟩
  · rw [hline, last_space, trimLineEnd_space, htrim, ← last_space]
  · intro hmem
    apply hregular.no_nul
    rw [hline]
    simp [hsub 0 hmem]

theorem ToleratedLine.not_blank (h : ToleratedLine line name path) : trimLineEnd line ≠ [] := by
  intro hblank
  obtain ⟨token, ⟨-, -, i, k, j, hline⟩, -⟩ := h.form
  obtain ⟨ending, hend, hending⟩ := exists_lineEnd line
  rw [hblank, List.nil_append] at hend
  have hmem : 32 ∈ line.takeWhile (· ≠ 0) := by
    rw [hline]
    simp
  apply (ending_free hending).1
  rw [← hend]
  exact (List.takeWhile_sublist _).mem hmem

end Lines

section Config

/-- The entries in the slots from number `i` on. -/
def ImgConfig.fill (cfg : ImgConfig) : (i : Nat) → List (CString × CString) → ImgConfig
  | _, [] => cfg
  | i, e :: entries => ((cfg.setName i e.1).setPath i e.2).fill (i + 1) entries

@[simp] theorem ImgConfig.setPath_imagePaths (cfg : ImgConfig) (i k : Nat) (path : CString) :
    (cfg.setPath i path).imagePaths k =
      if k = i then path.take rtssUpdaterCfgMaxImagepathLen else cfg.imagePaths k := rfl

@[simp] theorem ImgConfig.setName_imagePaths (cfg : ImgConfig) (i : Nat) (name : CString) :
    (cfg.setName i name).imagePaths = cfg.imagePaths := rfl

theorem ImgConfig.fill_before (cfg : ImgConfig) (entries : List (CString × CString)) {i k : Nat}
    (hk : k < i) : (cfg.fill i entries).imageNames k = cfg.imageNames k ∧
      (cfg.fill i entries).imagePaths k = cfg.imagePaths k := by
  induction entries generalizing cfg i with
  | nil => exact ⟨rfl, rfl⟩
  | cons e entries ih =>
      obtain ⟨hname, hpath⟩ := ih ((cfg.setName i e.1).setPath i e.2) (Nat.lt_succ_of_lt hk)
      have hne : k ≠ i := Nat.ne_of_lt hk
      simp only [setPath_imageNames, setName_imageNames, setPath_imagePaths, setName_imagePaths,
        if_neg hne] at hname hpath
      exact ⟨hname, hpath⟩

theorem ImgConfig.fill_entry (cfg : ImgConfig) (entries : List (CString × CString)) (i : Nat)
    (hfits : ∀ e ∈ entries, e.1.length ≤ rtssUpdaterCfgMaxImagepathLen ∧
      e.2.length ≤ rtssUpdaterCfgMaxImagepathLen) (j : Nat) (hj : j < entries.length) :
    (cfg.fill i entries).imageNames (i + j) = entries[j].1 ∧
      (cfg.fill i entries).imagePaths (i + j) = entries[j].2 := by
  induction entries generalizing cfg i j with
  | nil => exact absurd hj (Nat.not_lt_zero j)
  | cons e entries ih =>
      cases j with
      | zero =>
          obtain ⟨hname, hpath⟩ := hfits e List.mem_cons_self
          obtain ⟨hnames, hpaths⟩ := ((cfg.setName i e.1).setPath i e.2).fill_before entries
            (Nat.lt_succ_self i)
          simp only [setPath_imageNames, setName_imageNames, setPath_imagePaths, if_pos,
            List.take_of_length_le hname, List.take_of_length_le hpath] at hnames hpaths
          exact ⟨hnames, hpaths⟩
      | succ j =>
          have hrest := ih ((cfg.setName i e.1).setPath i e.2) (i + 1)
            (fun e' he' => hfits e' (List.mem_cons_of_mem _ he')) j (Nat.lt_of_succ_lt_succ hj)
          rw [Nat.add_right_comm] at hrest
          exact hrest

/-- What is asked of the entries that lines add to `numImages` others. -/
structure Adds (numSupported numImages : Nat) (cfg : ImgConfig) (lines : List (List UInt8))
    (entries : List (CString × CString)) : Prop where
  lines : List.Forall₂ (fun line e => ToleratedLine line e.1 e.2) lines entries
  names : ∀ e ∈ entries, e.1.length ≤ rtssUpdaterCfgMaxImagepathLen
  room : numImages + entries.length ≤ numSupported
  distinct : (entries.map Prod.fst).Nodup
  unused : ∀ e ∈ entries, ∀ i < numImages, e.1 ≠ cfg.imageNames i

/-- A line that is taken, by its name and its path. -/
theorem readCfgLine_tolerated {numSupported numImages : Nat} {cfg cfg' : ImgConfig}
    {line : List UInt8} :
    readCfgLine numSupported cfg numImages (line.takeWhile (· ≠ 0)) = .ok cfg' ↔
      ∃ name path, ToleratedLine line name path ∧ numImages < numSupported ∧
        (∀ i < numImages, name ≠ cfg.imageNames i) ∧
        name.length ≤ rtssUpdaterCfgMaxImagepathLen ∧
        cfg' = (cfg.setName numImages name).setPath numImages path := by
  rw [readCfgLine_ok]
  constructor
  · rintro ⟨name, rest, token, rest', hname, htoken, hmore, hmax, hnew, hlong, hfits, rfl⟩
    exact ⟨name, _, ⟨⟨token, twoWords_iff.mpr ⟨rest, rest', hname, htoken, hmore⟩, rfl⟩, hfits⟩,
      hmax, hnew, hlong, rfl⟩
  · rintro ⟨name, path, ⟨⟨token, hwords, rfl⟩, hfits⟩, hmax, hnew, hlong, rfl⟩
    obtain ⟨rest, rest', hname, htoken, hmore⟩ := twoWords_iff.mp hwords
    exact ⟨name, rest, token, rest', hname, htoken, hmore, hmax, hnew, hlong, hfits, rfl⟩

/-- The first of the entries, and the others in the configuration after it. -/
theorem adds_cons {numSupported numImages : Nat} {cfg : ImgConfig} {line : List UInt8}
    {lines : List (List UInt8)} {e : CString × CString} {entries : List (CString × CString)} :
    Adds numSupported numImages cfg (line :: lines) (e :: entries) ↔
      (ToleratedLine line e.1 e.2 ∧ numImages < numSupported ∧
        (∀ i < numImages, e.1 ≠ cfg.imageNames i) ∧
        e.1.length ≤ rtssUpdaterCfgMaxImagepathLen) ∧
      Adds numSupported (numImages + 1) ((cfg.setName numImages e.1).setPath numImages e.2)
        lines entries := by
  have hslot : e.1.length ≤ rtssUpdaterCfgMaxImagepathLen → ∀ name : CString,
      ((∀ i < numImages + 1, name ≠
        ((cfg.setName numImages e.1).setPath numImages e.2).imageNames i) ↔
        name ≠ e.1 ∧ ∀ i < numImages, name ≠ cfg.imageNames i) := by
    intro hlong name
    simp only [ImgConfig.setPath_imageNames, ImgConfig.setName_imageNames,
      List.take_of_length_le hlong]
    constructor
    · intro h
      refine ⟨?_, fun i hi => ?_⟩
      · have hlast := h numImages (Nat.lt_succ_self _)
        rw [if_pos rfl] at hlast
        exact hlast
      · have hother := h i (Nat.lt_succ_of_lt hi)
        rw [if_neg (Nat.ne_of_lt hi)] at hother
        exact hother
    · rintro ⟨hlast, hother⟩ i hi
      by_cases hi' : i = numImages
      · rw [if_pos hi']
        exact hlast
      · rw [if_neg hi']
        exact hother i (by omega)
  constructor
  · intro h
    obtain ⟨hline, hlines⟩ := List.forall₂_cons.mp h.lines
    obtain ⟨hlong, hlongs⟩ := List.forall_mem_cons.mp h.names
    obtain ⟨hfirst, hdistinct⟩ := List.nodup_cons.mp h.distinct
    obtain ⟨hnew, hnews⟩ := List.forall_mem_cons.mp h.unused
    have hroom := h.room
    rw [List.length_cons] at hroom
    refine ⟨⟨hline, by omega, hnew, hlong⟩, hlines, hlongs, by omega, hdistinct, fun e' he' => ?_⟩
    refine (hslot hlong e'.1).mpr ⟨fun hsame => hfirst ?_, hnews e' he'⟩
    rw [← hsame]
    exact List.mem_map_of_mem he'
  · rintro ⟨⟨hline, hmax, hnew, hlong⟩, h⟩
    have hunused := fun e' he' => (hslot hlong e'.1).mp (h.unused e' he')
    have hroom := h.room
    refine ⟨.cons hline h.lines, List.forall_mem_cons.mpr ⟨hlong, h.names⟩, ?_, ?_,
      List.forall_mem_cons.mpr ⟨hnew, fun e' he' => (hunused e' he').2⟩⟩
    · rw [List.length_cons]
      omega
    · rw [List.map_cons, List.nodup_cons]
      refine ⟨fun hmem => ?_, h.distinct⟩
      obtain ⟨e', he', hsame⟩ := List.mem_map.mp hmem
      exact (hunused e' he').1 hsame

/-- The lines that are read are those that add entries, which fill the slots in their order. -/
theorem readCfgLines_ok {numSupported numImages numImages' : Nat} {cfg cfg' : ImgConfig}
    {lines : List (List UInt8)} (hmax : numImages ≤ numSupported) :
    readCfgLines numSupported lines numImages cfg = .ok (numImages', cfg') ↔
      ∃ entries, Adds numSupported numImages cfg lines entries ∧
        numImages' = numImages + entries.length ∧ cfg' = cfg.fill numImages entries := by
  induction lines generalizing numImages cfg with
  | nil =>
      constructor
      · intro h
        cases h
        exact ⟨[], ⟨.nil, nofun, hmax, List.nodup_nil, nofun⟩, rfl, rfl⟩
      · rintro ⟨entries, hadds, rfl, rfl⟩
        cases hadds.lines
        rfl
  | cons line lines ih =>
      rw [readCfgLines]
      constructor
      · intro h
        split at h
        · cases h
        · rename_i cfg₁ hline
          obtain ⟨name, path, htolerated, hlt, hnew, hlong, rfl⟩ := readCfgLine_tolerated.mp hline
          obtain ⟨entries, hadds, rfl, rfl⟩ := (ih hlt).mp h
          refine ⟨(name, path) :: entries,
            adds_cons.mpr ⟨⟨htolerated, hlt, hnew, hlong⟩, hadds⟩, ?_, rfl⟩
          rw [List.length_cons]
          omega
      · rintro ⟨entries, hadds, rfl, rfl⟩
        cases entries with
        | nil => cases hadds.lines
        | cons e entries =>
            obtain ⟨⟨htolerated, hlt, hnew, hlong⟩, hadds⟩ := adds_cons.mp hadds
            rw [readCfgLine_tolerated.mpr ⟨e.1, e.2, htolerated, hlt, hnew, hlong, rfl⟩]
            refine (ih hlt).mpr ⟨entries, hadds, ?_, rfl⟩
            rw [List.length_cons]
            omega

end Config

section Files
variable {file : List UInt8} {entries : List (CString × CString)} {old : ImgConfig}

theorem read_lines {numImages : Nat} {cfg : ImgConfig}
    (hlines : readCfgLines rtssUpdaterCfgMaxImages (getlines file) 0 old = .ok (numImages, cfg)) :
    rtssUpdaterCfgfileRead (some file) old rtssUpdaterSupportedImgNames rtssUpdaterCfgMaxImages =
      if ∃ i < numImages, rtssUpdaterSupportedImgNames.count (cfg.imageNames i) ≠ 1 then
        (exitFailure, cfg)
      else if numImages = 0 then
        (exitFailure, { cfg with numberOfImages := numImages, numberOfPaths := numImages })
      else
        (exitSuccess, { cfg with numberOfImages := numImages, numberOfPaths := numImages }) := by
  simp only [rtssUpdaterCfgfileRead, hlines]

theorem forall_mem_of_forall₂ {α β : Type} {R : α → β → Prop} {P : β → Prop} {l : List α}
    {l' : List β} (hR : ∀ a b, R a b → P b) (h : List.Forall₂ R l l') : ∀ b ∈ l', P b := by
  induction h with
  | nil => exact nofun
  | cons hab _ ih => exact List.forall_mem_cons.mpr ⟨hR _ _ hab, ih⟩

theorem tolerated_fits {lines : List (List UInt8)}
    (hlines : List.Forall₂ (fun line e => ToleratedLine line e.1 e.2) lines entries) :
    ∀ e ∈ entries, e.2.length ≤ rtssUpdaterCfgMaxImagepathLen := by
  exact forall_mem_of_forall₂ (fun _ _ hline => hline.fits) hlines

theorem Tolerated.read (h : Tolerated file entries) (old : ImgConfig) :
    ∃ cfg, rtssUpdaterCfgfileRead (some file) old rtssUpdaterSupportedImgNames
      rtssUpdaterCfgMaxImages = (exitSuccess, cfg) ∧ cfg.Holds entries := by
  have hnames : ∀ e ∈ entries, e.1.length ≤ rtssUpdaterCfgMaxImagepathLen :=
    fun e he => (supportedName e.1 (h.supported e he)).2.2.2.2.1
  have hadds : Adds rtssUpdaterCfgMaxImages 0 old (getlines file) entries :=
    ⟨h.lines, hnames, by rw [Nat.zero_add]; exact h.at_most, h.distinct,
      fun _ _ i hi => absurd hi (Nat.not_lt_zero i)⟩
  have hread := read_lines ((readCfgLines_ok (Nat.zero_le _)).mpr ⟨entries, hadds, rfl, rfl⟩)
  have hentry := fun j hj => old.fill_entry entries 0
    (fun e he => ⟨hnames e he, tolerated_fits h.lines e he⟩) j hj
  simp only [Nat.zero_add] at hentry hread
  have hcount : ¬ ∃ i < entries.length,
      rtssUpdaterSupportedImgNames.count ((old.fill 0 entries).imageNames i) ≠ 1 := by
    rintro ⟨i, hi, hne⟩
    rw [(hentry i hi).1] at hne
    exact hne (supportedName _ (h.supported _ (List.getElem_mem hi))).2.2.2.2.2
  rw [if_neg hcount, if_neg (fun hnil => h.not_empty (List.length_eq_zero_iff.mp hnil))] at hread
  exact ⟨_, hread, rfl, rfl, hentry⟩

theorem tolerated_of_success
    (h : (rtssUpdaterCfgfileRead (some file) old rtssUpdaterSupportedImgNames
      rtssUpdaterCfgMaxImages).1 = exitSuccess) : ∃ entries, Tolerated file entries := by
  cases hlines : readCfgLines rtssUpdaterCfgMaxImages (getlines file) 0 old with
  | error cfg =>
      simp only [rtssUpdaterCfgfileRead, hlines] at h
      exact absurd h (by decide)
  | ok r =>
      obtain ⟨numImages, cfg⟩ := r
      rw [read_lines hlines] at h
      split_ifs at h with hcount hzero
      · exact absurd h (show ¬ exitFailure = exitSuccess by decide)
      · exact absurd h (show ¬ exitFailure = exitSuccess by decide)
      obtain ⟨entries, hadds, rfl, rfl⟩ := (readCfgLines_ok (Nat.zero_le _)).mp hlines
      have hroom := hadds.room
      rw [Nat.zero_add] at hcount hzero hroom
      refine ⟨entries, hadds.lines, fun hnil => hzero (by rw [hnil]; rfl), hroom, ?_,
        hadds.distinct⟩
      intro e he
      obtain ⟨i, hi, rfl⟩ := List.mem_iff_getElem.mp he
      have hentry := old.fill_entry entries 0
        (fun e he => ⟨hadds.names e he, tolerated_fits hadds.lines e he⟩) i hi
      rw [Nat.zero_add] at hentry
      have hone := not_not.mp fun hne => hcount ⟨i, hi, hne⟩
      rw [hentry.1] at hone
      exact List.count_pos_iff.mp (by rw [hone]; exact Nat.one_pos)

theorem Tolerated.not_blank (h : Tolerated file entries) :
    ∀ line ∈ getlines file, trimLineEnd line ≠ [] :=
  forall_mem_of_forall₂ (fun _ _ hline => hline.not_blank) h.lines.flip

theorem nonEmptyLines_eq (hblank : ∀ line ∈ getlines file, trimLineEnd line ≠ []) :
    nonEmptyLines file = getlines file :=
  List.filter_eq_self.mpr fun line hline => decide_eq_true (hblank line hline)

/-- The lines and the names of a documented file without blank lines. -/
theorem Documented.lines_supported (h : Documented file entries)
    (hblank : ∀ line ∈ getlines file, trimLineEnd line ≠ []) :
    List.Forall₂ (fun e line => e.1 ∈ rtssUpdaterSupportedImgNames ∧
      DocumentedLine line e.1 e.2) entries (getlines file) := by
  have hlines := h.lines
  rw [nonEmptyLines_eq hblank] at hlines
  exact (List.forall₂_and_left _ _).mpr ⟨h.supported, hlines.flip⟩

/-- A documented file without blank lines is tolerated, and its lines are regular. -/
theorem Documented.tolerated (h : Documented file entries)
    (hblank : ∀ line ∈ getlines file, trimLineEnd line ≠ []) :
    Tolerated file entries ∧ ∀ line ∈ getlines file, RegularLine line := by
  have hlines := h.lines_supported hblank
  constructor
  · have htolerated := hlines.imp fun e line hline => hline.2.tolerated hline.1
    exact ⟨htolerated.flip, h.not_empty, h.at_most, h.supported, h.distinct⟩
  · exact forall_mem_of_forall₂ (fun e line hline => hline.2.regular hline.1) hlines

theorem Tolerated.documented (h : Tolerated file entries)
    (hregular : ∀ line ∈ getlines file, RegularLine line) : Documented file entries := by
  have hlines := (List.forall₂_and_left _ _).mpr ⟨hregular, h.lines⟩
  refine ⟨?_, h.not_empty, h.at_most, h.supported, h.distinct⟩
  rw [nonEmptyLines_eq h.not_blank]
  exact hlines.imp fun line e hline => hline.2.documented hline.1

end Files

/-- The parser does what is documented exactly on the files that have no blank line if they
are of the documented form, and none but regular lines if they are of the tolerated one. -/
theorem cfgfile_read_iff (file : List UInt8) (old : ImgConfig) :
    ReadsAsDocumented file old ↔
      ((∃ entries, Documented file entries) → ∀ line ∈ getlines file, trimLineEnd line ≠ []) ∧
      ((∃ entries, Tolerated file entries) → ∀ line ∈ getlines file, RegularLine line) := by
  constructor
  · rintro ⟨haccepts, -⟩
    have hnotBlank : (∃ entries, Documented file entries) →
        ∀ line ∈ getlines file, trimLineEnd line ≠ [] := by
      intro hdocumented
      obtain ⟨_, htolerated⟩ := tolerated_of_success (haccepts.mpr hdocumented)
      exact htolerated.not_blank
    refine ⟨hnotBlank, ?_⟩
    rintro ⟨entries, htolerated⟩
    obtain ⟨cfg, hread, -⟩ := htolerated.read old
    obtain ⟨_, hdocumented⟩ := haccepts.mp (congrArg Prod.fst hread)
    exact (hdocumented.tolerated htolerated.not_blank).2
  · rintro ⟨hblank, hregular⟩
    have hread : ∀ entries, Documented file entries → ∃ cfg,
        rtssUpdaterCfgfileRead (some file) old rtssUpdaterSupportedImgNames
          rtssUpdaterCfgMaxImages = (exitSuccess, cfg) ∧ cfg.Holds entries :=
      fun entries h => (h.tolerated (hblank ⟨entries, h⟩)).1.read old
    refine ⟨⟨fun hsuccess => ?_, ?_⟩, fun entries hdocumented _ => ?_⟩
    · obtain ⟨entries, htolerated⟩ := tolerated_of_success hsuccess
      exact ⟨entries, htolerated.documented (hregular ⟨entries, htolerated⟩)⟩
    · rintro ⟨entries, hdocumented⟩
      obtain ⟨cfg, hcfg, -⟩ := hread entries hdocumented
      exact congrArg Prod.fst hcfg
    · obtain ⟨cfg, hcfg, hholds⟩ := hread entries hdocumented
      rw [hcfg]
      exact hholds

def noPathFile : List UInt8 := cString "SAIL_HYP \n"

def blankLineFile : List UInt8 := cString "SAIL_HYP /a\n\n"

theorem noPathFile_not_documented (entries : List (CString × CString)) :
    ¬ Documented noPathFile entries := by
  intro h
  have hlines : List.Forall₂ (fun line e => DocumentedLine line e.1 e.2) [noPathFile] entries :=
    h.lines
  obtain ⟨e, rest, hline, -, -⟩ := List.forall₂_cons_left_iff.mp hlines
  obtain ⟨k, hform⟩ := hline.form
  have hlast : (trimLineEnd noPathFile).getLast? = some 32 := by decide
  rw [hform, List.getLast?_append_cons, ← List.cons_append,
    List.getLast?_append_of_ne_nil _ hline.word.ne_nil] at hlast
  exact hline.word.free (List.mem_of_getLast? hlast)

theorem blankLineFile_documented :
    Documented blankLineFile [(cString "SAIL_HYP", cString "/a")] where
  lines := .cons ⟨⟨0, by decide⟩, ⟨by decide, by decide⟩, by decide, by decide⟩ .nil
  not_empty := by decide
  at_most := by decide
  supported := by decide
  distinct := by decide

/-- The entry without a path is accepted, and the blank line is not. -/
theorem cfgfile_not_read_as_documented :
    ¬ ReadsAsDocumented noPathFile ⟨0, 0, fun _ => [], fun _ => []⟩ ∧
      ¬ ReadsAsDocumented blankLineFile ⟨0, 0, fun _ => [], fun _ => []⟩ := by
  constructor
  · intro h
    obtain ⟨entries, hdocumented⟩ := h.1.mp (by decide)
    exact noPathFile_not_documented entries hdocumented
  · intro h
    have haccepted := h.1.mpr ⟨_, blankLineFile_documented⟩
    exact absurd haccepted (by decide)

end RtssMailbox
