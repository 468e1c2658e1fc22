import RtssMailbox.ConfigFormat
import RtssMailbox.StringSlots

/-!
The parser on the arrays of the configuration. The strings that they hold follow the parser
on strings, and a rendered list of images is read back, whatever an earlier parse has left
in the arrays.
-/
namespace RtssMailbox

/-- An array for a name or a path. -/
structure ImgSlot where
  bytes : List UInt8
  size : bytes.length = rtssUpdaterCfgMaxImagepathLen

structure ImgSlots where
  numberOfImages : Nat
  numberOfPaths : Nat
  imageNames : Nat → ImgSlot
  imagePaths : Nat → ImgSlot

def ImgSlot.string (slot : ImgSlot) : CString := cStringAt slot.bytes

def ImgSlots.strings (cfg : ImgSlots) : ImgConfig where
  numberOfImages := cfg.numberOfImages
  numberOfPaths := cfg.numberOfPaths
  imageNames i := (cfg.imageNames i).string
  imagePaths i := (cfg.imagePaths i).string

/-- The number of bytes that are copied into the cleared array, and the array. -/
def ImgSlot.save (slot : ImgSlot) (s : CString) : Nat × ImgSlot where
  fst := (fillString slot.bytes rtssUpdaterCfgMaxImagepathLen s).1
  snd :=
    { bytes := (fillString slot.bytes rtssUpdaterCfgMaxImagepathLen s).2
      size := (fillString_length (Nat.le_of_eq slot.size.symm)).trans slot.size }

def ImgSlots.setName (cfg : ImgSlots) (i : Nat) (slot : ImgSlot) : ImgSlots :=
  { cfg with imageNames := fun k => if k = i then slot else cfg.imageNames k }

def ImgSlots.setPath (cfg : ImgSlots) (i : Nat) (slot : ImgSlot) : ImgSlots :=
  { cfg with imagePaths := fun k => if k = i then slot else cfg.imagePaths k }

/-- One line, with the checks on the lengths that the copies return. -/
def readSlotsLine (numSupported : Nat) (cfg : ImgSlots) (numImages : Nat) (line : CString) :
    Except ImgSlots ImgSlots :=
  match strtokR line with
  | (none, _) => .error cfg
  | (some name, rest) =>
      if numImages ≥ numSupported then .error cfg
      else if ∃ i < numImages, name = (cfg.imageNames i).string then .error cfg
      else
        let (copied, slot) := (cfg.imageNames numImages).save name
        let cfg := cfg.setName numImages slot
        if name.length ≠ copied then .error cfg
        else
          match strtokR rest with
          | (none, _) => .error cfg
          | (some token, rest) =>
              let path := trimLineEnd token
              let (copied, slot) := (cfg.imagePaths numImages).save path
              let cfg := cfg.setPath numImages slot
              if path.length ≠ copied then .error cfg
              else if (strtokR rest).1.isSome then .error cfg
              else .ok cfg

def readSlotsLines (numSupported : Nat) :
    List (List UInt8) → Nat → ImgSlots → Except ImgSlots (Nat × ImgSlots)
  | [], numImages, cfg => .ok (numImages, cfg)
  | line :: lines, numImages, cfg =>
      match readSlotsLine numSupported cfg numImages (line.takeWhile (· ≠ 0)) with
      | .error cfg => .error cfg
      | .ok cfg => readSlotsLines numSupported lines (numImages + 1) cfg

/-- `rtssUpdaterCfgfileRead` on the arrays themselves. -/
def rtssUpdaterCfgfileReadSlots (file : Option (List UInt8)) (cfg : ImgSlots)
    (supportedimgNames : List CString) (numSupportedimgNames : Nat) : UInt32 × ImgSlots :=
  match file with
  | none => (exitFailure, cfg)
  | some file =>
      match readSlotsLines numSupportedimgNames (getlines file) 0 cfg with
      | .error cfg => (exitFailure, cfg)
      | .ok (numImages, cfg) =>
          if ∃ i < numImages, supportedimgNames.count (cfg.imageNames i).string ≠ 1 then
            (exitFailure, cfg)
          else
            let cfg := { cfg with numberOfImages := numImages, numberOfPaths := numImages }
            if numImages = 0 then (exitFailure, cfg) else (exitSuccess, cfg)

inductive LineEnd where
  | lf
  | crlf

def LineEnd.bytes : LineEnd → List UInt8
  | lf => [10]
  | crlf => [13, 10]

/-- What is written for an image: its name, the spaces after the first one, its path. -/
structure ConfigLine where
  name : CString
  path : CString
  spaces : Nat
  lineEnd : LineEnd

def ConfigLine.text (line : ConfigLine) : List UInt8 :=
  line.name ++ 32 :: (List.replicate line.spaces 32 ++ line.path)

/-- The lines of a file; the last one may be without its end. -/
def renderFile (final : Bool) : List ConfigLine → List UInt8
  | [] => []
  | line :: lines =>
      let lineEnd := if lines.isEmpty ∧ !final then [] else line.lineEnd.bytes
      line.text ++ (lineEnd ++ renderFile final lines)

/-- A path that the file format and the arrays can hold. -/
structure PlainPath (path : CString) : Prop where
  not_empty : path ≠ []
  fits : path.length < rtssUpdaterCfgMaxImagepathLen
  free : ∀ b ∈ path, b ≠ 32 ∧ b ≠ 13 ∧ b ≠ 10 ∧ b ≠ 0

/-- One to five images with supported names of their own and plain paths. -/
structure Renderable (lines : List ConfigLine) : Prop where
  not_empty : lines ≠ []
  at_most : lines.length ≤ rtssUpdaterCfgMaxImages
  supported : ∀ line ∈ lines, line.name ∈ rtssUpdaterSupportedImgNames
  distinct : (lines.map ConfigLine.name).Nodup
  paths : ∀ line ∈ lines, PlainPath line.path

/-! The strings of the arrays. -/

section Strings
variable {numSupported : Nat}

/-- What the arrays of a result hold. -/
def stringsOf {α β : Type} (f : α → β) : Except ImgSlots α → Except ImgConfig β
  | .error cfg => .error cfg.strings
  | .ok r => .ok (f r)

theorem strtokR_free {s token rest : CString} (h : strtokR s = (some token, rest))
    (hs : 0 ∉ s) : 0 ∉ token ∧ 0 ∉ rest := by
  simp only [strtokR] at h
  have hdrop : 0 ∉ s.dropWhile (· = 32) := fun hmem => hs ((List.dropWhile_sublist _).mem hmem)
  split_ifs at h
  · cases h
  · cases h
    exact ⟨fun hmem => hdrop ((List.takeWhile_sublist _).mem hmem),
      fun hmem => hdrop ((List.dropWhile_sublist _).mem (List.mem_of_mem_drop hmem))⟩

theorem trimLineEnd_free {token : CString} (h : 0 ∉ token) : 0 ∉ trimLineEnd token := by
  rw [trimLineEnd]
  split_ifs
  · exact fun hmem => h (List.mem_of_mem_take hmem)
  · exact fun hmem => h (List.mem_of_mem_take hmem)
  · exact h

theorem save_string (slot : ImgSlot) {s : CString} (hs : 0 ∉ s) :
    (slot.save s).2.string = s.take rtssUpdaterCfgMaxImagepathLen :=
  fillString_string hs

theorem save_copied (slot : ImgSlot) (s : CString) :
    s.length ≠ (slot.save s).1 ↔ s.length > rtssUpdaterCfgMaxImagepathLen := by
  simp only [ImgSlot.save, fillString_fst]
  omega

theorem setName_strings (cfg : ImgSlots) (i : Nat) {name : CString} (hname : 0 ∉ name) :
    (cfg.setName i ((cfg.imageNames i).save name).2).strings = cfg.strings.setName i name := by
  simp only [ImgSlots.setName, ImgSlots.strings, ImgConfig.setName, ImgConfig.mk.injEq, true_and,
    and_true]
  funext k
  split
  · exact save_string _ hname
  · rfl

theorem setPath_strings (cfg : ImgSlots) (i : Nat) {path : CString} (hpath : 0 ∉ path) :
    (cfg.setPath i ((cfg.imagePaths i).save path).2).strings = cfg.strings.setPath i path := by
  simp only [ImgSlots.setPath, ImgSlots.strings, ImgConfig.setPath, ImgConfig.mk.injEq, true_and]
  funext k
  split
  · exact save_string _ hpath
  · rfl

theorem readSlotsLine_strings (cfg : ImgSlots) (numImages : Nat) {line : CString}
    (hline : 0 ∉ line) : readCfgLine numSupported cfg.strings numImages line =
      stringsOf ImgSlots.strings (readSlotsLine numSupported cfg numImages line) := by
  unfold readCfgLine readSlotsLine
  rcases hname : strtokR line with ⟨_ | name, rest⟩
  · rfl
  obtain ⟨hfree, hrest⟩ := strtokR_free hname hline
  have hnames : ∀ i, cfg.strings.imageNames i = (cfg.imageNames i).string := fun i => rfl
  simp only [save_copied, hnames]
  split_ifs with hmax hduplicate hlong
  · rfl
  · rfl
  · exact congrArg Except.error (setName_strings cfg numImages hfree).symm
  rcases htoken : strtokR rest with ⟨_ | token, rest'⟩
  · exact congrArg Except.error (setName_strings cfg numImages hfree).symm
  have hpath := trimLineEnd_free (strtokR_free htoken hrest).1
  have hcfg := setPath_strings (cfg.setName numImages ((cfg.imageNames numImages).save name).2)
    numImages hpath
  rw [setName_strings cfg numImages hfree] at hcfg
  dsimp only
  split_ifs with hlongPath hmore
  · exact congrArg Except.error hcfg.symm
  · exact congrArg Except.error hcfg.symm
  · exact congrArg Except.ok hcfg.symm

theorem readSlotsLines_strings (lines : List (List UInt8)) (numImages : Nat) (cfg : ImgSlots) :
    readCfgLines numSupported lines numImages cfg.strings =
      stringsOf (fun r => (r.1, r.2.strings))
        (readSlotsLines numSupported lines numImages cfg) := by
  induction lines generalizing numImages cfg with
  | nil => rfl
  | cons line lines ih =>
      have hline : 0 ∉ line.takeWhile (· ≠ 0) := fun hmem => by
        simpa using List.mem_takeWhile_imp hmem
      rw [readCfgLines, readSlotsLines, readSlotsLine_strings cfg numImages hline]
      cases readSlotsLine numSupported cfg numImages (line.takeWhile (· ≠ 0)) with
      | error cfg => rfl
      | ok cfg => exact ih (numImages + 1) cfg

/-- The parser on the arrays does to their strings what the parser on strings does. -/
theorem cfgfileReadSlots_strings (file : Option (List UInt8)) (cfg : ImgSlots)
    (supported : List CString) :
    rtssUpdaterCfgfileRead file cfg.strings supported numSupported =
      let r := rtssUpdaterCfgfileReadSlots file cfg supported numSupported
      (r.1, r.2.strings) := by
  unfold rtssUpdaterCfgfileRead rtssUpdaterCfgfileReadSlots
  cases file with
  | none => rfl
  | some file =>
      dsimp only
      rw [readSlotsLines_strings]
      cases readSlotsLines numSupported (getlines file) 0 cfg with
      | error cfg => rfl
      | ok r =>
          obtain ⟨numImages, cfg⟩ := r
          have hnames : ∀ i, cfg.strings.imageNames i = (cfg.imageNames i).string := fun i => rfl
          simp only [stringsOf, hnames]
          split_ifs
          · rfl
          · rfl
          · rfl

end Strings

/-! The lines of a rendered file. -/

section Lines
variable {line : ConfigLine} {lines : List ConfigLine}

theorem getlines_append {text : List UInt8} (h : 10 ∉ text) (rest : List UInt8) :
    getlines (text ++ 10 :: rest) = (text ++ [10]) :: getlines rest := by
  induction text with
  | nil => rw [List.nil_append, getlines, if_pos rfl, List.nil_append]
  | cons b text ih =>
      obtain ⟨hb, htext⟩ := List.ne_and_not_mem_of_not_mem_cons h
      rw [List.cons_append, getlines, if_neg (Ne.symm hb), ih htext]
      rfl

theorem getlines_last {text : List UInt8} (h : 10 ∉ text) (hne : text ≠ []) :
    getlines text = [text] := by
  induction text with
  | nil => exact absurd rfl hne
  | cons b text ih =>
      obtain ⟨hb, htext⟩ := List.ne_and_not_mem_of_not_mem_cons h
      rw [getlines, if_neg (Ne.symm hb)]
      cases text with
      | nil => rfl
      | cons b' text => rw [ih htext (List.cons_ne_nil _ _)]

/-- The line with the end that it has in the file. -/
def ConfigLine.ended (line : ConfigLine) (last final : Bool) : List UInt8 :=
  line.text ++ (if last ∧ !final then [] else line.lineEnd.bytes)

def renderedLines (final : Bool) : List ConfigLine → List (List UInt8)
  | [] => []
  | line :: lines => line.ended lines.isEmpty final :: renderedLines final lines

structure PlainLine (line : ConfigLine) : Prop where
  name : line.name ∈ rtssUpdaterSupportedImgNames
  path : PlainPath line.path

theorem supportedName_line_free : ∀ name ∈ rtssUpdaterSupportedImgNames, 10 ∉ name := by
  decide

theorem PlainLine.text_free (h : PlainLine line) : 10 ∉ line.text := by
  have hname := supportedName_line_free line.name h.name
  have hpath : 10 ∉ line.path := fun hmem => (h.path.free 10 hmem).2.2.1 rfl
  simp [ConfigLine.text, hname, hpath]

theorem PlainLine.last (h : PlainLine line) :
    line.text.getLast? ≠ some 13 ∧ line.text.getLast? ≠ some 10 := by
  have hlast : line.text.getLast? = line.path.getLast? := by
    rw [ConfigLine.text, ← List.cons_append, ← List.append_assoc,
      List.getLast?_append_of_ne_nil _ h.path.not_empty]
  rw [hlast]
  refine ⟨fun hcr => ?_, fun hlf => ?_⟩
  · exact (h.path.free 13 (List.mem_of_getLast? hcr)).2.1 rfl
  · exact (h.path.free 10 (List.mem_of_getLast? hlf)).2.2.1 rfl

theorem PlainLine.text_ne_nil (h : PlainLine line) : line.text ≠ [] := fun hnil =>
  (supportedName line.name h.name).1 (List.append_eq_nil_iff.mp hnil).1

theorem getlines_ended (h : PlainLine line) (rest : List UInt8) :
    getlines (line.text ++ (line.lineEnd.bytes ++ rest)) =
      (line.text ++ line.lineEnd.bytes) :: getlines rest := by
  cases line.lineEnd with
  | lf => exact getlines_append h.text_free rest
  | crlf =>
      have hfree : 10 ∉ line.text ++ [13] := by
        rw [List.mem_append]
        exact fun hmem => hmem.elim h.text_free (by decide)
      have happend := getlines_append hfree rest
      rw [List.append_assoc, List.append_assoc] at happend
      exact happend

/-- A rendered file has the rendered lines. -/
theorem getlines_renderFile (final : Bool) (lines : List ConfigLine)
    (h : ∀ line ∈ lines, PlainLine line) :
    getlines (renderFile final lines) = renderedLines final lines := by
  induction lines with
  | nil => rfl
  | cons line lines ih =>
      obtain ⟨hline, hlines⟩ := List.forall_mem_cons.mp h
      rw [renderFile, renderedLines, ConfigLine.ended]
      split
      · rename_i hlast
        rw [List.isEmpty_iff.mp hlast.1, renderFile, List.append_nil, List.append_nil,
          renderedLines, getlines_last hline.text_free hline.text_ne_nil]
      · rw [getlines_ended hline, ih hlines]

theorem PlainLine.documented (h : PlainLine line) (last final : Bool) :
    DocumentedLine (line.ended last final) line.name line.path := by
  refine ⟨⟨line.spaces, ?_⟩, ⟨h.path.not_empty, ?_⟩, ?_, h.path.fits⟩
  · rw [ConfigLine.ended]
    split
    · rw [List.append_nil]
      exact trimLineEnd_none _ h.last.2
    · cases line.lineEnd with
      | lf => exact trimLineEnd_lf _ h.last.1
      | crlf => exact trimLineEnd_crlf _
  · exact fun hmem => (h.path.free 32 hmem).1 rfl
  · exact fun hmem => (h.path.free 0 hmem).2.2.2 rfl

theorem renderedLines_tolerated (final : Bool) (lines : List ConfigLine)
    (h : ∀ line ∈ lines, PlainLine line) :
    List.Forall₂ (fun bytes e => ToleratedLine bytes e.1 e.2) (renderedLines final lines)
      (lines.map fun line => (line.name, line.path)) := by
  induction lines with
  | nil => exact .nil
  | cons line lines ih =>
      obtain ⟨hline, hlines⟩ := List.forall_mem_cons.mp h
      exact .cons ((hline.documented _ final).tolerated hline.name) (ih hlines)

theorem Renderable.tolerated (h : Renderable lines) (final : Bool) :
    Tolerated (renderFile final lines) (lines.map fun line => (line.name, line.path)) := by
  have hplain : ∀ line ∈ lines, PlainLine line :=
    fun line hline => ⟨h.supported line hline, h.paths line hline⟩
  refine ⟨?_, ?_, ?_, ?_, ?_⟩
  · rw [getlines_renderFile final lines hplain]
    exact renderedLines_tolerated final lines hplain
  · rw [Ne, List.map_eq_nil_iff]
    exact h.not_empty
  · rw [List.length_map]
    exact h.at_most
  · rintro e he
    obtain ⟨line, hline, rfl⟩ := List.mem_map.mp he
    exact h.supported line hline
  · rw [List.map_map]
    exact h.distinct

end Lines

theorem supportedName_lt : ∀ name ∈ rtssUpdaterSupportedImgNames,
    name.length < rtssUpdaterCfgMaxImagepathLen := by
  decide

theorem ImgSlot.holds (slot : ImgSlot) {s : CString} (hstring : slot.string = s)
    (hlen : s.length < rtssUpdaterCfgMaxImagepathLen) : HoldsString slot.bytes s :=
  .of_lt hstring (by rw [slot.size]; exact hlen)

/-- A rendered list is read back in its order, each string with its terminator. -/
theorem rendered_file_read (final : Bool) (lines : List ConfigLine) (old : ImgSlots)
    (h : Renderable lines) :
    ∃ cfg, rtssUpdaterCfgfileReadSlots (some (renderFile final lines)) old
        rtssUpdaterSupportedImgNames rtssUpdaterCfgMaxImages = (exitSuccess, cfg) ∧
      cfg.numberOfImages = lines.length ∧ cfg.numberOfPaths = lines.length ∧
      ∀ i (hi : i < lines.length), HoldsString (cfg.imageNames i).bytes lines[i].name ∧
        HoldsString (cfg.imagePaths i).bytes lines[i].path := by
  obtain ⟨cfg, hread, hholds⟩ := (h.tolerated final).read old.strings
  rw [cfgfileReadSlots_strings] at hread
  obtain ⟨hstatus, rfl⟩ := Prod.mk.inj hread
  have himages := hholds.images
  have hpaths := hholds.paths
  rw [List.length_map] at himages hpaths
  refine ⟨_, Prod.ext hstatus rfl, himages, hpaths, fun i hi => ?_⟩
  obtain ⟨hname, hpath⟩ := hholds.entry i (by rw [List.length_map]; exact hi)
  rw [List.getElem_map] at hname hpath
  exact ⟨ImgSlot.holds _ hname (supportedName_lt _ (h.supported _ (List.getElem_mem hi))),
    ImgSlot.holds _ hpath (h.paths _ (List.getElem_mem hi)).fits⟩

def twoImages : List ConfigLine :=
  [⟨cString "SAIL_HYP", cString "/a", 1, .crlf⟩, ⟨cString "SAIL_SW1", cString "/b/c", 0, .lf⟩]

theorem twoImages_renderable : Renderable twoImages where
  not_empty := by decide
  at_most := by decide
  supported := by decide
  distinct := by decide
  paths := by
    intro line hline
    rcases List.mem_pair.mp hline with rfl | rfl
    · exact ⟨by decide, by decide, by decide +kernel⟩
    · exact ⟨by decide, by decide, by decide +kernel⟩

/-- Arrays that are full of an earlier parse. -/
def fullSlots : ImgSlots where
  numberOfImages := 5
  numberOfPaths := 5
  imageNames _ := ⟨List.replicate 128 65, List.length_replicate⟩
  imagePaths _ := ⟨List.replicate 128 47, List.length_replicate⟩

theorem rendered_file_read_twoImages :
    ∃ cfg, rtssUpdaterCfgfileReadSlots (some (renderFile false twoImages)) fullSlots
        rtssUpdaterSupportedImgNames rtssUpdaterCfgMaxImages = (exitSuccess, cfg) ∧
      cfg.numberOfImages = 2 ∧ cfg.numberOfPaths = 2 ∧
      ∀ i (hi : i < twoImages.length), HoldsString (cfg.imageNames i).bytes twoImages[i].name ∧
        HoldsString (cfg.imagePaths i).bytes twoImages[i].path :=
  rendered_file_read false twoImages fullSlots twoImages_renderable

end RtssMailbox
