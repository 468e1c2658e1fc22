import RtssMailbox.UpdaterCommands

/-!
The OTA configuration file. Each line names an image and the path of its file. The names
are looked up among the supported ones when all lines have been read; an error leaves the
configuration as far as it was filled.
-/
namespace RtssMailbox

def rtssUpdaterCfgMaxImages : Nat := 5
def rtssUpdaterCfgMaxImagepathLen : Nat := 128

/-- What `getline` returns one after the other, each line with its line feed. -/
def getlines : List UInt8 → List (List UInt8)
  | [] => []
  | b :: rest =>
      if b = 10 then [b] :: getlines rest
      else
        match getlines rest with
        | [] => [[b]]
        | line :: lines => (b :: line) :: lines

/-- `strtok_r` with a space as the delimiter: the next token, and where the search goes on. -/
def strtokR (s : CString) : Option CString × CString :=
  let s := s.dropWhile (· = 32)
  if s = [] then (none, [])
  else (some (s.takeWhile (· ≠ 32)), (s.dropWhile (· ≠ 32)).drop 1)

/-- A token without the end of its line: CR and LF, or LF alone. -/
def trimLineEnd (token : CString) : CString :=
  if token.length ≥ 2 ∧ token[token.length - 2]? = some 13 ∧
      token[token.length - 1]? = some 10 then
    token.take (token.length - 2)
  else if token.length ≥ 1 ∧ token[token.length - 1]? = some 10 then
    token.take (token.length - 1)
  else
    token

/-- A name in slot `i`; what does not fit is cut off. -/
def ImgConfig.setName (cfg : ImgConfig) (i : Nat) (name : CString) : ImgConfig :=
  { cfg with imageNames := fun k =>
      if k = i then name.take rtssUpdaterCfgMaxImagepathLen else cfg.imageNames k }

def ImgConfig.setPath (cfg : ImgConfig) (i : Nat) (path : CString) : ImgConfig :=
  { cfg with imagePaths := fun k =>
      if k = i then path.take rtssUpdaterCfgMaxImagepathLen else cfg.imagePaths k }

/-- The configuration after one line, or at the error that it has. -/
def readCfgLine (numSupported : Nat) (cfg : ImgConfig) (numImages : Nat) (line : CString) :
    Except ImgConfig ImgConfig :=
  match strtokR line with
  | (none, _) => .error cfg
  | (some name, rest) =>
      if numImages ≥ numSupported then .error cfg
      else if ∃ i < numImages, name = cfg.imageNames i then .error cfg
      else
        let cfg := cfg.setName numImages name
        if name.length > rtssUpdaterCfgMaxImagepathLen then .error cfg
        else
          match strtokR rest with
          | (none, _) => .error cfg
          | (some token, rest) =>
              let cfg := cfg.setPath numImages (trimLineEnd token)
              if (trimLineEnd token).length > rtssUpdaterCfgMaxImagepathLen then .error cfg
              else if (strtokR rest).1.isSome then .error cfg
              else .ok cfg

/-- The number of images after all lines, and the configuration. A line is a C string. -/
def readCfgLines (numSupported : Nat) :
    List (List UInt8) → Nat → ImgConfig → Except ImgConfig (Nat × ImgConfig)
  | [], numImages, cfg => .ok (numImages, cfg)
  | line :: lines, numImages, cfg =>
      match readCfgLine numSupported cfg numImages (line.takeWhile (· ≠ 0)) with
      | .error cfg => .error cfg
      | .ok cfg => readCfgLines numSupported lines (numImages + 1) cfg

/-- The file is absent where it cannot be opened. -/
def rtssUpdaterCfgfileRead (file : Option (List UInt8)) (cfg : ImgConfig)
    (supportedimgNames : List CString) (numSupportedimgNames : Nat) : UInt32 × ImgConfig :=
  match file with
  | none => (exitFailure, cfg)
  | some file =>
      match readCfgLines numSupportedimgNames (getlines file) 0 cfg with
      | .error cfg => (exitFailure, cfg)
      | .ok (numImages, cfg) =>
          if ∃ i < numImages, supportedimgNames.count (cfg.imageNames i) ≠ 1 then
            (exitFailure, cfg)
          else
            let cfg := { cfg with numberOfImages := numImages, numberOfPaths := numImages }
            if numImages = 0 then (exitFailure, cfg) else (exitSuccess, cfg)

/-- A configuration that was read from a file. -/
def ImgConfig.Parsed (cfg : ImgConfig) : Prop :=
  ∃ file old, rtssUpdaterCfgfileRead file old rtssUpdaterSupportedImgNames
    rtssUpdaterCfgMaxImages = (exitSuccess, cfg)

/-- The first `n` names are different from each other. -/
def ImgConfig.Distinct (cfg : ImgConfig) (n : Nat) : Prop :=
  ∀ i j, i < j → j < n → cfg.imageNames i ≠ cfg.imageNames j

@[simp] theorem ImgConfig.setName_imageNames (cfg : ImgConfig) (i k : Nat) (name : CString) :
    (cfg.setName i name).imageNames k =
      if k = i then name.take rtssUpdaterCfgMaxImagepathLen else cfg.imageNames k := rfl

@[simp] theorem ImgConfig.setPath_imageNames (cfg : ImgConfig) (i : Nat) (path : CString) :
    (cfg.setPath i path).imageNames = cfg.imageNames := rfl

/-- What a line must be to be taken: two tokens, the name new and both of a length that the
slots hold. -/
theorem readCfgLine_ok {numSupported numImages : Nat} {cfg cfg' : ImgConfig} {line : CString} :
    readCfgLine numSupported cfg numImages line = .ok cfg' ↔
      ∃ name rest token rest', strtokR line = (some name, rest) ∧
        strtokR rest = (some token, rest') ∧ (strtokR rest').1 = none ∧
        numImages < numSupported ∧ (∀ i < numImages, name ≠ cfg.imageNames i) ∧
        name.length ≤ rtssUpdaterCfgMaxImagepathLen ∧
        (trimLineEnd token).length ≤ rtssUpdaterCfgMaxImagepathLen ∧
        cfg' = (cfg.setName numImages name).setPath numImages (trimLineEnd token) := by
  constructor
  · intro h
    unfold readCfgLine at h
    split at h
    · cases h
    · rename_i name rest hname
      dsimp only at h
      split_ifs at h with hmax hduplicate hlong
      split at h
      · cases h
      · rename_i token rest' htoken
        split_ifs at h with hlongPath hmore
        cases h
        refine ⟨name, rest, token, rest', hname, htoken, ?_, by omega, ?_, by omega, by omega, rfl⟩
        · simpa using hmore
        · exact fun i hi hsame => hduplicate ⟨i, hi, hsame⟩
  · rintro ⟨name, rest, token, rest', hname, htoken, hmore, hmax, hnew, hlong, hlongPath, rfl⟩
    have hduplicate : ¬ ∃ i < numImages, name = cfg.imageNames i :=
      fun ⟨i, hi, hsame⟩ => hnew i hi hsame
    simp only [readCfgLine, hname, htoken, hmore, Nat.not_le.mpr hmax, hduplicate,
      Nat.not_lt.mpr hlong, Nat.not_lt.mpr hlongPath, if_false,
      Option.isSome_none, Bool.false_eq_true]

theorem readCfgLine_distinct {numSupported numImages : Nat} {cfg cfg' : ImgConfig}
    {line : CString} (hdistinct : cfg.Distinct numImages)
    (h : readCfgLine numSupported cfg numImages line = .ok cfg') :
    cfg'.Distinct (numImages + 1) := by
  obtain ⟨name, -, token, -, -, -, -, -, hnew, hlong, -, rfl⟩ := readCfgLine_ok.mp h
  intro i j hij hj
  rw [ImgConfig.setPath_imageNames, ImgConfig.setName_imageNames,
    ImgConfig.setName_imageNames, if_neg (by omega)]
  split
  · rw [List.take_of_length_le hlong]
    exact fun hsame => hnew i (by omega) hsame.symm
  · exact hdistinct i j hij (by omega)

theorem readCfgLines_distinct {numSupported numImages numImages' : Nat} {cfg cfg' : ImgConfig}
    {lines : List (List UInt8)} (hdistinct : cfg.Distinct numImages)
    (h : readCfgLines numSupported lines numImages cfg = .ok (numImages', cfg')) :
    cfg'.Distinct numImages' := by
  induction lines generalizing numImages cfg with
  | nil =>
      cases h
      exact hdistinct
  | cons line lines ih =>
      rw [readCfgLines] at h
      split at h
      · cases h
      · rename_i hline
        exact ih (readCfgLine_distinct hdistinct hline) h

/-- A configuration from a file has as many paths as images, and supported names that
differ from each other. -/
theorem ImgConfig.Parsed.spec {cfg : ImgConfig} (h : cfg.Parsed) :
    cfg.numberOfPaths = cfg.numberOfImages ∧ cfg.Distinct cfg.numberOfImages ∧
      ∀ i < cfg.numberOfImages, cfg.imageNames i ∈ rtssUpdaterSupportedImgNames := by
  obtain ⟨file, old, hread⟩ := h
  unfold rtssUpdaterCfgfileRead at hread
  split at hread
  · cases hread
  · split at hread
    · cases hread
    · rename_i hlines
      split at hread
      · cases hread
      · rename_i hsupported
        dsimp only at hread
        split at hread
        · cases hread
        · cases hread
          have hdistinct := readCfgLines_distinct
            (fun i j _ hj => absurd hj (Nat.not_lt_zero j)) hlines
          refine ⟨rfl, fun i j hij hj => hdistinct i j hij hj, fun i hi => ?_⟩
          refine List.count_pos_iff.mp ?_
          have hcount : List.count _ rtssUpdaterSupportedImgNames = 1 :=
            not_not.mp fun hne => hsupported ⟨i, hi, hne⟩
          rw [hcount]
          exact Nat.one_pos

end RtssMailbox
