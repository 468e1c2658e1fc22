import RtssMailbox.ConfigRoundTrip

/-!
The command line of the updater. What `getopt_long` returns is looked at option by option;
a string is copied into its array, which is cleared before.
-/
namespace RtssMailbox
open ByteMemory

/-- `rtss_updater_argopt_t`, in the order of its fields. Of the image paths only the first
is set from the command line, and the others stay empty. -/
structure RtssUpdaterArgopt where
  imgPath : ImgSlot
  otaCfgPath : ImgSlot
  imgIdentifier : ImgSlot
  kpipath : ImgSlot
  restart : UInt32
  partition : UInt32
  skipConfigFile : UInt32
  gptUpdate : ImgSlot
  ackstate : UInt32
  rstskip : UInt32

/-- What `getopt_long` finds. -/
inductive RtssUpdaterOption where
  | restart
  | partition
  | configfile
  | gptUpdate
  | elfFilePath
  | imageIdentifier
  | help
  | rstskip
  | kpiconfig
  | ackstate
  | unknown
deriving DecidableEq

def rtssUpdaterError : UInt32 := 101

def isSpace (c : UInt8) : Bool := c = 32 ∨ 9 ≤ c ∧ c ≤ 13

def isDigit (c : UInt8) : Bool := 48 ≤ c ∧ c ≤ 57

/-- The number at the start of a string, behind blanks and a sign, as an unsigned one. What
does not fit into a `long` is the nearest number that does. -/
def atoi (s : CString) : UInt32 :=
  let s := s.dropWhile isSpace
  let (negative, digits) :=
    match s with
    | 45 :: rest => (true, rest)
    | 43 :: rest => (false, rest)
    | _ => (false, s)
  let n := (digits.takeWhile isDigit).foldl (fun (n : Nat) c => 10 * n + (c.toNat - 48)) 0
  if negative then UInt32.ofInt (max (-n) (-9223372036854775808))
  else UInt32.ofInt (min n 9223372036854775807)

theorem rtssUpdaterMcpy_take (dst : List UInt8) (limit : Nat) (src : CString) {len : Nat}
    (hlen : len ≤ src.length) :
    rtssUpdaterMcpy dst limit src len =
      rtssUpdaterMcpy dst limit (src.take len) (src.take len).length := by
  rw [List.length_take, Nat.min_eq_left hlen]
  simp only [rtssUpdaterMcpy, List.take_take]
  split
  · rw [Nat.min_eq_left (by omega)]
  · rw [Nat.min_self]

/-- The length of a string as `rtss_updater_getopt_parser` takes it. -/
def optargLen (optarg : CString) : Nat := (UInt32.ofNat optarg.length).toNat

theorem optargLen_eq (optarg : CString) : optargLen optarg = optarg.length % 4294967296 :=
  UInt32.toNat_ofNat'

theorem optargLen_le (optarg : CString) : optargLen optarg ≤ optarg.length := by
  rw [optargLen_eq]
  exact Nat.mod_le _ _

/-- The copy into a cleared array: as many bytes as the 32-bit length says. -/
theorem copyOptarg_eq (slot : ImgSlot) (limit : Nat) (optarg : CString) :
    rtssUpdaterMcpy (rtssUpdaterMsetArray slot.bytes 0 rtssUpdaterCfgMaxImagepathLen) limit optarg
        (optargLen optarg) =
      fillString slot.bytes limit (optarg.take (optargLen optarg)) := by
  rw [fillString, slot.size]
  exact rtssUpdaterMcpy_take _ _ _ (optargLen_le optarg)

/-- The array of an option with its argument, and what the copy returns. -/
def ImgSlot.copyOptarg (slot : ImgSlot) (limit : Nat) (optarg : CString)
    (hlimit : limit ≤ rtssUpdaterCfgMaxImagepathLen := by decide) : Nat × ImgSlot :=
  let r := rtssUpdaterMcpy (rtssUpdaterMsetArray slot.bytes 0 rtssUpdaterCfgMaxImagepathLen) limit
    optarg (optargLen optarg)
  (r.1, {
    bytes := r.2
    size := by
      change (rtssUpdaterMcpy _ _ _ _).2.length = _
      rw [copyOptarg_eq, fillString_length (Nat.le_trans hlimit (Nat.le_of_eq slot.size.symm)),
        slot.size] })

def ImgSlot.terminate (slot : ImgSlot) : ImgSlot where
  bytes := slot.bytes.set 0 0
  size := (List.length_set).trans slot.size

/-- One option and its argument. Without a result the parser has returned `EXIT_FAILURE`. -/
def getoptStep (args : RtssUpdaterArgopt) :
    RtssUpdaterOption × Option CString → Option RtssUpdaterArgopt
  | (.restart, optarg) => do
      let restart := atoi (← optarg)
      if restart > 2 then none
      some { args with restart := restart }
  | (.partition, optarg) => do
      let partition := atoi (← optarg)
      if partition > 1 then none
      some { args with partition := partition }
  | (.configfile, optarg) => do
      let (ret, path) := args.otaCfgPath.copyOptarg (rtssUpdaterCfgMaxImagepathLen - 1) (← optarg)
      if ret = exitFailure.toNat then none
      some { args with otaCfgPath := path }
  | (.gptUpdate, optarg) => do
      let (ret, path) := args.gptUpdate.copyOptarg (rtssUpdaterCfgMaxImagepathLen - 1) (← optarg)
      if ret = exitFailure.toNat then none
      some { args with gptUpdate := path }
  | (.elfFilePath, optarg) => do
      let (ret, path) := args.imgPath.copyOptarg rtssUpdaterCfgMaxImagepathLen (← optarg)
      if ret = exitFailure.toNat then none
      some { args with skipConfigFile := 1, imgPath := path }
  | (.imageIdentifier, optarg) => do
      let (ret, identifier) :=
        args.imgIdentifier.copyOptarg rtssUpdaterCfgMaxImagepathLen (← optarg)
      if ret = exitFailure.toNat then none
      some { args with imgIdentifier := identifier }
  | (.kpiconfig, optarg) => do
      let (ret, path) := args.kpipath.copyOptarg rtssUpdaterCfgMaxImagepathLen (← optarg)
      if ret = exitFailure.toNat then none
      some { args with kpipath := path }
  | (.ackstate, _) => some { args with ackstate := 1 }
  | (.rstskip, _) => some { args with rstskip := 1 }
  | (.help, _) | (.unknown, _) => none

/-- The options that `getopt_long` finds in a command line of `argc` words. -/
def rtssUpdaterGetoptParser (args : RtssUpdaterArgopt) (argc : Nat)
    (found : List (RtssUpdaterOption × Option CString)) : Option RtssUpdaterArgopt := do
  let args := { args with
    restart := rtssUpdaterError
    partition := rtssUpdaterError
    gptUpdate := args.gptUpdate.terminate
    skipConfigFile := 0
    rstskip := 0 }
  if argc = 1 then none
  found.foldlM getoptStep args

/-- The options whose string is used later on. -/
inductive StringOption where
  | configfile
  | gptUpdate
  | elfFilePath
  | imageIdentifier
deriving DecidableEq

namespace StringOption

def option : StringOption → RtssUpdaterOption
  | .configfile => .configfile
  | .gptUpdate => .gptUpdate
  | .elfFilePath => .elfFilePath
  | .imageIdentifier => .imageIdentifier

def slot (args : RtssUpdaterArgopt) : StringOption → ImgSlot
  | .configfile => args.otaCfgPath
  | .gptUpdate => args.gptUpdate
  | .elfFilePath => args.imgPath
  | .imageIdentifier => args.imgIdentifier

/-- How many characters are copied at most. -/
def limit : StringOption → Nat
  | .configfile | .gptUpdate => rtssUpdaterCfgMaxImagepathLen - 1
  | .elfFilePath | .imageIdentifier => rtssUpdaterCfgMaxImagepathLen

theorem limit_cases (o : StringOption) : o.limit = 127 ∨ o.limit = 128 := by
  cases o with
  | configfile | gptUpdate => exact .inl rfl
  | elfFilePath | imageIdentifier => exact .inr rfl

theorem limit_le (o : StringOption) : o.limit ≤ rtssUpdaterCfgMaxImagepathLen := by
  cases o with
  | configfile | gptUpdate => exact Nat.sub_le _ _
  | elfFilePath | imageIdentifier => exact Nat.le_refl _

variable (o : StringOption) (args : RtssUpdaterArgopt) (s : CString)

/-- A string is refused if exactly one character was copied, whatever its length is. -/
theorem step_isSome :
    (getoptStep args (o.option, some s)).isSome ↔ min o.limit (optargLen s) ≠ 1 := by
  have hcopied : ∀ (slot : ImgSlot) (hlimit : o.limit ≤ rtssUpdaterCfgMaxImagepathLen),
      (slot.copyOptarg o.limit s hlimit).1 = min o.limit (optargLen s) := by
    intro slot hlimit
    simp only [ImgSlot.copyOptarg, copyOptarg_eq, fillString_fst, List.length_take,
      Nat.min_eq_left (optargLen_le s)]
  rw [← hcopied (o.slot args) o.limit_le]
  have hone : exitFailure.toNat = 1 := rfl
  cases o with
  | configfile | gptUpdate | elfFilePath | imageIdentifier =>
      simp only [getoptStep, option, slot, limit, hone, Option.bind_eq_bind, Option.bind_some]
      split
      · next h => exact ⟨fun hsome => absurd hsome Bool.false_ne_true, fun hne => absurd h hne⟩
      · next h => exact ⟨fun _ => h, fun _ => rfl⟩

/-- What an accepted option leaves in its array. -/
theorem step_slot {args' : RtssUpdaterArgopt}
    (hstep : getoptStep args (o.option, some s) = some args') :
    (o.slot args').bytes =
      (fillString (o.slot args).bytes o.limit (s.take (optargLen s))).2 := by
  rw [← copyOptarg_eq]
  cases o with
  | configfile | gptUpdate | elfFilePath | imageIdentifier =>
      simp only [getoptStep, option, Option.bind_eq_bind, Option.bind_some] at hstep
      split at hstep
      · cases hstep
      · cases hstep
        rfl

/-- The other options leave the array as it is. -/
theorem step_other {found : RtssUpdaterOption × Option CString} (hother : found.1 ≠ o.option)
    {args' : RtssUpdaterArgopt} (hstep : getoptStep args found = some args') :
    o.slot args' = o.slot args := by
  obtain ⟨option, optarg⟩ := found
  cases option with
  | help | unknown => cases hstep
  | ackstate | rstskip =>
      cases hstep
      cases o <;> rfl
  | restart | partition | configfile | gptUpdate | elfFilePath | imageIdentifier | kpiconfig =>
      cases optarg with
      | none => cases hstep
      | some s =>
          simp only [getoptStep, Option.bind_eq_bind, Option.bind_some] at hstep
          split at hstep
          · cases hstep
          · cases hstep
            cases o <;> first | rfl | exact absurd rfl hother

/-- The options after this one, none of which is this one again. -/
def Later (o : StringOption) (args args' : RtssUpdaterArgopt) : Prop :=
  ∃ found : List (RtssUpdaterOption × Option CString),
    (∀ p ∈ found, p.1 ≠ o.option) ∧ found.foldlM getoptStep args = some args'

theorem Later.slot {o : StringOption} {args args' : RtssUpdaterArgopt}
    (h : Later o args args') : o.slot args' = o.slot args := by
  obtain ⟨found, hother, hfound⟩ := h
  induction found generalizing args with
  | nil =>
      cases hfound
      rfl
  | cons p found ih =>
      rw [List.foldlM_cons] at hfound
      obtain ⟨args₁, hstep, hrest⟩ := Option.bind_eq_some_iff.mp hfound
      rw [ih (fun q hq => hother q (List.mem_cons_of_mem p hq)) hrest]
      exact o.step_other _ (hother p List.mem_cons_self) hstep

end StringOption

end RtssMailbox
