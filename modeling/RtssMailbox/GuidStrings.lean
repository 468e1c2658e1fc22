import RtssMailbox.GptPartition
import RtssMailbox.UpdaterMessages

/-!
GUIDs as text. Every character is checked first, at its position, and the fields are read
from fixed offsets after that. A separator position takes a dash, and a digit as well.
-/
namespace RtssMailbox

def rtssGptGuidStringSize : Nat := 36

def rtssGptIsHexDigit (ch : UInt8) : Bool :=
  (ch ≤ 57 && ch ≥ 48) || (ch ≤ 102 && ch ≥ 97) || (ch ≤ 70 && ch ≥ 65)

def hexNibble (ch : UInt8) : UInt32 :=
  if ch ≥ 48 ∧ ch ≤ 57 then ch.toUInt32 - 48
  else if ch ≥ 97 ∧ ch ≤ 102 then ch.toUInt32 - 97 + 10
  else ch.toUInt32 - 65 + 10

def rtssGptHex2dec (hex : List UInt8) (count : Nat) : UInt32 :=
  (hex.take count).foldl (fun value ch => (value <<< 4) ||| hexNibble ch) 0

def guidSeparators : List Nat := [8, 13, 18, 23]

/-- The loop over the characters of the string from position `i` on. -/
def guidCharsValid : (i : Nat) → List UInt8 → Bool
  | _, [] => true
  | i, ch :: rest =>
      if rtssGptIsHexDigit ch then guidCharsValid (i + 1) rest
      else if i ∈ guidSeparators ∧ ch = 45 then guidCharsValid (i + 1) rest
      else if i = 36 ∧ ch = 0 then guidCharsValid (i + 1) rest
      else false

def rtssGptDecodeGuidString (guidString : Option CString) (guid : Option RtssGptGuid) :
    Bool × Option RtssGptGuid :=
  match guidString, guid with
  | some guidString, some guid =>
      if guidString.length ≠ rtssGptGuidStringSize then
        (false, some guid)
      else if !guidCharsValid 0 guidString then
        (false, some guid)
      else
        let byte idx := (rtssGptHex2dec (guidString.drop idx) 2).toUInt8
        (true, some {
          data1 := rtssGptHex2dec guidString 8
          data2 := (rtssGptHex2dec (guidString.drop 9) 4).toUInt16
          data3 := (rtssGptHex2dec (guidString.drop 14) 4).toUInt16
          data4 := byte 19 :: byte 21 :: (List.range 6).map fun i => byte (24 + i * 2)
          data4_length := rfl })
  | _, guid => (false, guid)

/-- The text of a GUID: 8, 4, 4, 4 and 12 hexadecimal digits with dashes between them. -/
structure GuidText (s : CString) : Prop where
  length : s.length = rtssGptGuidStringSize
  separators : ∀ i ∈ guidSeparators, s[i]? = some 45
  digits : ∀ i ch, s[i]? = some ch → i ∉ guidSeparators → rtssGptIsHexDigit ch

/-- A text that has a digit in the place of a dash, and is a GUID's text otherwise. -/
structure DashReplaced (s : CString) : Prop where
  length : s.length = rtssGptGuidStringSize
  replaced : ∃ i ∈ guidSeparators, ∃ ch ∈ s[i]?, rtssGptIsHexDigit ch
  separators : ∀ i ∈ guidSeparators, ∀ ch ∈ s[i]?, rtssGptIsHexDigit ch ∨ ch = 45
  digits : ∀ i ch, s[i]? = some ch → i ∉ guidSeparators → rtssGptIsHexDigit ch

/-- The texts of GUIDs are accepted and no other strings, for which the GUID is unchanged. -/
def DecodesGuidText (s : CString) : Prop :=
  ∀ guid, ((rtssGptDecodeGuidString (some s) (some guid)).1 = true ↔ GuidText s) ∧
    ((rtssGptDecodeGuidString (some s) (some guid)).1 = false →
      (rtssGptDecodeGuidString (some s) (some guid)).2 = some guid)

theorem guidCharsValid_cons (i : Nat) (ch : UInt8) (rest : List UInt8) (hi : i ≠ 36) :
    guidCharsValid i (ch :: rest) = true ↔
      (rtssGptIsHexDigit ch ∨ i ∈ guidSeparators ∧ ch = 45) ∧
        guidCharsValid (i + 1) rest = true := by
  rw [guidCharsValid]
  split_ifs with hdigit hdash hend
  · simp [hdigit]
  · simp [hdash]
  · exact absurd hend.1 hi
  · simp [hdigit, hdash]

theorem guidCharsValid_iff (s : List UInt8) (i : Nat) (hlen : i + s.length ≤ 36) :
    guidCharsValid i s = true ↔
      ∀ j ch, s[j]? = some ch → rtssGptIsHexDigit ch ∨ i + j ∈ guidSeparators ∧ ch = 45 := by
  induction s generalizing i with
  | nil => simp [guidCharsValid]
  | cons ch rest ih =>
      rw [List.length_cons] at hlen
      rw [guidCharsValid_cons i ch rest (by omega), ih (i + 1) (by omega)]
      constructor
      · rintro ⟨hfirst, hrest⟩ j ch' hj
        cases j with
        | zero =>
            cases hj
            exact hfirst
        | succ j =>
            have h := hrest j ch' hj
            rwa [Nat.add_right_comm] at h
      · intro h
        refine ⟨h 0 ch rfl, fun j ch' hj => ?_⟩
        rw [Nat.add_right_comm]
        exact h (j + 1) ch' hj

theorem decodeGuidString_accepts (s : CString) (guid : RtssGptGuid) :
    (rtssGptDecodeGuidString (some s) (some guid)).1 = true ↔
      s.length = rtssGptGuidStringSize ∧
        ∀ i ch, s[i]? = some ch → rtssGptIsHexDigit ch ∨ i ∈ guidSeparators ∧ ch = 45 := by
  by_cases hlen : s.length = rtssGptGuidStringSize
  · have hvalid := guidCharsValid_iff s 0 (by rw [hlen]; decide)
    simp only [Nat.zero_add] at hvalid
    rw [← hvalid]
    cases hchars : guidCharsValid 0 s <;> simp [rtssGptDecodeGuidString, hlen, hchars]
  · simp [rtssGptDecodeGuidString, hlen]

theorem decodeGuidString_refused (s : CString) (guid : RtssGptGuid)
    (h : (rtssGptDecodeGuidString (some s) (some guid)).1 = false) :
    (rtssGptDecodeGuidString (some s) (some guid)).2 = some guid := by
  simp only [rtssGptDecodeGuidString] at h ⊢
  split_ifs at h ⊢
  · rfl
  · rfl

theorem not_isHexDigit_dash : ¬ rtssGptIsHexDigit 45 = true := by decide

/-- Exactly a digit in the place of a dash is accepted without being the text of a GUID. -/
theorem guid_text_decoded_iff (s : CString) : DecodesGuidText s ↔ ¬ DashReplaced s := by
  constructor
  · intro h hreplaced
    have guid : RtssGptGuid := ⟨0, 0, 0, List.replicate 8 0, rfl⟩
    have haccepted : (rtssGptDecodeGuidString (some s) (some guid)).1 = true := by
      refine (decodeGuidString_accepts s guid).mpr ⟨hreplaced.length, fun i ch hi => ?_⟩
      by_cases hsep : i ∈ guidSeparators
      · exact (hreplaced.separators i hsep ch hi).imp id fun hdash => ⟨hsep, hdash⟩
      · exact Or.inl (hreplaced.digits i ch hi hsep)
    have htext := (h guid).1.mp haccepted
    obtain ⟨i, hsep, ch, hch, hdigit⟩ := hreplaced.replaced
    cases Option.mem_unique hch (htext.separators i hsep)
    exact not_isHexDigit_dash hdigit
  · intro hnot guid
    refine ⟨?_, decodeGuidString_refused s guid⟩
    rw [decodeGuidString_accepts]
    constructor
    · rintro ⟨hlen, hchars⟩
      have hdigits : ∀ i ch, s[i]? = some ch → i ∉ guidSeparators → rtssGptIsHexDigit ch :=
        fun i ch hi hsep => (hchars i ch hi).resolve_right fun h => hsep h.1
      have hseparators : ∀ i ∈ guidSeparators, ∀ ch ∈ s[i]?, rtssGptIsHexDigit ch ∨ ch = 45 :=
        fun i _ ch hi => (hchars i ch hi).imp id And.right
      refine ⟨hlen, fun i hsep => ?_, hdigits⟩
      have hlt : i < s.length := by
        rw [hlen]
        exact (show ∀ i ∈ guidSeparators, i < rtssGptGuidStringSize by decide) i hsep
      have hget : s[i]? = some s[i] := List.getElem?_eq_getElem hlt
      rw [hget]
      refine congrArg some ((hseparators i hsep _ hget).resolve_left fun hdigit => ?_)
      exact hnot ⟨hlen, ⟨i, hsep, s[i], hget, hdigit⟩, hseparators, hdigits⟩
    · intro htext
      refine ⟨htext.length, fun i ch hi => ?_⟩
      by_cases hsep : i ∈ guidSeparators
      · exact Or.inr ⟨hsep, Option.mem_unique hi (htext.separators i hsep)⟩
      · exact Or.inl (htext.digits i ch hi hsep)

/-- Thirty-six digits are accepted. -/
theorem guid_text_not_decoded : ¬ DecodesGuidText (List.replicate 36 97) := by
  intro h
  have htext := (h ⟨0, 0, 0, List.replicate 8 0, rfl⟩).1.mp (by decide)
  exact absurd (htext.separators 8 (by decide)) (by decide)

/-! The canonical text of a GUID, with the case of each digit by its position. -/

def hexDigit (upper : Bool) (d : Nat) : UInt8 :=
  UInt8.ofNat (if d < 10 then 48 + d else if upper then 55 + d else 87 + d)

/-- The last `n` hexadecimal digits of a number, in the positions from `i` on. -/
def hexText (upper : Nat → Bool) : (n i x : Nat) → List UInt8
  | 0, _, _ => []
  | n + 1, i, x => hexText upper n i (x / 16) ++ [hexDigit (upper (i + n)) (x % 16)]

def hexBytes (upper : Nat → Bool) : (i : Nat) → List UInt8 → List UInt8
  | _, [] => []
  | i, b :: bytes => hexText upper 2 i b.toNat ++ hexBytes upper (i + 2) bytes

def guidText (upper : Nat → Bool) (g : RtssGptGuid) : CString :=
  hexText upper 8 0 g.data1.toNat ++ 45 :: (hexText upper 4 9 g.data2.toNat ++
    45 :: (hexText upper 4 14 g.data3.toNat ++ 45 :: (hexBytes upper 19 (g.data4.take 2) ++
      45 :: hexBytes upper 24 (g.data4.drop 2))))

section Text
variable (upper : Nat → Bool)

@[simp] theorem hexText_length (n i x : Nat) : (hexText upper n i x).length = n := by
  induction n generalizing x with
  | zero => rfl
  | succ n ih => rw [hexText, List.length_append, ih, List.length_singleton]

@[simp] theorem hexBytes_length (i : Nat) (bytes : List UInt8) :
    (hexBytes upper i bytes).length = 2 * bytes.length := by
  induction bytes generalizing i with
  | nil => rfl
  | cons b bytes ih =>
      rw [hexBytes, List.length_append, hexText_length, ih, List.length_cons]
      omega

theorem hexDigit_spec : ∀ up : Bool, ∀ d < 16,
    rtssGptIsHexDigit (hexDigit up d) ∧ hexNibble (hexDigit up d) = UInt32.ofNat d := by
  decide

theorem isHexDigit_of_mem_hexText (n i x : Nat) :
    ∀ ch ∈ hexText upper n i x, rtssGptIsHexDigit ch := by
  induction n generalizing x with
  | zero => exact nofun
  | succ n ih =>
      intro ch hch
      rcases List.mem_append.mp hch with hch | hch
      · exact ih (x / 16) ch hch
      · rw [List.mem_singleton] at hch
        rw [hch]
        exact (hexDigit_spec _ _ (Nat.mod_lt x (by decide))).1

theorem isHexDigit_of_mem_hexBytes (i : Nat) (bytes : List UInt8) :
    ∀ ch ∈ hexBytes upper i bytes, rtssGptIsHexDigit ch := by
  induction bytes generalizing i with
  | nil => exact nofun
  | cons b bytes ih =>
      intro ch hch
      rcases List.mem_append.mp hch with hch | hch
      · exact isHexDigit_of_mem_hexText upper 2 i b.toNat ch hch
      · exact ih (i + 2) ch hch

/-- One round of the loop: a nibble joins the value from below. -/
theorem shift_or_nibble (x d : Nat) (hd : d < 16) :
    (UInt32.ofNat x <<< 4) ||| UInt32.ofNat d = UInt32.ofNat (x * 16 + d) := by
  apply UInt32.toNat.inj
  have hshift : (x * 16) % 4294967296 = (x % 4294967296 * 16) % 4294967296 := by omega
  have hor : (x * 16 + d) % 4294967296 = (x * 16) % 4294967296 ||| d % 4294967296 := by
    rw [Nat.mul_comm, show 16 = 2 ^ 4 from rfl, Nat.two_pow_add_eq_or_of_lt hd]
    exact Nat.or_mod_two_pow (n := 32)
  rw [UInt32.toNat_or, UInt32.toNat_shiftLeft, UInt32.toNat_ofNat', UInt32.toNat_ofNat',
    UInt32.toNat_ofNat', Nat.shiftLeft_eq, hor, hshift]
  rfl

theorem rtssGptHex2dec_hexText (n i x : Nat) (rest : List UInt8) (hx : x < 16 ^ n) :
    rtssGptHex2dec (hexText upper n i x ++ rest) n = UInt32.ofNat x := by
  rw [rtssGptHex2dec, List.take_left' (hexText_length upper n i x)]
  induction n generalizing x with
  | zero =>
      rw [Nat.lt_one_iff.mp hx]
      rfl
  | succ n ih =>
      have hmod : x % 16 < 16 := Nat.mod_lt x (by decide)
      rw [hexText, List.foldl_append, ih (x / 16) (by omega), List.foldl_cons, List.foldl_nil,
        (hexDigit_spec _ _ hmod).2, shift_or_nibble _ _ hmod]
      congr 1
      omega

theorem guidCharsValid_append (s rest : List UInt8) (i : Nat)
    (hs : ∀ ch ∈ s, rtssGptIsHexDigit ch) :
    guidCharsValid i (s ++ rest) = guidCharsValid (i + s.length) rest := by
  induction s generalizing i with
  | nil => rfl
  | cons ch s ih =>
      rw [List.cons_append, guidCharsValid, if_pos (hs ch List.mem_cons_self),
        ih (i + 1) fun ch' hch => hs ch' (List.mem_cons_of_mem _ hch), List.length_cons,
        Nat.add_right_comm, Nat.add_assoc]

theorem guidCharsValid_dash (i : Nat) (rest : List UInt8) (hi : i ∈ guidSeparators) :
    guidCharsValid i (45 :: rest) = guidCharsValid (i + 1) rest := by
  rw [guidCharsValid, if_neg not_isHexDigit_dash, if_pos ⟨hi, rfl⟩]

theorem guidCharsValid_guidText (g : RtssGptGuid) :
    guidCharsValid 0 (guidText upper g) = true := by
  have hlen := g.data4_length
  have hdigits := isHexDigit_of_mem_hexText upper
  have hbytes := isHexDigit_of_mem_hexBytes upper
  rw [guidText, guidCharsValid_append _ _ _ (hdigits 8 0 _), hexText_length,
    guidCharsValid_dash _ _ (by decide), guidCharsValid_append _ _ _ (hdigits 4 9 _),
    hexText_length, guidCharsValid_dash _ _ (by decide),
    guidCharsValid_append _ _ _ (hdigits 4 14 _), hexText_length,
    guidCharsValid_dash _ _ (by decide), guidCharsValid_append _ _ _ (hbytes 19 _),
    hexBytes_length, List.length_take, hlen, guidCharsValid_dash _ _ (by decide),
    ← List.append_nil (hexBytes upper 24 _), guidCharsValid_append _ _ _ (hbytes 24 _)]
  rfl

theorem guidText_length (g : RtssGptGuid) :
    (guidText upper g).length = rtssGptGuidStringSize := by
  simp [guidText, g.data4_length, rtssGptGuidStringSize]

/-- From the start of one field to what is `j` characters behind it. -/
theorem drop_field {s rest : List UInt8} {k n i x : Nat}
    (h : s.drop k = hexText upper n i x ++ rest) (j : Nat) :
    s.drop (k + (n + j)) = rest.drop j := by
  have hfield : (hexText upper n i x ++ rest).drop ((hexText upper n i x).length + j) =
      rest.drop j := List.drop_length_add_append j
  rw [← List.drop_drop, h]
  rwa [hexText_length] at hfield

theorem byte_hexText (i : Nat) (b : UInt8) (rest : List UInt8) :
    (rtssGptHex2dec (hexText upper 2 i b.toNat ++ rest) 2).toUInt8 = b := by
  rw [rtssGptHex2dec_hexText upper 2 i b.toNat rest (UInt8.toNat_lt b)]
  apply UInt8.toNat.inj
  rw [UInt32.toNat_toUInt8, UInt32.toNat_ofNat']
  have hb := UInt8.toNat_lt b
  omega

theorem word_hexText (i : Nat) (w : UInt16) (rest : List UInt8) :
    (rtssGptHex2dec (hexText upper 4 i w.toNat ++ rest) 4).toUInt16 = w := by
  rw [rtssGptHex2dec_hexText upper 4 i w.toNat rest (UInt16.toNat_lt w)]
  apply UInt16.toNat.inj
  rw [UInt32.toNat_toUInt16, UInt32.toNat_ofNat']
  have hw := UInt16.toNat_lt w
  omega

theorem guidText_eq {g : RtssGptGuid} {b0 b1 b2 b3 b4 b5 b6 b7 : UInt8}
    (h : g.data4 = [b0, b1, b2, b3, b4, b5, b6, b7]) :
    guidText upper g = hexText upper 8 0 g.data1.toNat ++ (45 ::
      (hexText upper 4 9 g.data2.toNat ++ (45 :: (hexText upper 4 14 g.data3.toNat ++ (45 ::
      (hexText upper 2 19 b0.toNat ++ (hexText upper 2 21 b1.toNat ++ (45 ::
      (hexText upper 2 24 b2.toNat ++ (hexText upper 2 26 b3.toNat ++
      (hexText upper 2 28 b4.toNat ++ (hexText upper 2 30 b5.toNat ++
      (hexText upper 2 32 b6.toNat ++ (hexText upper 2 34 b7.toNat ++ [])))))))))))))) := by
  simp only [guidText, hexBytes, h, List.take, List.drop, List.append_assoc, List.nil_append]

end Text

theorem RtssGptGuid.exists_data4 (g : RtssGptGuid) : ∃ b0 b1 b2 b3 b4 b5 b6 b7,
    g.data4 = [b0, b1, b2, b3, b4, b5, b6, b7] := by
  have hlen := g.data4_length
  match g.data4, hlen with
  | [b0, b1, b2, b3, b4, b5, b6, b7], _ => exact ⟨b0, b1, b2, b3, b4, b5, b6, b7, rfl⟩

/-- The text of a GUID gives the GUID back. -/
theorem guid_text_round_trip (upper : Nat → Bool) (g old : RtssGptGuid) :
    rtssGptDecodeGuidString (some (guidText upper g)) (some old) = (true, some g) := by
  have hlen := guidText_length upper g
  have hvalid := guidCharsValid_guidText upper g
  obtain ⟨b0, b1, b2, b3, b4, b5, b6, b7, hdata4⟩ := g.exists_data4
  have h0 : (guidText upper g).drop 0 = _ := guidText_eq upper hdata4
  have h9 := drop_field upper h0 1
  have h14 := drop_field upper h9 1
  have h19 := drop_field upper h14 1
  have h21 := drop_field upper h19 0
  have h24 := drop_field upper h21 1
  have h26 := drop_field upper h24 0
  have h28 := drop_field upper h26 0
  have h30 := drop_field upper h28 0
  have h32 := drop_field upper h30 0
  have h34 := drop_field upper h32 0
  have hdata1 : rtssGptHex2dec (guidText upper g) 8 = g.data1 := by
    rw [guidText_eq upper hdata4, rtssGptHex2dec_hexText upper 8 0 _ _ (UInt32.toNat_lt g.data1)]
    exact UInt32.ofNat_toNat
  simp only [Nat.reduceAdd, List.drop_zero, List.drop_succ_cons] at h9 h14 h19 h21 h24
  simp only [Nat.reduceAdd, List.drop_zero] at h26 h28 h30 h32 h34
  simp only [rtssGptDecodeGuidString, hlen, hvalid, hdata1, h9, h14, h19, h21, h24, h26, h28, h30,
    h32, h34, byte_hexText, word_hexText, List.range, List.range.loop, List.map_cons,
    List.map_nil, Nat.reduceMul, Nat.reduceAdd, ← hdata4]
  rfl

end RtssMailbox
