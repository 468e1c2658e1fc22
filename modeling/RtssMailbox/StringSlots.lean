import Mathlib.Data.List.TakeWhile
import RtssMailbox.UpdaterConfig

/-!
Strings in arrays of a fixed size. The updater clears an array and copies into it what
fits; whether the string ends inside of the array depends on the size that the copy is
given.
-/
namespace RtssMailbox

/-- The number of bytes that are copied, and the destination after the copy. -/
def rtssUpdaterMcpy (dst : List UInt8) (dstSize : Nat) (src : List UInt8) (srcSize : Nat) :
    Nat × List UInt8 :=
  let copySize := if dstSize < srcSize then dstSize else srcSize
  (copySize, src.take copySize ++ dst.drop copySize)

/-- `rtss_updater_mset` of an array. -/
def rtssUpdaterMsetArray (dst : List UInt8) (val : UInt8) (dstSize : Nat) : List UInt8 :=
  List.replicate dstSize val ++ dst.drop dstSize

/-- The string that starts at the first of these bytes. -/
def cStringAt (bytes : List UInt8) : CString := bytes.takeWhile (· ≠ 0)

/-- An array that holds this string with its terminator. -/
structure HoldsString (slot : List UInt8) (s : CString) : Prop where
  string : cStringAt slot = s
  terminated : 0 ∈ slot

/-- A string is copied with a limit into an array that is cleared before. -/
def fillString (dst : List UInt8) (limit : Nat) (s : CString) : Nat × List UInt8 :=
  rtssUpdaterMcpy (rtssUpdaterMsetArray dst 0 dst.length) limit s s.length

variable {dst slot : List UInt8} {limit : Nat} {s : CString}

theorem cStringAt_append (hs : 0 ∉ s) (rest : List UInt8) :
    cStringAt (s ++ 0 :: rest) = s := by
  have hall : ∀ b ∈ s, decide (b ≠ 0) = true :=
    fun b hb => decide_eq_true fun heq => hs (heq ▸ hb)
  rw [cStringAt, List.takeWhile_append_of_pos hall, List.takeWhile_cons_of_neg (by decide),
    List.append_nil]

theorem cStringAt_self (hs : 0 ∉ s) : cStringAt s = s :=
  List.takeWhile_eq_self_iff.mpr fun _ hb => decide_eq_true fun heq => hs (heq ▸ hb)

theorem cStringAt_padded (hs : 0 ∉ s) (n : Nat) :
    cStringAt (s ++ List.replicate n 0) = s := by
  cases n with
  | zero => rw [List.replicate_zero, List.append_nil, cStringAt_self hs]
  | succ n => rw [List.replicate_succ, cStringAt_append hs]

/-- A string that is shorter than its array has its terminator there. -/
theorem HoldsString.of_lt (hstring : cStringAt slot = s) (hlen : s.length < slot.length) :
    HoldsString slot s := by
  refine ⟨hstring, ?_⟩
  by_contra hnul
  rw [cStringAt_self hnul] at hstring
  exact absurd hlen (by rw [hstring]; exact Nat.lt_irrefl _)

theorem HoldsString.lt (h : HoldsString slot s) : s.length < slot.length := by
  rw [← h.string]
  refine lt_of_le_of_ne (List.takeWhile_prefix _).length_le fun hlen => ?_
  have hself := (List.takeWhile_prefix (p := (· ≠ 0)) (l := slot)).eq_of_length hlen
  exact of_decide_eq_true (List.takeWhile_eq_self_iff.mp hself 0 h.terminated) rfl

/-- A string that has its terminator in its array does not go on behind it. -/
theorem HoldsString.append (h : HoldsString slot s) (rest : List UInt8) :
    cStringAt (slot ++ rest) = s := by
  have hlen : (cStringAt slot).length ≠ slot.length := by
    rw [h.string]
    exact Nat.ne_of_lt h.lt
  rw [cStringAt, List.takeWhile_append]
  exact (if_neg hlen).trans h.string

@[simp] theorem fillString_fst : (fillString dst limit s).1 = min limit s.length := by
  simp only [fillString, rtssUpdaterMcpy]
  split <;> omega

theorem fillString_snd : (fillString dst limit s).2 =
    s.take limit ++ List.replicate (dst.length - min limit s.length) 0 := by
  simp only [fillString, rtssUpdaterMcpy, rtssUpdaterMsetArray, List.drop_length, List.append_nil,
    List.drop_replicate]
  split
  · rw [Nat.min_eq_left (by omega)]
  · rw [Nat.min_eq_right (by omega), List.take_length, List.take_of_length_le (by omega)]

theorem fillString_length (hlimit : limit ≤ dst.length) :
    (fillString dst limit s).2.length = dst.length := by
  rw [fillString_snd, List.length_append, List.length_take, List.length_replicate]
  omega

theorem fillString_string (hs : 0 ∉ s) : cStringAt (fillString dst limit s).2 = s.take limit := by
  rw [fillString_snd]
  exact cStringAt_padded (fun hmem => hs (List.mem_of_mem_take hmem)) _

end RtssMailbox
