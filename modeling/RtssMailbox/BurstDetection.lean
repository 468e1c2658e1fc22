import RtssMailbox.ChecksumEquivalence

/-!
The CRC of a message sees every corruption inside four consecutive bytes: these bytes are
as many bits as the remainder has, and no later byte can undo what they made of it.
-/
namespace RtssMailbox
open CyclicRedundancy

/-- The bits of a buffer in the order in which the CRC takes them. -/
def crcBits (bytes : List UInt8) : List Bool :=
  bytes.flatMap fun b => lowBits b.toBitVec 8

@[simp] theorem crcBits_append (bytes bytes' : List UInt8) :
    crcBits (bytes ++ bytes') = crcBits bytes ++ crcBits bytes' := List.flatMap_append

theorem crcBits_length (bytes : List UInt8) : (crcBits bytes).length = 8 * bytes.length := by
  induction bytes with
  | nil => rfl
  | cons b bytes ih =>
      have hbyte : (lowBits b.toBitVec 8).length = 8 := by simp [lowBits]
      have hcons : crcBits (b :: bytes) = lowBits b.toBitVec 8 ++ crcBits bytes := rfl
      rw [hcons, List.length_append, hbyte, ih, List.length_cons]
      omega

theorem lowBits_byte_injective {b b' : UInt8}
    (h : lowBits b.toBitVec 8 = lowBits b'.toBitVec 8) : b = b' := by
  apply UInt8.toBitVec_inj.mp
  apply BitVec.eq_of_getLsbD_eq
  intro i hi
  exact List.map_inj_left.mp h i (List.mem_range.mpr hi)

theorem crcBits_injective {bytes bytes' : List UInt8} (h : crcBits bytes = crcBits bytes') :
    bytes = bytes' := by
  have hlen : bytes.length = bytes'.length := by
    have hbits := congrArg List.length h
    rw [crcBits_length, crcBits_length] at hbits
    omega
  induction bytes generalizing bytes' with
  | nil => exact (List.eq_nil_of_length_eq_zero hlen.symm).symm
  | cons b bytes ih =>
      cases bytes' with
      | nil => exact absurd hlen (Nat.succ_ne_zero _)
      | cons b' bytes' =>
          have hcons : lowBits b.toBitVec 8 ++ crcBits bytes =
              lowBits b'.toBitVec 8 ++ crcBits bytes' := h
          obtain ⟨hfirst, hrest⟩ := List.append_inj hcons (by simp [lowBits])
          rw [lowBits_byte_injective hfirst, ih hrest (Nat.succ.inj hlen)]

/-- What the division of the bits leaves. -/
def crcRemainder (bytes : List UInt8) : BitVec 32 :=
  (crcBits bytes).foldl (shiftInReflected ieeeCrc32Polynomial.reverse) (BitVec.allOnes 32)

theorem rtssCrc32Generate_eq {bytes : List UInt8} (h : bytes ≠ []) :
    rtssCrc32Generate crcEthChannelCrc32 bytes = .ok (⟨crcRemainder bytes⟩ ^^^ 0xFFFFFFFF) := by
  have hrounds : bytes.foldl rtssGptCrc32Round 0xFFFFFFFF = ⟨crcRemainder bytes⟩ := by
    apply UInt32.toBitVec_inj.mp
    rw [rtssGptCrc32Rounds_toBitVec]
    rfl
  rw [rtssCrc32Generate_rounds h, hrounds]

theorem split_window {x y : List UInt8} {pos n : Nat} (hlen : x.length = y.length)
    (hsame : ∀ i, i < pos ∨ pos + n ≤ i → x[i]? = y[i]?) :
    x = x.take pos ++ (x.drop pos).take n ++ x.drop (pos + n) ∧
      y = x.take pos ++ (y.drop pos).take n ++ x.drop (pos + n) ∧
      ((x.drop pos).take n).length = ((y.drop pos).take n).length := by
  have hsplit : ∀ l : List UInt8, l = l.take pos ++ (l.drop pos).take n ++ l.drop (pos + n) := by
    intro l
    rw [List.append_assoc, ← List.drop_drop, List.take_append_drop, List.take_append_drop]
  have hbefore : x.take pos = y.take pos := by
    apply List.ext_getElem?
    intro i
    rw [List.getElem?_take, List.getElem?_take]
    split
    · rename_i hi
      exact hsame i (Or.inl hi)
    · rfl
  have hbehind : x.drop (pos + n) = y.drop (pos + n) := by
    apply List.ext_getElem?
    intro i
    rw [List.getElem?_drop, List.getElem?_drop]
    exact hsame _ (Or.inr (Nat.le_add_right _ _))
  refine ⟨hsplit x, ?_, ?_⟩
  · rw [hbefore, hbehind]
    exact hsplit y
  · rw [List.length_take, List.length_take, List.length_drop, List.length_drop, hlen]

/-- A corruption inside four consecutive bytes changes the CRC, and the corrupted buffer
does not verify against the CRC of the original. -/
theorem crc32_detects_burst (x y : List UInt8) (pos : Nat) (hlen : x.length = y.length)
    (hne : x ≠ y) (hburst : ∀ i, i < pos ∨ pos + 4 ≤ i → x[i]? = y[i]?) :
    ∃ crc crc', rtssCrc32Generate crcEthChannelCrc32 x = .ok crc ∧
      rtssCrc32Generate crcEthChannelCrc32 y = .ok crc' ∧ crc ≠ crc' ∧
      rtssCrc32Verify crcEthChannelCrc32 y crc = .error := by
  have hx : x ≠ [] := by
    rintro rfl
    exact hne (List.eq_nil_of_length_eq_zero hlen.symm).symm
  have hy : y ≠ [] := by
    rintro rfl
    exact hne (List.eq_nil_of_length_eq_zero hlen)
  obtain ⟨hxs, hys, hwindow⟩ := split_window hlen hburst
  have hbits : (crcBits ((x.drop pos).take 4)).length = (crcBits ((y.drop pos).take 4)).length := by
    rw [crcBits_length, crcBits_length, hwindow]
  have hfits : (crcBits ((x.drop pos).take 4)).length ≤ 32 := by
    have htake := List.length_take_le 4 (x.drop pos)
    rw [crcBits_length]
    omega
  have hdiffer : crcBits ((x.drop pos).take 4) ≠ crcBits ((y.drop pos).take 4) := by
    intro h
    rw [crcBits_injective h] at hxs
    exact hne (hxs.trans hys.symm)
  have htop : ieeeCrc32Polynomial.reverse.getLsbD (32 - 1) = true := by decide +kernel
  have hremainder : crcRemainder x ≠ crcRemainder y := by
    rw [hxs, hys]
    simp only [crcRemainder, crcBits_append]
    exact burst_detected htop hbits hfits hdiffer
  have hcrc := rtssCrc32Generate_eq hx
  have hcrc' := rtssCrc32Generate_eq hy
  have hchanged : (⟨crcRemainder x⟩ : UInt32) ^^^ 0xFFFFFFFF ≠ ⟨crcRemainder y⟩ ^^^ 0xFFFFFFFF :=
    fun h => hremainder (congrArg UInt32.toBitVec ((UInt32.xor_left_inj _).mp h))
  refine ⟨_, _, hcrc, hcrc', hchanged, ?_⟩
  rw [rtssCrc32Verify, hcrc']
  exact if_pos (Ne.symm hchanged)

theorem crc32_detects_burst_sample :
    ∃ crc crc', rtssCrc32Generate crcEthChannelCrc32 [1, 2, 3] = .ok crc ∧
      rtssCrc32Generate crcEthChannelCrc32 [1, 7, 3] = .ok crc' ∧ crc ≠ crc' ∧
      rtssCrc32Verify crcEthChannelCrc32 [1, 7, 3] crc = .error := by
  apply crc32_detects_burst [1, 2, 3] [1, 7, 3] 1 rfl (by decide)
  intro i hi
  match i with
  | 0 => rfl
  | 1 => omega
  | i + 2 => rfl

end RtssMailbox
