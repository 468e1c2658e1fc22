import RtssMailbox.Library.CyclicRedundancy
import RtssMailbox.UpdaterChecksums

/-!
Both checksums of the updater are the CRC-32 of IEEE 802.3. The reflected table
holds the division of its index; a round with the other table is the same round on
the remainder with its bits reversed.
-/
namespace RtssMailbox
open CyclicRedundancy

/-! The CRC-32 of IEEE 802.3, bit by bit: each byte enters with its least significant
bit first, and the remainder leaves with its bits reversed. -/

def ieeeCrc32Polynomial : BitVec 32 := 0x04C11DB7#32

def ieeeCrc32 (bytes : List UInt8) : UInt32 :=
  let bits := bytes.flatMap fun b => lowBits b.toBitVec 8
  ⟨(bits.foldl (shiftIn ieeeCrc32Polynomial) (BitVec.allOnes 32)).reverse ^^^ BitVec.allOnes 32⟩

theorem forall_byte {P : UInt8 → Prop} (h : ∀ i < 256, P (UInt8.ofNat i)) (b : UInt8) : P b := by
  have hb := h b.toNat b.toNat_lt
  rwa [UInt8.ofNat_toNat] at hb

/-- Every entry of the reflected table is what eight zero bits make of its index. -/
theorem rtssGptCrc32Table_entry (b : UInt8) : (rtssGptCrc32Table.getD b.toNat 0).toBitVec =
    zeros ieeeCrc32Polynomial.reverse 8 (b.toBitVec.setWidth 32) :=
  forall_byte (P := fun b => (rtssGptCrc32Table.getD b.toNat 0).toBitVec =
    zeros ieeeCrc32Polynomial.reverse 8 (b.toBitVec.setWidth 32)) (by decide +kernel) b

/-- Every entry of the other table is the entry of the reversed index, reversed. -/
theorem rtssCrc32EthernetTable_entry (b : UInt8) :
    (rtssCrc32EthernetTable.getD b.toNat 0).toBitVec.reverse =
      (rtssGptCrc32Table.getD b.toBitVec.reverse.toNat 0).toBitVec :=
  forall_byte (P := fun b => (rtssCrc32EthernetTable.getD b.toNat 0).toBitVec.reverse =
    (rtssGptCrc32Table.getD b.toBitVec.reverse.toNat 0).toBitVec) (by decide +kernel) b

theorem rtssCrc8Reflect_toBitVec (b : UInt8) :
    (rtssCrc8Reflect b).toBitVec = b.toBitVec.reverse :=
  forall_byte (P := fun b => (rtssCrc8Reflect b).toBitVec = b.toBitVec.reverse)
    (by decide +kernel) b

theorem one_shiftLeft_toBitVec (i : Nat) (hi : i < 32) :
    ((1 : UInt32) <<< UInt32.ofNat i).toBitVec = BitVec.twoPow 32 i := by
  rw [UInt32.toBitVec_shiftLeft, BitVec.twoPow_eq, BitVec.shiftLeft_eq']
  have hmod : ((UInt32.ofNat i).toBitVec % 32).toNat = i := by
    rw [BitVec.toNat_umod]
    change i % 4294967296 % 32 = i
    omega
  rw [hmod]
  rfl

theorem and_mask_ne_zero (val : UInt32) (i : Nat) (hi : i < 32) :
    val &&& (1 <<< UInt32.ofNat i) ≠ 0 ↔ val.toBitVec.getLsbD i = true := by
  have hmask : (val &&& (1 <<< UInt32.ofNat i)).toBitVec =
      if val.toBitVec.getLsbD i then BitVec.twoPow 32 i else 0#32 := by
    rw [UInt32.toBitVec_and, one_shiftLeft_toBitVec i hi, BitVec.and_twoPow]
  have hpow : BitVec.twoPow 32 i ≠ 0#32 := fun hzero => by
    have hbit := congrArg (BitVec.getLsbD · i) hzero
    simp [hi] at hbit
  rw [ne_eq, ← UInt32.toBitVec_inj, hmask]
  cases val.toBitVec.getLsbD i with
  | false => simp
  | true => simpa using hpow

/-- The loop over the bits has put the lowest ones, reversed, at the top. -/
theorem reflect_loop (val : UInt32) (n : Nat) (hn : n ≤ 32) (k : Nat) (hk : k < 32) :
    ((List.range n).foldl (fun res i =>
      if val &&& (1 <<< UInt32.ofNat i) ≠ 0 then res ||| (1 <<< UInt32.ofNat (31 - i)) else res)
        0).toBitVec.getLsbD k = (decide (31 - k < n) && val.toBitVec.getLsbD (31 - k)) := by
  induction n with
  | zero => simp
  | succ n ih =>
      rw [List.range_succ, List.foldl_append, List.foldl_cons, List.foldl_nil]
      have hrest := ih (by omega)
      by_cases hbit : val.toBitVec.getLsbD n = true
      · rw [if_pos ((and_mask_ne_zero val n (by omega)).mpr hbit), UInt32.toBitVec_or,
          BitVec.getLsbD_or, hrest, one_shiftLeft_toBitVec _ (by omega), BitVec.getLsbD_twoPow]
        by_cases hkn : 31 - k = n
        · have hnk : 31 - n = k := by omega
          simp [hkn, hbit, hnk, hk]
        · have hnk : ¬ 31 - n = k := by omega
          have hlt : 31 - k < n + 1 ↔ 31 - k < n := by omega
          simp [hnk, hlt]
      · rw [if_neg fun hne => hbit ((and_mask_ne_zero val n (by omega)).mp hne), hrest]
        by_cases hkn : 31 - k = n
        · simp [hkn, Bool.eq_false_iff.mpr hbit]
        · have hlt : 31 - k < n + 1 ↔ 31 - k < n := by omega
          simp [hlt]

theorem rtssCrc32Reflect_toBitVec (val : UInt32) :
    (rtssCrc32Reflect val).toBitVec = val.toBitVec.reverse := by
  apply BitVec.eq_of_getLsbD_eq
  intro k hk
  have hlt : 31 - k < 32 := by omega
  rw [rtssCrc32Reflect, reflect_loop val 32 (Nat.le_refl 32) k hk, BitVec.getLsbD_reverse,
    BitVec.getMsbD_eq_getLsbD, decide_eq_true hlt, decide_eq_true hk]

theorem rtssGptCrc32Round_toBitVec (crc : UInt32) (b : UInt8) :
    (rtssGptCrc32Round crc b).toBitVec =
      (lowBits b.toBitVec 8).foldl (shiftInReflected ieeeCrc32Polynomial.reverse)
        crc.toBitVec := by
  have hbits : lowBits b.toBitVec 8 = lowBits (b.toBitVec.setWidth 32) 8 :=
    List.map_congr_left fun i hi => by
      have hlt : i < 32 := Nat.lt_trans (List.mem_range.mp hi) (by decide)
      rw [BitVec.getLsbD_setWidth, decide_eq_true hlt, Bool.true_and]
  rw [hbits, foldl_lowBits_table _ 8 _ _ ?_ ((crc.toUInt8 ^^^ b).toBitVec.setWidth 32) ?_,
    rtssGptCrc32Round, UInt32.toBitVec_xor, rtssGptCrc32Table_entry]
  · rfl
  · intro i hi
    rw [BitVec.getLsbD_setWidth, BitVec.getLsbD_of_ge _ _ hi, Bool.and_false]
  · intro i hi
    rw [UInt8.toBitVec_xor, UInt32.toBitVec_toUInt8]
    simp only [BitVec.getLsbD_setWidth, BitVec.getLsbD_xor, decide_eq_true hi, Bool.true_and]
    by_cases hlow : i < 8
    · simp [hlow]
    · simp [hlow, BitVec.getLsbD_of_ge b.toBitVec i (Nat.le_of_not_lt hlow)]

theorem roundIndex_reverse (crc : UInt32) (b : UInt8) :
    (((crc ^^^ ((rtssCrc8Reflect b).toUInt32 <<< 24)) >>> 24).toUInt8).toBitVec.reverse =
      ((⟨crc.toBitVec.reverse⟩ : UInt32).toUInt8 ^^^ b).toBitVec := by
  apply BitVec.eq_of_getLsbD_eq
  intro k hk
  have hshift : ((24 : UInt32).toBitVec % 32).toNat = 24 := by decide
  have htop : 24 + (8 - 1 - k) = 31 - k := by omega
  have hin : 31 - k < 32 := by omega
  have hhigh : ¬ 31 - k < 24 := by omega
  have hdown : 31 - k - 24 = 7 - k := by omega
  have hlast : 7 - k < 8 := by omega
  have hlast' : 7 - k < 32 := by omega
  have hup : 7 - (7 - k) = k := by omega
  have hk32 : k < 32 := by omega
  simp only [UInt32.toBitVec_toUInt8, UInt32.toBitVec_shiftRight, UInt32.toBitVec_xor,
    UInt32.toBitVec_shiftLeft, UInt8.toBitVec_toUInt32, UInt8.toBitVec_xor,
    rtssCrc8Reflect_toBitVec, BitVec.getLsbD_reverse, BitVec.getMsbD_eq_getLsbD,
    BitVec.getLsbD_setWidth, BitVec.shiftLeft_eq', BitVec.ushiftRight_eq', hshift,
    BitVec.getLsbD_ushiftRight, BitVec.getLsbD_xor, BitVec.getLsbD_shiftLeft]
  simp [hk, htop, hin, hhigh, hdown, hlast, hlast', hup, hk32]

/-- A round with the other table is the same round on reversed remainders. -/
theorem rtssCrc32Round_reverse (crc : UInt32) (b : UInt8) :
    (rtssCrc32Round crc b).toBitVec.reverse =
      (rtssGptCrc32Round ⟨crc.toBitVec.reverse⟩ b).toBitVec := by
  have hentry := rtssCrc32EthernetTable_entry
    ((crc ^^^ ((rtssCrc8Reflect b).toUInt32 <<< 24)) >>> 24).toUInt8
  rw [roundIndex_reverse] at hentry
  rw [rtssCrc32Round, rtssGptCrc32Round, UInt32.toBitVec_xor, UInt32.toBitVec_xor, reverse_xor,
    hentry]
  exact congrArg (· ^^^ _) (reverse_shiftLeft _ 8)

theorem rtssCrc32Rounds_reverse (bytes : List UInt8) (crc : UInt32) :
    (bytes.foldl rtssCrc32Round crc).toBitVec.reverse =
      (bytes.foldl rtssGptCrc32Round ⟨crc.toBitVec.reverse⟩).toBitVec := by
  induction bytes generalizing crc with
  | nil => rfl
  | cons b bytes ih =>
      rw [List.foldl_cons, ih, rtssCrc32Round_reverse, List.foldl_cons]

theorem rtssGptCrc32Rounds_toBitVec (bytes : List UInt8) (crc : UInt32) :
    (bytes.foldl rtssGptCrc32Round crc).toBitVec =
      (bytes.flatMap fun b => lowBits b.toBitVec 8).foldl
        (shiftInReflected ieeeCrc32Polynomial.reverse) crc.toBitVec := by
  induction bytes generalizing crc with
  | nil => rfl
  | cons b bytes ih =>
      rw [List.foldl_cons, ih, rtssGptCrc32Round_toBitVec, List.flatMap_cons, List.foldl_append]

theorem rtssGptCrc32Rounds_eq (bytes : List UInt8) :
    bytes.foldl rtssGptCrc32Round 0xFFFFFFFF ^^^ 0xFFFFFFFF = ieeeCrc32 bytes := by
  apply UInt32.toBitVec_inj.mp
  have hones : (BitVec.allOnes 32).reverse = BitVec.allOnes 32 := by decide +kernel
  rw [UInt32.toBitVec_xor, rtssGptCrc32Rounds_toBitVec, ieeeCrc32, reverse_foldl_shiftIn, hones]
  rfl

/-- The function of the messages reflects its own rounds into those of the other table. -/
theorem rtssCrc32Generate_rounds {bytes : List UInt8} (h : bytes ≠ []) :
    rtssCrc32Generate crcEthChannelCrc32 bytes =
      .ok (bytes.foldl rtssGptCrc32Round 0xFFFFFFFF ^^^ 0xFFFFFFFF) := by
  have hlen : bytes.length ≠ 0 := fun hzero => h (List.eq_nil_of_length_eq_zero hzero)
  have hvalid : ¬ (bytes.length = 0 ∨ crcEthChannelCrc32 ≥ crcMaxChId) :=
    not_or.mpr ⟨hlen, by decide⟩
  have hones : (⟨(0xFFFFFFFF : UInt32).toBitVec.reverse⟩ : UInt32) = 0xFFFFFFFF := by
    decide +kernel
  have hreflect : rtssCrc32Reflect (bytes.foldl rtssCrc32Round 0xFFFFFFFF) =
      bytes.foldl rtssGptCrc32Round 0xFFFFFFFF := by
    apply UInt32.toBitVec_inj.mp
    rw [rtssCrc32Reflect_toBitVec, rtssCrc32Rounds_reverse, hones]
  rw [rtssCrc32Generate, if_neg hvalid, hreflect]

/-- Both functions of the updater compute the CRC-32 of IEEE 802.3. -/
theorem crc32_implementations_agree (bytes : List UInt8) (h : bytes ≠ []) :
    rtssGptCalcCrc32 bytes rtssGptCrc32SeedDefault = ieeeCrc32 bytes ∧
      rtssCrc32Generate crcEthChannelCrc32 bytes = .ok (ieeeCrc32 bytes) := by
  constructor
  · have hlen : bytes.length ≠ 0 := fun hzero => h (List.eq_nil_of_length_eq_zero hzero)
    rw [rtssGptCalcCrc32, if_pos hlen]
    exact rtssGptCrc32Rounds_eq bytes
  · rw [rtssCrc32Generate_rounds h, rtssGptCrc32Rounds_eq]

theorem crc32_implementations_agree_sample :
    rtssGptCalcCrc32 [0x45, 0x46, 0x49] rtssGptCrc32SeedDefault = ieeeCrc32 [0x45, 0x46, 0x49] :=
  (crc32_implementations_agree [0x45, 0x46, 0x49] (by decide)).1

end RtssMailbox
