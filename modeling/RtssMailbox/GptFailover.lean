import RtssMailbox.GptVerification

/-!
The checksums of the table and of the header as the module takes them: over the entries
one after the other, and over the header with its own field cleared for the time. From
these, which of the two headers an initialisation ends with.
-/
namespace RtssMailbox
open ByteMemory

/-! The seed of a CRC takes up where the CRC before it ended. -/

/-- The CRC of several pieces, each with the CRC of those before it as its seed. -/
def chainedCrc32 (pieces : List (List UInt8)) (crc32Seed : UInt32) : UInt32 :=
  pieces.foldl (fun crc piece => rtssGptCalcCrc32 piece crc) crc32Seed

theorem rtssGptCalcCrc32_eq {data : List UInt8} (h : data ≠ []) (seed : UInt32) :
    rtssGptCalcCrc32 data seed =
      data.foldl rtssGptCrc32Round (0xFFFFFFFF ^^^ seed) ^^^ 0xFFFFFFFF :=
  if_pos fun hzero => h (List.eq_nil_of_length_eq_zero hzero)

/-- The two inversions between one piece and the next cancel. -/
theorem inverted_rtssGptCalcCrc32 {data : List UInt8} (h : data ≠ []) (seed : UInt32) :
    0xFFFFFFFF ^^^ rtssGptCalcCrc32 data seed =
      data.foldl rtssGptCrc32Round (0xFFFFFFFF ^^^ seed) := by
  rw [rtssGptCalcCrc32_eq h, UInt32.xor_comm, UInt32.xor_assoc, UInt32.xor_self, UInt32.xor_zero]

theorem inverted_chainedCrc32 (pieces : List (List UInt8)) (seed : UInt32)
    (h : ∀ piece ∈ pieces, piece ≠ []) :
    0xFFFFFFFF ^^^ chainedCrc32 pieces seed =
      pieces.flatten.foldl rtssGptCrc32Round (0xFFFFFFFF ^^^ seed) := by
  induction pieces generalizing seed with
  | nil => rfl
  | cons piece pieces ih =>
      obtain ⟨hpiece, hpieces⟩ := List.forall_mem_cons.mp h
      have hrest := ih (rtssGptCalcCrc32 piece seed) hpieces
      rw [inverted_rtssGptCalcCrc32 hpiece] at hrest
      rw [List.flatten_cons, List.foldl_append, ← hrest]
      rfl

/-- However the bytes are cut, the chained CRC is that of all of them. -/
theorem chainedCrc32_eq {pieces : List (List UInt8)} {data : List UInt8} (seed : UInt32)
    (h : ∀ piece ∈ pieces, piece ≠ []) (hdata : pieces.flatten = data) (hne : data ≠ []) :
    chainedCrc32 pieces seed = rtssGptCalcCrc32 data seed := by
  have hchained := inverted_chainedCrc32 pieces seed h
  rw [hdata, ← inverted_rtssGptCalcCrc32 hne] at hchained
  exact (UInt32.xor_right_inj _).mp hchained

/-- Entry `i` of the table, at its address as a number. -/
def flashEntry (readCb : GptReadCb) (hdr : Mem) (lbaSz : UInt32) (i : Nat) : List UInt8 :=
  readCb.read
    (UInt32.ofNat ((load64 hdr RtssGptHeader.partitionEntryLba).toNat * lbaSz.toNat +
      i * (load32 hdr RtssGptHeader.sizeOfPartitionEntry).toNat))
    (load32 hdr RtssGptHeader.sizeOfPartitionEntry)

/-- All entries of the table, in order. -/
def flashEntries (readCb : GptReadCb) (hdr : Mem) (lbaSz : UInt32) : List (List UInt8) :=
  (List.range (load32 hdr RtssGptHeader.numberOfPartitionEntries).toNat).map
    (flashEntry readCb hdr lbaSz)

theorem flashEntries_eq (readCb : GptReadCb) (hdr : Mem) (lbaSz : UInt32) :
    flashEntries readCb hdr lbaSz = gptTable readCb hdr lbaSz := by
  rw [flashEntries, gptTable, gptEntryNumbers, List.map_map]
  refine List.map_congr_left fun i _ => ?_
  rw [Function.comp_apply, flashEntry, gptEntryBytes]
  refine congrArg (readCb.read · _) (UInt32.toNat.inj ?_)
  rw [UInt32.toNat_ofNat', UInt32.toNat_add, UInt32.toNat_mul, UInt32.toNat_ofNat', gptEntryBase,
    UInt64.toNat_toUInt32, UInt64.toNat_mul, UInt32.toNat_toUInt64, Nat.mod_mul_mod,
    Nat.mod_mod_of_dvd _ (show 2 ^ 32 ∣ 2 ^ 64 by decide), ← Nat.add_mod]

/-- The check of the table passes exactly if every entry is read whole and the CRC of the
table is the header's; and that CRC is chained from any pieces of the table. -/
theorem table_crc32_iff (hdr buf : Mem) (readCb : GptReadCb) (gptWorkBufSz lbaSz crc32Seed : UInt32)
    (hbytes : 0 < (load32 hdr RtssGptHeader.numberOfPartitionEntries).toNat *
      (load32 hdr RtssGptHeader.sizeOfPartitionEntry).toNat)
    (hfits : load32 hdr RtssGptHeader.sizeOfPartitionEntry ≤ gptWorkBufSz) :
    ((rtssGptVerifyPartitionEntryCrc32 hdr buf readCb gptWorkBufSz lbaSz crc32Seed).1 = true ↔
      (∀ entry ∈ flashEntries readCb hdr lbaSz,
        entry.length = (load32 hdr RtssGptHeader.sizeOfPartitionEntry).toNat) ∧
      rtssGptCalcCrc32 (flashEntries readCb hdr lbaSz).flatten crc32Seed =
        load32 hdr RtssGptHeader.partitionEntriesCrc32) ∧
    ((∀ entry ∈ flashEntries readCb hdr lbaSz,
        entry.length = (load32 hdr RtssGptHeader.sizeOfPartitionEntry).toNat) →
      chainedCrc32 (flashEntries readCb hdr lbaSz) crc32Seed =
          rtssGptCalcCrc32 (flashEntries readCb hdr lbaSz).flatten crc32Seed ∧
        ∀ pieces : List (List UInt8), (∀ piece ∈ pieces, piece ≠ []) →
          pieces.flatten = (flashEntries readCb hdr lbaSz).flatten →
          chainedCrc32 pieces crc32Seed =
            rtssGptCalcCrc32 (flashEntries readCb hdr lbaSz).flatten crc32Seed) := by
  have hnonempty : ∀ entry : List UInt8,
      entry.length = (load32 hdr RtssGptHeader.sizeOfPartitionEntry).toNat → entry ≠ [] := by
    rintro _ hlen rfl
    rw [← hlen] at hbytes
    exact absurd hbytes (Nat.lt_irrefl 0)
  have htable : (∀ entry ∈ flashEntries readCb hdr lbaSz,
      entry.length = (load32 hdr RtssGptHeader.sizeOfPartitionEntry).toNat) →
      (flashEntries readCb hdr lbaSz).flatten ≠ [] := by
    intro hwhole hempty
    have hfirst : flashEntry readCb hdr lbaSz 0 ∈ flashEntries readCb hdr lbaSz :=
      List.mem_map_of_mem (List.mem_range.mpr (Nat.pos_of_mul_pos_right hbytes))
    exact hnonempty _ (hwhole _ hfirst) (List.flatten_eq_nil_iff.mp hempty _ hfirst)
  refine ⟨?_, fun hwhole => ⟨?_, fun pieces hpieces hflatten => ?_⟩⟩
  · rw [rtssGptVerifyPartitionEntryCrc32_iff]
    constructor
    · rintro ⟨-, hwhole, hcrc⟩
      rw [← flashEntries_eq] at hwhole hcrc
      exact ⟨hwhole, by rw [rtssGptCalcCrc32_eq (htable hwhole), hcrc]⟩
    · rintro ⟨hwhole, hcrc⟩
      rw [rtssGptCalcCrc32_eq (htable hwhole), flashEntries_eq] at hcrc
      rw [flashEntries_eq] at hwhole
      exact ⟨hfits, hwhole, hcrc⟩
  · exact chainedCrc32_eq _ (fun entry hentry => hnonempty entry (hwhole entry hentry)) rfl
      (htable hwhole)
  · exact chainedCrc32_eq _ hpieces hflatten (htable hwhole)

def twoEntriesHeader : Mem :=
  [(RtssGptHeader.partitionEntryLba, 1), (RtssGptHeader.numberOfPartitionEntries, 2),
    (RtssGptHeader.sizeOfPartitionEntry, 1),
    (RtssGptHeader.partitionEntriesCrc32, rtssGptCalcCrc32 [7, 7] 5)].foldl
      (fun m w => store32 m w.1 w.2) (fun _ => 0)

theorem table_crc32_sample :
    (rtssGptVerifyPartitionEntryCrc32 twoEntriesHeader (fun _ => 0) (.ofFlash fun _ => 7) 128 4096
      5).1 = true :=
  (table_crc32_iff twoEntriesHeader (fun _ => 0) (.ofFlash fun _ => 7) 128 4096 5
    (by decide) (by decide)).1.mpr (by decide +kernel)

/-! The check of the header takes its own CRC out of the header and puts it back. -/

/-- The check as the source makes it, and the header after it. -/
def verifyHeaderCrc32InPlace (hdr : Mem) (crc32Seed : UInt32) : Bool × Mem :=
  let crc := load32 hdr RtssGptHeader.headerCrc32
  if (load32 hdr RtssGptHeader.headerSize).toNat > sizeofRtssGptHeader then
    (false, hdr)
  else
    let hdr := store32 hdr RtssGptHeader.headerCrc32 0
    let crc2 := rtssGptCalcCrc32
      (loadBytes hdr 0 (load32 hdr RtssGptHeader.headerSize).toNat) crc32Seed
    let hdr := store32 hdr RtssGptHeader.headerCrc32 crc
    (crc == crc2, hdr)

theorem verifyHeaderCrc32InPlace_eq (hdr : Mem) (crc32Seed : UInt32) :
    verifyHeaderCrc32InPlace hdr crc32Seed = (rtssGptVerifyHeaderCrc32 hdr crc32Seed, hdr) := by
  have hsize : load32 (store32 hdr RtssGptHeader.headerCrc32 0) RtssGptHeader.headerSize =
      load32 hdr RtssGptHeader.headerSize :=
    load32_store32_disjoint _ _ _ _ (Or.inl (by decide))
  rw [verifyHeaderCrc32InPlace, rtssGptVerifyHeaderCrc32]
  split
  · rfl
  · simp only [hsize, store32_store32_same, store32_load32]

/-- Whatever the module and the work buffer held before: the initialisation succeeds if one
of the two headers passes all checks, prefers the primary one, and keeps that header as it
is on the flash; without one it keeps nothing. -/
theorem header_failover (blockCount bufSz alignment : UInt32) (readCb : GptReadCb) (workBuf : Mem)
    (g : GptGlobals) (hcount : 1 ≤ blockCount) (hadmits : InitAdmits bufSz alignment) :
    let r := rtssGptPartitionInit blockCount (some readCb) (some workBuf) bufSz alignment g
    let sz := gptReadSize alignment
    let secondaryAddr := UInt32.ofNat ((blockCount.toNat - 1) * 4096)
    (r.1 = true ↔ AcceptedAt readCb bufSz 4096 sz ∨ AcceptedAt readCb bufSz secondaryAddr sz) ∧
    (r.1 = true →
      (r.2.gptId = rtssGptTablePrimary ↔ AcceptedAt readCb bufSz 4096 sz) ∧
      (AcceptedAt readCb bufSz 4096 sz → r.2.gptHdr = headerAt readCb 4096 sz) ∧
      (¬ AcceptedAt readCb bufSz 4096 sz →
        r.2.gptId = rtssGptTableSecondary ∧ r.2.gptHdr = headerAt readCb secondaryAddr sz) ∧
      verifyHeaderCrc32InPlace r.2.gptHdr rtssGptCrc32SeedDefault = (true, r.2.gptHdr)) ∧
    (r.1 = false → r.2.gptHdr = (fun _ => 0) ∧ r.2.gptId = rtssGptTableNull) := by
  have haddr : UInt32.ofNat ((blockCount.toNat - 1) * 4096) =
      (blockCount - 1) * rtssGptNorLbaSz := by
    apply UInt32.toNat.inj
    rw [UInt32.toNat_ofNat', UInt32.toNat_mul, UInt32.toNat_sub_of_le _ _ hcount]
    rfl
  intro r sz secondaryAddr
  have hcases := rtssGptPartitionInit_cases blockCount bufSz alignment readCb workBuf g hadmits
  simp only [← haddr] at hcases
  obtain ⟨hprimary, hret, hid, hhdr, -⟩ | ⟨hnot, hsecondary, hret, hid, hhdr, -⟩ |
    ⟨hnot, hnot', hret, hid, hhdr⟩ := hcases
  · refine ⟨iff_of_true hret (Or.inl hprimary), fun _ => ⟨iff_of_true hid hprimary,
      fun _ => hhdr, fun h => absurd hprimary h, ?_⟩, fun h => ?_⟩
    · rw [verifyHeaderCrc32InPlace_eq, hhdr, hprimary.header]
    · exact absurd (h.symm.trans hret) Bool.false_ne_true
  · refine ⟨iff_of_true hret (Or.inr hsecondary), fun _ => ⟨iff_of_false ?_ hnot,
      fun h => absurd h hnot, fun _ => ⟨hid, hhdr⟩, ?_⟩, fun h => ?_⟩
    · exact fun h => absurd (hid.symm.trans h) (by decide)
    · rw [verifyHeaderCrc32InPlace_eq, hhdr, hsecondary.header]
    · exact absurd (h.symm.trans hret) Bool.false_ne_true
  · refine ⟨iff_of_false ?_ ?_, fun h => absurd (hret.symm.trans h) Bool.false_ne_true,
      fun _ => ⟨hhdr, hid⟩⟩
    · exact fun h => absurd (hret.symm.trans h) Bool.false_ne_true
    · exact not_or.mpr ⟨hnot, hnot'⟩

theorem header_failover_sample :
    verifyHeaderCrc32InPlace (sampleInit 48 sampleTable).2.gptHdr rtssGptCrc32SeedDefault =
      (true, (sampleInit 48 sampleTable).2.gptHdr) := by
  have hret : (sampleInit 48 sampleTable).1 = true := congrArg Prod.fst sampleInit_eq
  have hfailover := header_failover 16 4096 64 (.ofFlash (sampleFlash 48 sampleTable))
    (fun _ => 0) .initial (by decide) ⟨by decide, by decide, by decide⟩
  rw [← sampleInit] at hfailover
  exact (hfailover.2.1 hret).2.2.2

end RtssMailbox
