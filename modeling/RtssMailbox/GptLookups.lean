import Mathlib.Logic.Relation
import RtssMailbox.GptFailover

/-!
Lookups in any state of the module: what they make of the blocks of a partition entry, and
whether a failed initialisation stops them.
-/
namespace RtssMailbox
open ByteMemory Relation

/-- The entries that a lookup can read: the table up to its first entry that the callback
does not read whole. -/
def readableEntries (g : GptGlobals) (readCb : GptReadCb) : List (List UInt8) :=
  (gptTable readCb g.gptHdr rtssGptNorLbaSz).takeWhile fun entry =>
    entry.length = (load32 g.gptHdr RtssGptHeader.sizeOfPartitionEntry).toNat

/-- The partition entry for a type GUID, as the work buffer shows it, if the module has a
callback and a buffer that takes an entry. -/
def usedEntry (guid : Option RtssGptGuid) (g : GptGlobals) : Option Mem :=
  match g.gptPartitionInitDone, guid, g.gptEntryReadCb, g.gptWorkBuf with
  | true, some guid, some readCb, some workBuf =>
      if load32 g.gptHdr RtssGptHeader.sizeOfPartitionEntry > g.gptWorkBufSz then
        none
      else
        ((readableEntries g readCb).map (storeBytes workBuf 0)).find? fun entry =>
          rtssGptVerifyPartitionGuid entry guid
  | _, _, _, _ => none

theorem gptLookup_eq (g : GptGlobals) (readCb : GptReadCb) (guid : RtssGptGuid) (workBuf : Mem)
    (hdone : g.gptPartitionInitDone = true) (hcb : g.gptEntryReadCb = some readCb)
    (hbuf : g.gptWorkBuf = some workBuf) :
    (gptLookup g readCb guid workBuf).1 = usedEntry (some guid) g := by
  simp only [gptLookup, usedEntry, hdone, hcb, hbuf]
  split
  · rfl
  · rw [gptEntryBase_eq, findEntry_takeWhile]
    rfl

/-- The start address and the size that a lookup computes from the blocks of an entry. -/
def blockRange (blocks : UInt64 × UInt64) : UInt32 × UInt32 :=
  ((rtssGptGetPartitionBase blocks.1 rtssGptNorLbaSz).toUInt32,
    (rtssGptGetPartitionSize blocks.1 blocks.2 rtssGptNorLbaSz).toUInt32)

/-- The result and the outputs of a lookup with both outputs, from the entry that it uses. -/
def rangeAnswer (startAddr size : UInt32) : Option Mem → Bool × Option UInt32 × Option UInt32
  | none => (false, some startAddr, some size)
  | some entry =>
      let range := blockRange (entryBlocks entry)
      (range.2 ≠ 0, some range.1, some range.2)

/-- The result and the outputs of a call. -/
def infoOutputs (guid : Option RtssGptGuid) (startAddr size : Option UInt32) (g : GptGlobals) :
    Bool × Option UInt32 × Option UInt32 :=
  let (found, startAddr, size, _) := rtssGptGetPartitionInfo guid startAddr size g
  (found, startAddr, size)

section Outputs
variable {guid : Option RtssGptGuid} {startAddr size : UInt32} {g : GptGlobals}

theorem infoOutputs_eq :
    infoOutputs guid (some startAddr) (some size) g =
      rangeAnswer startAddr size (usedEntry guid g) := by
  cases hdone : g.gptPartitionInitDone with
  | false => simp only [infoOutputs, rtssGptGetPartitionInfo, usedEntry, hdone, rangeAnswer]
  | true =>
      cases guid with
      | none => simp only [infoOutputs, rtssGptGetPartitionInfo, usedEntry, hdone, rangeAnswer]
      | some guid =>
          cases hcb : g.gptEntryReadCb with
          | none => simp only [infoOutputs, rtssGptGetPartitionInfo, usedEntry, hdone, hcb,
              rangeAnswer]
          | some readCb =>
              cases hbuf : g.gptWorkBuf with
              | none => simp only [infoOutputs, rtssGptGetPartitionInfo, usedEntry, hdone, hcb,
                  hbuf, rangeAnswer]
              | some workBuf =>
                  rw [← gptLookup_eq g readCb guid workBuf hdone hcb hbuf]
                  simp only [infoOutputs, rtssGptGetPartitionInfo, hdone, hcb, hbuf]
                  cases gptLookup g readCb guid workBuf with
                  | mk found buf =>
                      cases found with
                      | none => rfl
                      | some entry =>
                          simp only [rangeAnswer, blockRange, entryBlocks, Prod.mk.injEq, and_true]
                          exact decide_eq_decide.mpr Iff.rfl

theorem infoOutputs_none_left (size : Option UInt32) :
    infoOutputs guid none size g = (false, none, size) := by
  rw [infoOutputs, rtssGptGetPartitionInfo.eq_2]
  intro _ _ _ _ _ _ _ haddr
  cases haddr

theorem infoOutputs_none_right (startAddr : Option UInt32) :
    infoOutputs guid startAddr none g = (false, startAddr, none) := by
  rw [infoOutputs, rtssGptGetPartitionInfo.eq_2]
  intro _ _ _ _ _ _ _ _ hsize
  cases hsize

end Outputs

theorem rtssGptGetPartitionBase_toNat (startingLba : UInt64) :
    (rtssGptGetPartitionBase startingLba rtssGptNorLbaSz).toUInt32.toNat =
      startingLba.toNat * 4096 % 2 ^ 32 := by
  have hlba : rtssGptNorLbaSz.toUInt64.toNat = 4096 := rfl
  rw [rtssGptGetPartitionBase, UInt64.toNat_toUInt32, UInt64.toNat_mul, hlba]
  omega

theorem rtssGptGetPartitionSize_toNat {startingLba endingLba : UInt64}
    (h : startingLba ≤ endingLba) :
    (rtssGptGetPartitionSize startingLba endingLba rtssGptNorLbaSz).toUInt32.toNat =
      (endingLba.toNat - startingLba.toNat + 1) * 4096 % 2 ^ 32 := by
  have hlba : rtssGptNorLbaSz.toUInt64.toNat = 4096 := rfl
  have hone : (1 : UInt64).toNat = 1 := rfl
  rw [rtssGptGetPartitionSize, if_neg (UInt64.not_lt.mpr h), UInt64.toNat_toUInt32,
    UInt64.toNat_mul, UInt64.toNat_add, UInt64.toNat_sub_of_le _ _ h, hlba, hone]
  omega

/-- The range is that of the blocks, as integers. -/
def IsRange (blocks : UInt64 × UInt64) (startAddr size : UInt32) : Prop :=
  (startAddr.toNat : ℤ) = blocks.1.toNat * 4096 ∧
    (size.toNat : ℤ) = ((blocks.2.toNat : ℤ) - blocks.1.toNat + 1) * 4096

/-- A lookup that returns true gives the range of its entry; one that returns false leaves
the outputs as they were. -/
def RangeExact (guid : Option RtssGptGuid) (startAddr size : Option UInt32) (g : GptGlobals) :
    Prop :=
  let (found, startAddr', size') := infoOutputs guid startAddr size g
  (found = true → ∃ entry ∈ usedEntry guid g, ∃ a ∈ startAddr', ∃ n ∈ size',
    IsRange (entryBlocks entry) a n) ∧
  (found = false → startAddr' = startAddr ∧ size' = size)

/-- The first block is not behind the last, and start address and size fit in 32 bits. -/
def RangeFits (blocks : UInt64 × UInt64) : Prop :=
  blocks.1 ≤ blocks.2 ∧ blocks.1.toNat * 4096 < 2 ^ 32 ∧
    (blocks.2.toNat - blocks.1.toNat + 1) * 4096 < 2 ^ 32

/-- The blocks are in the wrong order, or so many that the size wraps to zero, and the
outputs hold already what the lookup writes. -/
def RangeUnseen (blocks : UInt64 × UInt64) (startAddr size : UInt32) : Prop :=
  (blocks.2 < blocks.1 ∨ 2 ^ 20 ∣ blocks.2.toNat - blocks.1.toNat + 1) ∧
    startAddr.toNat = blocks.1.toNat * 4096 % 2 ^ 32 ∧ size = 0

theorem blockRange_size_ne_zero_iff (blocks : UInt64 × UInt64) :
    (blockRange blocks).2 ≠ 0 ↔
      ¬ (blocks.2 < blocks.1 ∨ 2 ^ 20 ∣ blocks.2.toNat - blocks.1.toNat + 1) := by
  rw [blockRange, not_or, UInt64.not_lt, ← UInt32.toNat_inj.ne, UInt32.toNat_zero]
  by_cases horder : blocks.1 ≤ blocks.2
  · rw [rtssGptGetPartitionSize_toNat horder, and_iff_right horder]
    omega
  · rw [rtssGptGetPartitionSize, if_pos (UInt64.not_le.mp horder)]
    exact iff_of_false (fun h => h rfl) fun h => horder h.1

theorem isRange_blockRange_iff {blocks : UInt64 × UInt64} (h : (blockRange blocks).2 ≠ 0) :
    IsRange blocks (blockRange blocks).1 (blockRange blocks).2 ↔ RangeFits blocks := by
  obtain ⟨horder, -⟩ := not_or.mp ((blockRange_size_ne_zero_iff blocks).mp h)
  have horder := UInt64.not_lt.mp horder
  have hle : blocks.1.toNat ≤ blocks.2.toNat := horder
  rw [IsRange, RangeFits, and_iff_right horder, blockRange, rtssGptGetPartitionBase_toNat,
    rtssGptGetPartitionSize_toNat horder]
  omega

theorem RangeFits.size_ne_zero {blocks : UInt64 × UInt64} (h : RangeFits blocks) :
    (blockRange blocks).2 ≠ 0 := by
  obtain ⟨horder, -, hsize⟩ := h
  have hle : blocks.1.toNat ≤ blocks.2.toNat := horder
  rw [blockRange_size_ne_zero_iff, not_or]
  exact ⟨UInt64.not_lt.mpr horder, by omega⟩

/-- A lookup is exact if and only if the blocks of the entry that it uses are in order and
start address and size fit in 32 bits, or it returns false and its outputs already hold
what it writes into them. -/
theorem partition_range_exact_iff (guid : Option RtssGptGuid) (startAddr size : Option UInt32)
    (g : GptGlobals) :
    RangeExact guid startAddr size g ↔
      ∀ entry ∈ usedEntry guid g, ∀ a ∈ startAddr, ∀ n ∈ size,
        RangeFits (entryBlocks entry) ∨ RangeUnseen (entryBlocks entry) a n := by
  cases startAddr with
  | none =>
      rw [RangeExact, infoOutputs_none_left]
      exact ⟨fun _ _ _ => nofun, fun _ => ⟨nofun, fun _ => ⟨rfl, rfl⟩⟩⟩
  | some a =>
      cases size with
      | none =>
          rw [RangeExact, infoOutputs_none_right]
          exact ⟨fun _ _ _ _ _ => nofun, fun _ => ⟨nofun, fun _ => ⟨rfl, rfl⟩⟩⟩
      | some n =>
          rw [RangeExact, infoOutputs_eq]
          cases usedEntry guid g with
          | none => exact ⟨fun _ => nofun, fun _ => ⟨nofun, fun _ => ⟨rfl, rfl⟩⟩⟩
          | some entry =>
              simp only [rangeAnswer, Option.mem_some_iff, forall_eq', exists_eq_left',
                decide_eq_true_iff, decide_eq_false_iff_not, Option.some.injEq]
              by_cases hsize : (blockRange (entryBlocks entry)).2 ≠ 0
              · have hunseen : ¬ RangeUnseen (entryBlocks entry) a n := fun h =>
                  (blockRange_size_ne_zero_iff _).mp hsize h.1
                rw [or_iff_left hunseen, ← isRange_blockRange_iff hsize]
                exact ⟨fun h => h.1 hsize, fun h => ⟨fun _ => h, fun hzero => absurd hsize hzero⟩⟩
              · have hfits : ¬ RangeFits (entryBlocks entry) := fun h => hsize h.size_ne_zero
                have hzero := not_not.mp hsize
                have hblocks := not_not.mp (mt (blockRange_size_ne_zero_iff _).mpr hsize)
                rw [or_iff_right hfits, RangeUnseen, and_iff_right hblocks,
                  ← rtssGptGetPartitionBase_toNat, UInt32.toNat_inj]
                constructor
                · intro h
                  obtain ⟨haddr, hsame⟩ := h.2 hsize
                  exact ⟨haddr.symm, hsame.symm.trans hzero⟩
                · rintro ⟨haddr, hsame⟩
                  exact ⟨fun h => absurd hzero h, fun _ => ⟨haddr.symm, hzero.trans hsame.symm⟩⟩

def distantTable : List (List UInt8) :=
  [sampleGuid.bytes ++ List.replicate 16 0 ++ leBytes 8 (2 ^ 20) ++ leBytes 8 (2 ^ 20) ++
    List.replicate 80 0]

theorem not_rangeExact {guid : Option RtssGptGuid} {startAddr size : Option UInt32}
    {g : GptGlobals} {a n : UInt32} {blocks : UInt64 × UInt64}
    (hfound : infoOutputs guid startAddr size g = (true, some a, some n))
    (hblocks : (usedEntry guid g).map entryBlocks = some blocks)
    (haddr : a.toNat ≠ blocks.1.toNat * 4096) : ¬ RangeExact guid startAddr size g := by
  intro h
  rw [RangeExact, hfound] at h
  obtain ⟨entry, hentry, a', ha, n', -, hstart, -⟩ := h.1 rfl
  rw [hentry, Option.map_some, Option.some.injEq] at hblocks
  rw [hblocks, ← Option.some.inj ha] at hstart
  exact haddr (by exact_mod_cast hstart)

theorem range_not_exact :
    (sampleInit 128 distantTable).1 = true ∧
      ¬ RangeExact (some sampleGuid) (some 0) (some 0) (sampleInit 128 distantTable).2 := by
  have hrun : ((sampleInit 128 distantTable).1,
      infoOutputs (some sampleGuid) (some 0) (some 0) (sampleInit 128 distantTable).2,
      (usedEntry (some sampleGuid) (sampleInit 128 distantTable).2).map entryBlocks) =
      (true, (true, some 0, some 4096), some (1048576, 1048576)) := by decide +kernel
  rw [Prod.mk.injEq, Prod.mk.injEq] at hrun
  exact ⟨hrun.1, not_rangeExact hrun.2.1 hrun.2.2 (by decide)⟩

/-! What a failed initialisation leaves to the calls after it. -/

/-- What can happen until an initialisation succeeds: one that fails, the other calls of
the module, and writes of others to the flash and the work buffer. -/
inductive LaterStep : GptGlobals → GptGlobals → Prop
  | init (blockCount : UInt32) (readCb : Option GptReadCb) (workBuf : Option Mem)
      (bufSz alignment : UInt32) (g : GptGlobals)
      (hfail : (rtssGptPartitionInit blockCount readCb workBuf bufSz alignment g).1 = false) :
      LaterStep g (rtssGptPartitionInit blockCount readCb workBuf bufSz alignment g).2
  | deinit (g : GptGlobals) : LaterStep g (rtssGptPartitionDeinit g)
  | lookup (guid : Option RtssGptGuid) (startAddr size : Option UInt32) (g : GptGlobals) :
      LaterStep g (rtssGptGetPartitionInfo guid startAddr size g).2.2.2
  | rewrite (readCb : GptReadCb) (workBuf : Mem) (g : GptGlobals) :
      LaterStep g { g with
        gptEntryReadCb := g.gptEntryReadCb.map fun _ => readCb
        gptWorkBuf := g.gptWorkBuf.map fun _ => workBuf }

/-- No lookup finds a partition until an initialisation succeeds. -/
def Uninitialised (g : GptGlobals) : Prop :=
  ∀ g', ReflTransGen LaterStep g g' → ∀ guid startAddr size,
    (rtssGptGetPartitionInfo guid startAddr size g').1 = false

/-- A failed initialisation leaves the module uninitialised, or as it was. -/
def FailureClean (blockCount : UInt32) (readCb : Option GptReadCb) (workBuf : Option Mem)
    (bufSz alignment : UInt32) (g : GptGlobals) : Prop :=
  let r := rtssGptPartitionInit blockCount readCb workBuf bufSz alignment g
  r.1 = false → r.2 = g ∨ Uninitialised r.2

/-- The lookups of this state fail, and no call but an initialisation that succeeds changes
that: the flag is down, or the header has no entries or entries that no buffer takes. -/
def GptGlobals.Dead (g : GptGlobals) : Prop :=
  g.gptPartitionInitDone = false ∨
    load32 g.gptHdr RtssGptHeader.numberOfPartitionEntries = 0 ∨
    load32 g.gptHdr RtssGptHeader.sizeOfPartitionEntry = 0xFFFFFFFF ∧
      g.gptWorkBufSz < 0xFFFFFFFF

section Init
variable {blockCount bufSz alignment : UInt32} {readCb : GptReadCb} {workBuf : Mem}
  {g : GptGlobals}

theorem bufSz_lt_of_not_admitted (halign : alignment ≠ 0) (hnot : ¬ InitAdmits bufSz alignment) :
    bufSz < 0xFFFFFFFF := by
  by_contra hlt
  have hle : (0xFFFFFFFF : UInt32) ≤ bufSz := UInt32.not_lt.mp hlt
  have hmax : ∀ x : UInt32, x ≤ bufSz := fun x => by
    have hx := x.toNat_lt
    have hbuf : 4294967295 ≤ bufSz.toNat := hle
    exact UInt32.le_iff_toNat_le.mpr (by omega)
  exact hnot ⟨halign, hmax _, hmax _⟩

theorem gptHdr_of_admitted (hadmits : InitAdmits bufSz alignment)
    (hfail : (rtssGptPartitionInit blockCount (some readCb) (some workBuf) bufSz alignment g).1 =
      false) :
    (rtssGptPartitionInit blockCount (some readCb) (some workBuf) bufSz alignment g).2.gptHdr =
      fun _ => 0 := by
  obtain ⟨-, hret, -⟩ | ⟨-, -, hret, -⟩ | ⟨-, -, -, -, hhdr⟩ :=
    rtssGptPartitionInit_cases blockCount bufSz alignment readCb workBuf g hadmits
  · exact absurd (hfail.symm.trans hret) Bool.false_ne_true
  · exact absurd (hfail.symm.trans hret) Bool.false_ne_true
  · exact hhdr

theorem GptGlobals.Dead.register (h : g.Dead) (hbuf : bufSz < 0xFFFFFFFF) :
    (g.register blockCount readCb workBuf bufSz alignment).Dead := by
  rcases h with hdone | hcount | ⟨hsize, -⟩
  · exact Or.inl hdone
  · exact Or.inr (Or.inl hcount)
  · exact Or.inr (Or.inr ⟨hsize, hbuf⟩)

/-- A failed initialisation does nothing, or registers its arguments, or clears the header. -/
theorem rtssGptPartitionInit_failed {readCb : Option GptReadCb} {workBuf : Option Mem}
    (hfail : (rtssGptPartitionInit blockCount readCb workBuf bufSz alignment g).1 = false) :
    (rtssGptPartitionInit blockCount readCb workBuf bufSz alignment g).2 = g ∨
      (∃ cb ∈ readCb, ∃ buf ∈ workBuf, alignment ≠ 0 ∧ ¬ InitAdmits bufSz alignment ∧
        (rtssGptPartitionInit blockCount readCb workBuf bufSz alignment g).2 =
          g.register blockCount cb buf bufSz alignment) ∨
      (rtssGptPartitionInit blockCount readCb workBuf bufSz alignment g).2.gptHdr =
        fun _ => 0 := by
  cases readCb with
  | none => exact Or.inl rfl
  | some cb =>
      cases workBuf with
      | none => exact Or.inl rfl
      | some buf =>
          by_cases halign : alignment = 0
          · left
            simp only [rtssGptPartitionInit, if_pos halign]
          by_cases hadmits : InitAdmits bufSz alignment
          · exact Or.inr (Or.inr (gptHdr_of_admitted hadmits hfail))
          · refine Or.inr (Or.inl ⟨cb, rfl, buf, rfl, halign, hadmits, ?_⟩)
            rw [rtssGptPartitionInit_not_admitted _ _ _ _ _ _ halign hadmits]

theorem rtssGptGetPartitionInfo_globals (guid : Option RtssGptGuid)
    (startAddr size : Option UInt32) (g : GptGlobals) :
    ∃ workBuf, (rtssGptGetPartitionInfo guid startAddr size g).2.2.2 =
      { g with gptWorkBuf := workBuf } := by
  simp only [rtssGptGetPartitionInfo]
  split
  · split
    · exact ⟨_, rfl⟩
    · exact ⟨_, rfl⟩
  · exact ⟨g.gptWorkBuf, rfl⟩

theorem LaterStep.dead {g g' : GptGlobals} (h : LaterStep g g') (hdead : g.Dead) : g'.Dead := by
  cases h with
  | init blockCount readCb workBuf bufSz alignment _ hfail =>
      obtain hsame | ⟨cb, -, buf, -, halign, hnot, hregister⟩ | hhdr :=
        rtssGptPartitionInit_failed hfail
      · rwa [hsame]
      · rw [hregister]
        exact hdead.register (bufSz_lt_of_not_admitted halign hnot)
      · refine Or.inr (Or.inl ?_)
        rw [hhdr]
        rfl
  | deinit => exact Or.inl rfl
  | lookup guid startAddr size =>
      obtain ⟨workBuf, hglobals⟩ := rtssGptGetPartitionInfo_globals guid startAddr size g
      rw [hglobals]
      exact hdead
  | rewrite => exact hdead

theorem LaterStep.dead_run {g g' : GptGlobals} (h : ReflTransGen LaterStep g g')
    (hdead : g.Dead) : g'.Dead := by
  induction h with
  | refl => exact hdead
  | tail _ hstep ih => exact hstep.dead ih

theorem GptGlobals.Dead.usedEntry_eq (h : g.Dead) (guid : Option RtssGptGuid) :
    usedEntry guid g = none := by
  unfold usedEntry
  split
  · rename_i hdone hcb hbuf
    rcases h with hdown | hcount | ⟨hsize, hlt⟩
    · exact absurd (hdown.symm.trans hdone) Bool.false_ne_true
    · rw [readableEntries, gptTable, gptEntryNumbers, hcount]
      simp
    · rw [hsize, if_pos hlt]
  · rfl

theorem GptGlobals.Dead.uninitialised (h : g.Dead) : Uninitialised g := by
  intro g' hrun guid startAddr size
  have hnone := (LaterStep.dead_run hrun h).usedEntry_eq guid
  suffices hout : (infoOutputs guid startAddr size g').1 = false from hout
  cases startAddr with
  | none => rw [infoOutputs_none_left]
  | some a =>
      cases size with
      | none => rw [infoOutputs_none_right]
      | some n => rw [infoOutputs_eq, hnone, rangeAnswer]

end Init

def zeroGuid : RtssGptGuid := ⟨0, 0, 0, List.replicate 8 0, rfl⟩

theorem storeBytes_zeros (n : Nat) :
    storeBytes (fun _ => 0) 0 (loadBytes (fun _ => 0) 0 n) = fun _ => 0 := by
  funext p
  rw [storeBytes]
  split
  · rw [List.getD_eq_getElem?_getD, getElem?_loadBytes _ _ _ _ (by simp_all), Option.getD_some]
  · rfl

/-- With an empty flash and an empty buffer, a header with entries finds the partition
of the first block. -/
theorem usedEntry_zeros {g : GptGlobals} (hdone : g.gptPartitionInitDone = true)
    (hcb : g.gptEntryReadCb = some (.ofFlash fun _ => 0)) (hbuf : g.gptWorkBuf = some fun _ => 0)
    (hcount : load32 g.gptHdr RtssGptHeader.numberOfPartitionEntries ≠ 0)
    (hsize : load32 g.gptHdr RtssGptHeader.sizeOfPartitionEntry ≤ g.gptWorkBufSz) :
    usedEntry (some zeroGuid) g = some fun _ => 0 := by
  have hnumbers : gptEntryNumbers g.gptHdr ≠ [] := by
    have hpos : (load32 g.gptHdr RtssGptHeader.numberOfPartitionEntries).toNat ≠ 0 :=
      fun h => hcount (UInt32.toNat.inj h)
    simpa [gptEntryNumbers] using hpos
  obtain ⟨i, rest, hcons⟩ := List.exists_cons_of_ne_nil hnumbers
  have hentry : gptEntryBytes (.ofFlash fun _ => 0) g.gptHdr rtssGptNorLbaSz i =
      loadBytes (fun _ => 0) 0 (load32 g.gptHdr RtssGptHeader.sizeOfPartitionEntry).toNat := rfl
  simp only [usedEntry, hdone, hcb, hbuf, if_neg (UInt32.not_lt.mpr hsize)]
  rw [readableEntries, gptTable, hcons, List.map_cons, hentry, List.takeWhile_cons,
    loadBytes_length, decide_eq_true rfl, if_pos rfl, List.map_cons, storeBytes_zeros]
  exact List.find?_cons_of_pos rfl

theorem infoOutputs_zeros {g : GptGlobals} (h : usedEntry (some zeroGuid) g = some fun _ => 0) :
    (rtssGptGetPartitionInfo (some zeroGuid) (some 0) (some 0) g).1 = true := by
  suffices hout : (infoOutputs (some zeroGuid) (some 0) (some 0) g).1 = true from hout
  rw [infoOutputs_eq, h]
  rfl

/-- A buffer of any size can be registered by an initialisation that fails, which asks for
one byte more; so only the largest entries are safe from the lookups after it. -/
theorem not_uninitialised {g : GptGlobals} (hdone : g.gptPartitionInitDone = true)
    (hcount : load32 g.gptHdr RtssGptHeader.numberOfPartitionEntries ≠ 0)
    (hsize : load32 g.gptHdr RtssGptHeader.sizeOfPartitionEntry ≠ 0xFFFFFFFF) :
    ¬ Uninitialised g := by
  intro h
  have hnot : ¬ InitAdmits 0xFFFFFFFE 0xFFFFFFFF := fun h => absurd h.2.1 (by decide)
  have hinit : rtssGptPartitionInit 0 (some (.ofFlash fun _ => 0)) (some fun _ => 0) 0xFFFFFFFE
      0xFFFFFFFF g =
        (false, g.register 0 (.ofFlash fun _ => 0) (fun _ => 0) 0xFFFFFFFE 0xFFFFFFFF) :=
    rtssGptPartitionInit_not_admitted _ _ _ _ _ _ (by decide) hnot
  have hstep := LaterStep.init 0 (some (.ofFlash fun _ => 0)) (some fun _ => 0) 0xFFFFFFFE
    0xFFFFFFFF g (by rw [hinit])
  rw [hinit] at hstep
  have hfits : load32 g.gptHdr RtssGptHeader.sizeOfPartitionEntry ≤ 0xFFFFFFFE := by
    have hne := mt UInt32.toNat.inj hsize
    have hmax : (4294967295 : UInt32).toNat = 4294967295 := rfl
    have hbuf : (4294967294 : UInt32).toNat = 4294967294 := rfl
    have hlt := UInt32.toNat_lt (load32 g.gptHdr RtssGptHeader.sizeOfPartitionEntry)
    rw [UInt32.le_iff_toNat_le, hbuf]
    omega
  have hentry := usedEntry_zeros
    (g := g.register 0 (.ofFlash fun _ => 0) (fun _ => 0) 0xFFFFFFFE 0xFFFFFFFF)
    hdone rfl rfl hcount hfits
  have hfound := infoOutputs_zeros hentry
  rw [h _ (.single hstep) (some zeroGuid) (some 0) (some 0)] at hfound
  exact Bool.false_ne_true hfound

/-- The module has these arguments of an initialisation already. -/
def Registered (blockCount : UInt32) (readCb : GptReadCb) (workBuf : Mem)
    (bufSz alignment : UInt32) (g : GptGlobals) : Prop :=
  g.gptEntryReadCb = some readCb ∧ g.gptWorkBuf = some workBuf ∧ g.gptWorkBufSz = bufSz ∧
    g.gptReadAlignment = alignment ∧ g.gptBlockCount = blockCount

theorem register_eq_iff {blockCount bufSz alignment : UInt32} {readCb : GptReadCb}
    {workBuf : Mem} {g : GptGlobals} :
    g.register blockCount readCb workBuf bufSz alignment = g ↔
      Registered blockCount readCb workBuf bufSz alignment g := by
  constructor
  · intro h
    rw [← h]
    exact ⟨rfl, rfl, rfl, rfl, rfl⟩
  · rintro ⟨hcb, hbuf, hsz, halign, hcount⟩
    rw [GptGlobals.register, ← hcb, ← hbuf, ← hsz, ← halign, ← hcount]

/-- A failed initialisation leaves the module uninitialised or as it was exactly if it ends
before it touches the module, or gets as far as the flash, or the module was not initialised
or has no entries that a lookup could find, or has the same arguments already. -/
theorem init_failure_clean_iff (blockCount : UInt32) (readCb : Option GptReadCb)
    (workBuf : Option Mem) (bufSz alignment : UInt32) (g : GptGlobals) :
    FailureClean blockCount readCb workBuf bufSz alignment g ↔
      ∀ cb ∈ readCb, ∀ buf ∈ workBuf, alignment ≠ 0 → ¬ InitAdmits bufSz alignment →
        g.gptPartitionInitDone = false ∨
        load32 g.gptHdr RtssGptHeader.numberOfPartitionEntries = 0 ∨
        load32 g.gptHdr RtssGptHeader.sizeOfPartitionEntry = 0xFFFFFFFF ∨
        Registered blockCount cb buf bufSz alignment g := by
  constructor
  · rintro h cb rfl buf rfl halign hnot
    rw [FailureClean, rtssGptPartitionInit_not_admitted _ _ _ _ _ _ halign hnot] at h
    cases hdone : g.gptPartitionInitDone with
    | false => exact Or.inl rfl
    | true =>
        refine Or.inr (or_iff_not_imp_left.mpr fun hcount => ?_)
        refine or_iff_not_imp_left.mpr fun hsize => ?_
        obtain hsame | hdead := h rfl
        · exact register_eq_iff.mp hsame
        · exact absurd hdead (not_uninitialised hdone hcount hsize)
  · intro h hfail
    obtain hsame | ⟨cb, hcb, buf, hbuf, halign, hnot, hregister⟩ | hhdr :=
      rtssGptPartitionInit_failed hfail
    · exact Or.inl hsame
    · have hlt := bufSz_lt_of_not_admitted halign hnot
      rw [hregister]
      obtain hdone | hcount | hsize | hsame := h cb hcb buf hbuf halign hnot
      · exact Or.inr (GptGlobals.Dead.uninitialised (Or.inl hdone))
      · exact Or.inr (GptGlobals.Dead.uninitialised (Or.inr (Or.inl hcount)))
      · exact Or.inr (GptGlobals.Dead.uninitialised (Or.inr (Or.inr ⟨hsize, hlt⟩)))
      · exact Or.inl (register_eq_iff.mpr hsame)
    · refine Or.inr (GptGlobals.Dead.uninitialised (Or.inr (Or.inl ?_)))
      rw [hhdr]
      rfl

/-- After a successful initialisation, one with a buffer that is too small for a header. -/
theorem init_failure_not_clean :
    ¬ FailureClean 16 (some (.ofFlash (sampleFlash 48 sampleTable))) (some fun _ => 0) 64 64
      (sampleInit 48 sampleTable).2 := by
  have hrun : (rtssGptGetPartitionInfo (some sampleGuid) (some 0) (some 0)
      ((sampleInit 48 sampleTable).2.register 16 (.ofFlash (sampleFlash 48 sampleTable))
        (fun _ => 0) 64 64)).1 = true := by decide +kernel
  have hsz : (sampleInit 48 sampleTable).2.gptWorkBufSz = 4096 := by decide +kernel
  have hnot : ¬ InitAdmits 64 64 := fun h => absurd h.2.2 (by decide)
  intro h
  rw [FailureClean, rtssGptPartitionInit_not_admitted _ _ _ _ _ _ (by decide) hnot] at h
  obtain hsame | hdead := h rfl
  · have hbuf := congrArg GptGlobals.gptWorkBufSz hsame
    rw [hsz] at hbuf
    exact absurd hbuf (by decide)
  · rw [hdead _ .refl] at hrun
    exact Bool.false_ne_true hrun

end RtssMailbox
