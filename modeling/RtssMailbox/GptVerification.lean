import Mathlib.Data.List.Find
import Mathlib.Data.List.TakeWhile
import RtssMailbox.GptPartition

/-!
What the module has verified when it accepts a header, stated over the flash alone: the
work buffer carries the header and the entries, and leaves no trace in the checks.
-/
namespace RtssMailbox
open ByteMemory

/-- Where the entries of a header start. -/
def gptEntryBase (hdr : Mem) (lbaSz : UInt32) : UInt32 :=
  (load64 hdr RtssGptHeader.partitionEntryLba * lbaSz.toUInt64).toUInt32

/-- The entry number `i` on the flash, as far as the callback reads it. -/
def gptEntryBytes (readCb : GptReadCb) (hdr : Mem) (lbaSz i : UInt32) : List UInt8 :=
  readCb.read (gptEntryBase hdr lbaSz + i * load32 hdr RtssGptHeader.sizeOfPartitionEntry)
    (load32 hdr RtssGptHeader.sizeOfPartitionEntry)

/-- The table that a header describes. -/
def gptTable (readCb : GptReadCb) (hdr : Mem) (lbaSz : UInt32) : List (List UInt8) :=
  (gptEntryNumbers hdr).map (gptEntryBytes readCb hdr lbaSz)

/-- Every entry is read whole, and the table has the CRC of the header. -/
structure TableVerified (readCb : GptReadCb) (hdr : Mem) (gptWorkBufSz lbaSz crc32Seed : UInt32) :
    Prop where
  fits : load32 hdr RtssGptHeader.sizeOfPartitionEntry ≤ gptWorkBufSz
  whole : ∀ entry ∈ gptTable readCb hdr lbaSz,
    entry.length = (load32 hdr RtssGptHeader.sizeOfPartitionEntry).toNat
  crc : (gptTable readCb hdr lbaSz).flatten.foldl rtssGptCrc32Round (0xFFFFFFFF ^^^ crc32Seed) ^^^
    0xFFFFFFFF = load32 hdr RtssGptHeader.partitionEntriesCrc32

theorem GptReadCb.length_eq_iff (readCb : GptReadCb) (startByte size : UInt32) :
    size = UInt32.ofNat (readCb.read startByte size).length ↔
      (readCb.read startByte size).length = size.toNat := by
  have hle := readCb.length_le startByte size
  have hlt := size.toNat_lt
  rw [← UInt32.toNat_inj, UInt32.toNat_ofNat_of_lt' (Nat.lt_of_le_of_lt hle hlt), eq_comm]

theorem crcEntries_fst (readCb : GptReadCb) (entryBase entrySize : UInt32)
    (numbers : List UInt32) (crc : UInt32) (buf : Mem) (result : UInt32) :
    (crcEntries readCb entryBase entrySize numbers crc buf).1 = some result ↔
      (∀ i ∈ numbers, (readCb.read (entryBase + i * entrySize) entrySize).length =
        entrySize.toNat) ∧
      (numbers.flatMap fun i => readCb.read (entryBase + i * entrySize) entrySize).foldl
        rtssGptCrc32Round crc = result := by
  induction numbers generalizing crc buf with
  | nil => simp [crcEntries]
  | cons i rest ih =>
      have hsame := loadBytes_storeBytes_same buf 0
        (readCb.read (entryBase + i * entrySize) entrySize)
      have hwhole := readCb.length_eq_iff (entryBase + i * entrySize) entrySize
      simp only [crcEntries, ne_comm, ne_eq]
      by_cases hread : entrySize =
          UInt32.ofNat (readCb.read (entryBase + i * entrySize) entrySize).length
      · rw [if_neg (not_not.mpr hread), ih, hsame]
        simp [hwhole.mp hread]
      · rw [if_pos hread]
        simp [mt hwhole.mpr hread]

theorem rtssGptVerifyPartitionEntryCrc32_iff (hdr buf : Mem) (readCb : GptReadCb)
    (gptWorkBufSz lbaSz crc32Seed : UInt32) :
    (rtssGptVerifyPartitionEntryCrc32 hdr buf readCb gptWorkBufSz lbaSz crc32Seed).1 = true ↔
      TableVerified readCb hdr gptWorkBufSz lbaSz crc32Seed := by
  have hentries := crcEntries_fst readCb (gptEntryBase hdr lbaSz)
    (load32 hdr RtssGptHeader.sizeOfPartitionEntry) (gptEntryNumbers hdr)
    (0xFFFFFFFF ^^^ crc32Seed) buf
  have hwhole : (∀ i ∈ gptEntryNumbers hdr, (gptEntryBytes readCb hdr lbaSz i).length =
      (load32 hdr RtssGptHeader.sizeOfPartitionEntry).toNat) ↔
      ∀ entry ∈ gptTable readCb hdr lbaSz,
        entry.length = (load32 hdr RtssGptHeader.sizeOfPartitionEntry).toNat := by
    rw [gptTable, List.forall_mem_map]
  simp only [rtssGptVerifyPartitionEntryCrc32]
  by_cases hfits : load32 hdr RtssGptHeader.sizeOfPartitionEntry > gptWorkBufSz
  · rw [if_pos hfits]
    exact ⟨nofun, fun h => absurd h.fits (UInt32.not_le.mpr hfits)⟩
  · rw [if_neg hfits]
    rw [show (load64 hdr RtssGptHeader.partitionEntryLba * lbaSz.toUInt64).toUInt32 =
      gptEntryBase hdr lbaSz from rfl]
    cases hrun : crcEntries readCb (gptEntryBase hdr lbaSz)
      (load32 hdr RtssGptHeader.sizeOfPartitionEntry) (gptEntryNumbers hdr)
      (0xFFFFFFFF ^^^ crc32Seed) buf with
    | mk result buf' =>
        rw [hrun] at hentries
        cases result with
        | none =>
            refine ⟨nofun, fun h => ?_⟩
            exact absurd ((hentries _).mpr ⟨hwhole.mpr h.whole, rfl⟩) nofun
        | some crc =>
            obtain ⟨hread, hcrc⟩ := (hentries crc).mp rfl
            have htable : (gptTable readCb hdr lbaSz).flatten.foldl rtssGptCrc32Round
                (0xFFFFFFFF ^^^ crc32Seed) = crc := hcrc
            constructor
            · intro heq
              exact ⟨UInt32.not_lt.mp hfits, hwhole.mp hread, by rw [htable]; exact eq_of_beq heq⟩
            · intro h
              have heq := h.crc
              rw [htable] at heq
              exact beq_iff_eq.mpr heq

/-- What the module asks of a header. -/
structure HeaderAccepted (readCb : GptReadCb) (gptWorkBufSz : UInt32) (hdr : Mem) : Prop where
  signature : loadBytes hdr RtssGptHeader.signature rtssGptSignatureSize = rtssGptSignature
  header : rtssGptVerifyHeaderCrc32 hdr rtssGptCrc32SeedDefault = true
  table : TableVerified readCb hdr gptWorkBufSz rtssGptNorLbaSz rtssGptCrc32SeedDefault

/-- The header that the flash has at an address, read with others bytes behind it. -/
def headerAt (readCb : GptReadCb) (startAddr sz : UInt32) : Mem :=
  structOf ((readCb.read startAddr sz).take sizeofRtssGptHeader)

/-- The flash has an acceptable header at an address. -/
structure AcceptedAt (readCb : GptReadCb) (gptWorkBufSz startAddr sz : UInt32) : Prop extends
    HeaderAccepted readCb gptWorkBufSz (headerAt readCb startAddr sz) where
  whole : (readCb.read startAddr sz).length = sz.toNat

theorem loadBytes_header (buf : Mem) (bytes : List UInt8)
    (h : sizeofRtssGptHeader ≤ bytes.length) :
    loadBytes (storeBytes buf 0 bytes) 0 sizeofRtssGptHeader = bytes.take sizeofRtssGptHeader := by
  have hinside := loadBytes_storeBytes_inside buf 0 bytes 0 sizeofRtssGptHeader (by omega)
  rwa [List.drop_zero] at hinside

theorem rtssGptPartitionTry_spec (readCb : GptReadCb) (gptHdr buf : Mem)
    (gptWorkBufSz startAddr sz : UInt32) (hsz : sizeofRtssGptHeader ≤ sz.toNat) :
    ((rtssGptPartitionTry readCb gptHdr buf gptWorkBufSz startAddr sz).1 = true ↔
        AcceptedAt readCb gptWorkBufSz startAddr sz) ∧
      ((rtssGptPartitionTry readCb gptHdr buf gptWorkBufSz startAddr sz).1 = true →
        (rtssGptPartitionTry readCb gptHdr buf gptWorkBufSz startAddr sz).2.1 =
          headerAt readCb startAddr sz) := by
  have hlen := readCb.length_eq_iff startAddr sz
  simp only [rtssGptPartitionTry]
  by_cases hread : sz = UInt32.ofNat (readCb.read startAddr sz).length
  · have hwhole := hlen.mp hread
    have hheader : structOf (loadBytes (storeBytes buf 0 (readCb.read startAddr sz)) 0
        sizeofRtssGptHeader) = headerAt readCb startAddr sz := by
      rw [loadBytes_header buf _ (by omega), headerAt]
    rw [if_neg (not_not.mpr hread), hheader]
    by_cases hsig : loadBytes (headerAt readCb startAddr sz) RtssGptHeader.signature
        rtssGptSignatureSize = rtssGptSignature
    · rw [if_neg (not_not.mpr hsig)]
      by_cases hcrc : rtssGptVerifyHeaderCrc32 (headerAt readCb startAddr sz)
          rtssGptCrc32SeedDefault = true
      · rw [hcrc, Bool.not_true, if_neg Bool.false_ne_true]
        refine ⟨?_, fun _ => rfl⟩
        rw [rtssGptVerifyPartitionEntryCrc32_iff]
        exact ⟨fun h => ⟨⟨hsig, hcrc, h⟩, hwhole⟩, fun h => h.table⟩
      · rw [Bool.not_eq_true] at hcrc
        rw [hcrc, Bool.not_false, if_pos rfl]
        refine ⟨⟨nofun, fun h => ?_⟩, nofun⟩
        exact absurd (hcrc.symm.trans h.header) Bool.false_ne_true
    · rw [if_pos hsig]
      exact ⟨⟨nofun, fun h => absurd h.signature hsig⟩, nofun⟩
  · rw [if_pos hread]
    exact ⟨⟨nofun, fun h => absurd (hlen.mpr h.whole) hread⟩, nofun⟩

theorem sizeofRtssGptHeader_le_gptReadSize {alignment : UInt32} (h : alignment ≠ 0) :
    sizeofRtssGptHeader ≤ (gptReadSize alignment).toNat := by
  have hpos : 0 < alignment.toNat := UInt32.pos_iff_ne_zero.mpr h
  have hlt := alignment.toNat_lt
  have hsize : (UInt32.ofNat sizeofRtssGptHeader).toNat = 92 := rfl
  rw [gptReadSize]
  split
  · have hrem : (UInt32.ofNat sizeofRtssGptHeader % alignment).toNat = 92 % alignment.toNat := by
      rw [UInt32.toNat_mod, hsize]
    have hmod := Nat.mod_lt 92 hpos
    have hbig : 92 < alignment.toNat → 92 % alignment.toNat = 92 := Nat.mod_eq_of_lt
    rw [UInt32.toNat_sub, UInt32.toNat_add, hrem, hsize, sizeofRtssGptHeader]
    omega
  · exact Nat.le_of_eq hsize.symm

/-- The arguments are such that the module looks at the flash. -/
def InitAdmits (bufSz alignment : UInt32) : Prop :=
  alignment ≠ 0 ∧ gptReadSize alignment ≤ bufSz ∧ UInt32.ofNat sizeofRtssGptEntry ≤ bufSz

/-- The header is the first acceptable one of the two candidates. -/
def FirstAccepted (readCb : GptReadCb) (blockCount bufSz alignment : UInt32) (hdr : Mem) : Prop :=
  AcceptedAt readCb bufSz rtssGptNorLbaSz (gptReadSize alignment) ∧
      hdr = headerAt readCb rtssGptNorLbaSz (gptReadSize alignment) ∨
    ¬ AcceptedAt readCb bufSz rtssGptNorLbaSz (gptReadSize alignment) ∧
      AcceptedAt readCb bufSz ((blockCount - 1) * rtssGptNorLbaSz) (gptReadSize alignment) ∧
      hdr = headerAt readCb ((blockCount - 1) * rtssGptNorLbaSz) (gptReadSize alignment)

theorem FirstAccepted.unique {readCb : GptReadCb} {blockCount bufSz alignment : UInt32}
    {hdr hdr' : Mem} (h : FirstAccepted readCb blockCount bufSz alignment hdr)
    (h' : FirstAccepted readCb blockCount bufSz alignment hdr') : hdr = hdr' := by
  cases h with
  | inl h =>
      cases h' with
      | inl h' => rw [h.2, h'.2]
      | inr h' => exact absurd h.1 h'.1
  | inr h =>
      cases h' with
      | inl h' => exact absurd h'.1 h.1
      | inr h' => rw [h.2.2, h'.2.2]

theorem FirstAccepted.accepted {readCb : GptReadCb} {blockCount bufSz alignment : UInt32}
    {hdr : Mem} (h : FirstAccepted readCb blockCount bufSz alignment hdr) :
    HeaderAccepted readCb bufSz hdr := by
  cases h with
  | inl h =>
      rw [h.2]
      exact h.1.toHeaderAccepted
  | inr h =>
      rw [h.2.2]
      exact h.2.1.toHeaderAccepted

/-- The globals after a successful initialisation. -/
structure PartitionInitialised (readCb : GptReadCb) (blockCount bufSz alignment : UInt32)
    (g : GptGlobals) : Prop where
  header : FirstAccepted readCb blockCount bufSz alignment g.gptHdr
  done : g.gptPartitionInitDone = true
  readCb_eq : g.gptEntryReadCb = some readCb
  workBufSz_eq : g.gptWorkBufSz = bufSz
  workBuf_isSome : g.gptWorkBuf.isSome = true

/-- The state that an initialisation leaves if it fails on its buffer size. -/
def GptGlobals.register (blockCount : UInt32) (readCb : GptReadCb) (workBuf : Mem)
    (bufSz alignment : UInt32) (g : GptGlobals) : GptGlobals :=
  { g with
    gptEntryReadCb := some readCb
    gptWorkBuf := some workBuf
    gptWorkBufSz := bufSz
    gptReadAlignment := alignment
    gptBlockCount := blockCount }

section Init
variable (blockCount bufSz alignment : UInt32) (readCb : GptReadCb) (workBuf : Mem)
  (g : GptGlobals)

theorem rtssGptPartitionInit_not_admitted (halign : alignment ≠ 0)
    (hnot : ¬ InitAdmits bufSz alignment) :
    rtssGptPartitionInit blockCount (some readCb) (some workBuf) bufSz alignment g =
      (false, g.register blockCount readCb workBuf bufSz alignment) := by
  have hfits : gptReadSize alignment > bufSz ∨ UInt32.ofNat sizeofRtssGptEntry > bufSz := by
    by_contra hfits
    obtain ⟨hsz, hentry⟩ := not_or.mp hfits
    exact hnot ⟨halign, UInt32.not_lt.mp hsz, UInt32.not_lt.mp hentry⟩
  simp only [rtssGptPartitionInit, if_neg halign, if_pos hfits]
  rfl

/-- The three ways of an initialisation that looks at the flash: the primary header, the
secondary one, or none. -/
theorem rtssGptPartitionInit_cases (hadmits : InitAdmits bufSz alignment) :
    let r := rtssGptPartitionInit blockCount (some readCb) (some workBuf) bufSz alignment g
    let sz := gptReadSize alignment
    let primary := AcceptedAt readCb bufSz rtssGptNorLbaSz sz
    let secondary := AcceptedAt readCb bufSz ((blockCount - 1) * rtssGptNorLbaSz) sz
    (primary ∧ r.1 = true ∧ r.2.gptId = rtssGptTablePrimary ∧
        r.2.gptHdr = headerAt readCb rtssGptNorLbaSz sz ∧
        PartitionInitialised readCb blockCount bufSz alignment r.2) ∨
      (¬ primary ∧ secondary ∧ r.1 = true ∧ r.2.gptId = rtssGptTableSecondary ∧
        r.2.gptHdr = headerAt readCb ((blockCount - 1) * rtssGptNorLbaSz) sz ∧
        PartitionInitialised readCb blockCount bufSz alignment r.2) ∨
      (¬ primary ∧ ¬ secondary ∧ r.1 = false ∧ r.2.gptId = rtssGptTableNull ∧
        r.2.gptHdr = fun _ => 0) := by
  obtain ⟨halign, hsz, hentry⟩ := hadmits
  have hlen := sizeofRtssGptHeader_le_gptReadSize halign
  have hfits : ¬ (gptReadSize alignment > bufSz ∨ UInt32.ofNat sizeofRtssGptEntry > bufSz) :=
    not_or.mpr ⟨UInt32.not_lt.mpr hsz, UInt32.not_lt.mpr hentry⟩
  simp only [rtssGptPartitionInit, if_neg halign, if_neg hfits]
  obtain ⟨hfirst, hhdr⟩ := rtssGptPartitionTry_spec readCb g.gptHdr workBuf bufSz rtssGptNorLbaSz
    (gptReadSize alignment) hlen
  cases htry : rtssGptPartitionTry readCb g.gptHdr workBuf bufSz rtssGptNorLbaSz
      (gptReadSize alignment) with
  | mk ok rest =>
      obtain ⟨hdr, buf⟩ := rest
      rw [htry] at hfirst hhdr
      cases ok with
      | true =>
          have hprimary := hfirst.mp rfl
          exact Or.inl ⟨hprimary, rfl, rfl, hhdr rfl,
            ⟨Or.inl ⟨hprimary, hhdr rfl⟩, rfl, rfl, rfl, rfl⟩⟩
      | false =>
          have hnot := mt hfirst.mpr Bool.false_ne_true
          obtain ⟨hsecond, hhdr'⟩ := rtssGptPartitionTry_spec readCb hdr buf bufSz
            ((blockCount - 1) * rtssGptNorLbaSz) (gptReadSize alignment) hlen
          refine Or.inr ?_
          dsimp only
          cases htry' : rtssGptPartitionTry readCb hdr buf bufSz
              ((blockCount - 1) * rtssGptNorLbaSz) (gptReadSize alignment) with
          | mk ok rest =>
              obtain ⟨hdr', buf'⟩ := rest
              rw [htry'] at hsecond hhdr'
              cases ok with
              | true =>
                  have hsecondary := hsecond.mp rfl
                  exact Or.inl ⟨hnot, hsecondary, rfl, rfl, hhdr' rfl,
                    ⟨Or.inr ⟨hnot, hsecondary, hhdr' rfl⟩, rfl, rfl, rfl, rfl⟩⟩
              | false =>
                  exact Or.inr ⟨hnot, mt hsecond.mpr Bool.false_ne_true, rfl, rfl, rfl⟩

theorem rtssGptPartitionInit_spec :
    ((rtssGptPartitionInit blockCount (some readCb) (some workBuf) bufSz alignment g).1 = true ↔
        InitAdmits bufSz alignment ∧ ∃ hdr, FirstAccepted readCb blockCount bufSz alignment hdr) ∧
      ((rtssGptPartitionInit blockCount (some readCb) (some workBuf) bufSz alignment g).1 = true →
        PartitionInitialised readCb blockCount bufSz alignment
          (rtssGptPartitionInit blockCount (some readCb) (some workBuf) bufSz alignment g).2) := by
  by_cases hadmits : InitAdmits bufSz alignment
  · obtain ⟨-, hret, -, -, hinit⟩ | ⟨-, -, hret, -, -, hinit⟩ | ⟨hnot, hnot', hret, -⟩ :=
      rtssGptPartitionInit_cases blockCount bufSz alignment readCb workBuf g hadmits
    · exact ⟨iff_of_true hret ⟨hadmits, _, hinit.header⟩, fun _ => hinit⟩
    · exact ⟨iff_of_true hret ⟨hadmits, _, hinit.header⟩, fun _ => hinit⟩
    · rw [hret]
      refine ⟨⟨nofun, ?_⟩, nofun⟩
      rintro ⟨-, hdr, haccepted⟩
      cases haccepted with
      | inl h => exact absurd h.1 hnot
      | inr h => exact absurd h.2.1 hnot'
  · have hret : (rtssGptPartitionInit blockCount (some readCb) (some workBuf) bufSz alignment
        g).1 = false := by
      by_cases halign : alignment = 0
      · simp only [rtssGptPartitionInit, if_pos halign]
      · rw [rtssGptPartitionInit_not_admitted blockCount bufSz alignment readCb workBuf g halign
          hadmits]
    rw [hret]
    exact ⟨⟨nofun, fun h => absurd h.1 hadmits⟩, nofun⟩

end Init

/-- The CRC of the first `n` bytes of a header, with a zero in the place of its own. -/
def headerCrc (hdr : Mem) (n : Nat) : UInt32 :=
  rtssGptCalcCrc32 (loadBytes (store32 hdr RtssGptHeader.headerCrc32 0) 0 n)
    rtssGptCrc32SeedDefault

theorem rtssGptVerifyHeaderCrc32_iff (hdr : Mem) :
    rtssGptVerifyHeaderCrc32 hdr rtssGptCrc32SeedDefault = true ↔
      (load32 hdr RtssGptHeader.headerSize).toNat ≤ sizeofRtssGptHeader ∧
        headerCrc hdr (load32 hdr RtssGptHeader.headerSize).toNat =
          load32 hdr RtssGptHeader.headerCrc32 := by
  rw [rtssGptVerifyHeaderCrc32, headerCrc]
  split
  · rename_i hbig
    exact ⟨nofun, fun h => absurd h.1 (Nat.not_le.mpr hbig)⟩
  · rename_i hbig
    rw [beq_iff_eq, eq_comm, and_iff_right (Nat.not_lt.mp hbig)]

/-- A successful initialisation has a header whose CRC is that of all its bytes. -/
def HeaderCovered (r : Bool × GptGlobals) : Prop :=
  r.1 = true → headerCrc r.2.gptHdr sizeofRtssGptHeader =
    load32 r.2.gptHdr RtssGptHeader.headerCrc32

/-- The cached header carries the CRC of all its bytes exactly if the first acceptable
header says that it is 92 bytes long, or the CRC of the part that it names happens to be
the CRC of the whole. -/
theorem header_covered_iff (blockCount bufSz alignment : UInt32) (readCb : Option GptReadCb)
    (workBuf : Option Mem) (g : GptGlobals) :
    HeaderCovered (rtssGptPartitionInit blockCount readCb workBuf bufSz alignment g) ↔
      ∀ cb ∈ readCb, workBuf.isSome → InitAdmits bufSz alignment →
        ∀ hdr, FirstAccepted cb blockCount bufSz alignment hdr →
          (load32 hdr RtssGptHeader.headerSize).toNat = sizeofRtssGptHeader ∨
            headerCrc hdr (load32 hdr RtssGptHeader.headerSize).toNat =
              headerCrc hdr sizeofRtssGptHeader := by
  have hcovered : ∀ cb hdr, FirstAccepted cb blockCount bufSz alignment hdr →
      (headerCrc hdr sizeofRtssGptHeader = load32 hdr RtssGptHeader.headerCrc32 ↔
        (load32 hdr RtssGptHeader.headerSize).toNat = sizeofRtssGptHeader ∨
          headerCrc hdr (load32 hdr RtssGptHeader.headerSize).toNat =
            headerCrc hdr sizeofRtssGptHeader) := by
    intro cb hdr hfirst
    obtain ⟨-, hcrc⟩ := (rtssGptVerifyHeaderCrc32_iff hdr).mp hfirst.accepted.header
    rw [← hcrc]
    constructor
    · exact fun h => Or.inr h.symm
    · rintro (hsize | hsame)
      · rw [hsize]
      · exact hsame.symm
  cases readCb with
  | none => exact ⟨fun _ _ hcb => (Option.not_mem_none _ hcb).elim, fun _ => nofun⟩
  | some cb =>
      cases workBuf with
      | none => exact ⟨fun _ _ _ hbuf => absurd hbuf Bool.false_ne_true, fun _ => nofun⟩
      | some buf =>
          obtain ⟨hok, hinit⟩ := rtssGptPartitionInit_spec blockCount bufSz alignment cb buf g
          constructor
          · rintro h _ ⟨⟩ - hadmits hdr hfirst
            have hret := hok.mpr ⟨hadmits, hdr, hfirst⟩
            rw [← (hinit hret).header.unique hfirst]
            exact (hcovered cb _ (hinit hret).header).mp (h hret)
          · intro h hret
            have hfirst := (hinit hret).header
            exact (hcovered cb _ hfirst).mpr (h cb rfl rfl (hok.mp hret).1 _ hfirst)

/-- A header that says that it is zero bytes long, with a CRC of zero and no entries. -/
def emptyHeaderFlash : Mem := storeBytes (fun _ => 0) 4096 rtssGptSignature

theorem header_not_covered :
    ¬ HeaderCovered (rtssGptPartitionInit 16 (some (.ofFlash emptyHeaderFlash))
      (some fun _ => 0) 4096 64 .initial) := by
  intro h
  have hcovered := h (by decide +kernel)
  revert hcovered
  decide +kernel

/-! A lookup reads the entries again, one by one. -/

def RtssGptGuid.bytes (guid : RtssGptGuid) : List UInt8 :=
  le32 guid.data1 ++ leBytes 2 guid.data2.toNat ++ leBytes 2 guid.data3.toNat ++ guid.data4

theorem RtssGptGuid.bytes_length (guid : RtssGptGuid) : guid.bytes.length = 16 := by
  simp [bytes, guid.data4_length]

theorem RtssGptGuid.bytes_load (m : Mem) (a : Nat) : (load m a).bytes = loadBytes m a 16 := by
  rw [bytes, load, le32_load32, leBytes_load16, leBytes_load16,
    show (16 : Nat) = 4 + 2 + 2 + 8 from rfl, loadBytes_append, loadBytes_append, loadBytes_append]

theorem RtssGptGuid.bytes_injective {guid guid' : RtssGptGuid} (h : guid.bytes = guid'.bytes) :
    guid = guid' := by
  obtain ⟨data1, data2, data3, data4, hlen⟩ := guid
  obtain ⟨data1', data2', data3', data4', hlen'⟩ := guid'
  simp only [bytes] at h
  obtain ⟨h, h4⟩ := List.append_inj' h (hlen.trans hlen'.symm)
  obtain ⟨h, h3⟩ := List.append_inj' h (by simp)
  obtain ⟨h1, h2⟩ := List.append_inj' h (by simp)
  have hhalf : ∀ x y : UInt16, leBytes 2 x.toNat = leBytes 2 y.toNat → x = y := by
    intro x y hxy
    have hx : x.toNat < 256 ^ 2 := x.toNat_lt
    have hy : y.toNat < 256 ^ 2 := y.toNat_lt
    have hval := congrArg ofLe hxy
    rw [ofLe_leBytes, ofLe_leBytes, Nat.mod_eq_of_lt hx, Nat.mod_eq_of_lt hy] at hval
    exact UInt16.toNat.inj hval
  have hword := congrArg ofLe32 h1
  rw [ofLe32_le32, ofLe32_le32] at hword
  cases hword
  cases hhalf _ _ h2
  cases hhalf _ _ h3
  cases h4
  rfl

theorem rtssGptVerifyPartitionGuid_iff (entry : Mem) (guid : RtssGptGuid) :
    rtssGptVerifyPartitionGuid entry guid = true ↔ loadBytes entry 0 16 = guid.bytes := by
  rw [← RtssGptGuid.bytes_load]
  have hfields : rtssGptVerifyPartitionGuid entry guid = true ↔
      RtssGptGuid.load entry 0 = guid := by
    cases guid
    simp only [rtssGptVerifyPartitionGuid, RtssGptEntry.partitionTypeGuid, Bool.not_eq_true',
      Bool.or_eq_false_iff, bne_eq_false_iff_eq, RtssGptGuid.load, RtssGptGuid.mk.injEq, and_assoc]
  exact hfields.trans ⟨fun h => congrArg _ h, RtssGptGuid.bytes_injective⟩

/-- The search goes through the entries up to the first one that is not read whole. It
compares what the work buffer shows: the bytes of an entry, and behind them what was there
before. -/
theorem findEntry_takeWhile (readCb : GptReadCb) (guid : RtssGptGuid) (base entrySz : UInt32)
    (numbers : List UInt32) (buf : Mem) :
    (findEntry readCb guid base entrySz numbers buf).1 =
      (((numbers.map fun i => readCb.read (base + i * entrySz) entrySz).takeWhile
        fun entry => entry.length = entrySz.toNat).map (storeBytes buf 0)).find?
          fun entry => rtssGptVerifyPartitionGuid entry guid := by
  induction numbers generalizing buf with
  | nil => rfl
  | cons i rest ih =>
      have hread := readCb.length_eq_iff (base + i * entrySz) entrySz
      by_cases hwhole : (readCb.read (base + i * entrySz) entrySz).length = entrySz.toNat
      · simp only [findEntry, if_neg (not_not.mpr (hread.mpr hwhole)), List.map_cons,
          List.takeWhile_cons, decide_eq_true hwhole, if_true, List.find?_cons]
        cases rtssGptVerifyPartitionGuid
            (storeBytes buf 0 (readCb.read (base + i * entrySz) entrySz)) guid with
        | true => rfl
        | false =>
            refine (ih _).trans (congrArg _ (List.map_congr_left fun entry hentry => ?_))
            have hsame : entry.length = entrySz.toNat := by
              simpa only [decide_eq_true_iff] using List.mem_takeWhile_imp hentry
            exact storeBytes_storeBytes_same _ _ _ _ (hwhole.trans hsame.symm)
      · simp only [findEntry, if_pos (mt hread.mp hwhole), List.map_cons, List.takeWhile_cons,
          decide_eq_false hwhole, if_false, Bool.false_eq_true, List.map_nil, List.find?_nil]

theorem findEntry_fst (readCb : GptReadCb) (guid : RtssGptGuid) (base entrySz : UInt32)
    (numbers : List UInt32) (buf : Mem)
    (hwhole : ∀ i ∈ numbers, (readCb.read (base + i * entrySz) entrySz).length =
      entrySz.toNat) :
    (findEntry readCb guid base entrySz numbers buf).1 =
      (numbers.map fun i => storeBytes buf 0 (readCb.read (base + i * entrySz) entrySz)).find?
        fun entry => rtssGptVerifyPartitionGuid entry guid := by
  have hall : ∀ entry ∈ numbers.map fun i => readCb.read (base + i * entrySz) entrySz,
      decide (entry.length = entrySz.toNat) = true := fun entry hentry => by
    obtain ⟨i, hi, rfl⟩ := List.mem_map.mp hentry
    exact decide_eq_true (hwhole i hi)
  rw [findEntry_takeWhile, List.takeWhile_eq_self_iff.mpr hall, List.map_map]
  rfl

theorem gptEntryBase_eq (hdr : Mem) :
    (load64 hdr RtssGptHeader.partitionEntryLba &&& 0xFFFFFFFF).toUInt32 * rtssGptNorLbaSz =
      gptEntryBase hdr rtssGptNorLbaSz := by
  have hones : (4294967295 : UInt32) = -1 := rfl
  rw [gptEntryBase]
  simp [hones]

/-- After an initialisation, a lookup goes through the table that was verified. -/
theorem gptLookup_fst {readCb : GptReadCb} {blockCount bufSz alignment : UInt32}
    {g : GptGlobals} (h : PartitionInitialised readCb blockCount bufSz alignment g)
    (guid : RtssGptGuid)
    (workBuf : Mem) :
    (gptLookup g readCb guid workBuf).1 =
      ((gptTable readCb g.gptHdr rtssGptNorLbaSz).map (storeBytes workBuf 0)).find?
        fun entry => rtssGptVerifyPartitionGuid entry guid := by
  obtain ⟨hfits, hwhole, -⟩ := h.header.accepted.table
  rw [gptTable, List.forall_mem_map] at hwhole
  simp only [gptLookup, h.workBufSz_eq, if_neg (UInt32.not_lt.mpr hfits), gptEntryBase_eq]
  rw [findEntry_fst _ _ _ _ _ _ hwhole, gptTable, List.map_map]
  rfl

/-- The first and the last block of an entry. -/
def entryBlocks (entry : Mem) : UInt64 × UInt64 :=
  (load64 entry RtssGptEntry.startingLba, load64 entry RtssGptEntry.endingLba)

/-- What a lookup answers for the entry that it uses: nothing is found without blocks. -/
def blocksAnswer (blocks : Option (UInt64 × UInt64)) : Bool × Option (UInt64 × UInt64) :=
  (blocks.any fun (startingLba, endingLba) =>
    (rtssGptGetPartitionSize startingLba endingLba rtssGptNorLbaSz).toUInt32 ≠ 0, blocks)

theorem blocksAnswer_inj {blocks blocks' : Option (UInt64 × UInt64)} :
    blocksAnswer blocks = blocksAnswer blocks' ↔ blocks = blocks' :=
  ⟨fun h => congrArg Prod.snd h, fun h => congrArg blocksAnswer h⟩

/-- The result of a lookup with this in the work buffer, and the blocks that it uses. -/
def lookupAnswer (g : GptGlobals) (readCb : GptReadCb) (guid : RtssGptGuid) (workBuf : Mem) :
    Bool × Option (UInt64 × UInt64) :=
  ((rtssGptGetPartitionInfo (some guid) (some 0) (some 0)
      { g with gptWorkBuf := some workBuf }).1,
    (gptLookup g readCb guid workBuf).1.map entryBlocks)

/-- The answer that a table gives: the blocks of its first entry with the type GUID. -/
def tableAnswer (table : List (List UInt8)) (guid : RtssGptGuid) :
    Bool × Option (UInt64 × UInt64) :=
  blocksAnswer ((table.find? fun entry => entry.take 16 = guid.bytes).map (entryBlocks ∘ structOf))

/-- Whatever the work buffer holds, the answer is that of the verified table. -/
def LookupFaithful (g : GptGlobals) (readCb : GptReadCb) (guid : RtssGptGuid) : Prop :=
  ∀ workBuf, lookupAnswer g readCb guid workBuf =
    tableAnswer (gptTable readCb g.gptHdr rtssGptNorLbaSz) guid

section Lookup
variable {readCb : GptReadCb} {blockCount bufSz alignment : UInt32} {g : GptGlobals}
  {guid : RtssGptGuid} {entry : List UInt8} {workBuf : Mem}

theorem rtssGptGetPartitionInfo_fst {startAddr size : UInt32}
    (hdone : g.gptPartitionInitDone = true) (hcb : g.gptEntryReadCb = some readCb)
    (hbuf : g.gptWorkBuf = some workBuf) :
    (rtssGptGetPartitionInfo (some guid) (some startAddr) (some size) g).1 =
      (blocksAnswer ((gptLookup g readCb guid workBuf).1.map entryBlocks)).1 := by
  simp only [rtssGptGetPartitionInfo, hdone, hcb, hbuf]
  cases gptLookup g readCb guid workBuf with
  | mk found buf =>
      cases found with
      | none => rfl
      | some entry =>
          simp only [blocksAnswer, entryBlocks, Option.map_some, Option.any_some]

theorem lookupAnswer_eq (h : PartitionInitialised readCb blockCount bufSz alignment g) :
    lookupAnswer g readCb guid workBuf =
      blocksAnswer ((gptLookup g readCb guid workBuf).1.map entryBlocks) := by
  rw [lookupAnswer, rtssGptGetPartitionInfo_fst (by exact h.done) (by exact h.readCb_eq) rfl]
  rfl

theorem lookupFaithful_iff (h : PartitionInitialised readCb blockCount bufSz alignment g) :
    LookupFaithful g readCb guid ↔ ∀ workBuf,
      (gptLookup g readCb guid workBuf).1.map entryBlocks =
        ((gptTable readCb g.gptHdr rtssGptNorLbaSz).find? fun entry =>
          entry.take 16 = guid.bytes).map (entryBlocks ∘ structOf) := by
  refine forall_congr' fun workBuf => ?_
  rw [lookupAnswer_eq h, tableAnswer]
  exact blocksAnswer_inj

/-- An entry that matches in the buffer agrees with the GUID as far as it goes. -/
theorem prefix_of_verified
    (h : rtssGptVerifyPartitionGuid (storeBytes workBuf 0 entry) guid = true) :
    entry.take 16 = guid.bytes.take entry.length := by
  have hbytes := (rtssGptVerifyPartitionGuid_iff _ _).mp h
  have htake := congrArg (List.take entry.length) hbytes
  rw [take_loadBytes] at htake
  have hinside := loadBytes_storeBytes_inside workBuf 0 entry 0 (min entry.length 16) (by omega)
  rw [Nat.zero_add, List.drop_zero] at hinside
  rw [← htake, hinside, List.take_eq_take_iff]
  omega

theorem verified_iff_of_le (hlen : 16 ≤ entry.length) :
    rtssGptVerifyPartitionGuid (storeBytes workBuf 0 entry) guid = true ↔
      entry.take 16 = guid.bytes := by
  have hinside := loadBytes_storeBytes_inside workBuf 0 entry 0 16 (by omega)
  rw [List.drop_zero] at hinside
  rw [rtssGptVerifyPartitionGuid_iff, ← hinside]

theorem entryBlocks_of_le (hlen : 48 ≤ entry.length) :
    entryBlocks (storeBytes workBuf 0 entry) = entryBlocks (structOf entry) := by
  have hfield : ∀ o, o + 8 ≤ 48 →
      load64 (storeBytes workBuf 0 entry) o = load64 (structOf entry) o := by
    intro o ho
    have hinside : ∀ m : Mem, loadBytes (storeBytes m 0 entry) o 8 = (entry.drop o).take 8 := by
      intro m
      have h := loadBytes_storeBytes_inside m 0 entry o 8 (by omega)
      rwa [Nat.zero_add] at h
    rw [load64, load64, structOf_eq, hinside, hinside]
  rw [entryBlocks, entryBlocks, hfield _ (by decide), hfield _ (by decide)]

/-- With whole GUIDs, the buffer finds the entry that the table has. -/
theorem gptLookup_of_le (h : PartitionInitialised readCb blockCount bufSz alignment g)
    (hlen : 16 ≤ (load32 g.gptHdr RtssGptHeader.sizeOfPartitionEntry).toNat) :
    (gptLookup g readCb guid workBuf).1 =
      ((gptTable readCb g.gptHdr rtssGptNorLbaSz).find? fun entry =>
        entry.take 16 = guid.bytes).map (storeBytes workBuf 0) := by
  rw [gptLookup_fst h, List.find?_map]
  refine congrArg _ (List.find?_congr fun entry hentry => ?_)
  have hentryLen := h.header.accepted.table.whole entry hentry
  rw [Bool.eq_iff_iff, Function.comp_apply, verified_iff_of_le (by omega), decide_eq_true_iff]

/-- Without an entry that agrees with the GUID as far as it goes, nothing is found. -/
theorem lookupFaithful_of_none (h : PartitionInitialised readCb blockCount bufSz alignment g)
    (hnone : ∀ entry ∈ gptTable readCb g.gptHdr rtssGptNorLbaSz,
      entry.take 16 ≠ guid.bytes.take entry.length) : LookupFaithful g readCb guid := by
  rw [lookupFaithful_iff h]
  intro workBuf
  rw [gptLookup_fst h, List.find?_eq_none.mpr, List.find?_eq_none.mpr]
  · rfl
  · intro entry hentry htake
    refine hnone entry hentry ((decide_eq_true_iff.mp htake).trans ?_)
    have hlen := congrArg List.length (decide_eq_true_iff.mp htake)
    rw [List.length_take, guid.bytes_length] at hlen
    rw [List.take_of_length_le]
    rw [guid.bytes_length]
    omega
  · intro entry hentry hverified
    obtain ⟨bytes, hbytes, rfl⟩ := List.mem_map.mp hentry
    exact hnone bytes hbytes (prefix_of_verified hverified)

/-- An entry that is a part of the GUID is completed by the buffer, or not. -/
theorem not_lookupFaithful_of_short (h : PartitionInitialised readCb blockCount bufSz alignment g)
    (hlen : (load32 g.gptHdr RtssGptHeader.sizeOfPartitionEntry).toNat < 16)
    (hentry : entry ∈ gptTable readCb g.gptHdr rtssGptNorLbaSz)
    (htake : entry.take 16 = guid.bytes.take entry.length) : ¬ LookupFaithful g readCb guid := by
  rw [lookupFaithful_iff h]
  intro hfaithful
  have hwhole := h.header.accepted.table.whole
  have hfound : (gptLookup g readCb guid (structOf guid.bytes)).1.isSome := by
    rw [gptLookup_fst h, List.find?_isSome]
    refine ⟨_, List.mem_map_of_mem hentry, (rtssGptVerifyPartitionGuid_iff _ _).mpr ?_⟩
    have hentryLen := hwhole entry hentry
    have hrest : loadBytes (structOf guid.bytes) (0 + entry.length) (16 - entry.length) =
        guid.bytes.drop entry.length := by
      have hinside := loadBytes_storeBytes_inside (fun _ => 0) 0 guid.bytes entry.length
        (16 - entry.length) (by rw [guid.bytes_length]; omega)
      rw [structOf_eq, hinside, List.take_of_length_le]
      rw [List.length_drop, guid.bytes_length]
    rw [List.take_of_length_le (by omega)] at htake
    rw [loadBytes_storeBytes_across _ _ _ _ (by omega), hrest]
    exact (congrArg (· ++ _) htake).trans (List.take_append_drop _ _)
  have hmissed : (gptLookup g readCb guid fun p => guid.bytes.getD p 0 + 1).1 = none := by
    rw [gptLookup_fst h, List.find?_eq_none]
    intro buf hbuf hverified
    obtain ⟨entry', hentry', rfl⟩ := List.mem_map.mp hbuf
    have hbytes := (rtssGptVerifyPartitionGuid_iff _ _).mp hverified
    have hentryLen := hwhole entry' hentry'
    have hlast := congrArg (·.getD 15 0) hbytes
    simp only [List.getD_eq_getElem?_getD] at hlast
    rw [getElem?_loadBytes _ _ _ _ (by decide), storeBytes_outside _ _ _ _ (Or.inr (by omega)),
      Option.getD_some, Nat.zero_add, ← List.getD_eq_getElem?_getD] at hlast
    have hcarry := congrArg UInt8.toNat hlast
    rw [UInt8.toNat_add, show (1 : UInt8).toNat = 1 from rfl] at hcarry
    omega
  have hsame := (hfaithful (structOf guid.bytes)).trans
    (hfaithful fun p => guid.bytes.getD p 0 + 1).symm
  rw [hmissed, Option.map_none, Option.map_eq_none_iff] at hsame
  rw [hsame] at hfound
  exact Bool.false_ne_true hfound

/-- The blocks of an entry that ends before them are partly the buffer's. -/
theorem not_lookupFaithful_of_cut (h : PartitionInitialised readCb blockCount bufSz alignment g)
    (hle : 16 ≤ (load32 g.gptHdr RtssGptHeader.sizeOfPartitionEntry).toNat)
    (hlt : (load32 g.gptHdr RtssGptHeader.sizeOfPartitionEntry).toNat < 48)
    (hentry : entry ∈ gptTable readCb g.gptHdr rtssGptNorLbaSz)
    (hguid : entry.take 16 = guid.bytes) : ¬ LookupFaithful g readCb guid := by
  rw [lookupFaithful_iff h]
  intro hfaithful
  have hfound : ((gptTable readCb g.gptHdr rtssGptNorLbaSz).find? fun entry =>
      entry.take 16 = guid.bytes).isSome :=
    List.find?_isSome.mpr ⟨entry, hentry, decide_eq_true hguid⟩
  obtain ⟨first, hfirst⟩ := Option.isSome_iff_exists.mp hfound
  have hlen := h.header.accepted.table.whole first (List.mem_of_find?_eq_some hfirst)
  have hsame := (hfaithful fun _ => 0).trans (hfaithful fun _ => 1).symm
  rw [gptLookup_of_le h hle, gptLookup_of_le h hle, hfirst] at hsame
  simp only [Option.map_some, Option.some.injEq, entryBlocks, Prod.mk.injEq] at hsame
  obtain ⟨-, hending⟩ := hsame
  have hbytes := congrArg (fun v => (leBytes 8 v.toNat).getD 7 0) hending
  simp only [leBytes_load64, List.getD_eq_getElem?_getD] at hbytes
  rw [getElem?_loadBytes _ _ _ _ (by decide), getElem?_loadBytes _ _ _ _ (by decide),
    storeBytes_outside _ _ _ _ (Or.inr (by simp only [RtssGptEntry.endingLba]; omega)),
    storeBytes_outside _ _ _ _ (Or.inr (by simp only [RtssGptEntry.endingLba]; omega))] at hbytes
  exact absurd hbytes (by decide)

end Lookup

/-- After a successful initialisation, lookups answer from the verified table alone exactly
if its entries reach up to their last block, or none agrees with the GUID as far as it goes. -/
theorem lookup_faithful_iff (blockCount bufSz alignment : UInt32) (readCb : GptReadCb)
    (workBuf : Mem) (g₀ g : GptGlobals)
    (hinit : rtssGptPartitionInit blockCount (some readCb) (some workBuf) bufSz alignment g₀ =
      (true, g)) (guid : RtssGptGuid) :
    TableVerified readCb g.gptHdr bufSz rtssGptNorLbaSz rtssGptCrc32SeedDefault ∧
      (LookupFaithful g readCb guid ↔
        48 ≤ (load32 g.gptHdr RtssGptHeader.sizeOfPartitionEntry).toNat ∨
          ∀ entry ∈ gptTable readCb g.gptHdr rtssGptNorLbaSz,
            entry.take 16 ≠ guid.bytes.take entry.length) := by
  have h : PartitionInitialised readCb blockCount bufSz alignment g := by
    have hspec := (rtssGptPartitionInit_spec blockCount bufSz alignment readCb workBuf g₀).2
    rw [hinit] at hspec
    exact hspec rfl
  refine ⟨h.header.accepted.table, ?_, ?_⟩
  · intro hfaithful
    by_contra hcond
    obtain ⟨hlt, hmatch⟩ := not_or.mp hcond
    obtain ⟨entry, hentry, htake⟩ : ∃ entry ∈ gptTable readCb g.gptHdr rtssGptNorLbaSz,
        entry.take 16 = guid.bytes.take entry.length := by
      by_contra hnone
      exact hmatch fun entry hentry htake => hnone ⟨entry, hentry, htake⟩
    have hlen := h.header.accepted.table.whole entry hentry
    rcases Nat.lt_or_ge (load32 g.gptHdr RtssGptHeader.sizeOfPartitionEntry).toNat 16 with
      hshort | hlong
    · exact not_lookupFaithful_of_short h hshort hentry htake hfaithful
    · have hwhole : guid.bytes.take entry.length = guid.bytes :=
        List.take_of_length_le (by rw [guid.bytes_length]; omega)
      rw [hwhole] at htake
      exact not_lookupFaithful_of_cut h hlong (Nat.not_le.mp hlt) hentry htake hfaithful
  · rintro (hlen | hnone)
    · rw [lookupFaithful_iff h]
      intro workBuf
      rw [gptLookup_of_le h (by omega), Option.map_map]
      refine Option.map_congr fun entry hfound => ?_
      have hentry := h.header.accepted.table.whole entry (List.mem_of_find?_eq_some hfound)
      exact entryBlocks_of_le (by omega)
    · exact lookupFaithful_of_none h hnone

/-- A flash whose primary header, with correct CRCs, describes this table at block two. -/
def sampleFlash (entrySize : UInt32) (table : List (List UInt8)) : Mem :=
  let entries := table.flatten
  let hdr := [(RtssGptHeader.headerSize, 92), (RtssGptHeader.partitionEntryLba, 2),
    (RtssGptHeader.numberOfPartitionEntries, UInt32.ofNat table.length),
    (RtssGptHeader.sizeOfPartitionEntry, entrySize),
    (RtssGptHeader.partitionEntriesCrc32, rtssGptCalcCrc32 entries rtssGptCrc32SeedDefault)].foldl
      (fun m w => store32 m w.1 w.2) (structOf rtssGptSignature)
  let hdr := store32 hdr RtssGptHeader.headerCrc32 (headerCrc hdr sizeofRtssGptHeader)
  storeBytes (storeBytes (fun _ => 0) 4096 (loadBytes hdr 0 sizeofRtssGptHeader)) 8192 entries

def sampleGuid : RtssGptGuid := ⟨0x8701FAA8, 0xBAA0, 0x43CF, [1, 2, 3, 4, 5, 6, 7, 8], rfl⟩

/-- The module after an initialisation from that flash. -/
def sampleInit (entrySize : UInt32) (table : List (List UInt8)) : Bool × GptGlobals :=
  rtssGptPartitionInit 16 (some (.ofFlash (sampleFlash entrySize table))) (some fun _ => 0) 4096 64
    .initial

def sampleTable : List (List UInt8) := [sampleGuid.bytes ++ List.replicate 32 0]

theorem sampleInit_eq : sampleInit 48 sampleTable = (true, (sampleInit 48 sampleTable).2) :=
  Prod.fst_eq_iff.mp (by decide +kernel)

theorem lookup_faithful_sample :
    LookupFaithful (sampleInit 48 sampleTable).2 (.ofFlash (sampleFlash 48 sampleTable))
      sampleGuid :=
  (lookup_faithful_iff 16 4096 64 (.ofFlash (sampleFlash 48 sampleTable)) (fun _ => 0) .initial
    (sampleInit 48 sampleTable).2 sampleInit_eq sampleGuid).2.mpr (Or.inl (by decide +kernel))

/-- A table with one entry of no bytes: the buffer alone decides. -/
theorem lookup_not_faithful :
    (sampleInit 0 [[]]).1 = true ∧
      ¬ LookupFaithful (sampleInit 0 [[]]).2 (.ofFlash (sampleFlash 0 [[]])) sampleGuid := by
  refine ⟨by decide +kernel, fun h => ?_⟩
  have hsame := (h fun _ => 0).trans (h (structOf sampleGuid.bytes)).symm
  revert hsame
  decide +kernel

end RtssMailbox
