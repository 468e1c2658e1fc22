import Mathlib.Data.List.GetD
import RtssMailbox.OtaBufferBounds

/-!
The GPT file as it is read, and the header that is made of it. The bytes of the file come
in pieces, one with each call of `fread`; the loop goes on after a piece that is shorter
than the file.
-/
namespace RtssMailbox
open Effects ByteMemory Monitoring Monitor

/-- The pieces in which the bytes of a file are read. -/
structure Pieces (file : List UInt8) (pieces : List (List UInt8)) : Prop where
  bytes : pieces.flatten = file
  positive : ∀ piece ∈ pieces, piece ≠ []

/-- Each read returns the next piece, and nothing at the end of the file. -/
def readPieces : Handler UpdSig (List (List UInt8))
  | .fread count, pieces => (⟨(pieces.headD []).take count, List.length_take_le _ _⟩, pieces.tail)
  | o, pieces => ((World.step o (World.sample [])).1, pieces)

/-- The loop on the pieces: the place and the length of each store, and what it ends with. -/
def storePieces (bufSize : Nat) :
    List (List UInt8) → (numBytes : Nat) → Mem → List (Nat × Nat) × Option Mem
  | [], _, _ => ([], none)
  | piece :: pieces, numBytes, bufGpt =>
      let bufGpt := storeBytes bufGpt numBytes piece
      if piece.length < bufSize then
        let (stores, result) := storePieces bufSize pieces piece.length bufGpt
        ((numBytes, piece.length) :: stores, result)
      else
        ([(numBytes, piece.length)], some bufGpt)

/-- The loop ends with the bytes of the file, and has stored nothing outside of the buffer,
which is of whole cache lines. -/
structure ReadsFile (file : List UInt8) (pieces : List (List UInt8)) : Prop where
  contents : ((readGptFile file.length (file.length + 1) 0 zeroed).run readPieces pieces).1 =
    some (storeBytes zeroed 0 file)
  bounded : ∀ store ∈ (storePieces file.length pieces 0 zeroed).1,
    store.1 + store.2 ≤ cacheLines file.length

section Loop
variable {file : List UInt8} {pieces : List (List UInt8)} {bufSize : Nat}

theorem Pieces.length_le (h : Pieces file pieces) : pieces.length ≤ file.length := by
  rw [← h.bytes]
  have hpositive := h.positive
  clear h
  induction pieces with
  | nil => exact Nat.zero_le _
  | cons piece pieces ih =>
      obtain ⟨hpiece, hpieces⟩ := List.forall_mem_cons.mp hpositive
      have hlen := List.length_pos_of_ne_nil hpiece
      have hrest := ih hpieces
      rw [List.length_cons, List.flatten_cons, List.length_append]
      omega

/-- One round of the loop, for the piece that is read. -/
theorem run_readGptFile_succ (fuel numBytes : Nat) (bufGpt : Mem) :
    (readGptFile bufSize (fuel + 1) numBytes bufGpt).run readPieces pieces =
      let piece := (pieces.headD []).take bufSize
      (if piece.length = 0 then .ret none
        else if piece.length < bufSize then
          readGptFile bufSize fuel piece.length (storeBytes bufGpt numBytes piece)
        else .ret (some (storeBytes bufGpt numBytes piece))).run readPieces pieces.tail := rfl

theorem run_readGptFile (fuel numBytes : Nat) (bufGpt : Mem) (hfuel : pieces.length < fuel)
    (hfit : ∀ piece ∈ pieces, piece ≠ [] ∧ piece.length ≤ bufSize) :
    ((readGptFile bufSize fuel numBytes bufGpt).run readPieces pieces).1 =
      (storePieces bufSize pieces numBytes bufGpt).2 := by
  induction pieces generalizing fuel numBytes bufGpt with
  | nil =>
      obtain ⟨fuel, rfl⟩ := Nat.exists_eq_succ_of_ne_zero (Nat.ne_of_gt hfuel)
      rw [run_readGptFile_succ, List.headD_nil, List.take_nil]
      rfl
  | cons piece pieces ih =>
      obtain ⟨fuel, rfl⟩ := Nat.exists_eq_succ_of_ne_zero (Nat.ne_of_gt (Nat.zero_lt_of_lt hfuel))
      obtain ⟨⟨hne, hle⟩, hrest⟩ := List.forall_mem_cons.mp hfit
      have hnext := ih fuel piece.length (storeBytes bufGpt numBytes piece)
        (Nat.lt_of_succ_lt_succ hfuel) hrest
      have hpiece : piece.take bufSize = piece := List.take_of_length_le hle
      have hlen : piece.length ≠ 0 := fun hnil => hne (List.length_eq_zero_iff.mp hnil)
      rw [run_readGptFile_succ, List.headD_cons, List.tail_cons, hpiece, storePieces]
      dsimp only
      rw [if_neg hlen]
      split
      · exact hnext
      · rfl

theorem storePieces_bounded (pieces : List (List UInt8)) (numBytes : Nat) (bufGpt : Mem)
    (n : Nat) (h : numBytes + pieces.flatten.length ≤ n) :
    ∀ store ∈ (storePieces bufSize pieces numBytes bufGpt).1, store.1 + store.2 ≤ n := by
  induction pieces generalizing numBytes bufGpt with
  | nil => exact nofun
  | cons piece pieces ih =>
      rw [List.flatten_cons, List.length_append] at h
      have hfirst : numBytes + piece.length ≤ n := by omega
      rw [storePieces]
      split
      · exact List.forall_mem_cons.mpr ⟨hfirst, ih _ _ (by omega)⟩
      · exact List.forall_mem_cons.mpr ⟨hfirst, nofun⟩

/-- Whatever the pieces of a file are, all stores of the loop are inside of its buffer. -/
theorem Pieces.bounded (h : Pieces file pieces) :
    ∀ store ∈ (storePieces file.length pieces 0 zeroed).1,
      store.1 + store.2 ≤ cacheLines file.length := by
  refine storePieces_bounded pieces 0 zeroed _ ?_
  rw [h.bytes, Nat.zero_add, cacheLines_eq]
  exact Nat.le_add_right _ _

/-- As long as each piece is shorter than the file, the loop goes on until nothing is read. -/
theorem storePieces_short (numBytes : Nat) (bufGpt : Mem)
    (h : ∀ piece ∈ pieces, piece.length < bufSize) :
    (storePieces bufSize pieces numBytes bufGpt).2 = none := by
  induction pieces generalizing numBytes bufGpt with
  | nil => rfl
  | cons piece pieces ih =>
      obtain ⟨hpiece, hpieces⟩ := List.forall_mem_cons.mp h
      rw [storePieces, if_pos hpiece]
      exact ih _ _ hpieces

theorem Pieces.run (h : Pieces file pieces) :
    ((readGptFile file.length (file.length + 1) 0 zeroed).run readPieces pieces).1 =
      (storePieces file.length pieces 0 zeroed).2 := by
  refine run_readGptFile _ 0 zeroed (Nat.lt_succ_of_le h.length_le) fun piece hpiece => ?_
  refine ⟨h.positive piece hpiece, ?_⟩
  rw [← h.bytes]
  exact (List.sublist_flatten_of_mem hpiece).length_le

/-- A second piece makes every piece shorter than the file. -/
theorem Pieces.short {first second : List UInt8} (h : Pieces file (first :: second :: pieces)) :
    ∀ piece ∈ first :: second :: pieces, piece.length < file.length := by
  have hfirst := List.length_pos_of_ne_nil (h.positive first List.mem_cons_self)
  have hsecond := List.length_pos_of_ne_nil
    (h.positive second (List.mem_cons_of_mem _ List.mem_cons_self))
  have hlen := congrArg List.length h.bytes
  simp only [List.flatten_cons, List.length_append] at hlen
  refine List.forall_mem_cons.mpr ⟨by omega, fun piece hpiece => ?_⟩
  have hrest := (List.sublist_flatten_of_mem hpiece).length_le
  rw [List.flatten_cons, List.length_append] at hrest
  omega

end Loop

/-- The loop reads the file if and only if it comes in one piece. -/
theorem gpt_file_read_iff (file : List UInt8) (pieces : List (List UInt8))
    (h : Pieces file pieces) : ReadsFile file pieces ↔ pieces = [file] := by
  constructor
  · rintro ⟨hcontents, -⟩
    rw [h.run] at hcontents
    match pieces, h with
    | [], _ => cases hcontents
    | [piece], h => rw [← h.bytes, List.flatten_singleton]
    | first :: second :: pieces, h =>
        rw [storePieces_short 0 zeroed h.short] at hcontents
        cases hcontents
  · rintro rfl
    refine ⟨?_, h.bounded⟩
    rw [h.run, storePieces, if_neg (Nat.lt_irrefl _)]

theorem gpt_file_read_iff_pieces :
    ReadsFile [1, 2, 3] [[1, 2, 3]] ∧ ¬ ReadsFile [1, 2, 3] [[1], [2, 3]] :=
  ⟨(gpt_file_read_iff [1, 2, 3] [[1, 2, 3]] ⟨rfl, by decide⟩).mpr rfl,
    fun h => absurd ((gpt_file_read_iff [1, 2, 3] [[1], [2, 3]] ⟨rfl, by decide⟩).mp h)
      (by decide)⟩

/-- A file of two bytes that is read one byte at a time. -/
theorem gpt_file_not_read : Pieces [1, 2] [[1], [2]] ∧ ¬ ReadsFile [1, 2] [[1], [2]] := by
  refine ⟨⟨rfl, by decide⟩, fun h => ?_⟩
  have hsome := congrArg Option.isSome h.contents
  exact absurd hsome (by decide)

/-! What is returned for a file. -/

/-- The size that is told of the file. -/
def toldSize : Event UpdSig → Option Nat
  | ⟨.ftell, size⟩ => if size.2 = 0 then some size.1 else none
  | _ => none

/-- The number of bytes that were read from the file since it was opened. -/
def filePosition (pos : Nat) : Event UpdSig → Nat
  | ⟨.fopen _, _⟩ => 0
  | ⟨.fread _, bytes⟩ => pos + (Subtype.val bytes).length
  | _ => pos

/-- Size and bytes are those of this file. -/
def OfFile (file : List UInt8) (pos : Nat) (e : Event UpdSig) : Prop :=
  (∀ size ∈ toldSize e, size = file.length) ∧
    ∀ x ∈ gptBytes e, x.2 = (file.drop pos).take x.2.length

instance (file : List UInt8) (pos : Nat) (e : Event UpdSig) : Decidable (OfFile file pos e) :=
  inferInstanceAs (Decidable ((∀ size ∈ toldSize e, _) ∧ ∀ x ∈ gptBytes e, _))

/-- The GPT file is this one; the operations are all allowed. -/
def gptFileReads (file : List UInt8) : Monitor UpdSig Nat where
  next := filePosition
  allows _ _ := True
  assumes := OfFile file

/-- A monitor that takes its answers from the file, with its position in it. -/
structure Follows {σ : Type} (M : Monitor UpdSig σ) (file : List UInt8) (pos : σ → Nat) : Prop where
  assumes : ∀ s e, M.assumes s e → OfFile file (pos s) e
  next : ∀ s e, pos (M.next s e) = filePosition (pos s) e

/-- The operations on the GPT file. -/
def IsGptFile : UpdSig.Op → Prop
  | .access _ | .fopen _ | .ftell | .calloc _ | .free | .fread _ | .fclose => True
  | _ => False

/-- The bytes of the header that are replaced. -/
def HeaderField (p : Nat) : Prop :=
  p ∈ byteRange (lbaSize + RtssGptHeader.headerCrc32) 4 ∨
    p ∈ byteRange (lbaSize + RtssGptHeader.alternateLba) 8 ∨
    p ∈ byteRange (lbaSize + RtssGptHeader.lastUsableLba) 8

/-- The file with two fields of the current header and a header CRC that verifies. The
fields are inside of it, and nothing else is changed, nor stored behind the file. -/
structure HeaderReplaced (file : List UInt8) (gptHdr buf : Mem) : Prop where
  alternateLba : load64 buf (lbaSize + RtssGptHeader.alternateLba) =
    load64 gptHdr RtssGptHeader.alternateLba
  lastUsableLba : load64 buf (lbaSize + RtssGptHeader.lastUsableLba) =
    load64 gptHdr RtssGptHeader.lastUsableLba
  verifies : rtssGptVerifyHeaderCrc32 (fun p => buf (lbaSize + p)) rtssGptCrc32SeedDefault = true
  inside : ∀ p, HeaderField p → p < file.length
  others : ∀ p < file.length, ¬ HeaderField p → file[p]? = some (buf p)
  padding : ∀ p, file.length ≤ p → buf p = 0

section Modify
variable {σ : Type} {M : Monitor UpdSig σ} {file : List UInt8} {pos : σ → Nat} {P : σ → Prop}
variable {s : σ} {heap : Mem}

/-- Only a read of the whole file at its start ends the loop with a result. -/
theorem readGptFile_keeps (hM : Follows M file pos)
    (hP : ∀ o s, IsGptFile o → P s → M.allows s o ∧ ∀ r, M.assumes s ⟨o, r⟩ → P (M.next s ⟨o, r⟩))
    (fuel numBytes : Nat) (bufGpt : Mem) (hs : P s)
    (hstart : pos s = 0 → numBytes = 0 ∧ bufGpt = heap) :
    M.Keeps (fun r s' => P s' ∧ ∀ buf ∈ r, buf = storeBytes heap 0 file ∧ file ≠ [])
      (readGptFile file.length fuel numBytes bufGpt) s := by
  induction fuel generalizing s numBytes bufGpt with
  | zero => exact ⟨hs, nofun⟩
  | succ fuel ih =>
      obtain ⟨hallows, hnext⟩ := hP (.fread file.length) s trivial hs
      refine ⟨hallows,
        fun (bytes : { bytes : List UInt8 // bytes.length ≤ file.length }) hr => ?_⟩
      have hP' := hnext bytes hr
      have hpos := hM.next s ⟨.fread file.length, bytes⟩
      have hbytes : bytes.val = (file.drop (pos s)).take bytes.val.length :=
        (hM.assumes s _ hr).2 _ rfl
      refine .guard (fun _ => ⟨hP', nofun⟩) fun hne => .guard (fun _ => ?_) fun hlong => ?_
      · refine ih _ _ hP' fun hzero => ?_
        rw [hpos] at hzero
        simp only [filePosition] at hzero
        exact absurd hzero (by omega)
      · refine ⟨hP', ?_⟩
        rintro _ ⟨⟩
        have hlen := congrArg List.length hbytes
        rw [List.length_take, List.length_drop] at hlen
        have hzero : pos s = 0 := by omega
        obtain ⟨rfl, rfl⟩ := hstart hzero
        rw [hzero, List.drop_zero, List.take_of_length_le (by omega)] at hbytes
        rw [hbytes] at hne ⊢
        exact ⟨rfl, fun hnil => hne (congrArg List.length hnil)⟩

theorem modifygpt_keeps (hM : Follows M file pos)
    (hP : ∀ o s, IsGptFile o → P s → M.allows s o ∧ ∀ r, M.assumes s ⟨o, r⟩ → P (M.next s ⟨o, r⟩))
    (heap : Mem) (gfile : CString) (gptHdr : Mem) (hs : P s) :
    M.Keeps (fun r s' => P s' ∧ ∀ x ∈ r,
        x = (modifyHeader (storeBytes heap 0 file) gptHdr, file.length) ∧ file ≠ [])
      (rtssUpdaterModifygptAt heap gfile gptHdr) s := by
  have hclosed : ∀ s, P s → M.Keeps (fun r s' => P s' ∧ ∀ x ∈ r,
      x = (modifyHeader (storeBytes heap 0 file) gptHdr, file.length) ∧ file ≠ [])
      (Upd.fclose >>= fun _ => (pure none : Prog UpdSig (Option (Mem × Nat)))) s := by
    intro s hs
    obtain ⟨hallows, hnext⟩ := hP .fclose s trivial hs
    exact ⟨hallows, fun r hr => ⟨hnext r hr, nofun⟩⟩
  obtain ⟨hallows, hnext⟩ := hP (.access gfile) s trivial hs
  refine ⟨hallows, fun (found : Bool) hr => ?_⟩
  replace hs := hnext found hr
  refine .guard (fun _ => ⟨hs, nofun⟩) fun _ => ?_
  obtain ⟨hallows, hnext⟩ := hP (.fopen gfile) _ trivial hs
  refine ⟨hallows, fun (opened : Bool) hr => ?_⟩
  replace hs := hnext opened hr
  refine .guard (fun _ => ⟨hs, nofun⟩) fun _ => ?_
  obtain ⟨hallows, hnext⟩ := hP .ftell _ trivial hs
  refine ⟨hallows, fun (size : Nat × Int) hr => ?_⟩
  replace hs := hnext size hr
  refine .guard (fun _ => hclosed _ hs) fun herrno => ?_
  have hsize : size.1 = file.length :=
    (hM.assumes _ _ hr).1 size.1 (if_pos (not_not.mp herrno))
  rw [hsize]
  obtain ⟨hallows, hnext⟩ := hP (.calloc _) _ trivial hs
  refine ⟨hallows, fun (allocated : Bool) hr => ?_⟩
  replace hs := hnext allocated hr
  refine .guard (fun _ => hclosed _ hs) fun _ => ?_
  refine (readGptFile_keeps hM hP _ 0 heap hs fun _ => ⟨rfl, rfl⟩).then fun r s ⟨hs, hbuf⟩ => ?_
  cases r with
  | none =>
      obtain ⟨hallows, hnext⟩ := hP .free s trivial hs
      exact ⟨hallows, fun r hr => hclosed _ (hnext r hr)⟩
  | some buf =>
      obtain ⟨hallows, hnext⟩ := hP .fclose s trivial hs
      refine ⟨hallows, fun r hr => ⟨hnext r hr, ?_⟩⟩
      rintro _ ⟨⟩
      obtain ⟨rfl, hne⟩ := hbuf buf rfl
      exact ⟨rfl, hne⟩

end Modify

section Header
variable (m gptHdr : Mem) (a n : Nat) (v : UInt32)

theorem loadBytes_shift : loadBytes (fun p => m (lbaSize + p)) a n = loadBytes m (lbaSize + a) n :=
  List.map_congr_left fun i _ => congrArg m (Nat.add_assoc lbaSize a i).symm

theorem load32_shift : load32 (fun p => m (lbaSize + p)) a = load32 m (lbaSize + a) :=
  congrArg ofLe32 (loadBytes_shift m a 4)

theorem store32_shift : store32 (fun p => m (lbaSize + p)) a v =
    fun p => store32 m (lbaSize + a) v (lbaSize + p) := by
  funext p
  by_cases hp : a ≤ p ∧ p < a + 4
  · obtain ⟨i, rfl⟩ := Nat.exists_eq_add_of_le hp.1
    have hi : i < (le32 v).length := Nat.lt_of_add_lt_add_left hp.2
    rw [store32, storeBytes_inside _ _ _ _ hi, ← Nat.add_assoc, store32,
      storeBytes_inside _ _ _ _ hi]
  · rw [store32_outside _ _ _ _ (by omega), store32_outside _ _ _ _ (by omega)]

theorem modifyHeader_outside {p : Nat} (hp : ¬ HeaderField p) : modifyHeader m gptHdr p = m p := by
  simp only [HeaderField, mem_byteRange, not_or] at hp
  obtain ⟨hcrc, halternate, hlast⟩ := hp
  rw [modifyHeader, store32_outside _ _ _ _ (by omega), store32_outside _ _ _ _ (by omega),
    storeBytes_outside _ _ _ _ (by rw [loadBytes_length]; omega),
    storeBytes_outside _ _ _ _ (by rw [loadBytes_length]; omega)]

theorem modifyHeader_alternateLba :
    loadBytes (modifyHeader m gptHdr) (lbaSize + RtssGptHeader.alternateLba) 8 =
      loadBytes gptHdr RtssGptHeader.alternateLba 8 := by
  have hsame := loadBytes_storeBytes_same m (lbaSize + RtssGptHeader.alternateLba)
    (loadBytes gptHdr RtssGptHeader.alternateLba 8)
  rw [loadBytes_length] at hsame
  rw [modifyHeader, loadBytes_store32_disjoint _ _ _ _ _ (Or.inr (by decide)),
    loadBytes_store32_disjoint _ _ _ _ _ (Or.inr (by decide)),
    loadBytes_storeBytes_disjoint _ _ _ _ _ (Or.inl (by decide)), hsame]

theorem modifyHeader_lastUsableLba :
    loadBytes (modifyHeader m gptHdr) (lbaSize + RtssGptHeader.lastUsableLba) 8 =
      loadBytes gptHdr RtssGptHeader.lastUsableLba 8 := by
  have hsame := loadBytes_storeBytes_same
    (storeBytes m (lbaSize + RtssGptHeader.alternateLba)
      (loadBytes gptHdr RtssGptHeader.alternateLba 8))
    (lbaSize + RtssGptHeader.lastUsableLba) (loadBytes gptHdr RtssGptHeader.lastUsableLba 8)
  rw [loadBytes_length] at hsame
  rw [modifyHeader, loadBytes_store32_disjoint _ _ _ _ _ (Or.inr (by decide)),
    loadBytes_store32_disjoint _ _ _ _ _ (Or.inr (by decide)), hsame]

/-- The new CRC is taken over what the check takes it over. -/
theorem modifyHeader_verifies
    (h : (load32 m (lbaSize + RtssGptHeader.headerSize)).toNat ≤ sizeofRtssGptHeader) :
    rtssGptVerifyHeaderCrc32 (fun p => modifyHeader m gptHdr (lbaSize + p))
      rtssGptCrc32SeedDefault = true := by
  have hsize : load32 (modifyHeader m gptHdr) (lbaSize + RtssGptHeader.headerSize) =
      load32 m (lbaSize + RtssGptHeader.headerSize) :=
    modifyHeader_word m gptHdr _ (Or.inl (by decide))
  have hzeroed : store32 (modifyHeader m gptHdr) (lbaSize + RtssGptHeader.headerCrc32) 0 =
      store32 (storeBytes (storeBytes m (lbaSize + RtssGptHeader.alternateLba)
          (loadBytes gptHdr RtssGptHeader.alternateLba 8))
        (lbaSize + RtssGptHeader.lastUsableLba)
        (loadBytes gptHdr RtssGptHeader.lastUsableLba 8))
        (lbaSize + RtssGptHeader.headerCrc32) 0 := by
    rw [modifyHeader, store32_store32_same, store32_store32_same]
  have hfield : load32 (storeBytes (storeBytes m (lbaSize + RtssGptHeader.alternateLba)
        (loadBytes gptHdr RtssGptHeader.alternateLba 8))
      (lbaSize + RtssGptHeader.lastUsableLba)
      (loadBytes gptHdr RtssGptHeader.lastUsableLba 8)) (lbaSize + RtssGptHeader.headerSize) =
      load32 m (lbaSize + RtssGptHeader.headerSize) := by
    rw [load32_storeBytes_disjoint _ _ _ _ (Or.inl (by decide)),
      load32_storeBytes_disjoint _ _ _ _ (Or.inl (by decide))]
  have hcrc : load32 (modifyHeader m gptHdr) (lbaSize + RtssGptHeader.headerCrc32) =
      rtssGptCalcCrc32 (loadBytes (store32 (modifyHeader m gptHdr)
        (lbaSize + RtssGptHeader.headerCrc32) 0) lbaSize
        (load32 m (lbaSize + RtssGptHeader.headerSize)).toNat) rtssGptCrc32SeedDefault := by
    rw [hzeroed, modifyHeader, load32_store32_same,
      load32_store32_disjoint _ _ _ _ (Or.inl (by decide)), hfield]
  rw [rtssGptVerifyHeaderCrc32, load32_shift, load32_shift, hsize, if_neg (by omega),
    store32_shift, loadBytes_shift, hcrc, Nat.add_zero]
  exact beq_self_eq_true _

end Header

theorem storeBytes_zeroed (file : List UInt8) : storeBytes zeroed 0 file = structOf file :=
  (structOf_eq file).symm

theorem HeaderField.lt {p : Nat} (h : HeaderField p) : p < lbaSize + sizeofRtssGptHeader := by
  simp only [HeaderField, mem_byteRange, RtssGptHeader.headerCrc32, RtssGptHeader.alternateLba,
    RtssGptHeader.lastUsableLba, sizeofRtssGptHeader] at h ⊢
  omega

theorem headerReplaced (file : List UInt8) (gptHdr : Mem)
    (hlong : lbaSize + sizeofRtssGptHeader ≤ file.length)
    (h : (load32 (structOf file) (lbaSize + RtssGptHeader.headerSize)).toNat ≤
      sizeofRtssGptHeader) :
    HeaderReplaced file gptHdr (modifyHeader (storeBytes zeroed 0 file) gptHdr) := by
  rw [storeBytes_zeroed]
  have hinside : ∀ p, HeaderField p → p < file.length := fun p hp => Nat.lt_of_lt_of_le hp.lt hlong
  refine ⟨?_, ?_, modifyHeader_verifies _ _ h, hinside, fun p hp hfield => ?_, fun p hp => ?_⟩
  · rw [load64, modifyHeader_alternateLba]
    rfl
  · rw [load64, modifyHeader_lastUsableLba]
    rfl
  · rw [modifyHeader_outside _ _ hfield, structOf, List.getD_eq_getElem _ _ hp,
      List.getElem?_eq_getElem hp]
  · rw [modifyHeader_outside _ _ (fun hfield => absurd (hinside p hfield) (Nat.not_lt.mpr hp)),
      structOf, List.getD_eq_default _ _ hp]

/-- What is returned for a GPT file is the file, with the fields of its header replaced. -/
theorem modified_gpt_file (file : List UInt8) (gfile : CString) (gptHdr : Mem)
    (hlong : lbaSize + sizeofRtssGptHeader ≤ file.length)
    (hheader : (load32 (structOf file) (lbaSize + RtssGptHeader.headerSize)).toNat ≤
      sizeofRtssGptHeader)
    (t : List (Event UpdSig)) (buf : Mem) (bufSize : Nat)
    (hruns : Runs (rtssUpdaterModifygpt gfile gptHdr) t (.ret (some (buf, bufSize))))
    (hread : (gptFileReads file).Assumed 0 t) :
    bufSize = file.length ∧ HeaderReplaced file gptHdr buf := by
  have hfollows : Follows (gptFileReads file) file id := ⟨fun _ _ h => h, fun _ _ => rfl⟩
  have hkeeps := modifygpt_keeps (P := fun _ => True) (s := 0) hfollows
    (fun _ _ _ _ => ⟨trivial, fun _ _ => trivial⟩) zeroed gfile gptHdr trivial
  obtain ⟨-, -, hresult⟩ := Keeps.runs hruns hkeeps hread
  obtain ⟨rfl, rfl⟩ := Prod.mk.inj (hresult _ rfl).1
  exact ⟨rfl, headerReplaced file gptHdr hlong hheader⟩

/-- The answers when the file is found, opened and read in one piece. -/
def wholeFileTrace (file : List UInt8) (gfile : CString) : List (Event UpdSig) :=
  [⟨.access gfile, true⟩, ⟨.fopen gfile, true⟩, ⟨.ftell, (file.length, (0 : Int))⟩,
    ⟨.calloc (if file.length % rtssUpdGetCacheLineSz.toNat ≠ 0 then
      file.length + (rtssUpdGetCacheLineSz.toNat - file.length % rtssUpdGetCacheLineSz.toNat)
      else file.length), true⟩,
    ⟨.fread file.length, ⟨file, Nat.le_refl _⟩⟩, ⟨.fclose, ()⟩]

theorem wholeFileTrace_assumed (file : List UInt8) (gfile : CString) :
    (gptFileReads file).Assumed 0 (wholeFileTrace file gfile) := by
  have hother : ∀ (e : Event UpdSig), toldSize e = none → gptBytes e = none →
      OfFile file 0 e := by
    intro e htold hbytes
    rw [OfFile, htold, hbytes]
    exact ⟨nofun, nofun⟩
  refine assumed_cons.mpr ⟨hother _ rfl rfl, assumed_cons.mpr ⟨hother _ rfl rfl, ?_⟩⟩
  refine assumed_cons.mpr ⟨⟨fun size hsize => ?_, nofun⟩, assumed_cons.mpr ⟨hother _ rfl rfl, ?_⟩⟩
  · cases hsize
    rfl
  · refine assumed_cons.mpr ⟨⟨nofun, ?_⟩, assumed_cons.mpr ⟨⟨nofun, nofun⟩, .nil _⟩⟩
    rintro _ ⟨⟩
    exact (List.take_length).symm

/-- A file that is not empty is returned when it is read in one piece. -/
theorem wholeFileTrace_runs {file : List UInt8} (hne : file ≠ []) (gfile : CString)
    (gptHdr : Mem) :
    Runs (rtssUpdaterModifygpt gfile gptHdr) (wholeFileTrace file gfile)
      (.ret (some (modifyHeader (storeBytes zeroed 0 file) gptHdr, file.length))) := by
  have hlen : file.length ≠ 0 := fun hnil => hne (List.length_eq_zero_iff.mp hnil)
  refine .op _ _ _ _ _ (.op _ _ _ _ _ (.op _ _ _ _ _ (.op _ _ _ _ _ (.op _ _ _ _ _ ?_))))
  simp only [Prog.bind, if_neg hlen, if_neg (Nat.lt_irrefl _)]
  exact .op _ _ _ _ _ (.refl _)

/-- A GPT file whose header has one entry of 128 bytes, with `n` more bytes. -/
def sampleGpt (n : Nat) : List UInt8 :=
  List.replicate (lbaSize + RtssGptHeader.headerSize) 0 ++ le32 92 ++ List.replicate 64 0 ++
    le32 1 ++ le32 128 ++ le32 0 ++ List.replicate n 0

theorem length_sampleGpt (n : Nat) : (sampleGpt n).length = lbaSize + sizeofRtssGptHeader + n := by
  simp only [sampleGpt, List.length_append, List.length_replicate, le32_length,
    RtssGptHeader.headerSize, sizeofRtssGptHeader]

theorem headerSize_sampleGpt (n : Nat) :
    load32 (structOf (sampleGpt n)) (lbaSize + RtssGptHeader.headerSize) = 92 := by
  have hword := load32_structOf (List.replicate (lbaSize + RtssGptHeader.headerSize) 0)
    (List.replicate 64 0 ++ le32 1 ++ le32 128 ++ le32 0 ++ List.replicate n 0) 92
  rw [List.length_replicate] at hword
  simp only [sampleGpt, List.append_assoc] at hword ⊢
  exact hword

/-- A header of its whole size takes two fields from a current one that differs in both. -/
theorem modified_gpt_file_sample :
    let file := sampleGpt 36
    let gptHdr := structOf (List.replicate sizeofRtssGptHeader 5)
    HeaderReplaced file gptHdr (modifyHeader (storeBytes zeroed 0 file) gptHdr) := by
  intro file gptHdr
  have hne : file ≠ [] := by
    refine List.ne_nil_of_length_pos ?_
    rw [length_sampleGpt]
    decide
  refine (modified_gpt_file file [] gptHdr ?_ ?_ _ _ _ (wholeFileTrace_runs hne [] gptHdr)
    (wholeFileTrace_assumed file [])).2
  · rw [length_sampleGpt]
    decide
  · rw [headerSize_sampleGpt]
    decide

end RtssMailbox
