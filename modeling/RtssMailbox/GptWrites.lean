import RtssMailbox.GptFileReads

/-!
The GPT that is written. The header and the entries of the GPT file are stored in the OTA
buffer, and a message announces the buffer with the length of the file in whole cache lines.
A monitor follows the contents of the buffer, which the RTSS may change before each receive.
-/
namespace RtssMailbox
open Effects ByteMemory Monitoring Monitor

/-- The GPT file in its buffer, on this heap. -/
def bufferedGpt (heap : Mem) (file : List UInt8) : Mem := storeBytes heap 0 file

/-- The length that is announced for a file. -/
def writtenLen (bufLen : UInt32) : UInt32 :=
  if bufLen % rtssUpdGetCacheLineSz ≠ 0 then
    bufLen + (rtssUpdGetCacheLineSz - bufLen % rtssUpdGetCacheLineSz)
  else bufLen

/-- The length and the CRC of the GPT that a message announces. -/
def announcedGpt (msg : Mem) : UInt32 × UInt32 := (bodyWord msg 2, bodyWord msg 3)

/-- The header and the entries of the file that are stored are inside of it, and they are
what the message announces, with zeros behind them. -/
structure WritesGpt (heap : Mem) (file : List UInt8) (gptHdr ota msg : Mem) : Prop where
  header : lbaSize + sizeofRtssGptHeader ≤ file.length
  entries : 2 * lbaSize + entriesBytes (bufferedGpt heap file) ≤ file.length
  contents : ∃ n, loadBytes ota 0 (announcedGpt msg).1.toNat =
    loadBytes (modifyHeader (bufferedGpt heap file) gptHdr) lbaSize sizeofRtssGptHeader ++
      (file.drop (2 * lbaSize)).take (entriesBytes (bufferedGpt heap file)) ++ List.replicate n 0
  crc : rtssUpdCalculateCrc32 (loadBytes ota 0 (announcedGpt msg).1.toNat) =
    some (announcedGpt msg).2

/-- What a monitor keeps: the number of receives, the contents of the OTA buffer, and the
position in the GPT file. -/
structure GptWatch where
  receives : Nat
  ota : Mem
  position : Nat

namespace GptWatch

def start (rtss : Nat → Mem) : GptWatch := ⟨0, rtss 0, 0⟩

/-- With the `k`-th receive the OTA buffer has the contents `rtss k`. -/
def next (rtss : Nat → Mem) (s : GptWatch) (e : Event UpdSig) : GptWatch :=
  match e.op with
  | .mbRead _ _ _ => ⟨s.receives + 1, rtss (s.receives + 1), s.position⟩
  | .otaStore offset bytes => { s with ota := storeBytes s.ota offset bytes }
  | _ => { s with position := filePosition s.position e }

/-- What is loaded is in the OTA buffer, and what is read of the GPT file is in the file. -/
def Answers (file : List UInt8) (s : GptWatch) (e : Event UpdSig) : Prop :=
  OfFile file s.position e ∧ ∀ x ∈ loadedFrom e, x.2 = loadBytes s.ota x.1 x.2.length

end GptWatch

/-- A GPT is only written as it is in the file. -/
def gptWatch (heap : Mem) (file : List UInt8) (rtss : Nat → Mem) : Monitor UpdSig GptWatch where
  next := GptWatch.next rtss
  allows s o := ∀ msg ∈ sentMessage o, OfKind rtssUpdMsgWriteGpt msg →
    WritesGpt heap file (rtss 2) s.ota msg
  assumes := GptWatch.Answers file

/-- The message is not sent: the file is refused, has no entries, or has a length that is
zero in whole cache lines. -/
def GptUnsent (heap : Mem) (file : List UInt8) : Prop :=
  GptRefused (bufferedGpt heap file) (UInt32.ofNat file.length) ∨
    entriesBytes (bufferedGpt heap file) = 0 ∨ writtenLen (UInt32.ofNat file.length) = 0

instance (heap : Mem) (file : List UInt8) : Decidable (GptUnsent heap file) :=
  inferInstanceAs (Decidable (_ ∨ _))

/-- The entries are inside of the file, the announced length has room for them, and the
OTA buffer had zeros where it is announced but neither cleared nor stored to. -/
structure GptExact (heap : Mem) (file : List UInt8) (earlier : Mem) : Prop where
  entries : 2 * lbaSize + entriesBytes (bufferedGpt heap file) ≤ file.length
  room : sizeofRtssGptHeader + entriesBytes (bufferedGpt heap file) ≤
    (writtenLen (UInt32.ofNat file.length)).toNat
  zeros : ∀ p, (UInt32.ofNat file.length).toNat ≤ p →
    sizeofRtssGptHeader + entriesBytes (bufferedGpt heap file) ≤ p →
      p < (writtenLen (UInt32.ofNat file.length)).toNat → earlier p = 0

section Contents
variable {heap : Mem} {file : List UInt8} {gptHdr earlier : Mem}

theorem loadBytes_bufferedGpt {a n : Nat} (h : a + n ≤ file.length) :
    loadBytes (bufferedGpt heap file) a n = (file.drop a).take n := by
  have hinside := loadBytes_storeBytes_inside heap 0 file a n h
  rwa [Nat.zero_add] at hinside

theorem entriesBytes_modifyHeader (buf gptHdr : Mem) :
    entriesBytes (modifyHeader buf gptHdr) = entriesBytes buf := by
  rw [entriesBytes, entriesBytes,
    modifyHeader_word _ _ RtssGptHeader.numberOfPartitionEntries (Or.inr (by decide)),
    modifyHeader_word _ _ RtssGptHeader.sizeOfPartitionEntry (Or.inr (by decide))]

theorem gptRefused_modifyHeader (buf gptHdr : Mem) (bufLen : UInt32) :
    GptRefused (modifyHeader buf gptHdr) bufLen ↔ GptRefused buf bufLen := by
  simp only [GptRefused, entriesBytes_modifyHeader,
    modifyHeader_word _ _ RtssGptHeader.headerSize (Or.inl (by decide))]

/-- The entries are not changed with the header. -/
theorem entries_modifyHeader (n : Nat) :
    loadBytes (modifyHeader (bufferedGpt heap file) gptHdr) (2 * lbaSize) n =
      loadBytes (bufferedGpt heap file) (2 * lbaSize) n := by
  refine loadBytes_congr _ _ _ _ fun i _ => modifyHeader_outside _ _ fun hfield => ?_
  have hlt := hfield.lt
  simp only [lbaSize, sizeofRtssGptHeader] at hlt
  omega

/-- The header only takes two fields from the current one. -/
theorem modifyHeader_congr (buf : Mem) {gptHdr' : Mem}
    (h : loadBytes gptHdr 0 sizeofRtssGptHeader = loadBytes gptHdr' 0 sizeofRtssGptHeader) :
    modifyHeader buf gptHdr = modifyHeader buf gptHdr' := by
  have hfield : ∀ a, a + 8 ≤ sizeofRtssGptHeader →
      loadBytes gptHdr a 8 = loadBytes gptHdr' a 8 := by
    intro a ha
    refine loadBytes_congr _ _ _ _ fun i hi => ?_
    have hbyte := congrArg (·[a + i]?) h
    simp only [getElem?_loadBytes _ _ _ _ (show a + i < sizeofRtssGptHeader by omega),
      Nat.zero_add] at hbyte
    exact Option.some.inj hbyte
  rw [modifyHeader, modifyHeader, hfield RtssGptHeader.alternateLba (by decide),
    hfield RtssGptHeader.lastUsableLba (by decide)]

/-- The OTA buffer after the header and the entries are stored where it was cleared. -/
def writtenOta (heap : Mem) (file : List UInt8) (gptHdr earlier : Mem) : Mem :=
  let buf := modifyHeader (bufferedGpt heap file) gptHdr
  storeBytes (storeBytes (storeBytes earlier 0
      (List.replicate (UInt32.ofNat file.length).toNat 0))
    0 (loadBytes buf lbaSize sizeofRtssGptHeader))
    sizeofRtssGptHeader (loadBytes buf (2 * lbaSize) (entriesBytes (bufferedGpt heap file)))

theorem writtenOta_eq : writtenOta heap file gptHdr earlier =
    storeBytes (storeBytes earlier 0 (List.replicate (UInt32.ofNat file.length).toNat 0)) 0
      (loadBytes (modifyHeader (bufferedGpt heap file) gptHdr) lbaSize sizeofRtssGptHeader ++
        loadBytes (bufferedGpt heap file) (2 * lbaSize)
          (entriesBytes (bufferedGpt heap file))) := by
  rw [storeBytes_append, Nat.zero_add, loadBytes_length, ← entries_modifyHeader]
  rfl

theorem cleared_eq_zero {m : Mem} {n p : Nat} (h : n ≤ p → m p = 0) :
    storeBytes m 0 (List.replicate n 0) p = 0 := by
  by_cases hp : p < n
  · have hbyte := storeBytes_inside m 0 (List.replicate n 0) p
      (by rw [List.length_replicate]; exact hp)
    rwa [Nat.zero_add, List.getElem_replicate] at hbyte
  · rw [storeBytes_outside _ _ _ _ (by rw [List.length_replicate]; omega)]
    exact h (Nat.not_lt.mp hp)

/-- What the message announces of the file, if the file can be written exactly. -/
theorem GptExact.contents (h : GptExact heap file earlier) :
    loadBytes (writtenOta heap file gptHdr earlier) 0
        (writtenLen (UInt32.ofNat file.length)).toNat =
      loadBytes (modifyHeader (bufferedGpt heap file) gptHdr) lbaSize sizeofRtssGptHeader ++
        (file.drop (2 * lbaSize)).take (entriesBytes (bufferedGpt heap file)) ++
          List.replicate ((writtenLen (UInt32.ofNat file.length)).toNat -
            (sizeofRtssGptHeader + entriesBytes (bufferedGpt heap file))) 0 := by
  have hlen : (loadBytes (modifyHeader (bufferedGpt heap file) gptHdr) lbaSize
      sizeofRtssGptHeader ++ loadBytes (bufferedGpt heap file) (2 * lbaSize)
        (entriesBytes (bufferedGpt heap file))).length =
        sizeofRtssGptHeader + entriesBytes (bufferedGpt heap file) := by
    rw [List.length_append, loadBytes_length, loadBytes_length]
  have hbehind : ∀ n, sizeofRtssGptHeader + entriesBytes (bufferedGpt heap file) + n =
      (writtenLen (UInt32.ofNat file.length)).toNat →
        loadBytes (storeBytes earlier 0 (List.replicate (UInt32.ofNat file.length).toNat 0))
          (sizeofRtssGptHeader + entriesBytes (bufferedGpt heap file)) n = List.replicate n 0 :=
    fun n hn => loadBytes_eq_replicate fun i hi => cleared_eq_zero fun hp =>
      h.zeros _ hp (Nat.le_add_right _ _) (by omega)
  rw [writtenOta_eq, loadBytes_storeBytes_across _ _ _ _ (by rw [hlen]; exact h.room), hlen,
    loadBytes_bufferedGpt h.entries, Nat.zero_add, hbehind _ (Nat.add_sub_of_le h.room)]

theorem GptExact.header (h : GptExact heap file earlier) :
    lbaSize + sizeofRtssGptHeader ≤ file.length :=
  Nat.le_trans (by decide) (Nat.le_trans (Nat.le_add_right (2 * lbaSize) _) h.entries)

/-- The message with the CRC of what is announced, if the file can be written exactly. -/
theorem GptExact.writes {msg : Mem} {crc : UInt32} (h : GptExact heap file earlier)
    (hannounced : announcedGpt msg = (writtenLen (UInt32.ofNat file.length), crc))
    (hcrc : rtssUpdCalculateCrc32 (loadBytes (writtenOta heap file gptHdr earlier) 0
      (writtenLen (UInt32.ofNat file.length)).toNat) = some crc) :
    WritesGpt heap file gptHdr (writtenOta heap file gptHdr earlier) msg where
  header := h.header
  entries := h.entries
  contents := by
    rw [hannounced]
    exact ⟨_, h.contents⟩
  crc := by
    rw [hannounced]
    exact hcrc

/-- Only a file that can be written exactly is written right. -/
theorem WritesGpt.exact {gptHdr' msg : Mem}
    (h : WritesGpt heap file gptHdr (writtenOta heap file gptHdr' earlier) msg)
    (hlen : (announcedGpt msg).1 = writtenLen (UInt32.ofNat file.length)) :
    GptExact heap file earlier := by
  obtain ⟨n, hcontents⟩ := h.contents
  rw [hlen] at hcontents
  have hentries : ((file.drop (2 * lbaSize)).take (entriesBytes (bufferedGpt heap file))).length =
      entriesBytes (bufferedGpt heap file) := by
    have hinside := h.entries
    rw [List.length_take, List.length_drop]
    omega
  have htotal := congrArg List.length hcontents
  simp only [List.length_append, loadBytes_length, hentries, List.length_replicate] at htotal
  refine ⟨h.entries, by omega, fun p hp hbehind hannounced => ?_⟩
  have hbyte := congrArg (·[p]?) hcontents
  have hkept : writtenOta heap file gptHdr' earlier p = earlier p := by
    rw [writtenOta_eq, storeBytes_outside, storeBytes_outside]
    · rw [List.length_replicate]
      omega
    · rw [List.length_append, loadBytes_length, loadBytes_length]
      omega
  simp only [getElem?_loadBytes _ _ _ _ hannounced, Nat.zero_add, hkept] at hbyte
  rw [List.getElem?_append_right (by rw [List.length_append, loadBytes_length, hentries]; omega),
    List.getElem?_replicate_of_lt (by rw [List.length_append, loadBytes_length, hentries]; omega)]
    at hbyte
  exact Option.some.inj hbyte

theorem announcedGpt_sealed (gptId sVa bufLen crc headerCrc : UInt32) :
    announcedGpt (store32 (rtssUpdMsg rtssUpdMsgWriteGpt
      (storeWords zeroed RtssUpdMsgHeader.body [gptId, sVa, bufLen, crc]))
        RtssUpdMsgHeader.headerCrc headerCrc) = (bufLen, crc) := by
  rw [announcedGpt, bodyWord_sealed]
  exact Prod.ext (bodyWord_storeWords rfl) (bodyWord_storeWords rfl)

end Contents

section Steps
variable {heap : Mem} {file : List UInt8} {rtss : Nat → Mem} {s : GptWatch} {hs : Handshake}
variable {k : Nat}

theorem gptWatch_asks : AsksOf (gptWatch heap file rtss) rtssUpdMsgWriteGpt :=
  fun _ _ ho msg hmsg hwrite => absurd hwrite (ho msg hmsg)

theorem gptWatch_follows : Follows (gptWatch heap file rtss) file GptWatch.position where
  assumes _ _ h := h.1
  next s e := by
    obtain ⟨o, r⟩ := e
    cases o <;> rfl

/-- A command of another kind, and the receive after it. -/
theorem exchange_receives (u : Updater) {msgId : UInt32} {cmd : Prog UpdSig UInt32}
    (hid : msgId ≠ rtssUpdMsgWriteGpt) (hcmd : Issues IsOtaLoad (OfKind msgId) cmd)
    (hk : s.receives = k) :
    (gptWatch heap file rtss).Passes (fun _ s' => s'.receives = k + 1 ∧ s'.ota = rtss (k + 1))
      (Sequence.exchange u hs cmd) s := by
  refine exchange_passes (R := fun s' => s'.receives = k) (hcmd.keeps
    (P := fun s' => s'.receives = k) (fun o s' ho hk => ?_) (fun o msg s' hmsg hkind hk => ?_) hk)
    fun s' hk => ⟨gptWatch_asks.unsent rfl, fun r _ _ => ?_⟩
  · cases o with
    | otaLoad offset len => exact ⟨gptWatch_asks.unsent rfl, fun _ _ => hk⟩
    | _ => exact ho.elim
  · cases o with
    | mbWrite handle buf sz => exact ⟨gptWatch_asks.other hmsg hkind hid, fun _ _ => hk⟩
    | _ => cases hmsg
  · subst hk
    exact ⟨rfl, rfl⟩

theorem mset_clears (dst : Nat) (hdst : dst ≠ null) (len : UInt32) :
    (gptWatch heap file rtss).Keeps (fun _ s' => s'.receives = s.receives ∧
        s'.ota = storeBytes s.ota 0 (List.replicate len.toNat 0))
      (rtssUpdaterMset dst len) s :=
  .guard (fun hnull => absurd hnull hdst) fun _ => ⟨gptWatch_asks.unsent rfl, fun _ _ => ⟨rfl, rfl⟩⟩

theorem getGpthdr_loads (dst : Nat) (hdst : dst ≠ null) (gpthdr : Mem) :
    (gptWatch heap file rtss).Keeps (fun x s' => (s'.receives = s.receives ∧ s'.ota = s.ota) ∧
        loadBytes x.2 0 sizeofRtssGptHeader = loadBytes s.ota 0 sizeofRtssGptHeader)
      (rtssUpdaterGetGpthdr dst gpthdr) s := by
  refine .guard (fun hnull => absurd hnull hdst) fun _ => ⟨gptWatch_asks.unsent rfl,
    fun (bytes : Fin sizeofRtssGptHeader → UInt8) hanswer => ⟨⟨rfl, rfl⟩, ?_⟩⟩
  have hbytes : List.ofFn bytes = loadBytes s.ota 0 (List.ofFn bytes).length := hanswer.2 _ rfl
  have hlen : (List.ofFn bytes).length = sizeofRtssGptHeader := List.length_ofFn
  change loadBytes (structOf (List.ofFn bytes)) 0 sizeofRtssGptHeader = _
  rw [loadBytes_structOf (Nat.le_of_eq ((Nat.zero_add _).trans hlen.symm)), List.drop_zero,
    List.take_of_length_le (Nat.le_of_eq hlen)]
  rwa [hlen] at hbytes

/-- The CRC is that of the announced bytes. -/
theorem collectCrc_answers (bufLen : UInt32) :
    (gptWatch heap file rtss).Keeps (fun r s' => s'.ota = s.ota ∧
        r = rtssUpdCalculateCrc32 (loadBytes s.ota 0 bufLen.toNat)) (collectCrc 0 bufLen) s := by
  refine .guard (fun hgiven => absurd rfl hgiven) fun _ => ⟨gptWatch_asks.unsent rfl,
    fun (bytes : Fin bufLen.toNat → UInt8) hanswer => ⟨rfl, ?_⟩⟩
  have hbytes : List.ofFn bytes = loadBytes s.ota 0 (List.ofFn bytes).length := hanswer.2 _ rfl
  rw [List.length_ofFn] at hbytes
  exact congrArg rtssUpdCalculateCrc32 hbytes

/-- The message is only sent if the file can be written exactly. -/
theorem writegpt_keeps (u : Updater) (dst : Nat) {buf : Mem}
    (hbuf : buf = modifyHeader (bufferedGpt heap file) (rtss 2))
    (h : GptUnsent heap file ∨ GptExact heap file (rtss 2))
    (hota : s.ota = storeBytes (rtss 2) 0
      (List.replicate (UInt32.ofNat file.length).toNat 0)) :
    (gptWatch heap file rtss).Keeps (fun ret _ => ret = exitSuccess → True)
      (rtssUpdaterWritegpt u 0 (some buf) u.sVa (UInt32.ofNat file.length) 0 dst) s := by
  have hsize : entriesBytes buf = entriesBytes (bufferedGpt heap file) := by
    rw [hbuf, entriesBytes_modifyHeader]
  refine .guard (fun _ _ => trivial) fun _ => .guard (fun _ _ => trivial) fun haccepted => ?_
  replace haccepted : ¬ GptRefused buf (UInt32.ofNat file.length) := haccepted
  rw [hbuf, gptRefused_modifyHeader] at haccepted
  refine ⟨gptWatch_asks.unsent rfl, fun _ _ => ⟨gptWatch_asks.unsent rfl, fun _ _ => ?_⟩⟩
  refine .guard (fun _ _ => trivial) fun hentries => ?_
  replace hentries : entriesBytes buf ≠ 0 := hentries
  rw [hsize] at hentries
  refine (collectCrc_answers (writtenLen (UInt32.ofNat file.length))).then
    fun r s' ⟨hota', hcrc⟩ => ?_
  have hwritten : s'.ota = writtenOta heap file (rtss 2) (rtss 2) := by
    have hstored : s'.ota = storeBytes (storeBytes s.ota 0
        (loadBytes buf lbaSize sizeofRtssGptHeader)) sizeofRtssGptHeader
          (loadBytes buf (2 * lbaSize) (entriesBytes buf)) := hota'
    rw [hstored, hota, hsize, hbuf, writtenOta]
  cases r with
  | none => exact fun _ => trivial
  | some crc =>
      have hissues : Issues (fun _ => False)
          (fun msg => announcedGpt msg = (writtenLen (UInt32.ofNat file.length), crc))
          (sendWords u rtssUpdMsgWriteGpt
            [(0 : UInt8).toUInt32, u.sVa, writtenLen (UInt32.ofNat file.length), crc]) :=
        .sealed u fun headerCrc => announcedGpt_sealed _ _ _ _ headerCrc
      refine hissues.keeps (P := fun s => s.ota = s'.ota) (R := fun _ => True)
        (fun _ _ ho => ho.elim) (fun o msg s hmsg hannounced hsame => ?_) rfl
      refine ⟨fun msg' hmsg' _ => ?_, fun _ _ => trivial⟩
      cases Option.mem_unique hmsg hmsg'
      rw [hsame, hwritten]
      rw [← hota', hwritten] at hcrc
      have hexact : GptExact heap file (rtss 2) := by
        refine h.resolve_left fun hunsent => ?_
        obtain hrefused | hnone | hempty := hunsent
        · exact haccepted hrefused
        · exact hentries hnone
        · rw [hempty] at hcrc
          cases hcrc
      exact hexact.writes hannounced hcrc.symm

/-- Without an OTA buffer the sequence ends before its second message. -/
theorem imageUpdateGpt_null (u : Updater) (hs : Handshake) (hnull : u.pVa = null) :
    (gptWatch heap file rtss).Keeps (fun ret _ => ret = exitSuccess → True)
      (rtssUpdaterImageUpdateGptAt heap u hs) s := by
  refine status_keeps ((exchange_receives u (by decide) (sendWords_issues u _ _) rfl).then
    fun hs s _ => ?_)
  refine Passes.then (Q := fun _ _ => True) (.lift ?_) fun _ s _ => ?_
  · exact .guard (fun _ => trivial) fun hpVa => absurd hnull hpVa
  · refine Passes.bind (exchange_passes (R := fun _ => False) ?_ fun _ => False.elim)
    refine .guard (fun _ hret => absurd hret exitFailure_ne_exitSuccess) fun hpVa => ?_
    exact absurd hnull hpVa

theorem imageUpdateGpt_writes (u : Updater) (hs : Handshake) (hpVa : u.pVa ≠ null)
    (h : file = [] ∨ GptUnsent heap file ∨ GptExact heap file (rtss 2))
    (hstart : s.receives = 0) :
    (gptWatch heap file rtss).Keeps (fun ret _ => ret = exitSuccess → True)
      (rtssUpdaterImageUpdateGptAt heap u hs) s := by
  refine status_keeps ((exchange_receives u (by decide) (sendWords_issues u _ _) hstart).then
    fun hs s ⟨hone, _⟩ => ?_)
  refine Passes.then (.lift (mset_clears _ hpVa _)) fun _ s ⟨hcleared, _⟩ => ?_
  refine (exchange_receives u (by decide) (readgpt_issues u _ _ _ _) (hcleared.trans hone)).then
    fun hs s ⟨_, hread⟩ => ?_
  refine Passes.then (.lift (getGpthdr_loads _ hpVa _)) fun (ret, gpthdr) s' ⟨hsame, hloaded⟩ => ?_
  have hota : s'.ota = rtss 2 := hsame.2.trans hread
  rw [hread] at hloaded
  refine Passes.then (Q := fun _ s => s.ota = rtss 2) (check_passes fun _ => hota)
    fun _ s hota => ?_
  refine Passes.then (Q := fun x s => s.ota = rtss 2 ∧
      x = (modifyHeader (bufferedGpt heap file) (rtss 2), file.length) ∧ file ≠ []) (.mk ?_)
    fun (gptbuf, gptbufsz) s ⟨hota, hfile, hne⟩ => ?_
  · refine (modifygpt_keeps (P := fun s => s.ota = rtss 2) gptWatch_follows (fun o s ho hota => ?_)
      heap u.gptUpdate gpthdr hota).mono fun r s ⟨hota, hresult⟩ x hx => ⟨hota, ?_⟩
    · cases o with
      | access _ | fopen _ | ftell | calloc _ | free | fread _ | fclose =>
          exact ⟨gptWatch_asks.unsent rfl, fun _ _ => hota⟩
      | _ => exact ho.elim
    · rw [(hresult x hx).1, modifyHeader_congr _ hloaded]
      exact ⟨rfl, (hresult x hx).2⟩
  · obtain ⟨rfl, rfl⟩ := Prod.mk.inj hfile
    refine Passes.then (.lift (mset_clears _ hpVa _)) fun _ s ⟨_, hcleared⟩ => ?_
    rw [hota] at hcleared
    refine Passes.then (Q := fun _ _ => True) (exchange_passes (R := fun _ => True)
      (writegpt_keeps u u.pVa rfl (h.resolve_left hne) hcleared) fun s _ =>
        ⟨gptWatch_asks.unsent rfl, fun _ _ _ => trivial⟩) fun hs s _ => ?_
    exact (exchange_receives u (by decide) (fixgpt_issues u _ _ _ _) rfl).then
      fun _ _ _ => .pure trivial

end Steps

/-! Runs in which the message is sent. The RTSS answers every message with success, and a
read returns what is left of the file. -/

/-- The response at the `k`-th wait. The first one reports a primary GPT of 16 bytes. -/
def gptResponse : Nat → Mem
  | 0 => sampleResponse rtssUpdMsgCheckGpt 0 [0, 0, 16]
  | 1 => sampleResponse rtssUpdMsgReadGpt 0 []
  | _ => sampleResponse rtssUpdMsgWriteGpt 0 []

def gptAnswers (file : List UInt8) (s : GptWatch) : (o : UpdSig.Op) → UpdSig.Res o
  | .mbWrite _ _ sz => (sz : Int)
  | .mbRead _ _ sz => ((sz : Int), gptResponse s.receives)
  | .otaLoad offset _ => fun i => s.ota (offset + i)
  | .fopen _ => true
  | .access _ => true
  | .ftell => (file.length, (0 : Int))
  | .fread count => ⟨(file.drop s.position).take count, List.length_take_le _ _⟩
  | o => (World.step o (World.sample [])).1

section Runs
variable {heap : Mem} {file : List UInt8} {rtss : Nat → Mem} {s s' : GptWatch} {u : Updater}
variable {hs : Handshake}

theorem gptAnswers_assumed (s : GptWatch) (o : UpdSig.Op) :
    (gptWatch heap file rtss).assumes s ⟨o, gptAnswers file s o⟩ := by
  cases o with
  | ftell => exact ⟨⟨fun size hsize => (Option.some.inj hsize).symm, nofun⟩, nofun⟩
  | fread count =>
      refine ⟨⟨nofun, ?_⟩, nofun⟩
      rintro _ ⟨⟩
      exact List.take_eq_take_min.trans (congrArg (List.take · _) List.length_take.symm)
  | otaLoad offset len =>
      refine ⟨⟨nofun, nofun⟩, ?_⟩
      rintro _ ⟨⟩
      have hbytes := ofFn_eq_loadBytes s.ota offset len
      exact hbytes.trans (congrArg (loadBytes s.ota offset) List.length_ofFn.symm)
  | _ => exact ⟨⟨nofun, nofun⟩, nofun⟩

theorem gptResponse_status (k : Nat) : load32 (gptResponse k) RtssUpdMsgHeader.status = 0 := by
  match k with
  | 0 | 1 | _ + 2 => exact status_sampleResponse _ _ _

theorem sendWords_answered (msgId : UInt32) (words : List UInt32) (s : GptWatch) :
    (sendWords u msgId words).run ((gptWatch heap file rtss).answered (gptAnswers file)) s =
      (exitSuccess, s) := by
  unfold sendWords sealAndSend
  obtain ⟨crc, hcrc⟩ := Option.isSome_iff_exists.mp (header_crc
    (rtssUpdMsg msgId (storeWords zeroed RtssUpdMsgHeader.body words)))
  rw [hcrc]
  rfl

theorem collectCrc_answered (file : List UInt8) (rtss : Nat → Mem) (bufLen : UInt32)
    (hlen : bufLen ≠ 0) (s : GptWatch) :
    ∃ crc, (collectCrc 0 bufLen).run ((gptWatch heap file rtss).answered (gptAnswers file)) s =
      (some crc, s) := by
  have hne : List.ofFn (fun i : Fin bufLen.toNat => s.ota (0 + i)) ≠ [] := by
    refine List.ne_nil_of_length_pos ?_
    rw [List.length_ofFn]
    exact Nat.pos_of_ne_zero fun hzero => hlen (UInt32.toNat_inj.mp hzero)
  obtain ⟨crc, hcrc⟩ := Option.isSome_iff_exists.mp (rtssUpdCalculateCrc32_isSome hne)
  refine ⟨crc, ?_⟩
  rw [← hcrc]
  rfl

theorem exchange_answered {cmd : Prog UpdSig UInt32}
    (hcmd : cmd.run ((gptWatch heap file rtss).answered (gptAnswers file)) s = (exitSuccess, s')) :
    (Sequence.exchange u hs cmd).run.run ((gptWatch heap file rtss).answered (gptAnswers file)) s =
      (some (hs.afterRead ((sizeofRtssUpdMsgHeader : Int), gptResponse s'.receives)),
        ⟨s'.receives + 1, rtss (s'.receives + 1), s'.position⟩) := by
  have hstatus : (hs.afterRead ((sizeofRtssUpdMsgHeader : Int),
      gptResponse s'.receives)).respStatus = 0 := by
    rw [afterRead_respStatus, if_pos rfl]
    exact gptResponse_status _
  have hwait : (rtssUpdaterCbkNotifyHandler u hs).run
      ((gptWatch heap file rtss).answered (gptAnswers file)) s' =
        (hs.afterRead ((sizeofRtssUpdMsgHeader : Int), gptResponse s'.receives),
          ⟨s'.receives + 1, rtss (s'.receives + 1), s'.position⟩) := by
    rw [handler_eq]
    rfl
  rw [Sequence.exchange_run, Prog.run_bind, hcmd, if_pos rfl, Sequence.response_run,
    Prog.run_bind, hwait, if_neg (not_not.mpr hstatus), Prog.run_ret]

theorem readgpt_answered (hpVa : u.pVa ≠ null) {bufLen : UInt32} (hlen : bufLen ≠ 0)
    (s : GptWatch) :
    (rtssUpdaterReadgpt u 0 u.sVa bufLen u.pVa).run
      ((gptWatch heap file rtss).answered (gptAnswers file)) s = (exitSuccess, s) := by
  obtain ⟨crc, hcrc⟩ := collectCrc_answered file rtss bufLen hlen s
  rw [rtssUpdaterReadgpt, if_neg hpVa, Prog.run_bind, hcrc]
  exact sendWords_answered _ _ s

theorem mset_answered (hpVa : u.pVa ≠ null) (len : UInt32) (s : GptWatch) :
    (Sequence.lift (rtssUpdaterMset u.pVa len)).run.run
      ((gptWatch heap file rtss).answered (gptAnswers file)) s =
        (some (), { s with ota := storeBytes s.ota 0 (List.replicate len.toNat 0) }) := by
  rw [rtssUpdaterMset, if_neg hpVa]
  rfl

theorem getGpthdr_answered (file : List UInt8) (rtss : Nat → Mem) (hpVa : u.pVa ≠ null)
    (gpthdr : Mem) (s : GptWatch) :
    ∃ gpthdr', (Sequence.lift (rtssUpdaterGetGpthdr u.pVa gpthdr)).run.run
      ((gptWatch heap file rtss).answered (gptAnswers file)) s =
        (some (exitSuccess, gpthdr'), s) := by
  rw [rtssUpdaterGetGpthdr, if_neg hpVa]
  exact ⟨_, rfl⟩

theorem readGptFile_answered (hne : file ≠ []) (fuel : Nat) (s : GptWatch) :
    (readGptFile file.length (fuel + 1) 0 heap).run
      ((gptWatch heap file rtss).answered (gptAnswers file)) { s with position := 0 } =
        (some (bufferedGpt heap file), { s with position := file.length }) := by
  have hlen : file.length ≠ 0 := fun hnil => hne (List.length_eq_zero_iff.mp hnil)
  have hall : (file.drop 0).take file.length = file := List.take_length
  change Prog.run _ (if ((file.drop 0).take file.length).length = 0 then .ret none
    else if ((file.drop 0).take file.length).length < file.length then
      readGptFile file.length fuel _ _
    else .ret (some (storeBytes heap 0 ((file.drop 0).take file.length))))
      { s with position := 0 + ((file.drop 0).take file.length).length } = _
  rw [hall, if_neg hlen, if_neg (Nat.lt_irrefl _), Nat.zero_add]
  rfl

theorem modifygpt_answered (hne : file ≠ []) (gfile : CString) (gptHdr : Mem) (s : GptWatch) :
    (OptionT.mk (rtssUpdaterModifygptAt heap gfile gptHdr)).run.run
      ((gptWatch heap file rtss).answered (gptAnswers file)) s =
        (some (modifyHeader (bufferedGpt heap file) gptHdr, file.length),
          { s with position := file.length }) := by
  change Prog.run _ (readGptFile file.length (file.length + 1) 0 heap >>= _)
    { s with position := 0 } = _
  rw [Prog.run_bind, readGptFile_answered hne]
  rfl

theorem exchange_allowed {cmd : Prog UpdSig UInt32} (h : (gptWatch heap file rtss).Allowed s
      (eventTrace ((gptWatch heap file rtss).answered (gptAnswers file))
        (Sequence.exchange u hs cmd).run s)) :
    (gptWatch heap file rtss).Allowed s
      (eventTrace ((gptWatch heap file rtss).answered (gptAnswers file)) cmd s) := by
  rw [Sequence.exchange_run] at h
  exact Allowed.first h

theorem sendWords_allowed (words : List UInt32)
    (h : (gptWatch heap file rtss).Allowed s
      (eventTrace ((gptWatch heap file rtss).answered (gptAnswers file))
        (sendWords u rtssUpdMsgWriteGpt words) s)) :
    ∃ headerCrc, WritesGpt heap file (rtss 2) s.ota
      (store32 (rtssUpdMsg rtssUpdMsgWriteGpt (storeWords zeroed RtssUpdMsgHeader.body words))
        RtssUpdMsgHeader.headerCrc headerCrc) := by
  obtain ⟨headerCrc, hcrc⟩ := Option.isSome_iff_exists.mp (header_crc
    (rtssUpdMsg rtssUpdMsgWriteGpt (storeWords zeroed RtssUpdMsgHeader.body words)))
  unfold sendWords sealAndSend at h
  rw [hcrc] at h
  exact ⟨headerCrc, (allowed_cons.mp h).1 _ rfl (ofKind_sealed _ _ headerCrc)⟩

/-- If everything is allowed, then the message that is sent is right. -/
theorem writegpt_allowed (hpVa : u.pVa ≠ null) (hsent : ¬ GptUnsent heap file) {gptHdr buf : Mem}
    (hbuf : buf = modifyHeader (bufferedGpt heap file) gptHdr)
    (hota : s.ota = storeBytes (rtss 2) 0
      (List.replicate (UInt32.ofNat file.length).toNat 0))
    (h : (gptWatch heap file rtss).Allowed s
      (eventTrace ((gptWatch heap file rtss).answered (gptAnswers file))
        (rtssUpdaterWritegpt u 0 (some buf) u.sVa (UInt32.ofNat file.length) 0 u.pVa) s)) :
    ∃ msg, (announcedGpt msg).1 = writtenLen (UInt32.ofNat file.length) ∧
      WritesGpt heap file (rtss 2) (writtenOta heap file gptHdr (rtss 2)) msg := by
  obtain ⟨haccepted, hrest⟩ := not_or.mp hsent
  obtain ⟨hentries, hlen⟩ := not_or.mp hrest
  have hsize : entriesBytes buf = entriesBytes (bufferedGpt heap file) := by
    rw [hbuf, entriesBytes_modifyHeader]
  rw [← gptRefused_modifyHeader _ gptHdr, ← hbuf] at haccepted
  rw [← hsize] at hentries
  replace h := Allowed.guard (fun hnull => hpVa hnull) h
  replace h := Allowed.guard (fun hrefused => haccepted hrefused) h
  replace h := (allowed_cons.mp (allowed_cons.mp h).2).2
  replace h := Allowed.guard (fun hnone => hentries hnone) h
  obtain ⟨crc, hcrc⟩ := collectCrc_answered file rtss _ hlen
    ⟨s.receives, storeBytes (storeBytes s.ota 0 (loadBytes buf lbaSize sizeofRtssGptHeader))
      sizeofRtssGptHeader (loadBytes buf (2 * lbaSize) (entriesBytes buf)), s.position⟩
  replace h := Allowed.bind hcrc h
  obtain ⟨headerCrc, hright⟩ := sendWords_allowed
    [(0 : UInt8).toUInt32, u.sVa, writtenLen (UInt32.ofNat file.length), crc] h
  rw [hota, hsize, hbuf] at hright
  have hannounced := announcedGpt_sealed (0 : UInt8).toUInt32 u.sVa
    (writtenLen (UInt32.ofNat file.length)) crc headerCrc
  exact ⟨_, congrArg Prod.fst hannounced, hright⟩

theorem imageUpdateGpt_exact (hpVa : u.pVa ≠ null) (hne : file ≠ [])
    (hsent : ¬ GptUnsent heap file)
    (h : (gptWatch heap file rtss).Allowed (.start rtss)
      (eventTrace ((gptWatch heap file rtss).answered (gptAnswers file))
        (rtssUpdaterImageUpdateGptAt heap u hs) (.start rtss))) : GptExact heap file (rtss 2) := by
  have hsize : (hs.afterRead ((sizeofRtssUpdMsgHeader : Int), gptResponse 0)).chkGptPrimSize =
      16 := by
    have hverified : VerifiedAs rtssUpdMsgCheckGpt
        ((sizeofRtssUpdMsgHeader : Int), gptResponse 0) := verifiedAs_sampleResponse _ _ _
    rw [afterRead_gpt, if_pos hverified]
    decide +kernel
  have hlen : rtssUpdaterAlignnum 1 16
      (hs.afterRead ((sizeofRtssUpdMsgHeader : Int), gptResponse 0)).chkGptPrimSize ≠ 0 := by
    rw [hsize]
    decide
  replace h := Allowed.first h
  replace h := Allowed.next (exchange_answered (sendWords_answered _ _ _)) h
  replace h := Allowed.next (mset_answered hpVa _ _) h
  replace h := Allowed.next (exchange_answered (readgpt_answered hpVa hlen _)) h
  obtain ⟨gpthdr, hgpthdr⟩ := getGpthdr_answered file rtss hpVa _ _
  replace h := Allowed.next hgpthdr h
  replace h := Allowed.next (p := Sequence.check exitSuccess) rfl h
  replace h := Allowed.next (modifygpt_answered hne _ _ _) h
  replace h := Allowed.next (mset_answered hpVa _ _) h
  obtain ⟨msg, hannounced, hright⟩ := writegpt_allowed hpVa hsent rfl rfl
    (exchange_allowed (Allowed.first h))
  exact hright.exact hannounced

end Runs

/-- What is written is right in every run if and only if the file can be written exactly or
is not sent, as one that is empty. -/
theorem gpt_written_iff (heap : Mem) (u : Updater) (hs : Handshake) (file : List UInt8)
    (rtss : Nat → Mem) :
    (∀ t q, Runs (rtssUpdaterImageUpdateGptAt heap u hs) t q →
      (gptWatch heap file rtss).Assumed (.start rtss) t →
        (gptWatch heap file rtss).Allowed (.start rtss) t) ↔
      u.pVa = null ∨ file = [] ∨ GptUnsent heap file ∨ GptExact heap file (rtss 2) := by
  constructor
  · intro hright
    refine or_iff_not_imp_left.mpr fun hpVa => or_iff_not_imp_left.mpr fun hne =>
      or_iff_not_imp_left.mpr fun hsent => ?_
    exact imageUpdateGpt_exact hpVa hne hsent (hright _ _ (runs_eventTrace _ _ _)
      (assumed_answered gptAnswers_assumed _ _))
  · intro h t q hruns hassumed
    refine (Keeps.runs hruns (Q := fun ret _ => ret = exitSuccess → True) ?_ hassumed).1
    by_cases hpVa : u.pVa = null
    · exact imageUpdateGpt_null u hs hpVa
    · exact imageUpdateGpt_writes u hs hpVa (h.resolve_left hpVa) rfl

theorem sampleGpt_ne_nil (n : Nat) : sampleGpt n ≠ [] := by
  refine List.ne_nil_of_length_pos ?_
  rw [length_sampleGpt]
  exact Nat.lt_of_lt_of_le (by decide) (Nat.le_add_right _ n)

/-- A word that is inside of the file does not depend on the heap. -/
theorem load32_bufferedGpt (heap : Mem) {file : List UInt8} {a : Nat} (h : a + 4 ≤ file.length) :
    load32 (bufferedGpt heap file) a = load32 (structOf file) a := by
  rw [load32, load32, loadBytes_bufferedGpt h, loadBytes_structOf h]

theorem entriesBytes_sampleGpt (heap : Mem) (n : Nat) :
    entriesBytes (bufferedGpt heap (sampleGpt n)) = 128 := by
  have hnumber := load32_structOf (List.replicate (lbaSize + RtssGptHeader.headerSize) 0 ++
    (le32 92 ++ List.replicate 64 0)) (le32 128 ++ le32 0 ++ List.replicate n 0) 1
  have hsize := load32_structOf (List.replicate (lbaSize + RtssGptHeader.headerSize) 0 ++
    (le32 92 ++ (List.replicate 64 0 ++ le32 1))) (le32 0 ++ List.replicate n 0) 128
  simp only [List.length_append, List.length_replicate, le32_length, List.append_assoc]
    at hnumber hsize
  have hnumberAt : lbaSize + RtssGptHeader.numberOfPartitionEntries =
      lbaSize + RtssGptHeader.headerSize + (4 + 64) := rfl
  have hsizeAt : lbaSize + RtssGptHeader.sizeOfPartitionEntry =
      lbaSize + RtssGptHeader.headerSize + (4 + (64 + 4)) := rfl
  have hinside : ∀ a, a + 4 ≤ lbaSize + sizeofRtssGptHeader → a + 4 ≤ (sampleGpt n).length :=
    fun a ha => by
      rw [length_sampleGpt]
      exact Nat.le_trans ha (Nat.le_add_right _ n)
  rw [entriesBytes, load32_bufferedGpt heap (hinside _ (by decide)),
    load32_bufferedGpt heap (hinside _ (by decide))]
  simp only [sampleGpt, List.append_assoc]
  rw [hnumberAt, hsizeAt, hnumber, hsize]
  rfl

/-- Zeros up to the end of the allocation for the sample with its entry. -/
def sampleHeap : Mem := fun p => if p < 8384 then 0 else 165

/-- With its entry, the file is written as it is. -/
theorem gpt_written_sample :
    let w := gptWatch sampleHeap (sampleGpt 4136) fun _ => zeroed
    w.Allowed (.start fun _ => zeroed) (eventTrace (w.answered (gptAnswers (sampleGpt 4136)))
      (rtssUpdaterImageUpdateGptAt sampleHeap .sample .zero) (.start fun _ => zeroed)) := by
  refine (gpt_written_iff sampleHeap .sample .zero (sampleGpt 4136) fun _ => zeroed).mpr ?_ _ _
    (runs_eventTrace _ _ _) (assumed_answered gptAnswers_assumed _ _)
  refine Or.inr (Or.inr (Or.inr ⟨?_, ?_, fun _ _ _ _ => rfl⟩))
  · rw [entriesBytes_sampleGpt, length_sampleGpt]
    decide
  · rw [entriesBytes_sampleGpt, length_sampleGpt]
    decide

/-- Without its entry, the file is written nevertheless. -/
theorem truncated_gpt_written :
    ¬ ∀ t q, Runs (rtssUpdaterImageUpdateGpt .sample .zero) t q →
      (gptWatch zeroed (sampleGpt 36) fun _ => zeroed).Assumed (.start fun _ => zeroed) t →
        (gptWatch zeroed (sampleGpt 36) fun _ => zeroed).Allowed (.start fun _ => zeroed) t := by
  intro h
  have hsent : ¬ GptUnsent zeroed (sampleGpt 36) := by
    have hsize := @load32_bufferedGpt zeroed (sampleGpt 36)
      (lbaSize + RtssGptHeader.headerSize) (by rw [length_sampleGpt]; decide)
    rw [GptUnsent, GptRefused, entriesBytes_sampleGpt, hsize, headerSize_sampleGpt,
      length_sampleGpt]
    decide
  have hexact : GptExact zeroed (sampleGpt 36) zeroed := imageUpdateGpt_exact (by decide)
    (sampleGpt_ne_nil 36) hsent
    (h _ _ (runs_eventTrace _ _ _) (assumed_answered gptAnswers_assumed _ _))
  have hentries := hexact.entries
  rw [entriesBytes_sampleGpt, length_sampleGpt] at hentries
  exact absurd hentries (by decide)

end RtssMailbox
