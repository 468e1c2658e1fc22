import RtssMailbox.UpdaterSteps

/-!
The check of the boot state before an update. A monitor keeps the response to the
request for boot information and the image entries that were read after it. Images may
only be flashed when all four GPT checks passed and every entry is on partition A of the
primary GPT.
-/
namespace RtssMailbox
open Effects ByteMemory Monitoring Monitor

/-- The four CRC statuses of a response with boot information are 1. -/
def GptsValid (msg : Mem) : Prop :=
  bodyWord msg 0 = 1 ∧ bodyWord msg 1 = 1 ∧ bodyWord msg 3 = 1 ∧ bodyWord msg 4 = 1

instance (msg : Mem) : Decidable (GptsValid msg) := inferInstanceAs (Decidable (_ ∧ _))

/-- The number of images that a response with boot information reports. -/
def reportedImages (msg : Mem) : Nat := (bodyWord msg 6).toNat

/-- What a monitor keeps: boot information that nobody asked for; whether the request for
it is the last message that was sent; its response; the image entries read since. -/
structure BootWatch where
  stale : Option Mem
  asked : Bool
  info : Option Mem
  table : List RtssUpdImageEntry

namespace BootWatch

def start : BootWatch := ⟨none, false, none, []⟩

def send (s : BootWatch) (msg : Mem) : BootWatch :=
  if OfKind rtssUpdMsgGetBootinfo msg then { s with asked := true, info := none, table := [] }
  else { s with asked := false }

def receive (s : BootWatch) (r : Int × Mem) : BootWatch :=
  if VerifiedAs rtssUpdMsgGetBootinfo r then
    if s.asked then { s with info := some r.2 } else { s with stale := some r.2 }
  else s

/-- The next entry of the table is read, or something else. -/
def load (s : BootWatch) (offset : Nat) (bytes : List UInt8) : BootWatch :=
  if s.asked ∧ offset = sizeofRtssUpdImageEntry * s.table.length ∧
      bytes.length = sizeofRtssUpdImageEntry then
    { s with table := s.table ++ [RtssUpdImageEntry.ofBytes fun p => bytes.getD p 0] }
  else s

def next (s : BootWatch) : Event UpdSig → BootWatch
  | ⟨.mbWrite _ msg _, _⟩ => s.send msg
  | ⟨.mbRead _ _ _, r⟩ => s.receive r
  | ⟨.otaLoad offset len, bytes⟩ => s.load offset (List.ofFn (n := len) bytes)
  | _ => s

/-- The boot state permits an update. -/
def MayFlash (s : BootWatch) : Prop :=
  ∃ msg ∈ s.info, GptsValid msg ∧ ∀ k < reportedImages msg, ∃ entry ∈ s.table[k]?,
    entry.bootPartition = 0 ∧ entry.bootGptId = 0

instance (s : BootWatch) : Decidable s.MayFlash :=
  inferInstanceAs (Decidable (∃ msg ∈ s.info, _))

/-- A complete table, below valid GPTs, that has no entry of partition B or of an unknown
partition has no entry of the invalid partition 2 or of the secondary GPT either. -/
def Unambiguous (s : BootWatch) : Prop :=
  ∀ msg ∈ s.info, GptsValid msg → s.table.length = reportedImages msg →
    (∀ entry ∈ s.table, entry.bootPartition = 0 ∨ entry.bootPartition = 2) →
      ∀ entry ∈ s.table, entry.bootPartition ≠ 2 ∧ entry.bootGptId = 0

instance (s : BootWatch) : Decidable s.Unambiguous :=
  inferInstanceAs (Decidable (∀ msg ∈ s.info, _))

/-- The wait for boot information ends with a failure or with boot information, unless
there was none with valid GPTs before. -/
def Decisive (s : BootWatch) (r : Int × Mem) : Prop :=
  (r.1 = sizeofRtssUpdMsgHeader ∧ load32 r.2 RtssUpdMsgHeader.status ≠ 0) ∨
    VerifiedAs rtssUpdMsgGetBootinfo r ∨ ∀ msg ∈ s.stale, ¬ GptsValid msg

instance (s : BootWatch) (r : Int × Mem) : Decidable (s.Decisive r) :=
  inferInstanceAs (Decidable (_ ∨ _))

end BootWatch

/-- Images are only flashed when the boot state permits it. -/
def bootWatch : Monitor UpdSig BootWatch where
  next := BootWatch.next
  allows s o := ∀ msg ∈ sentMessage o, OfKind rtssUpdMsgFlashImage msg → s.MayFlash
  assumes s e := (s.asked → ∀ r ∈ received e, s.Decisive r) ∧ (s.next e).Unambiguous

instance (s : BootWatch) (o : UpdSig.Op) : Decidable (bootWatch.allows s o) :=
  inferInstanceAs (Decidable (∀ msg ∈ sentMessage o, _))

instance (s : BootWatch) (e : Event UpdSig) : Decidable (bootWatch.assumes s e) :=
  inferInstanceAs (Decidable (_ ∧ _))

/-! What the wait for boot information and the image entries do to the handshake state. -/

def Handshake.GptsValid (hs : Handshake) : Prop :=
  hs.primGptHeaderCrcStatus = 1 ∧ hs.primGptEntryCrcStatus = 1 ∧
    hs.secGptHeaderCrcStatus = 1 ∧ hs.secGptEntryCrcStatus = 1

/-- No image entry has been counted yet. -/
def Handshake.Uncounted (hs : Handshake) : Prop := hs.bootPartitionFail = 0

theorem afterRead_uncounted {hs : Handshake} (h : hs.Uncounted) (r : Int × Mem) :
    (hs.afterRead r).Uncounted := by
  rw [Handshake.Uncounted, afterRead_field Handshake.bootPartitionFail fun _ _ _ => rfl,
    Handshake.record]
  split_ifs <;> exact h

theorem afterRead_gptsValid {hs : Handshake} {r : Int × Mem}
    (hr : ¬ VerifiedAs rtssUpdMsgGetBootinfo r) (h : (hs.afterRead r).GptsValid) :
    hs.GptsValid := by
  rw [afterRead_field Handshake.GptsValid fun _ _ _ => rfl] at h
  by_cases hverified : r.1 = sizeofRtssUpdMsgHeader ∧ CrcVerifies r.2
  · have hid : load32 r.2 RtssUpdMsgHeader.msgId ≠ rtssUpdMsgGetBootinfo :=
      fun hid => hr ⟨hverified.1, hverified.2, hid⟩
    rw [if_pos hverified, Handshake.record, if_neg hid] at h
    split_ifs at h <;> exact h
  · rwa [if_neg hverified] at h

theorem afterRead_bootinfo (hs : Handshake) {r : Int × Mem}
    (hr : VerifiedAs rtssUpdMsgGetBootinfo r) :
    ((hs.afterRead r).GptsValid → GptsValid r.2) ∧
      (hs.afterRead r).numImagesBoot.toNat = reportedImages r.2 := by
  obtain ⟨hwhole, hcrc, hid⟩ := hr
  simp only [Handshake.GptsValid, Handshake.afterRead, if_pos hwhole, if_pos hcrc,
    Handshake.record, hid]
  exact ⟨id, rfl⟩

/-- Without a count of failures at the end, none of the entries is on partition B. -/
theorem countPartitions_clean {images : List Nat} {hs hs' : Handshake}
    (h : hs' ∈ images.foldlM Handshake.countPartition hs)
    (hlen : hs.bootPartitionFail.toNat + images.length < 2 ^ 32) :
    hs.bootPartitionFail.toNat ≤ hs'.bootPartitionFail.toNat ∧
      (hs'.bootPartitionFail.toNat = hs.bootPartitionFail.toNat → ∀ k ∈ images,
        (hs.updImgEntryType k).bootPartition = 0 ∨ (hs.updImgEntryType k).bootPartition = 2) := by
  induction images generalizing hs with
  | nil =>
      cases h
      exact ⟨Nat.le_refl _, fun _ k hk => nomatch hk⟩
  | cons k images ih =>
      obtain ⟨mid, hmid, hrest⟩ := Option.bind_eq_some_iff.mp h
      rw [List.length_cons] at hlen
      simp only [Handshake.countPartition] at hmid
      split_ifs at hmid with hzero hone htwo
      · cases hmid
        obtain ⟨hle, hclean⟩ := ih hrest (by simp only; omega)
        exact ⟨hle, fun hsame => List.forall_mem_cons.mpr ⟨Or.inl hzero, hclean hsame⟩⟩
      · have hcount : (hs.bootPartitionFail + 1).toNat = hs.bootPartitionFail.toNat + 1 := by
          rw [UInt32.toNat_add]
          exact Nat.mod_eq_of_lt (by simp only [UInt32.toNat_one]; omega)
        cases hmid
        obtain ⟨hle, -⟩ := ih hrest (by simp only [hcount]; omega)
        simp only [hcount] at hle
        exact ⟨by omega, fun hsame => absurd hsame (by omega)⟩
      · cases hmid
        obtain ⟨hle, hclean⟩ := ih hrest (by simp only; omega)
        exact ⟨hle, fun hsame => List.forall_mem_cons.mpr ⟨Or.inr htwo, hclean hsame⟩⟩

theorem validateBootInfo_accepts {hs hs' : Handshake} (huncounted : hs.Uncounted)
    (h : hs' ∈ rtssUpdaterGetBlPartitionStatus hs)
    (hvalid : rtssUpdaterValidateBootInfo hs' = exitSuccess) :
    hs.GptsValid ∧ ∀ k < hs.numImagesBoot.toNat,
      (hs.updImgEntryType k).bootPartition = 0 ∨ (hs.updImgEntryType k).bootPartition = 2 := by
  have hsame := partitionStatus_sameResponses h
  rw [rtssUpdaterGetBlPartitionStatus] at h
  split at h
  · cases h
  · have hlen := hs.numImagesBoot.toNat_lt
    obtain ⟨-, hclean⟩ := countPartitions_clean h (by
      rw [huncounted, List.length_range]
      simpa using hlen)
    simp only [rtssUpdaterValidateBootInfo] at hvalid
    split_ifs at hvalid with hstatuses hfail
    · exact absurd hvalid exitFailure_ne_exitSuccess
    · refine ⟨?_, fun k hk => hclean ?_ k (List.mem_range.mpr hk)⟩
      · rw [SameResponses] at hsame
        rw [hsame] at hstatuses
        exact ⟨hstatuses.2.1, hstatuses.1, hstatuses.2.2.2, hstatuses.2.2.1⟩
      · rw [huncounted]
        have hzero : hs'.bootPartitionFail.toNat = 0 := by
          rw [gt_iff_lt, UInt32.lt_iff_toNat_lt] at hfail
          simpa using hfail
        simpa using hzero
    · exact absurd hvalid exitFailure_ne_exitSuccess
    · exact absurd hvalid exitFailure_ne_exitSuccess

/-! What the events do to the state of the monitor. -/

namespace BootWatch
variable {s : BootWatch}

theorem next_sent {o : UpdSig.Op} {msg : Mem} (ho : msg ∈ sentMessage o) (r : UpdSig.Res o) :
    s.next ⟨o, r⟩ = s.send msg := by
  cases o with
  | mbWrite _ buf _ =>
      cases ho
      rfl
  | _ => cases ho

theorem next_local {o : UpdSig.Op} (ho : IsLocal o) (h : s.asked = false) (r : UpdSig.Res o) :
    s.next ⟨o, r⟩ = s := by
  cases o with
  | mbWrite _ _ _ => exact ho.elim
  | mbRead _ _ _ => exact ho.elim
  | otaLoad offset len => exact if_neg fun hload => by simp [h] at hload
  | _ => rfl

theorem MayFlash.next_local (h : s.MayFlash) {o : UpdSig.Op} (ho : IsLocal o)
    (r : UpdSig.Res o) : (s.next ⟨o, r⟩).MayFlash := by
  cases o with
  | mbWrite _ _ _ => exact ho.elim
  | mbRead _ _ _ => exact ho.elim
  | otaLoad offset len =>
      simp only [BootWatch.next, load]
      split
      · obtain ⟨msg, hinfo, hvalid, htable⟩ := h
        refine ⟨msg, hinfo, hvalid, fun k hk => ?_⟩
        obtain ⟨entry, hentry, hclean⟩ := htable k hk
        have hlt := (List.getElem?_eq_some_iff.mp hentry).1
        exact ⟨entry, (List.getElem?_append_left hlt).trans hentry, hclean⟩
      · exact h
  | _ => exact h

theorem asks : AsksOf bootWatch rtssUpdMsgFlashImage :=
  fun _ _ ho msg hmsg hflash => absurd hflash (ho msg hmsg)

/-- Before the request for boot information, the handshake state has statuses of 1 only
from boot information that nobody asked for. -/
structure Before (hs : Handshake) (s : BootWatch) : Prop where
  asked : s.asked = false
  uncounted : hs.Uncounted
  statuses : hs.GptsValid → ∃ msg ∈ s.stale, GptsValid msg

/-- When the image entries before number `k` have been read. -/
structure Reading (hs : Handshake) (entries : Nat → RtssUpdImageEntry) (k : Nat)
    (s : BootWatch) : Prop where
  asked : s.asked = true
  unambiguous : s.Unambiguous
  statuses : hs.GptsValid →
    ∃ msg ∈ s.info, GptsValid msg ∧ hs.numImagesBoot.toNat = reportedImages msg
  length : s.table.length = k
  entries : ∀ i < k, s.table[i]? = some (entries i)

theorem before_offline (hs : Handshake) (o : UpdSig.Op) (s : BootWatch) (ho : IsLocal o)
    (h : Before hs s) :
    bootWatch.allows s o ∧
      ∀ r, bootWatch.assumes s ⟨o, r⟩ → Before hs (bootWatch.next s ⟨o, r⟩) := by
  refine ⟨asks.unsent (sentMessage_eq_none ho), fun r _ => ?_⟩
  show Before hs (s.next ⟨o, r⟩)
  rw [next_local ho h.asked]
  exact h

theorem Before.receive {hs : Handshake} (h : Before hs s) (r : Int × Mem) :
    Before (hs.afterRead r) (s.receive r) := by
  simp only [BootWatch.receive, h.asked, Bool.false_eq_true, if_false]
  split
  · rename_i hverified
    exact ⟨rfl, afterRead_uncounted h.uncounted r,
      fun hvalid => ⟨r.2, rfl, (afterRead_bootinfo _ hverified).1 hvalid⟩⟩
  · rename_i hverified
    exact ⟨h.asked, afterRead_uncounted h.uncounted r,
      fun hvalid => h.statuses (afterRead_gptsValid hverified hvalid)⟩

theorem before_steady :
    Steady bootWatch Before
      fun msgId => msgId ≠ rtssUpdMsgGetBootinfo ∧ msgId ≠ rtssUpdMsgFlashImage where
  offline := before_offline
  exchange u hs msgId cmd s hid hcmd hs' := by
    refine exchange_passes (R := Before hs) (hcmd.keeps (before_offline hs) ?_ hs') ?_
    · intro o msg s hmsg hkind h
      refine ⟨asks.other hmsg hkind hid.2, fun r _ => ?_⟩
      show Before hs (s.next ⟨o, r⟩)
      rw [next_sent hmsg, send, if_neg (hkind.other hid.1)]
      exact ⟨rfl, h.uncounted, h.statuses⟩
    · exact fun s h => ⟨asks.unsent rfl, fun r _ _ => h.receive r⟩

theorem ready_steady :
    Steady bootWatch (fun _ s => s.MayFlash) fun msgId => msgId ≠ rtssUpdMsgGetBootinfo where
  offline _ o s ho h := ⟨fun _ _ _ => h, fun r _ => h.next_local ho r⟩
  exchange u hs msgId cmd s hid hcmd hs' := by
    refine exchange_passes (R := fun s => s.asked = false ∧ s.MayFlash) (hcmd.keeps
      (fun o s ho h => ⟨fun _ _ _ => h, fun r _ => h.next_local ho r⟩) ?_ hs') ?_
    · intro o msg s hmsg hkind h
      refine ⟨fun _ _ _ => h, fun r _ => ?_⟩
      show (s.next ⟨o, r⟩).asked = false ∧ (s.next ⟨o, r⟩).MayFlash
      rw [next_sent hmsg, send, if_neg (hkind.other hid)]
      exact ⟨rfl, h⟩
    · rintro s ⟨hasked, h⟩
      refine ⟨asks.unsent rfl, fun r _ _ => ?_⟩
      show (s.receive r).MayFlash
      simp only [BootWatch.receive, hasked, Bool.false_eq_true, if_false]
      split <;> exact h

theorem bootInfo_passes (u : Updater) (numImages bufLen : UInt32) {hs : Handshake}
    {s : BootWatch} (h : Before hs s) :
    bootWatch.Passes (fun hs s => hs.Uncounted ∧ ∀ entries, Reading hs entries 0 s)
      (Sequence.exchange u hs (rtssUpdaterGetBlInfo u numImages bufLen 0 u.sVa u.pVa)) s := by
  refine exchange_passes (R := fun s => s.asked = true ∧ s.table = [] ∧
    (hs.GptsValid → ∃ msg ∈ s.stale, GptsValid msg)) (((getBlInfo_issues u _ _ _ _ _).mono
      fun _ => IsOtaLoad.isLocal).keeps (before_offline hs) ?_ h) ?_
  · intro o msg s hmsg hkind h
    refine ⟨asks.other hmsg hkind (by decide), fun r _ => ?_⟩
    show (s.next ⟨o, r⟩).asked = true ∧ (s.next ⟨o, r⟩).table = [] ∧
      (hs.GptsValid → ∃ msg ∈ (s.next ⟨o, r⟩).stale, GptsValid msg)
    rw [next_sent hmsg, send, if_pos hkind]
    exact ⟨rfl, rfl, h.statuses⟩
  · rintro s ⟨hasked, htable, hstatuses⟩
    refine ⟨asks.unsent rfl, fun r ⟨hdecisive, hunambiguous⟩ hstatus => ?_⟩
    refine ⟨afterRead_uncounted h.uncounted r, fun entries => ?_⟩
    change Reading _ entries 0 (s.receive r)
    change (s.receive r).Unambiguous at hunambiguous
    simp only [BootWatch.receive, hasked, if_true] at hunambiguous ⊢
    by_cases hverified : VerifiedAs rtssUpdMsgGetBootinfo r
    · rw [if_pos hverified] at hunambiguous ⊢
      have hinfo := afterRead_bootinfo hs hverified
      exact ⟨rfl, hunambiguous, fun hvalid => ⟨r.2, rfl, hinfo.1 hvalid, hinfo.2⟩,
        congrArg List.length htable, nofun⟩
    · rw [if_neg hverified] at hunambiguous ⊢
      refine ⟨hasked, hunambiguous, fun hvalid => ?_, congrArg List.length htable, nofun⟩
      -- The statuses are those of boot information that nobody asked for.
      obtain ⟨msg, hmsg, hgpts⟩ := hstatuses (afterRead_gptsValid hverified hvalid)
      obtain ⟨hwhole, hfailure⟩ | hinfo | hstale := hdecisive hasked r rfl
      · rw [afterRead_respStatus, if_pos hwhole] at hstatus
        exact absurd hstatus hfailure
      · exact absurd hinfo hverified
      · exact absurd hgpts (hstale msg hmsg)

theorem readEntries_keeps {hs : Handshake} (left k : Nat) (entries : Nat → RtssUpdImageEntry)
    {s : BootWatch} (h : Reading hs entries k s) :
    bootWatch.Keeps (fun entries s => Reading hs entries (k + left) s)
      (readEntries left k entries) s := by
  induction left generalizing k entries s with
  | zero => exact h
  | succ left ih =>
      refine ⟨asks.unsent rfl, fun bytes ⟨_, hunambiguous⟩ => ?_⟩
      rw [Nat.add_succ, ← Nat.succ_add]
      refine ih (k + 1) _ (s := s.next ⟨.otaLoad (sizeofRtssUpdImageEntry * k) _, bytes⟩) ?_
      have hload : s.next ⟨.otaLoad (sizeofRtssUpdImageEntry * k) sizeofRtssUpdImageEntry, bytes⟩ =
          { s with
            table := s.table ++ [RtssUpdImageEntry.ofBytes
              fun p => (List.ofFn (n := sizeofRtssUpdImageEntry) bytes).getD p 0] } := by
        refine if_pos ⟨h.asked, ?_, List.length_ofFn⟩
        rw [h.length]
      change (s.next _).Unambiguous at hunambiguous
      rw [hload] at hunambiguous ⊢
      refine ⟨h.asked, hunambiguous, h.statuses, ?_, fun i hi => ?_⟩
      · simp [h.length]
      · by_cases hik : i = k
        · subst hik
          rw [← h.length, List.getElem?_concat_length, h.length, if_pos rfl]
        · rw [if_neg hik, List.getElem?_append_left (by rw [h.length]; omega)]
          exact h.entries i (by omega)

theorem Reading.mayFlash {hs hs' : Handshake} {entries : Nat → RtssUpdImageEntry}
    {s : BootWatch} (h : Reading hs entries hs.numImagesBoot.toNat s) (huncounted : hs.Uncounted)
    (hcounted : hs' ∈ rtssUpdaterGetBlPartitionStatus { hs with updImgEntryType := entries })
    (hvalid : rtssUpdaterValidateBootInfo hs' = exitSuccess) : s.MayFlash := by
  have huncounted' : ({ hs with updImgEntryType := entries } : Handshake).Uncounted := huncounted
  obtain ⟨hgpts, hentries⟩ := validateBootInfo_accepts huncounted' hcounted hvalid
  obtain ⟨msg, hmsg, hmsgGpts, hcount⟩ := h.statuses hgpts
  have htable : ∀ entry ∈ s.table, entry.bootPartition = 0 ∨ entry.bootPartition = 2 := by
    intro entry hentry
    obtain ⟨k, hk, rfl⟩ := List.mem_iff_getElem.mp hentry
    rw [h.length] at hk
    have hread := h.entries k hk
    rw [List.getElem?_eq_some_iff] at hread
    obtain ⟨_, hread⟩ := hread
    rw [hread]
    exact hentries k hk
  have hclean := h.unambiguous msg hmsg hmsgGpts (h.length.trans hcount) htable
  refine ⟨msg, hmsg, hmsgGpts, fun k hk => ⟨entries k, h.entries k (hcount ▸ hk), ?_⟩⟩
  have hmem := List.mem_of_getElem? (h.entries k (hcount ▸ hk))
  exact ⟨(htable _ hmem).resolve_right (hclean _ hmem).1, (hclean _ hmem).2⟩

theorem checkBootInfo_passes (u : Updater) (cfg : ImgConfig) (hs : Handshake) (s : BootWatch)
    (h : Before hs s) :
    bootWatch.Passes (fun _ s => s.MayFlash) (checkBootInfo u cfg hs) s := by
  refine (before_steady.lift ((populateContext_only _ _ _).mono fun _ => IsOtaStore.isLocal)
    h).then fun ret s h => ?_
  refine Passes.then (Q := fun _ s => Before hs s) (check_passes fun _ => h) fun _ s h => ?_
  refine (bootInfo_passes u _ _ h).then fun hs s ⟨huncounted, hreading⟩ => ?_
  refine Passes.then (Q := fun x s => x.1 = exitSuccess → Reading hs x.2 hs.numImagesBoot.toNat s)
    (.lift (.guard (fun _ hret => absurd hret exitFailure_ne_exitSuccess) fun _ => ?_))
    fun (ret, entries) s h => ?_
  · refine (readEntries_keeps _ 0 _ (hreading _)).then fun entries s h _ => ?_
    rwa [Nat.zero_add] at h
  · refine Passes.then (Q := fun _ s => Reading hs entries hs.numImagesBoot.toNat s)
      (check_passes h) fun _ s h => ?_
    refine Passes.then (Q := fun hs' s => Reading hs entries hs.numImagesBoot.toNat s ∧
      hs' ∈ rtssUpdaterGetBlPartitionStatus { hs with updImgEntryType := entries })
      (ofOption_passes fun hs' hcounted => ⟨h, hcounted⟩) fun hs' s ⟨h, hcounted⟩ => ?_
    refine Passes.then (Q := fun _ s => s.MayFlash)
      (check_passes fun hvalid => h.mayFlash huncounted hcounted hvalid) fun _ s h => .pure h

end BootWatch

/-- In every run whose responses and tables meet the assumptions, images are only flashed
when the boot state permits it. -/
theorem boot_state_enforced (u : Updater) (t : List (Event UpdSig)) (q : Prog UpdSig UInt32)
    (hruns : Runs (rtssUpdaterPrebootDemosequence u .zero) t q)
    (hclear : bootWatch.Assumed .start t) : bootWatch.Allowed .start t := by
  have hstart : BootWatch.Before .zero .start :=
    ⟨rfl, rfl, fun hvalid => absurd hvalid.1 (by decide)⟩
  refine (Keeps.runs hruns (preboot_keeps BootWatch.before_steady BootWatch.ready_steady ?_
    (BootWatch.checkBootInfo_passes u _) ?_ (by decide) .zero hstart) hclear).1
  · decide
  · exact fun path imageNm hs s h =>
      BootWatch.ready_steady.flashFile u (by decide) path imageNm 1 2 hs h

theorem boot_state_enforced_sample :
    let w := World.sample (sampleBootResponses (List.replicate 52 0))
    bootWatch.Allowed .start
      (eventTrace World.step (rtssUpdaterPrebootDemosequence .sample .zero) w) :=
  boot_state_enforced .sample _ _ (runs_eventTrace World.step _ _) (by decide +kernel)

/-- An image of the secondary GPT does not stop the update. -/
theorem boot_state_not_enforced :
    ¬ ∀ t q, Runs (rtssUpdaterPrebootDemosequence .sample .zero) t q →
      bootWatch.Allowed .start t := by
  intro h
  refine absurd (h _ _ (runs_eventTrace World.step _
    (World.sample (sampleBootResponses (List.replicate 36 0 ++ [1]))))) ?_
  decide +kernel

end RtssMailbox
