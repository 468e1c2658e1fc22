import RtssMailbox.ChannelOpen
import RtssMailbox.Library.Iteration
import RtssMailbox.RingQueue

/-!
The channel calls in bytes. The middleware takes and reports sizes in bytes, the ring
counts items: what a write is refused for, what it takes, what a read delivers and what
the state of the channel reports are one count while the peer leaves the mailbox alone.
-/
namespace RtssMailbox
open Effects ByteMemory Iteration

/-- `struct rtss_mb_chan_info`. -/
structure RtssMbChanInfo where
  isz : Int
  tsz : Int
  icnt : Int
  evcnt : Int

/-- The caller's `info` is filled in on success only. -/
def rtssMbGetChanStat (handle : Option RtssMbHandle) (info : Option RtssMbChanInfo) :
    Prog DevSig (Int × Option RtssMbChanInfo) := do
  let some handle := handle | return (-einval, info)
  let some info := info | return (-einval, none)
  if handle.fd < 0 then
    return (-ebadf, some info)
  if handle.subchanItemSize = 0 then
    return (-ebadf, some info)
  let nRet ← Dev.validate handle.pMbBaseAddr
  if nRet ≠ rtssMbReturnSuccess then
    return (-eio, some info)
  let (nRet, chanInfo) ← Dev.getChanInfo handle.pMbBaseAddr handle.subregionIndex
    ⟨[], 0, 0, 0, 0, 0, 0, 0, 0⟩
  let some chanInfo := chanInfo | return (-eio, some info)
  if nRet ≠ rtssMbReturnSuccess then
    return (-eio, some info)
  let nItemCnt ← if handle.mode = rtssMbModeTx then
      Dev.getFreeItemNum handle.pMbBaseAddr handle.subregionIndex
    else
      Dev.getValidItemNum handle.pMbBaseAddr handle.subregionIndex
  if nItemCnt < 0 then
    return (-eio, some info)
  return (rtssMbReturnSuccess, some {
    isz := int32 handle.subchanItemSize.toNat
    tsz := int32 (chanInfo.maxItemNum.toNat * handle.subchanItemSize.toNat)
    icnt := int32 (nItemCnt.toNat * handle.subchanItemSize.toNat)
    evcnt := 0 })

section Runs
variable (env : SysEnv) (mb : Nat) (index itemNum : UInt32) (m : Mem)

@[simp] theorem run_getValidItemNum :
    (Dev.getValidItemNum mb index).run (devHandler env) m =
      (libMBGetValidItemNum mb index).run memHandler m :=
  (Prog.run_perform (devHandler env) (.lib (.getValidItemNum mb index)) m).trans rfl

@[simp] theorem run_read (dest : Mem) :
    (Dev.read mb dest itemNum index).run (devHandler env) m =
      (libMBRead mb (some dest) itemNum index).run memHandler m :=
  (Prog.run_perform (devHandler env) (.lib (.read mb dest itemNum index)) m).trans rfl

end Runs

/-- A handle that is open on a channel and knows the size of its items. -/
structure OpenOn (h : RtssMbHandle) (ch : Channel) : Prop where
  opened : 0 ≤ h.fd
  mapped : h.pMbBaseAddr = ch.mb
  index : h.subregionIndex = ch.index
  size : h.subchanItemSize = ch.size

/-- The number of items that the state of the channel is about: the free ones for a
channel that is written, else the unread ones. -/
def countFor (h : RtssMbHandle) (ch : Channel) (m : Mem) : Nat :=
  if h.mode = rtssMbModeTx then ch.num.toNat - 1 - ch.len m else ch.len m

/-- `rtss_mb_get_chan_stat` succeeds, changes nothing and reports this `icnt`. -/
def Reports (env : SysEnv) (h : RtssMbHandle) (m : Mem) (icnt : Int) : Prop :=
  ∀ info, ∃ stat, (rtssMbGetChanStat (some h) (some info)).run (devHandler env) m =
    ((rtssMbReturnSuccess, some stat), m) ∧ stat.icnt = icnt

section Calls
variable {ch : Channel} {h : RtssMbHandle} {m : Mem}

theorem Channel.Consistent.represents (hm : ch.Consistent m) :
    Represents ch m ⟨ch.items m, by
      have hlt := hm.len_lt
      rw [Channel.items_length]
      omega⟩ :=
  ⟨hm, rfl⟩

theorem Channel.Consistent.run_libMBValidate (hm : ch.Consistent m) :
    (libMBValidate ch.mb).run memHandler m = (mbESuccess, m) := by
  simp [libMBValidate, ch.mb_ne_null, hm.magic]

theorem Channel.Consistent.run_libMBGetChanInfo (hm : ch.Consistent m) (hu : ch.Usable)
    (chaninfo : MbChanDesc) :
    ∃ desc : MbChanDesc, (libMBGetChanInfo ch.mb ch.index (some chaninfo)).run memHandler m =
      ((mbESuccess, some desc), m) ∧ desc.maxItemNum = ch.num := by
  simp only [libMBGetChanInfo, ne_eq, ch.mb_ne_null, not_false_eq_true, if_true, run_onSubRegion,
    hm.subRegionAt_eq, if_pos hu, Prog.run_bind, run_getReg, run_getBytes, Prog.pure_eq,
    Prog.run_ret]
  exact ⟨_, rfl, hm.num⟩

theorem countFor_lt (hm : ch.Consistent m) : countFor h ch m < ch.num.toNat := by
  have hlt := hm.len_lt
  rw [countFor]
  split <;> omega

theorem bytes_lt {k n : Nat} (hk : k < n) (size : Nat) (hbytes : n * size < 2147483648) :
    k * size < 2147483648 :=
  Nat.lt_of_le_of_lt (Nat.mul_le_mul_right size (Nat.le_of_lt hk)) hbytes

/-- The whole report: a byte count of the ring fits into an `int`. -/
theorem run_rtssMbGetChanStat (env : SysEnv) (hu : ch.Usable)
    (hbytes : ch.num.toNat * ch.size.toNat < 2147483648) (hopen : OpenOn h ch)
    (hm : ch.Consistent m) (info : RtssMbChanInfo) :
    (rtssMbGetChanStat (some h) (some info)).run (devHandler env) m =
      ((rtssMbReturnSuccess, some ⟨ch.size.toNat, (ch.num.toNat * ch.size.toNat : Nat),
        (countFor h ch m * ch.size.toNat : Nat), 0⟩), m) := by
  obtain ⟨desc, hinfo, hnum⟩ := hm.run_libMBGetChanInfo hu ⟨[], 0, 0, 0, 0, 0, 0, 0, 0⟩
  have hfd : ¬ h.fd < 0 := Int.not_lt.mpr hopen.opened
  have hsuccess : mbESuccess = rtssMbReturnSuccess := rfl
  have hisz : int32 ch.size.toNat = ch.size.toNat :=
    int32_of_lt _ (Nat.lt_of_le_of_lt (Nat.le_mul_of_pos_left _ ch.num_pos) hbytes)
  have htsz : int32 (ch.num.toNat * ch.size.toNat) = _ := int32_of_lt _ hbytes
  have hicnt : int32 (countFor h ch m * ch.size.toNat) = _ :=
    int32_of_lt _ (bytes_lt (countFor_lt hm) _ hbytes)
  simp only [rtssMbGetChanStat, hfd, hopen.size, Channel.size_ne_zero, hopen.mapped,
    hopen.index, if_false, Prog.run_bind, run_validate, hm.run_libMBValidate, hsuccess, ne_eq,
    not_true_eq_false, run_getChanInfo, hinfo, hnum, hisz, htsz]
  rw [countFor] at hicnt ⊢
  by_cases htx : h.mode = rtssMbModeTx
  · have hnonneg : ¬ ((ch.num.toNat - 1 - ch.len m : Nat) : Int) < 0 := by omega
    simp only [if_pos htx] at hicnt ⊢
    simp only [Prog.run_bind, run_getFreeItemNum, hm.run_libMBGetFreeItemNum hu, hnonneg,
      if_false, Int.toNat_natCast, hicnt, Prog.pure_eq, Prog.run_ret]
  · have hnonneg : ¬ (ch.len m : Int) < 0 := by omega
    simp only [if_neg htx] at hicnt ⊢
    simp only [Prog.run_bind, run_getValidItemNum, hm.run_libMBGetValidItemNum hu, hnonneg,
      if_false, Int.toNat_natCast, hicnt, Prog.pure_eq, Prog.run_ret]

theorem reports_count (env : SysEnv) (hu : ch.Usable)
    (hbytes : ch.num.toNat * ch.size.toNat < 2147483648) (hopen : OpenOn h ch)
    (hm : ch.Consistent m) :
    Reports env h m (countFor h ch m * ch.size.toNat : Nat) := fun info =>
  ⟨_, run_rtssMbGetChanStat env hu hbytes hopen hm info, rfl⟩

/-! A write, by the room that there is. -/

theorem OpenOn.base_eq (hopen : OpenOn h ch) (hm : ch.Consistent m) : h.base m = ch.base := by
  rw [RtssMbHandle.base, hopen.mapped, hopen.index, hm.start]

theorem OpenOn.admitted (hopen : OpenOn h ch) (htx : h.mode = rtssMbModeTx)
    (hm : ch.Consistent m) (hu : ch.Usable) {sz : Nat} (hsz : 0 < sz)
    (hroom : sz ≤ (ch.num.toNat - 1 - ch.len m) * ch.size.toNat) : WriteAdmitted h m sz where
  size_pos := hsz
  opened := hopen.opened
  item_pos := hopen.size ▸ Channel.size_ne_zero
  tx := htx
  mapped := hopen.mapped ▸ ch.mb_ne_null
  located := by
    rw [hopen.base_eq hm, hopen.mapped, hopen.index, hm.subRegionAt_eq, if_pos hu]
  room := by
    rw [hopen.base_eq hm, hopen.size, hm.freeItem_toNat]
    exact hroom

theorem run_rtssMbWriteBatch_full (env : SysEnv) (hu : ch.Usable) (hopen : OpenOn h ch)
    (htx : h.mode = rtssMbModeTx) (hm : ch.Consistent m) (buf : Mem) {sz : Nat}
    (hfull : (ch.num.toNat - 1 - ch.len m) * ch.size.toNat < sz) :
    (rtssMbWriteBatch (some h) (some buf) sz).run (devHandler env) m = (-enobufs, m) := by
  have hsz : sz ≠ 0 := by omega
  have hfd : ¬ h.fd < 0 := Int.not_lt.mpr hopen.opened
  have hnonneg : ¬ ((ch.num.toNat - 1 - ch.len m : Nat) : Int) < 0 := by omega
  have hsuccess : mbESuccess = rtssMbReturnSuccess := rfl
  simp only [rtssMbWriteBatch, hsz, hfd, hopen.size, Channel.size_ne_zero, htx, hopen.mapped,
    hopen.index, ne_eq, not_true_eq_false, if_false, Prog.run_bind, run_validate,
    hm.run_libMBValidate, hsuccess, run_getFreeItemNum, hm.run_libMBGetFreeItemNum hu, hnonneg,
    Int.toNat_natCast, hfull, if_true, Prog.pure_eq, Prog.run_ret]

/-- A write that has room, by the memory after it. -/
theorem run_rtssMbWriteBatch_room (env : SysEnv) (hu : ch.Usable)
    (hbytes : ch.num.toNat * ch.size.toNat < 2147483648) (hopen : OpenOn h ch)
    (htx : h.mode = rtssMbModeTx) (hm : ch.Consistent m) (buf : Mem) {sz : Nat} (hsz : 0 < sz)
    (hroom : sz ≤ (ch.num.toNat - 1 - ch.len m) * ch.size.toNat) :
    ∃ k : UInt32, k.toNat = sz / ch.size.toNat ∧ ch.len m + k.toNat < ch.num.toNat ∧
      (rtssMbWriteBatch (some h) (some buf) sz).run (devHandler env) m =
        (((k.toNat * ch.size.toNat : Nat) : Int), ch.written m buf k) := by
  have hlt := hm.len_lt
  have hnum : ch.num.toNat ≤ 1048576 := UInt32.le_iff_toNat_le.mp hu.1
  have hdiv : sz / ch.size.toNat ≤ ch.num.toNat - 1 - ch.len m :=
    Nat.div_le_of_le_mul (Nat.mul_comm _ _ ▸ hroom)
  have hitems : (h.itemsOf sz).toNat = sz / ch.size.toNat := by
    rw [RtssMbHandle.itemsOf, hopen.size, UInt32.toNat_ofNat']
    exact Nat.mod_eq_of_lt (by omega)
  refine ⟨h.itemsOf sz, hitems, by omega, ?_⟩
  rw [run_rtssMbWriteBatch_admitted env h buf m sz (hopen.admitted htx hm hu hsz hroom),
    hopen.base_eq hm, hm.run_libMBWriteItem, hopen.size, hitems,
    int32_of_lt _ (bytes_lt (by omega) _ hbytes)]

/-! A read of a ring that has items. -/

theorem run_read_start (env : SysEnv) (hu : ch.Usable) (hopen : OpenOn h ch)
    (hrx : h.mode = rtssMbModeRx) (hm : ch.Consistent m) (buf : Mem) {sz : Nat}
    (hsz : ch.size.toNat ≤ sz) {ms : Int} (hms : -1 ≤ ms) :
    (rtssMbReadTimed (some h) (some buf) sz ms .start).run (devHandler env) m =
      (.inl (.test (ch.len m)), m) := by
  have hpos := ch.size_pos
  have hzero : sz ≠ 0 := by omega
  have hfd : ¬ h.fd < 0 := Int.not_lt.mpr hopen.opened
  have hnonneg : ¬ (ch.len m : Int) < 0 := by omega
  simp only [rtssMbReadTimed, hzero, Int.not_lt.mpr hms, hfd, hrx, hopen.size,
    Channel.size_ne_zero, Nat.not_lt.mpr hsz, hopen.mapped, hopen.index, ne_eq,
    not_true_eq_false, if_false, Prog.run_bind, run_getValidItemNum,
    hm.run_libMBGetValidItemNum hu, hnonneg, Prog.pure_eq, Prog.run_ret]

/-- The number of items that a read asks for: all, or as many as the buffer holds. -/
theorem itemNum_toNat {len size : Nat} (sz : Nat) (hsize : 0 < size) (hlen : len < 2 ^ 32) :
    (if len * size > sz then UInt32.ofNat (sz / size) else UInt32.ofNat len).toNat =
      min len (sz / size) := by
  by_cases hmany : len * size > sz
  · have hdiv : sz / size < len := Nat.div_lt_of_lt_mul (Nat.mul_comm _ _ ▸ hmany)
    rw [if_pos hmany, UInt32.toNat_ofNat', Nat.mod_eq_of_lt (by omega)]
    omega
  · have hdiv : len ≤ sz / size := (Nat.le_div_iff_mul_le hsize).mpr (by omega)
    rw [if_neg hmany, UInt32.toNat_ofNat', Nat.mod_eq_of_lt hlen]
    omega

theorem run_read_test (env : SysEnv) (hu : ch.Usable)
    (hbytes : ch.num.toNat * ch.size.toNat < 2147483648) (hopen : OpenOn h ch)
    (hm : ch.Consistent m) (buf : Mem) (sz : Nat) (ms : Int) (hvalid : 0 < ch.len m) :
    ∃ m', (rtssMbReadTimed (some h) (some buf) sz ms (.test (ch.len m))).run (devHandler env) m =
        (.inr (((min (ch.len m) (sz / ch.size.toNat) * ch.size.toNat : Nat) : Int),
          some (storeBytes buf 0
            ((ch.items m).take (min (ch.len m) (sz / ch.size.toNat))).flatten)), m') ∧
      ch.Consistent m' ∧
      ch.items m' = (ch.items m).drop (min (ch.len m) (sz / ch.size.toNat)) := by
  have hlt := hm.len_lt
  have hnum : ch.num.toNat ≤ 1048576 := UInt32.le_iff_toNat_le.mp hu.1
  have hzero : ¬ (ch.len m : Int) = 0 := by omega
  have hitem := itemNum_toNat sz ch.size_pos (show ch.len m < 2 ^ 32 by omega)
  generalize hn : (if ch.len m * ch.size.toNat > sz then UInt32.ofNat (sz / ch.size.toNat)
    else UInt32.ofNat (ch.len m)) = n at hitem
  obtain ⟨hanswer, hrep⟩ := hm.represents.run_read hu buf n
  have hanswer : ((libMBRead ch.mb (some buf) n ch.index).run memHandler m).1 =
      (((min n.toNat (ch.items m).length : Nat) : Int),
        some (storeBytes buf 0 ((ch.items m).take n.toNat).flatten)) := hanswer
  have hitems := hrep.items_eq
  have hmin : min n.toNat (ch.items m).length = n.toNat := by
    rw [Channel.items_length]
    omega
  have hnonneg : ¬ ((n.toNat : Nat) : Int) < 0 := by omega
  rw [hmin] at hanswer
  refine ⟨_, ?_, hrep.toConsistent, ?_⟩
  · simp only [rtssMbReadTimed, hzero, hopen.size, hopen.mapped, hopen.index, if_false,
      Int.toNat_natCast, hn, Prog.run_bind, run_read, hanswer, hnonneg, Prog.pure_eq,
      Prog.run_ret]
    rw [int32_of_lt _ (bytes_lt (show n.toNat < ch.num.toNat by omega) _ hbytes), hitem]
    rfl
  · rw [hitems, ← hitem]
    rfl

end Calls

/-- What a write of `sz` bytes gives, with the report before it and after it. -/
structure WriteAccounted (env : SysEnv) (h : RtssMbHandle) (ch : Channel) (m buf : Mem)
    (sz : Nat) (r : Int × Mem) (icnt : Int) : Prop where
  before : Reports env h m icnt
  refused : r = (-enobufs, m) ↔ icnt < sz
  returned : sz ≤ icnt → r.1 = (sz / ch.size.toNat * ch.size.toNat : Nat)
  consistent : ch.Consistent r.2
  appended : sz ≤ icnt →
    ch.items r.2 = ch.items m ++ bufferItems ch.size.toNat buf (sz / ch.size.toNat)
  after : sz ≤ icnt → Reports env h r.2 (icnt - r.1)

/-- What a read into `sz` bytes gives, with the report before it and after it. -/
structure ReadAccounted (env : SysEnv) (h : RtssMbHandle) (ch : Channel) (m buf : Mem)
    (sz : Nat) (r : (Int × Option Mem) × Mem) (icnt : Int) : Prop where
  before : Reports env h m icnt
  returned : r.1.1 = (min (ch.len m) (sz / ch.size.toNat) * ch.size.toNat : Nat)
  fits : r.1.1 ≤ sz
  delivered : r.1.2 = some (storeBytes buf 0
    ((ch.items m).take (min (ch.len m) (sz / ch.size.toNat))).flatten)
  consistent : ch.Consistent r.2
  removed : ch.items r.2 = (ch.items m).drop (min (ch.len m) (sz / ch.size.toNat))
  after : Reports env h r.2 (icnt - r.1.1)

section Accounts
variable {ch : Channel} {h : RtssMbHandle} {m : Mem}

theorem write_accounted (env : SysEnv) (hu : ch.Usable)
    (hbytes : ch.num.toNat * ch.size.toNat < 2147483648) (hopen : OpenOn h ch)
    (htx : h.mode = rtssMbModeTx) (hm : ch.Consistent m) (buf : Mem) {sz : Nat} (hsz : 0 < sz) :
    ∃ icnt, WriteAccounted env h ch m buf sz
      ((rtssMbWriteBatch (some h) (some buf) sz).run (devHandler env) m) icnt := by
  have hbefore := reports_count env hu hbytes hopen hm
  rw [countFor, if_pos htx] at hbefore
  refine ⟨((ch.num.toNat - 1 - ch.len m) * ch.size.toNat : Nat), ?_⟩
  by_cases hroom : sz ≤ (ch.num.toNat - 1 - ch.len m) * ch.size.toNat
  · obtain ⟨k, hk, hfit, hrun⟩ := run_rtssMbWriteBatch_room env hu hbytes hopen htx hm buf hsz hroom
    obtain ⟨hcons, -, hitems⟩ := Channel.written_spec hm hu buf k hfit
    have hlen : ch.len (ch.written m buf k) = ch.len m + k.toNat := by
      rw [← Channel.items_length, hitems, List.length_append, Channel.items_length,
        bufferItems_length]
    have hafter := reports_count env hu hbytes hopen hcons
    rw [countFor, if_pos htx, hlen, Nat.sub_add_eq, Nat.sub_mul] at hafter
    have hless : k.toNat * ch.size.toNat ≤ (ch.num.toNat - 1 - ch.len m) * ch.size.toNat :=
      Nat.mul_le_mul_right _ (by omega)
    rw [Int.natCast_sub hless] at hafter
    rw [hrun]
    refine ⟨hbefore, ⟨fun hsame => ?_, fun hless => ?_⟩, fun _ => by rw [hk], hcons,
      fun _ => by rw [hitems, hk], fun _ => hafter⟩
    · have hret : ((k.toNat * ch.size.toNat : Nat) : Int) = -105 := congrArg Prod.fst hsame
      omega
    · omega
  · have hfull : (ch.num.toNat - 1 - ch.len m) * ch.size.toNat < sz := Nat.lt_of_not_le hroom
    rw [run_rtssMbWriteBatch_full env hu hopen htx hm buf hfull]
    have hmore : ¬ (sz : Int) ≤ ((ch.num.toNat - 1 - ch.len m) * ch.size.toNat : Nat) := by omega
    exact ⟨hbefore, iff_of_true rfl (by omega), fun hle => absurd hle hmore, hm,
      fun hle => absurd hle hmore, fun hle => absurd hle hmore⟩

theorem read_accounted (env : SysEnv) (hu : ch.Usable)
    (hbytes : ch.num.toNat * ch.size.toNat < 2147483648) (hopen : OpenOn h ch)
    (hrx : h.mode = rtssMbModeRx) (hm : ch.Consistent m) (buf : Mem) {sz : Nat}
    (hsz : ch.size.toNat ≤ sz) {ms : Int} (hms : -1 ≤ ms) (hvalid : 0 < ch.len m) :
    ∃ r icnt,
      (∀ r', Completes (devHandler env) (rtssMbReadTimed (some h) (some buf) sz ms) .start m r' ↔
        r' = r) ∧ ReadAccounted env h ch m buf sz r icnt := by
  have htx : h.mode ≠ rtssMbModeTx := fun h => absurd (hrx.symm.trans h) (by decide)
  have hbefore := reports_count env hu hbytes hopen hm
  rw [countFor, if_neg htx] at hbefore
  obtain ⟨m', hrun, hcons, hitems⟩ := run_read_test env hu hbytes hopen hm buf sz ms hvalid
  have hlen : ch.len m' = ch.len m - min (ch.len m) (sz / ch.size.toNat) := by
    rw [← Channel.items_length, hitems, List.length_drop, Channel.items_length]
  have hafter := reports_count env hu hbytes hopen hcons
  rw [countFor, if_neg htx, hlen, Nat.sub_mul, Int.natCast_sub
    (Nat.mul_le_mul_right _ (Nat.min_le_left _ _))] at hafter
  have hfits : min (ch.len m) (sz / ch.size.toNat) * ch.size.toNat ≤ sz :=
    Nat.le_trans (Nat.mul_le_mul_right _ (Nat.min_le_right _ _)) (Nat.div_mul_le_self _ _)
  have hstart := run_read_start env hu hopen hrx hm buf hsz hms
  refine ⟨_, (ch.len m * ch.size.toNat : Nat),
    fun r' => (completes_again hstart).trans (completes_done hrun), ?_⟩
  exact ⟨hbefore, rfl, Int.ofNat_le.mpr hfits, rfl, hcons, hitems, hafter⟩

end Accounts

/-- A write is refused exactly for more bytes than the state of the channel reports as free
and else takes the whole items, a read delivers the oldest items that fit, and each changes
the report by what it returned. -/
theorem channel_bytes_accounted (ch : Channel) (hu : ch.Usable)
    (hbytes : ch.num.toNat * ch.size.toNat < 2147483648) (env : SysEnv) (h : RtssMbHandle)
    (hopen : OpenOn h ch) (m : Mem) (hm : ch.Consistent m) (buf : Mem) (sz : Nat)
    (hsz : 0 < sz) :
    (h.mode = rtssMbModeTx → ∃ icnt, WriteAccounted env h ch m buf sz
      ((rtssMbWriteBatch (some h) (some buf) sz).run (devHandler env) m) icnt) ∧
    (h.mode = rtssMbModeRx → ∀ ms, -1 ≤ ms → 0 < ch.len m → ch.size.toNat ≤ sz → ∃ r icnt,
      (∀ r', Completes (devHandler env) (rtssMbReadTimed (some h) (some buf) sz ms) .start m r' ↔
        r' = r) ∧ ReadAccounted env h ch m buf sz r icnt) :=
  ⟨fun htx => write_accounted env hu hbytes hopen htx hm buf hsz,
    fun hrx _ hms hvalid hfits => read_accounted env hu hbytes hopen hrx hm buf hfits hms hvalid⟩

def RtssMbHandle.sampleRxSide : RtssMbHandle := { RtssMbHandle.sampleTx with mode := rtssMbModeRx }

theorem channel_bytes_accounted_sample :
    (∃ icnt, WriteAccounted SysEnv.interruptFails RtssMbHandle.sampleTx Channel.sample
      Channel.sampleMem (fun _ => 7) 3
      ((rtssMbWriteBatch (some RtssMbHandle.sampleTx) (some fun _ => 7) 3).run
        (devHandler SysEnv.interruptFails) Channel.sampleMem) icnt) ∧
    ∃ r icnt, (∀ r', Completes (devHandler SysEnv.interruptFails)
        (rtssMbReadTimed (some RtssMbHandle.sampleRxSide) (some fun _ => 0) 3 0) .start
        (Channel.sample.written Channel.sampleMem (fun _ => 7) 2) r' ↔ r' = r) ∧
      ReadAccounted SysEnv.interruptFails RtssMbHandle.sampleRxSide Channel.sample
        (Channel.sample.written Channel.sampleMem (fun _ => 7) 2) (fun _ => 0) 3 r icnt := by
  have hwritten := Channel.written_spec Channel.sampleMem_consistent (by decide) (fun _ => 7) 2
    (by decide)
  have hvalid : 0 < Channel.sample.len
      (Channel.sample.written Channel.sampleMem (fun _ => 7) 2) := by decide
  constructor
  · exact (channel_bytes_accounted .sample (by decide) (by decide) _ .sampleTx
      ⟨by decide, rfl, rfl, rfl⟩ _ Channel.sampleMem_consistent _ 3 (by decide)).1 rfl
  · exact (channel_bytes_accounted .sample (by decide) (by decide) _ .sampleRxSide
      ⟨by decide, rfl, rfl, rfl⟩ _ hwritten.1 _ 3 (by decide)).2 rfl 0 (by decide) hvalid
        (by decide)

end RtssMailbox
