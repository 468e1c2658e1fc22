import RtssMailbox.ByteAccounting
import RtssMailbox.ChannelDiscovery
import RtssMailbox.MailboxThreads

/-!
The channel API on a created mailbox, from the open of a name to the bytes of a read, beside
the owner's library calls on the same memory. Its users see a table of handles and one queue
for each sub-region; which bytes of the mailbox stand for them is in no answer.
-/
namespace RtssMailbox
open Effects ByteMemory CyclicBuffer Refinement Iteration

/-- Calls of the channel API, and of the owner on the library. A handle is given by the number
of the successful open that returned it, and a number that no open has stands for `NULL`. A
write comes with the outcome of its interrupt. -/
inductive ApiCall where
  | peer (index : UInt32) (c : RingCall)
  | open (dev : { s : List UInt8 // 0 ∉ s })
  | writeBatch (n : Nat) (buf : Mem) (sz : Nat)
  | write (n : Nat) (buf : Mem) (sz : Nat) (interrupt : SysStatus)
  | readTimed (n : Nat) (buf : Mem) (sz : Nat) (ms : Int)
  | getChanStat (n : Nat) (info : RtssMbChanInfo)
  | chanReset (n : Nat)

structure ApiAnswer where
  ret : Int
  buf : Option Mem
  stat : Option RtssMbChanInfo

/-- The ring's library call comes with no system call, so that memory is all it needs. -/
def rtssMbChanReset (handle : Option RtssMbHandle) : Prog MemSig Int := do
  let some handle := handle | return -einval
  if handle.fd < 0 then
    return -ebadf
  let nRet ← libMBValidate handle.pMbBaseAddr
  if nRet ≠ rtssMbReturnSuccess then
    return -eio
  let nRet ← libMBChanReset handle.pMbBaseAddr handle.subregionIndex
  if nRet ≠ mbESuccess then
    return -eio
  return rtssMbReturnSuccess

/-- While a read waits nobody writes: its poll ends with the timeout, and without one only
by a signal. -/
def SysEnv.quiet (env : SysEnv) (ms : Int) : SysEnv :=
  { env with poll := if ms = -1 then ⟨⟨-1, eintr⟩, false, false⟩ else ⟨⟨0, 0⟩, false, false⟩ }

/-- The memory of the mailbox, and the handles of the successful opens in their order. -/
abbrev ApiState := Mem × List RtssMbHandle

inductive ApiStep (mb : Nat) (env : SysEnv) :
    ApiCall → ApiState → ApiAnswer × ApiState → Prop
  | peer (index : UInt32) (c : RingCall) (m : Mem) (hs : List RtssMbHandle) :
      ApiStep mb env (.peer index c) (m, hs)
        (⟨(c.run mb index m).1.1, (c.run mb index m).1.2, none⟩, ((c.run mb index m).2, hs))
  | open (dev : { s : List UInt8 // 0 ∉ s }) (m m' : Mem) (hs : List RtssMbHandle) (ret : Int)
      (h : Option RtssMbHandle)
      (hrun : (rtssMbOpen false (some dev.val)).run (devHandler env) m = ((ret, h), m')) :
      ApiStep mb env (.open dev) (m, hs) (⟨ret, none, none⟩, (m', hs ++ h.toList))
  | writeBatch (n : Nat) (buf : Mem) (sz : Nat) (m m' : Mem) (hs : List RtssMbHandle) (ret : Int)
      (hrun : (rtssMbWriteBatch hs[n]? (some buf) sz).run (devHandler env) m = (ret, m')) :
      ApiStep mb env (.writeBatch n buf sz) (m, hs) (⟨ret, none, none⟩, (m', hs))
  | write (n : Nat) (buf : Mem) (sz : Nat) (interrupt : SysStatus) (m m' : Mem)
      (hs : List RtssMbHandle) (ret : Int)
      (hrun : (rtssMbWrite hs[n]? (some buf) sz).run
        (devHandler { env with sendInterrupt := interrupt }) m = (ret, m')) :
      ApiStep mb env (.write n buf sz interrupt) (m, hs) (⟨ret, none, none⟩, (m', hs))
  | readTimed (n : Nat) (buf : Mem) (sz : Nat) (ms : Int) (m m' : Mem) (hs : List RtssMbHandle)
      (ret : Int) (dest : Option Mem)
      (hrun : Completes (devHandler (env.quiet ms)) (rtssMbReadTimed hs[n]? (some buf) sz ms)
        .start m ((ret, dest), m')) :
      ApiStep mb env (.readTimed n buf sz ms) (m, hs) (⟨ret, dest, none⟩, (m', hs))
  | getChanStat (n : Nat) (info : RtssMbChanInfo) (m m' : Mem) (hs : List RtssMbHandle)
      (ret : Int) (stat : Option RtssMbChanInfo)
      (hrun : (rtssMbGetChanStat hs[n]? (some info)).run (devHandler env) m =
        ((ret, stat), m')) :
      ApiStep mb env (.getChanStat n info) (m, hs) (⟨ret, none, stat⟩, (m', hs))
  | chanReset (n : Nat) (m m' : Mem) (hs : List RtssMbHandle) (ret : Int)
      (hrun : (rtssMbChanReset hs[n]?).run memHandler m = (ret, m')) :
      ApiStep mb env (.chanReset n) (m, hs) (⟨ret, none, none⟩, (m', hs))

section Outcomes
variable {mb : Nat} {env : SysEnv} {n : Nat} {m m' : Mem} {hs : List RtssMbHandle} {ret : Int}
  {r : ApiAnswer × ApiState}

theorem apiStep_open {dev : { s : List UInt8 // 0 ∉ s }} {h : Option RtssMbHandle}
    (hrun : (rtssMbOpen false (some dev.val)).run (devHandler env) m = ((ret, h), m')) :
    ApiStep mb env (.open dev) (m, hs) r ↔ r = (⟨ret, none, none⟩, (m', hs ++ h.toList)) := by
  refine ⟨fun hr => ?_, fun hr => hr ▸ .open dev m m' hs ret h hrun⟩
  cases hr with
  | «open» _ _ _ _ _ _ hrun' =>
      cases hrun.symm.trans hrun'
      rfl

theorem apiStep_writeBatch {buf : Mem} {sz : Nat}
    (hrun : (rtssMbWriteBatch hs[n]? (some buf) sz).run (devHandler env) m = (ret, m')) :
    ApiStep mb env (.writeBatch n buf sz) (m, hs) r ↔ r = (⟨ret, none, none⟩, (m', hs)) := by
  refine ⟨fun hr => ?_, fun hr => hr ▸ .writeBatch n buf sz m m' hs ret hrun⟩
  cases hr with
  | writeBatch _ _ _ _ _ _ _ hrun' =>
      cases hrun.symm.trans hrun'
      rfl

theorem apiStep_write {buf : Mem} {sz : Nat} {interrupt : SysStatus}
    (hrun : (rtssMbWrite hs[n]? (some buf) sz).run
      (devHandler { env with sendInterrupt := interrupt }) m = (ret, m')) :
    ApiStep mb env (.write n buf sz interrupt) (m, hs) r ↔ r = (⟨ret, none, none⟩, (m', hs)) := by
  refine ⟨fun hr => ?_, fun hr => hr ▸ .write n buf sz interrupt m m' hs ret hrun⟩
  cases hr with
  | write _ _ _ _ _ _ _ _ hrun' =>
      cases hrun.symm.trans hrun'
      rfl

theorem apiStep_readTimed {buf : Mem} {sz : Nat} {ms : Int} {dest : Option Mem}
    (hrun : ∀ x, Completes (devHandler (env.quiet ms)) (rtssMbReadTimed hs[n]? (some buf) sz ms)
      .start m x ↔ x = ((ret, dest), m')) :
    ApiStep mb env (.readTimed n buf sz ms) (m, hs) r ↔ r = (⟨ret, dest, none⟩, (m', hs)) := by
  refine ⟨fun hr => ?_, fun hr => hr ▸ .readTimed n buf sz ms m m' hs ret dest
    ((hrun _).mpr rfl)⟩
  cases hr with
  | readTimed _ _ _ _ _ _ _ _ _ hrun' =>
      cases (hrun _).mp hrun'
      rfl

theorem apiStep_getChanStat {info : RtssMbChanInfo} {stat : Option RtssMbChanInfo}
    (hrun : (rtssMbGetChanStat hs[n]? (some info)).run (devHandler env) m = ((ret, stat), m')) :
    ApiStep mb env (.getChanStat n info) (m, hs) r ↔ r = (⟨ret, none, stat⟩, (m', hs)) := by
  refine ⟨fun hr => ?_, fun hr => hr ▸ .getChanStat n info m m' hs ret stat hrun⟩
  cases hr with
  | getChanStat _ _ _ _ _ _ _ hrun' =>
      cases hrun.symm.trans hrun'
      rfl

theorem apiStep_chanReset (hrun : (rtssMbChanReset hs[n]?).run memHandler m = (ret, m')) :
    ApiStep mb env (.chanReset n) (m, hs) r ↔ r = (⟨ret, none, none⟩, (m', hs)) := by
  refine ⟨fun hr => ?_, fun hr => hr ▸ .chanReset n m m' hs ret hrun⟩
  cases hr with
  | chanReset _ _ _ _ _ hrun' =>
      cases hrun.symm.trans hrun'
      rfl

end Outcomes

/-! What the calls are for. -/

section Specification
variable {room : Nat} (h : RtssMbHandle) (q : BoundedQueue (List UInt8) room)

/-- A write takes the whole items of its buffer, unless there are more bytes than room. -/
def RtssMbHandle.writeSpec (buf : Mem) (sz : Nat) : Int × BoundedQueue (List UInt8) room :=
  if sz = 0 then
    (-einval, q)
  else if h.mode ≠ rtssMbModeTx then
    (-eperm, q)
  else if (room - q.items.length) * h.subchanItemSize.toNat < sz then
    (-enobufs, q)
  else
    (((sz / h.subchanItemSize.toNat * h.subchanItemSize.toNat : Nat) : Int),
      (q.offer (bufferItems h.subchanItemSize.toNat buf (sz / h.subchanItemSize.toNat))).getD q)

/-- The oldest items that the buffer holds. -/
def RtssMbHandle.readSpec (buf : Mem) (sz : Nat) (ms : Int) :
    (Int × Mem) × BoundedQueue (List UInt8) room :=
  if sz = 0 ∨ ms < -1 then
    ((-einval, buf), q)
  else if h.mode ≠ rtssMbModeRx then
    ((-eperm, buf), q)
  else if sz < h.subchanItemSize.toNat then
    ((-emsgsize, buf), q)
  else if q.items = [] then
    ((if ms = -1 then -eintr else -etimedout, buf), q)
  else
    let k := min q.items.length (sz / h.subchanItemSize.toNat)
    ((((k * h.subchanItemSize.toNat : Nat) : Int), storeBytes buf 0 (q.oldest k).flatten),
      q.drop k)

/-- Bytes of an item, of all items, and of those that are free or unread. -/
def RtssMbHandle.statSpec : RtssMbChanInfo where
  isz := h.subchanItemSize.toNat
  tsz := ((room + 1) * h.subchanItemSize.toNat : Nat)
  icnt := ((if h.mode = rtssMbModeTx then room - q.items.length else q.items.length) *
    h.subchanItemSize.toNat : Nat)
  evcnt := 0

end Specification

/-- One library call on the ring and its queue, or none. -/
def CallOrNone (ch : Channel) (m m' : Mem)
    (q q' : BoundedQueue (List UInt8) (ch.num.toNat - 1)) : Prop :=
  m' = m ∧ q' = q ∨
    ∃ c : RingCall, m' = (c.run ch.mb ch.index m).2 ∧ q' = (c.spec ch.size.toNat q).2

theorem RingCall.run_write (mb : Nat) (index : UInt32) (m buf : Mem) (n : UInt32) :
    (RingCall.write buf n).run mb index m =
      ((((libMBWrite mb (some buf) n index).run memHandler m).1, none),
        ((libMBWrite mb (some buf) n index).run memHandler m).2) :=
  Prog.run_bind memHandler _ _ m

theorem RingCall.run_chanReset (mb : Nat) (index : UInt32) (m : Mem) :
    RingCall.chanReset.run mb index m =
      ((((libMBChanReset mb index).run memHandler m).1, none),
        ((libMBChanReset mb index).run memHandler m).2) :=
  Prog.run_bind memHandler _ _ m

namespace Represents
variable {ch : Channel} {h : RtssMbHandle} {m : Mem}
  {q : BoundedQueue (List UInt8) (ch.num.toNat - 1)}

/-- A batch write is a write of the ring, if it is one at all. -/
theorem run_rtssMbWriteBatch (hq : Represents ch m q) (env : SysEnv) (hu : ch.Usable)
    (hbytes : ch.num.toNat * ch.size.toNat < 2147483648) (hopen : OpenOn h ch) (buf : Mem)
    (sz : Nat) :
    ∃ m', (rtssMbWriteBatch (some h) (some buf) sz).run (devHandler env) m =
        ((h.writeSpec q buf sz).1, m') ∧ CallOrNone ch m m' q (h.writeSpec q buf sz).2 := by
  have hm := hq.toConsistent
  have hfd : ¬ h.fd < 0 := Int.not_lt.mpr hopen.opened
  have hlen := hq.len_eq
  have hlt := hm.len_lt
  by_cases hsz : sz = 0
  · refine ⟨m, ?_, .inl ⟨rfl, ?_⟩⟩
    · simp only [rtssMbWriteBatch, hsz, if_true, Prog.pure_eq, Prog.run_ret,
        RtssMbHandle.writeSpec]
    · simp only [RtssMbHandle.writeSpec, hsz, if_true]
  by_cases htx : h.mode = rtssMbModeTx
  · by_cases hfull : (ch.num.toNat - 1 - ch.len m) * ch.size.toNat < sz
    · have hspec : h.writeSpec q buf sz = (-enobufs, q) := by
        rw [RtssMbHandle.writeSpec, if_neg hsz, if_neg (not_not.mpr htx), ← hlen, hopen.size,
          if_pos hfull]
      rw [hspec]
      exact ⟨m, run_rtssMbWriteBatch_full env hu hopen htx hm buf hfull, .inl ⟨rfl, rfl⟩⟩
    · have hroom := Nat.le_of_not_lt hfull
      have hdiv : sz / ch.size.toNat ≤ ch.num.toNat - 1 - ch.len m :=
        Nat.div_le_of_le_mul (Nat.mul_comm _ _ ▸ hroom)
      have hnum : ch.num.toNat ≤ 1048576 := UInt32.le_iff_toNat_le.mp hu.1
      have hitems : (UInt32.ofNat (sz / ch.size.toNat)).toNat = sz / ch.size.toNat := by
        rw [UInt32.toNat_ofNat']
        exact Nat.mod_eq_of_lt (by omega)
      obtain ⟨hanswer, -⟩ := hq.run_write hu buf (UInt32.ofNat (sz / ch.size.toNat))
      have hfits : (bufferItems ch.size.toNat buf (sz / ch.size.toNat)).length ≤
          ch.num.toNat - 1 - q.items.length := by
        rw [bufferItems_length, ← hlen]
        exact hdiv
      have hspec : (RingCall.write buf (UInt32.ofNat (sz / ch.size.toNat))).spec ch.size.toNat q =
          ((((sz / ch.size.toNat : Nat) : Int), none),
            (q.offer (bufferItems ch.size.toNat buf (sz / ch.size.toNat))).getD q) := by
        simp only [RingCall.spec, hitems, BoundedQueue.offer, dif_pos hfits, Option.getD_some]
      have hwrite : h.writeSpec q buf sz =
          (((sz / ch.size.toNat * ch.size.toNat : Nat) : Int),
            (q.offer (bufferItems ch.size.toNat buf (sz / ch.size.toNat))).getD q) := by
        rw [RtssMbHandle.writeSpec, if_neg hsz, if_neg (not_not.mpr htx), ← hlen, hopen.size,
          if_neg hfull]
      rw [hspec, RingCall.run_write] at hanswer
      refine ⟨_, ?_, .inr ⟨.write buf (UInt32.ofNat (sz / ch.size.toNat)), rfl, ?_⟩⟩
      · have hret : ((libMBWrite ch.mb (some buf) (UInt32.ofNat (sz / ch.size.toNat))
            ch.index).run memHandler m).1 = (sz / ch.size.toNat : Nat) :=
          congrArg Prod.fst hanswer
        have hnonneg : ¬ ((ch.num.toNat - 1 - ch.len m : Nat) : Int) < 0 := by omega
        have hnonneg' : ¬ ((sz / ch.size.toNat : Nat) : Int) < 0 := by omega
        have hsuccess : mbESuccess = rtssMbReturnSuccess := rfl
        have hint := int32_of_lt (sz / ch.size.toNat * ch.size.toNat)
          (bytes_lt (show sz / ch.size.toNat < ch.num.toNat by omega) _ hbytes)
        simp only [rtssMbWriteBatch, hsz, hfd, hopen.size, Channel.size_ne_zero, htx,
          hopen.mapped, hopen.index, ne_eq, not_true_eq_false, if_false, Prog.run_bind,
          run_validate, hm.run_libMBValidate, hsuccess, run_getFreeItemNum,
          hm.run_libMBGetFreeItemNum hu, hnonneg, Int.toNat_natCast, hfull,
          RtssMailbox.run_write, hret, hnonneg', hint, Prog.pure_eq, Prog.run_ret, hwrite,
          RingCall.run_write]
      · rw [hspec, hwrite]
  · have hspec : h.writeSpec q buf sz = (-eperm, q) := by
      rw [RtssMbHandle.writeSpec, if_neg hsz, if_pos htx]
    rw [hspec]
    refine ⟨m, ?_, .inl ⟨rfl, rfl⟩⟩
    simp only [rtssMbWriteBatch, hsz, hfd, hopen.size, Channel.size_ne_zero, if_false, ne_eq, htx,
      not_false_eq_true, if_true, Prog.pure_eq, Prog.run_ret]

/-- Between a poll that ends with nothing and a ring that has items, a read completes. -/
theorem run_rtssMbReadTimed (hq : Represents ch m q) (env : SysEnv) (hu : ch.Usable)
    (hbytes : ch.num.toNat * ch.size.toNat < 2147483648) (hopen : OpenOn h ch) (buf : Mem)
    (sz : Nat) (ms : Int) :
    ∃ m', (∀ r, Completes (devHandler (env.quiet ms)) (rtssMbReadTimed (some h) (some buf) sz ms)
        .start m r ↔
          r = (((h.readSpec q buf sz ms).1.1, some (h.readSpec q buf sz ms).1.2), m')) ∧
      CallOrNone ch m m' q (h.readSpec q buf sz ms).2 := by
  have hm := hq.toConsistent
  have hfd : ¬ h.fd < 0 := Int.not_lt.mpr hopen.opened
  have hlen := hq.len_eq
  have hlt := hm.len_lt
  have hnum : ch.num.toNat ≤ 1048576 := UInt32.le_iff_toNat_le.mp hu.1
  by_cases hargs : sz = 0 ∨ ms < -1
  · have hspec : h.readSpec q buf sz ms = ((-einval, buf), q) := by
      rw [RtssMbHandle.readSpec, if_pos hargs]
    rw [hspec]
    refine ⟨m, fun r => completes_done ?_, .inl ⟨rfl, rfl⟩⟩
    rcases hargs with hsz | hms
    · simp only [rtssMbReadTimed, hsz, if_true, Prog.pure_eq, Prog.run_ret]
    · simp only [rtssMbReadTimed, hms, if_true, Prog.pure_eq, Prog.run_ret, ite_self]
  obtain ⟨hsz, hms⟩ := not_or.mp hargs
  by_cases hrx : h.mode = rtssMbModeRx
  · by_cases hsmall : sz < ch.size.toNat
    · have hspec : h.readSpec q buf sz ms = ((-emsgsize, buf), q) := by
        rw [RtssMbHandle.readSpec, if_neg hargs, if_neg (not_not.mpr hrx), hopen.size,
          if_pos hsmall]
      rw [hspec]
      refine ⟨m, fun r => completes_done ?_, .inl ⟨rfl, rfl⟩⟩
      simp only [rtssMbReadTimed, hsz, hms, hfd, hrx, hopen.size, Channel.size_ne_zero, hsmall,
        ne_eq, not_true_eq_false, if_false, if_true, Prog.pure_eq, Prog.run_ret]
    · have hstart := run_read_start (env.quiet ms) hu hopen hrx hm buf (Nat.le_of_not_lt hsmall)
        (Int.not_lt.mp hms)
      by_cases hempty : q.items = []
      · have hzero : ch.len m = 0 := by rw [hlen, hempty]; rfl
        have hspec : h.readSpec q buf sz ms =
            ((if ms = -1 then -eintr else -etimedout, buf), q) := by
          rw [RtssMbHandle.readSpec, if_neg hargs, if_neg (not_not.mpr hrx), hopen.size,
            if_neg hsmall, if_pos hempty]
        rw [hspec]
        refine ⟨m, fun r => (completes_again hstart).trans (completes_done ?_), .inl ⟨rfl, rfl⟩⟩
        have hnone : (ch.len m : Int) = 0 := congrArg Nat.cast hzero
        have hpoll : (Dev.poll h.eventFd ms).run (devHandler (env.quiet ms)) m =
            ((if ms = -1 then ⟨⟨-1, eintr⟩, false, false⟩ else ⟨⟨0, 0⟩, false, false⟩), m) :=
          Prog.run_perform (devHandler (env.quiet ms)) _ m
        by_cases hforever : ms = -1
        · simp only [rtssMbReadTimed, hnone, if_true, Prog.run_bind, hpoll, if_pos hforever,
            Prog.pure_eq, Prog.run_ret]
        · have hnot : ¬ (0 : Int) = -1 := by decide
          simp only [rtssMbReadTimed, hnone, if_true, Prog.run_bind, hpoll, if_neg hforever,
            hnot, if_false, Prog.pure_eq, Prog.run_ret]
      · have hvalid : 0 < ch.len m := by
          rw [hlen]
          exact List.length_pos_iff.mpr hempty
        have hspec : h.readSpec q buf sz ms =
            ((((min (ch.len m) (sz / ch.size.toNat) * ch.size.toNat : Nat) : Int),
              storeBytes buf 0 (q.oldest (min (ch.len m) (sz / ch.size.toNat))).flatten),
              q.drop (min (ch.len m) (sz / ch.size.toNat))) := by
          rw [RtssMbHandle.readSpec, if_neg hargs, if_neg (not_not.mpr hrx), hopen.size,
            if_neg hsmall, if_neg hempty, ← hlen]
        rw [hspec]
        have hitem := itemNum_toNat sz ch.size_pos (show ch.len m < 2 ^ 32 by omega)
        generalize hn : (if ch.len m * ch.size.toNat > sz then
          UInt32.ofNat (sz / ch.size.toNat) else UInt32.ofNat (ch.len m)) = n at hitem
        obtain ⟨hanswer, -⟩ := hq.run_read hu buf n
        have hmin : min n.toNat q.items.length = n.toNat := by
          rw [← hlen]
          omega
        have hzero : ¬ (ch.len m : Int) = 0 := by omega
        have hnonneg : ¬ ((n.toNat : Nat) : Int) < 0 := by omega
        have hanswer : ((libMBRead ch.mb (some buf) n ch.index).run memHandler m).1 =
            ((n.toNat : Int), some (storeBytes buf 0 (q.oldest n.toNat).flatten)) := by
          refine hanswer.trans ?_
          rw [RingCall.spec, hmin]
        rw [← hitem]
        refine ⟨_, fun r => (completes_again hstart).trans (completes_done ?_),
          .inr ⟨.read buf n, rfl, rfl⟩⟩
        simp only [rtssMbReadTimed, hzero, hopen.size, hopen.mapped, hopen.index, if_false,
          Int.toNat_natCast, hn, Prog.run_bind, RtssMailbox.run_read, hanswer, hnonneg,
          Prog.pure_eq, Prog.run_ret]
        rw [int32_of_lt _ (bytes_lt (show n.toNat < ch.num.toNat by omega) _ hbytes)]
        rfl
  · have hspec : h.readSpec q buf sz ms = ((-eperm, buf), q) := by
      rw [RtssMbHandle.readSpec, if_neg hargs, if_pos hrx]
    rw [hspec]
    refine ⟨m, fun r => completes_done ?_, .inl ⟨rfl, rfl⟩⟩
    simp only [rtssMbReadTimed, hsz, hms, hfd, hrx, ne_eq, not_false_eq_true, if_false, if_true,
      Prog.pure_eq, Prog.run_ret]

/-- A write whose items are in the ring reports the error of a failed interrupt. -/
theorem run_rtssMbWrite (hq : Represents ch m q) (env : SysEnv) (hu : ch.Usable)
    (hbytes : ch.num.toNat * ch.size.toNat < 2147483648) (hopen : OpenOn h ch) (buf : Mem)
    (sz : Nat) :
    ∃ m', (rtssMbWrite (some h) (some buf) sz).run (devHandler env) m =
        (if (h.writeSpec q buf sz).1 ≤ 0 ∨ env.sendInterrupt.ret = 0 ∨ env.sendInterrupt.errno = 0
          then (h.writeSpec q buf sz).1 else -env.sendInterrupt.errno, m') ∧
      CallOrNone ch m m' q (h.writeSpec q buf sz).2 := by
  obtain ⟨m', hrun, hcall⟩ := hq.run_rtssMbWriteBatch env hu hbytes hopen buf sz
  refine ⟨m', ?_, hcall⟩
  rw [rtssMbWrite, Prog.run_bind, hrun]
  by_cases hnone : (h.writeSpec q buf sz).1 ≤ 0
  · rw [if_pos (Or.inl hnone), if_pos hnone]
    rfl
  · have herrno : -env.sendInterrupt.errno = rtssMbReturnSuccess ↔ env.sendInterrupt.errno = 0 :=
      Int.neg_eq_zero
    simp only [hnone, if_false, false_or, Prog.run_bind, rtssmbTriggerIoctl, run_sendInterrupt,
      Prog.run_ite, Prog.pure_eq, Prog.run_ret, ne_eq]
    by_cases hret : env.sendInterrupt.ret = 0
    · simp only [hret, not_true_eq_false, if_false, true_or, if_true]
    · by_cases hzero : env.sendInterrupt.errno = 0
      · have hok : ¬ -(0 : Int) ≠ rtssMbReturnSuccess := by decide
        simp only [hret, not_false_eq_true, if_true, hzero, if_neg hok, or_true]
      · simp only [hret, not_false_eq_true, if_true, mt herrno.mp hzero, hzero, or_self, if_false]

theorem run_chanStat (hq : Represents ch m q) (env : SysEnv) (hu : ch.Usable)
    (hbytes : ch.num.toNat * ch.size.toNat < 2147483648) (hopen : OpenOn h ch)
    (info : RtssMbChanInfo) :
    (rtssMbGetChanStat (some h) (some info)).run (devHandler env) m =
      ((rtssMbReturnSuccess, some (h.statSpec q)), m) := by
  have hpos := ch.num_pos
  have hroom : ch.num.toNat - 1 + 1 = ch.num.toNat := by omega
  rw [run_rtssMbGetChanStat env hu hbytes hopen hq.toConsistent info, RtssMbHandle.statSpec,
    hopen.size, hroom, countFor, hq.len_eq]

theorem run_rtssMbChanReset (hq : Represents ch m q) (hu : ch.Usable) (hopen : OpenOn h ch) :
    ∃ m', (rtssMbChanReset (some h)).run memHandler m = (rtssMbReturnSuccess, m') ∧
      CallOrNone ch m m' q .empty := by
  have hfd : ¬ h.fd < 0 := Int.not_lt.mpr hopen.opened
  have hsuccess : mbESuccess = rtssMbReturnSuccess := rfl
  obtain ⟨hanswer, -⟩ := hq.run_chanReset hu
  rw [RingCall.run_chanReset] at hanswer
  have hret : ((libMBChanReset ch.mb ch.index).run memHandler m).1 = mbESuccess :=
    congrArg Prod.fst hanswer
  refine ⟨_, ?_, .inr ⟨.chanReset, rfl, rfl⟩⟩
  simp only [rtssMbChanReset, hfd, hopen.mapped, hopen.index, if_false, Prog.run_bind,
    hq.toConsistent.run_libMBValidate, hsuccess, ne_eq, not_true_eq_false, hret, Prog.pure_eq,
    Prog.run_ret, RingCall.run_chanReset]

end Represents

structure ApiSpecState (subregionCfg : List MbSubRgnConfig) where
  queues : (i : UInt32) → BoundedQueue (List UInt8) (channelRoom subregionCfg i)
  handles : List RtssMbHandle

namespace MailboxPlan
variable (pl : MailboxPlan)

/-- A call on the queue of a handle. -/
def onHandle (n : Nat)
    (f : RtssMbHandle → {room : Nat} → BoundedQueue (List UInt8) room →
      ApiAnswer × BoundedQueue (List UInt8) room) (null : ApiAnswer)
    (s : ApiSpecState pl.subregionCfg) : ApiAnswer × ApiSpecState pl.subregionCfg :=
  match s.handles[n]? with
  | none => (null, s)
  | some h =>
      let r := f h (s.queues h.subregionIndex)
      (r.1, { s with queues := Function.update s.queues h.subregionIndex r.2 })

def apiSpec (env : SysEnv) :
    ApiCall → ApiSpecState pl.subregionCfg → ApiAnswer × ApiSpecState pl.subregionCfg
  | .peer index c, s =>
      let r := channelSpec pl.mbCfg pl.subregionCfg index c (s.queues index)
      (⟨r.1.1, r.1.2, none⟩, { s with queues := Function.update s.queues index r.2 })
  | .open dev, s =>
      let r := openResult env (searchResult pl.mb pl.mbCfg pl.subregionCfg dev.val
        RtssMbHandle.blank (searchEnd pl.mbCfg pl.subregionCfg dev.val 0))
      (⟨r.1, none, none⟩, { s with handles := s.handles ++ r.2.toList })
  | .writeBatch n buf sz, s =>
      pl.onHandle n (fun h _ q => (⟨(h.writeSpec q buf sz).1, none, none⟩,
        (h.writeSpec q buf sz).2)) ⟨-einval, none, none⟩ s
  | .write n buf sz interrupt, s =>
      -- what was written stays when the interrupt fails
      pl.onHandle n (fun h _ q =>
        (⟨if (h.writeSpec q buf sz).1 ≤ 0 ∨ interrupt.ret = 0 ∨ interrupt.errno = 0
          then (h.writeSpec q buf sz).1 else -interrupt.errno, none, none⟩,
          (h.writeSpec q buf sz).2)) ⟨-einval, none, none⟩ s
  | .readTimed n buf sz ms, s =>
      pl.onHandle n (fun h _ q =>
        (⟨(h.readSpec q buf sz ms).1.1, some (h.readSpec q buf sz ms).1.2, none⟩,
          (h.readSpec q buf sz ms).2)) ⟨-einval, some buf, none⟩ s
  | .getChanStat n info, s =>
      pl.onHandle n (fun h _ q => (⟨rtssMbReturnSuccess, none, some (h.statSpec q)⟩, q))
        ⟨-einval, none, some info⟩ s
  | .chanReset n, s =>
      pl.onHandle n (fun _ _ _ => (⟨rtssMbReturnSuccess, none, none⟩, .empty))
        ⟨-einval, none, none⟩ s

variable {pl} {m₀ m : Mem}

/-- What every call keeps: memory differs from the created one in shared bytes only, and the
ring of every sub-region that serves calls holds the items of its queue. -/
structure Kept (pl : MailboxPlan) (m₀ m : Mem)
    (queues : (i : UInt32) → BoundedQueue (List UInt8) (channelRoom pl.subregionCfg i)) :
    Prop where
  same : ∀ q, ¬ pl.Shared q → m q = m₀ q
  represents : ∀ index hs, Represents (pl.channel index hs) m (queues index)

/-- A handle of one of the sub-regions that serve calls. -/
structure Opened (pl : MailboxPlan) (h : RtssMbHandle) : Prop where
  serves : Serves pl.mbCfg (pl.cfg h.subregionIndex) h.subregionIndex
  opened : 0 ≤ h.fd
  mapped : h.pMbBaseAddr = pl.mb
  size : h.subchanItemSize = (pl.cfg h.subregionIndex).itemMaxSize

theorem Opened.openOn {h : RtssMbHandle} (hh : pl.Opened h) :
    OpenOn h (pl.channel h.subregionIndex hh.serves) :=
  ⟨hh.opened, hh.mapped, rfl, hh.size⟩

theorem Intact.sameLayout (h : Created pl.mb pl.mbCfg pl.subregionCfg m₀)
    (hm : pl.Intact m₀ m) : SameLayout pl.mb m₀ m := by
  have hanswer := fun i a => hm.answers h i a
  have hstart := fun i hi => ((hanswer i _).start ((index_iff h i).mp hi) rfl).trans
    (h.subRegions _ ((index_iff h i).mp hi)).start.symm
  refine ⟨load32_congr _ _ _ fun k hk => hm.same _ (not_shared_descriptor ?_),
    ((hanswer 0 _).num rfl).trans h.num.symm,
    fun i hi => congrArg (pl.mb + UInt32.toNat ·) (hstart i hi), fun i hi => ?_, fun i hi => ?_⟩
  · simp only [descriptorBytes, MbDesc.subRegionStartOffset, MbDesc.magic]
    omega
  · have hindex := (index_iff h i).mp hi
    rw [base_eq h hindex, capacity, capacity]
    exact ((hanswer i _).maxItemNum hindex rfl).trans (h.subRegions _ hindex).num.symm
  · have hindex := (index_iff h i).mp hi
    rw [base_eq h hindex, slotSize, slotSize]
    exact ((hanswer i _).maxItemSize hindex rfl).trans (h.subRegions _ hindex).size.symm

namespace Kept
variable {queues : (i : UInt32) → BoundedQueue (List UInt8) (channelRoom pl.subregionCfg i)}

theorem intact (hm : pl.Kept m₀ m queues) : pl.Intact m₀ m :=
  ⟨hm.same, fun index hs => (hm.represents index hs).in_lt,
    fun index hs => (hm.represents index hs).out_lt⟩

/-- The client finds the channels in every memory that calls leave. -/
theorem discoverable (h : Created pl.mb pl.mbCfg pl.subregionCfg m₀)
    (hdescribed : ∀ i < pl.mbCfg.numSubRegions.toNat,
      Described (pl.mb + (subregionCfgAt pl.subregionCfg i).startAddrOffset.toNat)
        (subregionCfgAt pl.subregionCfg i) m₀)
    (hm : pl.Kept m₀ m queues) : Discoverable pl.mb pl.mbCfg pl.subregionCfg m := by
  have hlayout := hm.intact.sameLayout h
  have hof : ∀ i < pl.mbCfg.numSubRegions.toNat, (UInt32.ofNat i).toNat = i := fun i hi => by
    have hlt := pl.mbCfg.numSubRegions.toNat_lt
    rw [UInt32.toNat_ofNat']
    exact Nat.mod_eq_of_lt (by omega)
  have hsame : ∀ i < pl.mbCfg.numSubRegions.toNat, ∀ p,
      pl.mb + (subregionCfgAt pl.subregionCfg i).startAddrOffset.toNat ≤ p →
      p < pl.mb + (subregionCfgAt pl.subregionCfg i).startAddrOffset.toNat +
        MbSubRgnDesc.itemInIndex → m p = m₀ p := by
    intro i hi p hle hlt
    have hindex : (UInt32.ofNat i).toNat < pl.num := (hof i hi).symm ▸ hi
    refine hm.same _ (not_shared_header hindex ?_ ?_)
    all_goals
      simp only [base, cfg, hof i hi]
      assumption
  refine ⟨hlayout.magic.trans h.magic, hlayout.num.trans h.num, fun index hindex => ?_,
    fun i hi => (hdescribed i hi).of_agree fun p hle hlt => hsame i hi p hle (by
      simp only [MbSubRgnDesc.maxItemNum, MbSubRgnDesc.itemInIndex] at *
      omega),
    fun i hi => (load32_congr _ _ _ fun k hk => hsame i hi _ (by omega) (by
      simp only [MbSubRgnDesc.maxItemNum, MbSubRgnDesc.itemInIndex] at *
      omega)).trans (h.subRegions i hi).num,
    fun i hi => (load32_congr _ _ _ fun k hk => hsame i hi _ (by omega) (by
      simp only [MbSubRgnDesc.maxItemSize, MbSubRgnDesc.itemInIndex] at *
      omega)).trans (h.subRegions i hi).size⟩
  by_cases hs : Serves pl.mbCfg (subregionCfgAt pl.subregionCfg index.toNat) index
  · rw [if_pos hs]
    have hat := (hm.represents index hs).toConsistent.subRegionAt_eq
    rw [if_pos (channel_usable index hs)] at hat
    exact hat
  · rw [if_neg hs, subRegionAt_refused h hlayout index hs,
      if_pos (UInt32.lt_iff_toNat_lt.mpr hindex)]

/-- A library call on the queue of its index, whatever the other queues hold. -/
theorem call (h : Created pl.mb pl.mbCfg pl.subregionCfg m₀) (hm : pl.Kept m₀ m queues)
    (index : UInt32) (hs : Serves pl.mbCfg (pl.cfg index) index) (c : RingCall) :
    pl.Kept m₀ (c.run pl.mb index m).2 (Function.update queues index
      (c.spec (pl.cfg index).itemMaxSize.toNat (queues index)).2) := by
  have hisolated := (hm.intact.sameLayout h).isolated (isolated h)
  refine ⟨fun q hq => ?_, fun i hi => ?_⟩
  · refine Eq.trans ?_ (hm.same q hq)
    by_contra hchanged
    obtain ⟨hindex, hle, hlt⟩ := call_changed hisolated c hchanged
    have hlayout := hm.intact.sameLayout h
    have hthere := (index_iff h index).mpr hs.1
    have hsub := h.subRegions _ hs.1
    rw [hlayout.base index hthere, base_eq h hs.1] at hle hlt
    have hcap := hlayout.capacity index hthere
    have hslot := hlayout.slotSize index hthere
    rw [base_eq h hs.1] at hcap hslot
    refine hq ⟨index, hs, hle, ?_⟩
    rw [subRegionSize, hcap, hslot, capacity, slotSize, cfg, hsub.num, hsub.size] at hlt
    exact hlt
  · by_cases hsame : i = index
    · subst hsame
      rw [Function.update_self]
      exact ((hm.represents i hi).run_call (channel_usable i hi) c).2
    · rw [Function.update_of_ne hsame]
      exact call_other hisolated (Ne.symm hsame) c (hm.represents i hi)

theorem callOrNone (h : Created pl.mb pl.mbCfg pl.subregionCfg m₀) (hm : pl.Kept m₀ m queues)
    (index : UInt32) (hs : Serves pl.mbCfg (pl.cfg index) index) {m' : Mem}
    {q' : BoundedQueue (List UInt8) (channelRoom pl.subregionCfg index)}
    (hcall : CallOrNone (pl.channel index hs) m m' (queues index) q') :
    pl.Kept m₀ m' (Function.update queues index q') := by
  rcases hcall with ⟨rfl, rfl⟩ | ⟨c, rfl, rfl⟩
  · rw [Function.update_eq_self]
    exact hm
  · exact hm.call h index hs c

/-- A library call on any index, which may serve no queue. -/
theorem peer (h : Created pl.mb pl.mbCfg pl.subregionCfg m₀) (hm : pl.Kept m₀ m queues)
    (index : UInt32) (c : RingCall) :
    pl.Kept m₀ (c.run pl.mb index m).2 (Function.update queues index
      (channelSpec pl.mbCfg pl.subregionCfg index c (queues index)).2) := by
  by_cases hs : Serves pl.mbCfg (pl.cfg index) index
  · rw [channelSpec, if_pos hs]
    exact hm.call h index hs c
  · have hrun := RingCall.run_refused pl.mb_ne_null
      (subRegionAt_refused h (hm.intact.sameLayout h) index hs) c
    have hspec : (channelSpec pl.mbCfg pl.subregionCfg index c (queues index)).2 =
        queues index := by
      rw [channelSpec, if_neg hs]
      split <;> rfl
    rw [hrun, hspec, Function.update_eq_self]
    exact hm

end Kept

/-- The simulation between the API's state and what it is for. -/
structure Simulates (pl : MailboxPlan) (m₀ : Mem) (s : ApiState)
    (t : ApiSpecState pl.subregionCfg) : Prop where
  handles : s.2 = t.handles
  kept : pl.Kept m₀ s.1 t.queues
  opened : ∀ h ∈ t.handles, pl.Opened h

section Steps
variable {env : SysEnv} {t : ApiSpecState pl.subregionCfg} {hs : List RtssMbHandle}

/-- A call on a handle answers, and as the queue of the handle does. -/
theorem Simulates.onHandle (h : Created pl.mb pl.mbCfg pl.subregionCfg m₀)
    (hsim : pl.Simulates m₀ (m, hs) t) (n : Nat)
    (f : RtssMbHandle → {room : Nat} → BoundedQueue (List UInt8) room →
      ApiAnswer × BoundedQueue (List UInt8) room) (null : ApiAnswer)
    (step : ApiAnswer × ApiState → Prop)
    (hnull : hs[n]? = none → ∀ r, step r ↔ r = (null, (m, hs)))
    (hcall : ∀ x (hx : pl.Opened x), hs[n]? = some x → ∃ m',
      CallOrNone (pl.channel x.subregionIndex hx.serves) m m' (t.queues x.subregionIndex)
        (f x (t.queues x.subregionIndex)).2 ∧
      ∀ r, step r ↔ r = ((f x (t.queues x.subregionIndex)).1, (m', hs))) :
    (∃ r, step r) ∧ ∀ r, step r →
      r.1 = (pl.onHandle n f null t).1 ∧ pl.Simulates m₀ r.2 (pl.onHandle n f null t).2 := by
  obtain ⟨rfl, hkept, hopened⟩ := hsim
  cases hget : t.handles[n]? with
  | none =>
      simp only [MailboxPlan.onHandle, hget]
      refine ⟨⟨_, (hnull hget _).mpr rfl⟩, fun r hr => ?_⟩
      rw [(hnull hget r).mp hr]
      exact ⟨rfl, rfl, hkept, hopened⟩
  | some x =>
      have hx := hopened x (List.mem_of_getElem? hget)
      obtain ⟨m', hone, hstep⟩ := hcall x hx hget
      simp only [MailboxPlan.onHandle, hget]
      refine ⟨⟨_, (hstep _).mpr rfl⟩, fun r hr => ?_⟩
      rw [(hstep r).mp hr]
      exact ⟨rfl, rfl, hkept.callOrNone h x.subregionIndex hx.serves hone, hopened⟩

/-- A channel that the search finds serves calls, at the address of its mailbox. -/
theorem searchResult_found (dev : List UInt8) (handle : RtssMbHandle) {r : Int × RtssMbHandle}
    (hr : r = searchResult pl.mb pl.mbCfg pl.subregionCfg dev handle
      (searchEnd pl.mbCfg pl.subregionCfg dev 0)) (hfound : r.1 = rtssMbReturnSuccess) :
    Serves pl.mbCfg (pl.cfg r.2.subregionIndex) r.2.subregionIndex ∧
      r.2.pMbBaseAddr = pl.mb ∧
        r.2.subchanItemSize = (pl.cfg r.2.subregionIndex).itemMaxSize := by
  cases hend : searchEnd pl.mbCfg pl.subregionCfg dev 0 with
  | none =>
      rw [hr, hend] at hfound
      exact absurd hfound (show ¬ -enoent = rtssMbReturnSuccess by decide)
  | some i =>
      have hi : i < pl.mbCfg.numSubRegions.toNat := by
        have hmem := List.mem_of_find?_eq_some hend
        rw [List.mem_range'_1] at hmem
        omega
      have hnat : (UInt32.ofNat i).toNat = i := by
        have hlt := pl.mbCfg.numSubRegions.toNat_lt
        rw [UInt32.toNat_ofNat']
        exact Nat.mod_eq_of_lt (by omega)
      rw [hend, searchResult] at hr
      by_cases hserves : Serves pl.mbCfg (subregionCfgAt pl.subregionCfg i) (UInt32.ofNat i)
      · rw [if_neg (not_not.mpr hserves)] at hr
        by_cases hlong : dev.length ≥ rtssMailboxNameSize
        · rw [hr, if_pos hlong] at hfound
          exact absurd hfound (show ¬ -enametoolong = rtssMbReturnSuccess by decide)
        · rw [if_neg hlong] at hr
          subst hr
          simp only [RtssMbHandle.found, MbSubRgnConfig.chanDesc, cfg, hnat, and_self, and_true]
          exact hserves
      · rw [hr, if_pos hserves] at hfound
        exact absurd hfound (show ¬ -eio = rtssMbReturnSuccess by decide)

/-- A handle that an open returns is one of a sub-region that serves calls. -/
theorem opened_of_open (henv : 0 ≤ env.open'.ret) (dev : List UInt8) {x : RtssMbHandle}
    (hx : x ∈ (openResult env (searchResult pl.mb pl.mbCfg pl.subregionCfg dev
      RtssMbHandle.blank (searchEnd pl.mbCfg pl.subregionCfg dev 0))).2) : pl.Opened x := by
  generalize hr : searchResult pl.mb pl.mbCfg pl.subregionCfg dev RtssMbHandle.blank
    (searchEnd pl.mbCfg pl.subregionCfg dev 0) = r at hx
  by_cases hfound : r.1 = rtssMbReturnSuccess
  · obtain ⟨hserves, hmapped, hsize⟩ := searchResult_found dev _ hr.symm hfound
    rw [openResult, if_pos hfound] at hx
    obtain rfl := Option.some.inj hx
    exact ⟨hserves, henv, hmapped, hsize⟩
  · rw [openResult, if_neg hfound] at hx
    cases hx

/-- Every call answers, and as what the API is for says. -/
theorem Simulates.step (h : Created pl.mb pl.mbCfg pl.subregionCfg m₀)
    (hdescribed : ∀ i < pl.mbCfg.numSubRegions.toNat,
      Described (pl.mb + (subregionCfgAt pl.subregionCfg i).startAddrOffset.toNat)
        (subregionCfgAt pl.subregionCfg i) m₀)
    (hbytes : ∀ i < pl.mbCfg.numSubRegions.toNat,
      itemBytes (subregionCfgAt pl.subregionCfg i) < 2147483648)
    (henv : OpensAt env pl.mb) (hfd : 0 ≤ env.open'.ret) (c : ApiCall) (s : ApiState)
    (hsim : pl.Simulates m₀ s t) :
    (∃ r, ApiStep pl.mb env c s r) ∧ ∀ r, ApiStep pl.mb env c s r →
      r.1 = (pl.apiSpec env c t).1 ∧ pl.Simulates m₀ r.2 (pl.apiSpec env c t).2 := by
  obtain ⟨m, hs⟩ := s
  have hq := hsim.kept.represents
  have hu := fun (x : RtssMbHandle) (hx : pl.Opened x) =>
    channel_usable x.subregionIndex hx.serves
  have hint := fun (x : RtssMbHandle) (hx : pl.Opened x) => hbytes _ hx.serves.1
  cases c with
  | peer index c =>
      refine ⟨⟨_, .peer index c m hs⟩, fun r hr => ?_⟩
      cases hr with
      | peer _ _ _ _ =>
          obtain ⟨hanswer, -⟩ := call_own h (hsim.kept.intact.sameLayout h) index c
            (t.queues index) fun hserves => hq index hserves
          have hanswer : (c.run pl.mb index m).1 = _ := hanswer
          rw [hanswer]
          exact ⟨rfl, hsim.handles, hsim.kept.peer h index c, hsim.opened⟩
  | «open» dev =>
      have hbounded := pl.checked.bounded
      have hrun := (hsim.kept.discoverable h hdescribed).run_rtssMbOpen pl.mb_ne_null (by omega)
        env henv dev.val dev.property
      have hnew := fun x => @opened_of_open pl env hfd dev.val x
      simp only [MailboxPlan.apiSpec]
      generalize openResult env (searchResult pl.mb pl.mbCfg pl.subregionCfg dev.val
        RtssMbHandle.blank (searchEnd pl.mbCfg pl.subregionCfg dev.val 0)) = res at hrun hnew ⊢
      obtain ⟨ret, x⟩ := res
      refine ⟨⟨_, (apiStep_open hrun).mpr rfl⟩, fun r hr => ?_⟩
      rw [(apiStep_open hrun).mp hr]
      refine ⟨rfl, congrArg (· ++ _) hsim.handles, hsim.kept, fun y hy => ?_⟩
      cases List.mem_append.mp hy with
      | inl hold => exact hsim.opened y hold
      | inr hin => exact hnew y (Option.mem_toList.mp hin)
  | writeBatch n buf sz =>
      refine hsim.onHandle h n _ _ _ (fun hnull r => apiStep_writeBatch ?_) fun x hx hget => ?_
      · rw [hnull]
        rfl
      · obtain ⟨m', hrun, hcall⟩ :=
          (hq _ hx.serves).run_rtssMbWriteBatch env (hu x hx) (hint x hx) hx.openOn buf sz
        exact ⟨m', hcall, fun r => apiStep_writeBatch (hget ▸ hrun)⟩
  | write n buf sz interrupt =>
      refine hsim.onHandle h n _ _ _ (fun hnull r => apiStep_write ?_) fun x hx hget => ?_
      · rw [hnull]
        rfl
      · obtain ⟨m', hrun, hcall⟩ := (hq _ hx.serves).run_rtssMbWrite
          { env with sendInterrupt := interrupt } (hu x hx) (hint x hx) hx.openOn buf sz
        exact ⟨m', hcall, fun r => apiStep_write (hget ▸ hrun)⟩
  | readTimed n buf sz ms =>
      refine hsim.onHandle h n _ _ _ (fun hnull r => apiStep_readTimed fun x => ?_)
        fun x hx hget => ?_
      · rw [hnull]
        exact completes_done rfl
      · obtain ⟨m', hrun, hcall⟩ :=
          (hq _ hx.serves).run_rtssMbReadTimed env (hu x hx) (hint x hx) hx.openOn buf sz ms
        exact ⟨m', hcall, fun r => apiStep_readTimed (hget ▸ hrun)⟩
  | getChanStat n info =>
      refine hsim.onHandle h n _ _ _ (fun hnull r => apiStep_getChanStat ?_) fun x hx hget => ?_
      · rw [hnull]
        rfl
      · have hrun := (hq _ hx.serves).run_chanStat env (hu x hx) (hint x hx) hx.openOn info
        exact ⟨m, .inl ⟨rfl, rfl⟩, fun r => apiStep_getChanStat (hget ▸ hrun)⟩
  | chanReset n =>
      refine hsim.onHandle h n _ _ _ (fun hnull r => apiStep_chanReset ?_) fun x hx hget => ?_
      · rw [hnull]
        rfl
      · obtain ⟨m', hrun, hcall⟩ := (hq _ hx.serves).run_rtssMbChanReset (hu x hx) hx.openOn
        exact ⟨m', hcall, fun r => apiStep_chanReset (hget ▸ hrun)⟩

end Steps

end MailboxPlan

/-- The mailbox with the channels "a", which the client reads, and "b", which it writes. -/
def namedRegionPlan : MailboxPlan where
  mb := twoRegionPlan.mb
  mbCfg := twoRegionPlan.mbCfg
  subregionCfg := namedSubRegions
  mb_ne_null := twoRegionPlan.mb_ne_null
  checked := (checked_iff _ _).mp (by decide)
  size_ne := by decide
  bytes_lt := by decide

end RtssMailbox
