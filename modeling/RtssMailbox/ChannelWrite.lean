import RtssMailbox.ChannelState
import RtssMailbox.ChannelHandle

/-!
Writing through a channel handle while the peer leaves the mailbox alone. The
system calls answer as an environment says; the library calls run on the mapped
memory. Once the ring write has published its items, every later failure is
reported for a message that is already in the ring.
-/
namespace RtssMailbox
open Effects ByteMemory CyclicBuffer

/-- The outcomes of the system calls during one call of the middleware. -/
structure SysEnv where
  calloc : Bool
  open' : SysStatus
  getMbRegion : SysStatus × UInt32
  mmap : Nat × Int
  eventfd : SysStatus
  setEventFd : SysStatus
  sendInterrupt : SysStatus
  poll : PollStatus
  eventfdRead : SysStatus

def devHandler (env : SysEnv) : Handler DevSig Mem
  | .lib c, m => c.prog.run memHandler m
  | .calloc, m => (env.calloc, m)
  | .free, m | .close _, m | .munmap _ _, m => ((), m)
  | .open, m => (env.open', m)
  | .getMbRegion _, m => (env.getMbRegion, m)
  | .mmap _ _, m => (env.mmap, m)
  | .eventfd, m => (env.eventfd, m)
  | .setEventFd _ _, m => (env.setEventFd, m)
  | .sendInterrupt _ _, m => (env.sendInterrupt, m)
  | .poll _ _, m => (env.poll, m)
  | .eventfdRead _, m => (env.eventfdRead, m)

section Runs
variable (env : SysEnv) (mb : Nat) (index itemNum : UInt32) (fd : Int) (m : Mem)

@[simp] theorem run_validate :
    (Dev.validate mb).run (devHandler env) m = (libMBValidate mb).run memHandler m :=
  (Prog.run_perform (devHandler env) (.lib (.validate mb)) m).trans rfl

@[simp] theorem run_getFreeItemNum :
    (Dev.getFreeItemNum mb index).run (devHandler env) m =
      (libMBGetFreeItemNum mb index).run memHandler m :=
  (Prog.run_perform (devHandler env) (.lib (.getFreeItemNum mb index)) m).trans rfl

@[simp] theorem run_write (source : Mem) :
    (Dev.write mb source itemNum index).run (devHandler env) m =
      (libMBWrite mb (some source) itemNum index).run memHandler m :=
  (Prog.run_perform (devHandler env) (.lib (.write mb source itemNum index)) m).trans rfl

@[simp] theorem run_sendInterrupt (info : EvfdInfo) :
    (Dev.sendInterrupt fd info).run (devHandler env) m = (env.sendInterrupt, m) :=
  (Prog.run_perform (devHandler env) (.sendInterrupt fd info) m).trans rfl

end Runs

/-- The sub-region of a handle, as the descriptor in memory locates it. -/
def RtssMbHandle.base (h : RtssMbHandle) (m : Mem) : Nat :=
  h.pMbBaseAddr +
    (load32 m (h.pMbBaseAddr + MbDesc.subRegionStartOffset h.subregionIndex.toNat)).toNat

/-- The number of items that a write of `sz` bytes hands to the library. -/
def RtssMbHandle.itemsOf (h : RtssMbHandle) (sz : Nat) : UInt32 :=
  UInt32.ofNat (sz / h.subchanItemSize.toNat)

/-- The state of handle and ring in which a write of `sz` bytes reaches the ring. -/
structure WriteAdmitted (h : RtssMbHandle) (m : Mem) (sz : Nat) : Prop where
  size_pos : 0 < sz
  opened : 0 ≤ h.fd
  item_pos : h.subchanItemSize ≠ 0
  tx : h.mode = rtssMbModeTx
  mapped : h.pMbBaseAddr ≠ null
  located : subRegionAt h.pMbBaseAddr h.subregionIndex m = .ok (h.base m)
  room : sz ≤ (freeItem m (h.base m)).toNat * h.subchanItemSize.toNat

theorem subRegionAt_ok (mb : Nat) (index : UInt32) (m : Mem) (base : Nat)
    (h : subRegionAt mb index m = .ok base) :
    load32 m (mb + MbDesc.magic) = mbMagicNumber ∧
      index < load32 m (mb + MbDesc.numOfSubRegion) ∧
      base = mb + (load32 m (mb + MbDesc.subRegionStartOffset index.toNat)).toNat ∧
      sane m base = true := by
  simp only [subRegionAt] at h
  split at h
  · split at h
    · split at h
      · cases h
        exact ⟨‹_›, ‹_›, rfl, ‹_›⟩
      · cases h
    · cases h
  · cases h

/-- On a sane sub-region the counter of free items is exact and small. -/
theorem sane_freeItem (m : Mem) (base : Nat) (h : sane m base = true) :
    (freeItem m base).toNat < 1048576 ∧
      (freeItem m base).toNat < (load32 m (base + MbSubRgnDesc.maxItemNum)).toNat := by
  obtain ⟨-, hnum, -, hin, hout⟩ := (sane_iff m base).mp h
  have hfree : (freeItem m base).toNat = _ := vacant_toNat _ _ _ hin hout
  omega

/-- On a sane sub-region with bytes in its items the write index moves by the
number of items, whatever the copy has overwritten. -/
theorem sane_writeItem (m : Mem) (base : Nat) (source : Mem) (itemNum : UInt32)
    (h : sane m base = true) :
    (load32 m (base + MbSubRgnDesc.maxItemSize) = 0 →
      (libMBWriteItem base source itemNum).run memHandler m = ((), m)) ∧
    (load32 m (base + MbSubRgnDesc.maxItemSize) ≠ 0 →
      load32 ((libMBWriteItem base source itemNum).run memHandler m).2
        (base + MbSubRgnDesc.itemInIndex) =
          (load32 m (base + MbSubRgnDesc.itemInIndex) + itemNum) %
            load32 m (base + MbSubRgnDesc.maxItemNum)) := by
  obtain ⟨-, hnum, -, hin, -⟩ := (sane_iff m base).mp h
  have hlt : ¬ load32 m (base + MbSubRgnDesc.itemInIndex) ≥
      load32 m (base + MbSubRgnDesc.maxItemNum) := by
    rw [ge_iff_le, UInt32.le_iff_toNat_le]
    omega
  have hne : load32 m (base + MbSubRgnDesc.maxItemNum) ≠ 0 := fun h0 => by
    rw [h0] at hin
    exact absurd hin (Nat.not_lt_zero _)
  refine ⟨fun hsize => ?_, fun hsize => ?_⟩
  · simp [libMBWriteItem, hsize]
  · simp only [libMBWriteItem, Prog.run_bind, run_getReg, hsize, hne, hlt, or_self, if_false,
      run_setReg, load32_store32_same]

theorem run_rtssMbWriteBatch_admitted (env : SysEnv) (h : RtssMbHandle) (buf m : Mem) (sz : Nat)
    (hadm : WriteAdmitted h m sz) :
    (rtssMbWriteBatch (some h) (some buf) sz).run (devHandler env) m =
      (int32 (sz / h.subchanItemSize.toNat * h.subchanItemSize.toNat),
        ((libMBWriteItem (h.base m) buf (h.itemsOf sz)).run memHandler m).2) := by
  obtain ⟨hmagic, -, -, hsane⟩ := subRegionAt_ok _ _ _ _ hadm.located
  obtain ⟨hsmall, -⟩ := sane_freeItem m _ hsane
  have hvalidate : (libMBValidate h.pMbBaseAddr).run memHandler m = (mbESuccess, m) := by
    simp [libMBValidate, hadm.mapped, hmagic]
  have hfree : (libMBGetFreeItemNum h.pMbBaseAddr h.subregionIndex).run memHandler m =
      (((freeItem m (h.base m)).toNat : Int), m) := by
    simp only [libMBGetFreeItemNum, ne_eq, hadm.mapped, not_false_eq_true, if_true,
      run_onSubRegion, hadm.located, Prog.run_bind, run_libMBFreeItem, Prog.pure_eq, Prog.run_ret]
    rw [int32_of_lt _ (by omega)]
  have hdiv : sz / h.subchanItemSize.toNat ≤ (freeItem m (h.base m)).toNat :=
    Nat.div_le_of_le_mul (by rw [Nat.mul_comm]; exact hadm.room)
  have hitems : (h.itemsOf sz).toNat = sz / h.subchanItemSize.toNat := by
    rw [RtssMbHandle.itemsOf, UInt32.toNat_ofNat']
    exact Nat.mod_eq_of_lt (by omega)
  have hwrite : (libMBWrite h.pMbBaseAddr (some buf) (h.itemsOf sz) h.subregionIndex).run
      memHandler m = (((h.itemsOf sz).toNat : Int),
        ((libMBWriteItem (h.base m) buf (h.itemsOf sz)).run memHandler m).2) := by
    have hfit : h.itemsOf sz ≤ freeItem m (h.base m) := by
      rw [UInt32.le_iff_toNat_le, hitems]
      exact hdiv
    simp only [libMBWrite, ne_eq, hadm.mapped, not_false_eq_true, if_true, run_onSubRegion,
      hadm.located, Prog.run_bind, run_libMBFreeItem, if_pos hfit, Prog.pure_eq, Prog.run_ret]
    rw [int32_of_lt _ (by omega)]
  have hpos := hadm.size_pos
  have hopen := hadm.opened
  have hroom := hadm.room
  have hwide : ¬ ((freeItem m (h.base m)).toNat : Int) < 0 := by omega
  have hwide' : ¬ ((h.itemsOf sz).toNat : Int) < 0 := by omega
  have hsuccess : mbESuccess = rtssMbReturnSuccess := rfl
  rw [RtssMbHandle.itemsOf] at hwrite hwide'
  simp only [rtssMbWriteBatch, show sz ≠ 0 by omega, show ¬ h.fd < 0 by omega, hadm.item_pos,
    hadm.tx, ne_eq, not_true_eq_false, if_false, Prog.run_bind, run_validate, hvalidate, hsuccess,
    run_getFreeItemNum, hfree, hwide, Int.toNat_natCast, Nat.not_lt.mpr hroom, run_write, hwrite,
    hwide', Prog.pure_eq, Prog.run_ret]
  rw [← RtssMbHandle.itemsOf, hitems]

theorem subRegionAt_error (mb : Nat) (index : UInt32) (m : Mem) (e : Int)
    (h : subRegionAt mb index m = .error e) : e < 0 := by
  simp only [subRegionAt] at h
  split at h
  · split at h
    · split at h
      · cases h
      · cases h
        decide
    · cases h
      decide
  · cases h
    decide

/-- A write that is not admitted fails before it touches the mailbox. -/
theorem run_rtssMbWriteBatch_refused (env : SysEnv) (h : RtssMbHandle) (buf m : Mem) (sz : Nat)
    (hadm : ¬ WriteAdmitted h m sz) :
    ∃ e < 0, (rtssMbWriteBatch (some h) (some buf) sz).run (devHandler env) m = (e, m) := by
  by_cases hsz : sz = 0
  · exact ⟨-einval, by decide, by simp [rtssMbWriteBatch, hsz]⟩
  by_cases hfd : h.fd < 0
  · exact ⟨-ebadf, by decide, by simp [rtssMbWriteBatch, hsz, hfd]⟩
  by_cases hitem : h.subchanItemSize = 0
  · exact ⟨-ebadf, by decide, by simp [rtssMbWriteBatch, hsz, hfd, hitem]⟩
  by_cases htx : h.mode = rtssMbModeTx
  case neg => exact ⟨-eperm, by decide, by simp [rtssMbWriteBatch, hsz, hfd, hitem, htx]⟩
  by_cases hmb : h.pMbBaseAddr = null
  · exact ⟨-eio, by decide, by
      simp [rtssMbWriteBatch, hsz, hfd, hitem, htx, libMBValidate, hmb, mbENullInput,
        rtssMbReturnSuccess]⟩
  by_cases hmagic : load32 m (h.pMbBaseAddr + MbDesc.magic) = mbMagicNumber
  case neg =>
    exact ⟨-eio, by decide, by
      simp [rtssMbWriteBatch, hsz, hfd, hitem, htx, libMBValidate, hmb, hmagic,
        mbEInvalidMailbox, rtssMbReturnSuccess]⟩
  have hvalidate : (libMBValidate h.pMbBaseAddr).run memHandler m = (rtssMbReturnSuccess, m) := by
    simp [libMBValidate, hmb, hmagic]
    rfl
  cases hat : subRegionAt h.pMbBaseAddr h.subregionIndex m with
  | error e =>
      have hneg := subRegionAt_error _ _ _ _ hat
      have hfree : (libMBGetFreeItemNum h.pMbBaseAddr h.subregionIndex).run memHandler m =
          (e, m) := by
        simp [libMBGetFreeItemNum, hmb, run_onSubRegion, hat]
      exact ⟨-eio, by decide, by
        simp [rtssMbWriteBatch, hsz, hfd, hitem, htx, hvalidate, hfree, hneg]⟩
  | ok base =>
      obtain ⟨-, -, hbase, hsane⟩ := subRegionAt_ok _ _ _ _ hat
      obtain ⟨hsmall, -⟩ := sane_freeItem m _ hsane
      have hfree : (libMBGetFreeItemNum h.pMbBaseAddr h.subregionIndex).run memHandler m =
          (((freeItem m base).toNat : Int), m) := by
        simp only [libMBGetFreeItemNum, ne_eq, hmb, not_false_eq_true, if_true, run_onSubRegion,
          hat, Prog.run_bind, run_libMBFreeItem, Prog.pure_eq, Prog.run_ret]
        rw [int32_of_lt _ (by omega)]
      have hroom : (freeItem m base).toNat * h.subchanItemSize.toNat < sz := by
        by_contra hroom
        refine hadm ⟨by omega, by omega, hitem, htx, hmb, ?_, ?_⟩
        · rw [hat, RtssMbHandle.base, hbase]
        · rw [RtssMbHandle.base, ← hbase]
          omega
      have hwide : ¬ ((freeItem m base).toNat : Int) < 0 := by omega
      exact ⟨-enobufs, by decide, by
        simp [rtssMbWriteBatch, hsz, hfd, hitem, htx, hvalidate, hfree, hwide, hroom]⟩

theorem run_rtssmbTriggerIoctl (env : SysEnv) (h : RtssMbHandle) (m : Mem) :
    (rtssmbTriggerIoctl h).run (devHandler env) m =
      (if env.sendInterrupt.ret ≠ 0 then -env.sendInterrupt.errno else rtssMbReturnSuccess, m) := by
  simp only [rtssmbTriggerIoctl, Prog.run_bind, run_sendInterrupt, Prog.pure_eq, Prog.run_ite,
    Prog.run_ret]
  split <;> rfl

/-- The whole call: the interrupt can only change the result, not the memory. -/
theorem run_rtssMbWrite (env : SysEnv) (h : RtssMbHandle) (buf m : Mem) (sz : Nat) :
    let batch := (rtssMbWriteBatch (some h) (some buf) sz).run (devHandler env) m
    ((rtssMbWrite (some h) (some buf) sz).run (devHandler env) m).2 = batch.2 ∧
      (((rtssMbWrite (some h) (some buf) sz).run (devHandler env) m).1 < 0 ↔
        batch.1 < 0 ∨ 0 < batch.1 ∧ env.sendInterrupt.ret ≠ 0 ∧ 0 < env.sendInterrupt.errno) := by
  intro batch
  by_cases hle : batch.1 ≤ 0
  · have hrun : (rtssMbWrite (some h) (some buf) sz).run (devHandler env) m = batch := by
      simp only [rtssMbWrite, Prog.run_bind, Prog.pure_eq, Prog.run_ite, Prog.run_ret]
      exact if_pos hle
    rw [hrun]
    exact ⟨rfl, by omega⟩
  · have hrun : (rtssMbWrite (some h) (some buf) sz).run (devHandler env) m =
        (if env.sendInterrupt.ret ≠ 0 ∧ env.sendInterrupt.errno ≠ 0
          then -env.sendInterrupt.errno else batch.1, batch.2) := by
      simp only [rtssMbWrite, Prog.run_bind, Prog.pure_eq, Prog.run_ite, Prog.run_ret,
        run_rtssmbTriggerIoctl, rtssMbReturnSuccess]
      refine (if_neg hle).trans ?_
      by_cases hret : env.sendInterrupt.ret = 0
      · simp [hret, batch]
      · by_cases herr : env.sendInterrupt.errno = 0 <;> simp [hret, herr, batch]
    rw [hrun]
    refine ⟨rfl, ?_⟩
    simp only
    split <;> omega

/-- The items between the indices of a sub-region, as its header describes them. -/
def ringItems (m : Mem) (base : Nat) : List (List UInt8) :=
  queue
    (fun k => loadBytes m
      (base + mbSubRegionHeaderSz + k * (load32 m (base + MbSubRgnDesc.maxItemSize)).toNat)
      (load32 m (base + MbSubRgnDesc.maxItemSize)).toNat)
    (load32 m (base + MbSubRgnDesc.maxItemNum)).toNat
    (load32 m (base + MbSubRgnDesc.itemInIndex)).toNat
    (load32 m (base + MbSubRgnDesc.itemOutIndex)).toNat

/-- A write that reports failure has neither moved the write index nor queued an item. -/
def FailureLeavesRing (env : SysEnv) (h : RtssMbHandle) (buf : Option Mem) (sz : Nat)
    (m : Mem) : Prop :=
  let r := (rtssMbWrite (some h) buf sz).run (devHandler env) m
  r.1 < 0 →
    load32 r.2 (h.base m + MbSubRgnDesc.itemInIndex) =
        load32 m (h.base m + MbSubRgnDesc.itemInIndex) ∧
      ringItems r.2 (h.base m) = ringItems m (h.base m)

/-- The ring takes at least one item with bytes, and then the byte count is
negative as an `int` or the interrupt fails with an `errno`. -/
structure PublishesAndFails (env : SysEnv) (h : RtssMbHandle) (buf : Option Mem) (sz : Nat)
    (m : Mem) : Prop where
  buffer : buf ≠ none
  admitted : WriteAdmitted h m sz
  bytes : load32 m (h.base m + MbSubRgnDesc.maxItemSize) ≠ 0
  fails : int32 (sz / h.subchanItemSize.toNat * h.subchanItemSize.toNat) < 0 ∨
    0 < int32 (sz / h.subchanItemSize.toNat * h.subchanItemSize.toNat) ∧
      env.sendInterrupt.ret ≠ 0 ∧ 0 < env.sendInterrupt.errno

theorem WriteAdmitted.index_moves {h : RtssMbHandle} {m : Mem} {sz : Nat}
    (hadm : WriteAdmitted h m sz) (buf : Mem)
    (hbytes : load32 m (h.base m + MbSubRgnDesc.maxItemSize) ≠ 0)
    (hpos : 0 < sz / h.subchanItemSize.toNat) :
    load32 ((libMBWriteItem (h.base m) buf (h.itemsOf sz)).run memHandler m).2
        (h.base m + MbSubRgnDesc.itemInIndex) ≠
      load32 m (h.base m + MbSubRgnDesc.itemInIndex) := by
  obtain ⟨-, -, -, hsane⟩ := subRegionAt_ok _ _ _ _ hadm.located
  obtain ⟨hsmall, hfree⟩ := sane_freeItem m _ hsane
  obtain ⟨-, hnum, -, hin, -⟩ := (sane_iff m _).mp hsane
  have hdiv : sz / h.subchanItemSize.toNat ≤ (freeItem m (h.base m)).toNat :=
    Nat.div_le_of_le_mul (by rw [Nat.mul_comm]; exact hadm.room)
  have hitems : (h.itemsOf sz).toNat = sz / h.subchanItemSize.toNat := by
    rw [RtssMbHandle.itemsOf, UInt32.toNat_ofNat']
    exact Nat.mod_eq_of_lt (by omega)
  rw [(sane_writeItem m _ buf _ hsane).2 hbytes]
  intro heq
  have hsame := congrArg UInt32.toNat heq
  rw [UInt32.toNat_mod, UInt32.toNat_add, hitems,
    Nat.mod_eq_of_lt (show _ < 2 ^ 32 by omega),
    advance_eq _ _ _ hin (by omega)] at hsame
  split at hsame <;> omega

theorem failedWrite_leaves_ring_iff (env : SysEnv) (h : RtssMbHandle) (buf : Option Mem)
    (sz : Nat) (m : Mem) :
    FailureLeavesRing env h buf sz m ↔ ¬ PublishesAndFails env h buf sz m := by
  cases buf with
  | none => exact ⟨fun _ hbad => hbad.buffer rfl, fun _ _ => ⟨rfl, rfl⟩⟩
  | some buf =>
      obtain ⟨hmem, hneg⟩ := run_rtssMbWrite env h buf m sz
      rw [FailureLeavesRing]
      simp only [hmem, hneg]
      by_cases hadm : WriteAdmitted h m sz
      · rw [run_rtssMbWriteBatch_admitted env h buf m sz hadm]
        obtain ⟨-, -, -, hsane⟩ := subRegionAt_ok _ _ _ _ hadm.located
        constructor
        · rintro hleaves ⟨-, -, hbytes, hfails⟩
          refine hadm.index_moves buf hbytes (Nat.pos_of_ne_zero fun h0 => ?_) (hleaves hfails).1
          simp [h0, int32] at hfails
        · intro hnot hfails
          by_cases hbytes : load32 m (h.base m + MbSubRgnDesc.maxItemSize) = 0
          · rw [(sane_writeItem m _ buf _ hsane).1 hbytes]
            exact ⟨rfl, rfl⟩
          · exact absurd ⟨nofun, hadm, hbytes, hfails⟩ hnot
      · obtain ⟨e, -, hrun⟩ := run_rtssMbWriteBatch_refused env h buf m sz hadm
        rw [hrun]
        exact ⟨fun _ hbad => hadm hbad.admitted, fun _ _ => ⟨rfl, rfl⟩⟩

def RtssMbHandle.sampleTx : RtssMbHandle :=
  { RtssMbHandle.blank with
    fd := 3
    pMbBaseAddr := Channel.sample.mb
    mode := rtssMbModeTx
    subchanItemSize := Channel.sample.size }

/-- Every system call succeeds except for the interrupt, which fails with `EIO`. -/
def SysEnv.interruptFails : SysEnv :=
  ⟨true, ⟨3, 0⟩, (⟨0, 0⟩, 1024), (Channel.sample.mb, 0), ⟨4, 0⟩, ⟨0, 0⟩, ⟨-1, eio⟩,
    ⟨⟨1, 0⟩, true, false⟩, ⟨0, 0⟩⟩

/-- The call reports `EIO`, and its item is in the ring. -/
theorem failedWrite_publishes :
    ¬ FailureLeavesRing SysEnv.interruptFails RtssMbHandle.sampleTx (some fun _ => 7) 2
      Channel.sampleMem := by
  intro h
  have hindex := (h (by decide)).1
  revert hindex
  decide

end RtssMailbox
