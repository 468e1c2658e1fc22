import RtssMailbox.ChannelWrite

/-!
Opening a channel handle. What a successful open says about the mapping: the
handle's address and size are those of the mapped region, and the descriptor
there carries the magic number. The size is stored and compared with nothing.
-/
namespace RtssMailbox
open Effects ByteMemory

section Runs
variable (env : SysEnv) (m : Mem)

@[simp] theorem run_numOfSubRegion (mb : Nat) :
    (Dev.numOfSubRegion mb).run (devHandler env) m = (load32 m (mb + MbDesc.numOfSubRegion), m) :=
  (Prog.run_perform (devHandler env) (.lib (.numOfSubRegion mb)) m).trans rfl

@[simp] theorem run_getChanInfo (mb : Nat) (index : UInt32) (chaninfo : MbChanDesc) :
    (Dev.getChanInfo mb index chaninfo).run (devHandler env) m =
      (libMBGetChanInfo mb index (some chaninfo)).run memHandler m :=
  (Prog.run_perform (devHandler env) (.lib (.getChanInfo mb index chaninfo)) m).trans rfl

@[simp] theorem run_calloc : Dev.calloc.run (devHandler env) m = (env.calloc, m) :=
  (Prog.run_perform (devHandler env) .calloc m).trans rfl

@[simp] theorem run_free : Dev.free.run (devHandler env) m = ((), m) :=
  (Prog.run_perform (devHandler env) .free m).trans rfl

@[simp] theorem run_open : Dev.open'.run (devHandler env) m = (env.open', m) :=
  (Prog.run_perform (devHandler env) .open m).trans rfl

@[simp] theorem run_close (fd : Int) : (Dev.close fd).run (devHandler env) m = ((), m) :=
  (Prog.run_perform (devHandler env) (.close fd) m).trans rfl

@[simp] theorem run_getMbRegion (fd : Int) :
    (Dev.getMbRegion fd).run (devHandler env) m = (env.getMbRegion, m) :=
  (Prog.run_perform (devHandler env) (.getMbRegion fd) m).trans rfl

@[simp] theorem run_mmap (size : UInt32) (fd : Int) :
    (Dev.mmap size fd).run (devHandler env) m = (env.mmap, m) :=
  (Prog.run_perform (devHandler env) (.mmap size fd) m).trans rfl

@[simp] theorem run_munmap (addr : Nat) (size : UInt32) :
    (Dev.munmap addr size).run (devHandler env) m = ((), m) :=
  (Prog.run_perform (devHandler env) (.munmap addr size) m).trans rfl

@[simp] theorem run_eventfd : Dev.eventfd.run (devHandler env) m = (env.eventfd, m) :=
  (Prog.run_perform (devHandler env) .eventfd m).trans rfl

@[simp] theorem run_setEventFd (fd : Int) (info : EvfdInfo) :
    (Dev.setEventFd fd info).run (devHandler env) m = (env.setEventFd, m) :=
  (Prog.run_perform (devHandler env) (.setEventFd fd info) m).trans rfl

end Runs

theorem run_libMBGetChanInfo_mem (mb : Nat) (index : UInt32) (chaninfo : Option MbChanDesc)
    (m : Mem) : ((libMBGetChanInfo mb index chaninfo).run memHandler m).2 = m := by
  cases chaninfo with
  | none => rfl
  | some chaninfo =>
      by_cases hmb : mb = null
      · simp [libMBGetChanInfo, hmb]
      · simp only [libMBGetChanInfo, ne_eq, hmb, not_false_eq_true, if_true, run_onSubRegion]
        split <;> simp

/-- The search for a channel only reads, and the handle that it fills in points
to the mailbox that it searched. -/
theorem run_findChannel (env : SysEnv) (mb : Nat) (dev : List UInt8) (handle : RtssMbHandle)
    (fuel : Nat) (i : UInt32) (m : Mem) :
    let r := (findChannel mb dev handle fuel i).run (devHandler env) m
    r.2 = m ∧ (r.1.1 = rtssMbReturnSuccess → r.1.2.pMbBaseAddr = mb) := by
  induction fuel generalizing i with
  | zero => exact ⟨rfl, fun h => absurd h (show ¬ -enoent = rtssMbReturnSuccess by decide)⟩
  | succ fuel ih =>
      have hmem := run_libMBGetChanInfo_mem mb i (some ⟨[], 0, 0, 0, 0, 0, 0, 0, 0⟩) m
      simp only [findChannel, Prog.run_bind, run_numOfSubRegion, run_getChanInfo, Prog.run_ite,
        hmem]
      generalize ((libMBGetChanInfo mb i (some ⟨[], 0, 0, 0, 0, 0, 0, 0, 0⟩)).run
        memHandler m).1 = info
      obtain ⟨ret, desc⟩ := info
      split
      · cases desc with
        | none => exact ⟨rfl, fun h => absurd h (show ¬ -eio = rtssMbReturnSuccess by decide)⟩
        | some desc =>
            simp only [Prog.run_ite]
            split
            · exact ⟨rfl, fun h => absurd h (show ¬ -eio = rtssMbReturnSuccess by decide)⟩
            · split
              · split
                · exact ⟨rfl, fun h =>
                    absurd h (show ¬ -enametoolong = rtssMbReturnSuccess by decide)⟩
                · exact ⟨rfl, fun _ => rfl⟩
              · exact ih (i + 1)
      · exact ⟨rfl, fun h => absurd h (show ¬ -enoent = rtssMbReturnSuccess by decide)⟩

theorem run_rest {S : Signature} {σ α β : Type} {h : Handler S σ} {p : Prog S α}
    {f : α → Prog S β} {s s' : σ} {a : α} {r : β × σ} (hp : p.run h s = (a, s'))
    (hrun : (p >>= f).run h s = r) : (f a).run h s' = r := by
  rw [Prog.run_bind, hp] at hrun
  exact hrun

/-- A program that ends with a handle has not taken a branch that ends without one. -/
theorem run_guard {S : Signature} {σ β : Type} {h : Handler S σ} {c : Prop} [Decidable c]
    {p q : Prog S (Int × Option β)} {s s' : σ} {r : Int} {b : β}
    (hrun : (if c then p else q).run h s = ((r, some b), s')) (hfail : (p.run h s).1.2 = none) :
    ¬ c ∧ q.run h s = ((r, some b), s') := by
  by_cases hc : c
  · rw [if_pos hc] at hrun
    rw [hrun] at hfail
    cases hfail
  · rw [if_neg hc] at hrun
    exact ⟨hc, hrun⟩

theorem run_libMBValidate (mb : Nat) (m : Mem) :
    ∃ ret, (libMBValidate mb).run memHandler m = (ret, m) ∧
      (ret = rtssMbReturnSuccess →
        mb ≠ null ∧ load32 m (mb + MbDesc.magic) = mbMagicNumber) := by
  by_cases hmb : mb = null
  · exact ⟨mbENullInput, by simp [libMBValidate, hmb], fun h => absurd h (by decide)⟩
  · by_cases hmagic : load32 m (mb + MbDesc.magic) = mbMagicNumber
    · exact ⟨mbESuccess, by simp [libMBValidate, hmb, hmagic], fun _ => ⟨hmb, hmagic⟩⟩
    · exact ⟨mbEInvalidMailbox, by simp [libMBValidate, hmb, hmagic],
        fun h => absurd h (by decide)⟩

theorem run_rtssmbGetdevctx (env : SysEnv) (mb : Nat) (dev : List UInt8) (handle : RtssMbHandle)
    (m : Mem) :
    ∃ r, (rtssmbGetdevctx mb handle dev).run (devHandler env) m = (r, m) ∧
      (r.1 = rtssMbReturnSuccess → r.2.pMbBaseAddr = mb) := by
  by_cases hmb : mb = null
  · have hfailed : ¬ -einval = rtssMbReturnSuccess := by decide
    refine ⟨(-einval, handle), ?_, fun h => absurd h hfailed⟩
    rw [rtssmbGetdevctx, if_pos hmb]
    rfl
  · obtain ⟨hmem, hbase⟩ := run_findChannel env mb dev handle (2 ^ 32) 0 m
    refine ⟨_, ?_, hbase⟩
    rw [rtssmbGetdevctx, if_neg hmb]
    exact Prod.ext rfl hmem

/-- What a successful open says about its handle: the mailbox starts with the
mapping, carries the magic number, and the size is the one of the region. -/
theorem rtssMbOpen_maps (env : SysEnv) (dev : List UInt8) (m m' : Mem) (h : RtssMbHandle)
    (hopen : (rtssMbOpen false (some dev)).run (devHandler env) m =
      ((rtssMbReturnSuccess, some h), m')) :
    m' = m ∧ h.pMbBaseAddr ≠ null ∧ h.mbSize = env.getMbRegion.2 ∧
      load32 m (h.pMbBaseAddr + MbDesc.magic) = mbMagicNumber := by
  rw [rtssMbOpen, if_neg Bool.false_ne_true] at hopen
  replace hopen := run_rest (run_calloc env m) hopen
  obtain ⟨-, hopen⟩ := run_guard hopen rfl
  replace hopen := run_rest (run_open env m) hopen
  obtain ⟨-, hopen⟩ := run_guard hopen rfl
  obtain ⟨region, hregion⟩ : ∃ region, env.getMbRegion = region := ⟨_, rfl⟩
  replace hopen := run_rest (run_getMbRegion env m _) hopen
  rw [hregion] at hopen ⊢
  obtain ⟨status, size⟩ := region
  obtain ⟨-, hopen⟩ := run_guard hopen rfl
  obtain ⟨-, hopen⟩ := run_guard hopen rfl
  replace hopen := run_rest (run_mmap env m _ _) hopen
  obtain ⟨-, hopen⟩ := run_guard hopen rfl
  obtain ⟨ret, hret, hvalid⟩ := run_libMBValidate env.mmap.1 m
  replace hopen := run_rest ((run_validate env _ m).trans hret) hopen
  obtain ⟨hsuccess, hopen⟩ := run_guard hopen rfl
  obtain ⟨⟨nRet, h'⟩, hfound, hbase⟩ :=
    run_rtssmbGetdevctx env env.mmap.1 dev RtssMbHandle.blank m
  replace hopen := run_rest hfound hopen
  obtain ⟨hctx, hopen⟩ := run_guard hopen rfl
  obtain ⟨hnonnull, hmagic⟩ := hvalid (not_not.mp hsuccess)
  have hmb := hbase (not_not.mp hctx)
  suffices hhandle : m' = m ∧ h.pMbBaseAddr = h'.pMbBaseAddr ∧ h.mbSize = size by
    obtain ⟨hmem, haddr, hsize⟩ := hhandle
    rw [haddr, hmb]
    exact ⟨hmem, hnonnull, hsize, hmagic⟩
  by_cases hrx : h'.mode = rtssMbModeRx
  · replace hopen := (congrArg (Prog.run (devHandler env) · m) (if_pos hrx)).symm.trans hopen
    replace hopen := run_rest (run_eventfd env m) hopen
    obtain ⟨-, hopen⟩ := run_guard hopen rfl
    replace hopen := run_rest (run_setEventFd env m _ _) hopen
    obtain ⟨-, hopen⟩ := run_guard hopen rfl
    cases hopen
    exact ⟨rfl, rfl, rfl⟩
  · replace hopen := (congrArg (Prog.run (devHandler env) · m) (if_neg hrx)).symm.trans hopen
    by_cases htx : h'.mode = rtssMbModeTx
    · replace hopen := (congrArg (Prog.run (devHandler env) · m) (if_pos htx)).symm.trans hopen
      cases hopen
      exact ⟨rfl, rfl, rfl⟩
    · replace hopen := (congrArg (Prog.run (devHandler env) · m) (if_neg htx)).symm.trans hopen
      cases hopen

end RtssMailbox
