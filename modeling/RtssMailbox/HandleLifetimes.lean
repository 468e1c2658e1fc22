import Mathlib.Data.Multiset.Bind
import RtssMailbox.ChannelWrite
import RtssMailbox.Library.Resources

/-!
What the handles of the channels hold of the process: descriptors, mappings and the block of
the handle itself. Every failure exit of an open gives back what it has acquired by then; a
close gives back all but the mapping.
-/
namespace RtssMailbox
open Effects Monitoring Resources Relation ByteMemory

/-- The operations of `rtss_mb_close`. -/
inductive CloseOp where
  | disInterrupt (fd : Int) (info : EvfdInfo)
  | close (fd : Int)
  | free

def CloseSig : Signature where
  Op := CloseOp
  Res
    | .disInterrupt _ _ => SysStatus
    | .close _ | .free => Unit

namespace Close

def disInterrupt (fd : Int) (info : EvfdInfo) : Prog CloseSig SysStatus :=
  Prog.perform (S := CloseSig) (.disInterrupt fd info)

def close (fd : Int) : Prog CloseSig Unit := Prog.perform (S := CloseSig) (.close fd)

def free : Prog CloseSig Unit := Prog.perform (S := CloseSig) .free

end Close

/-- What `rtss_mb_close` does for a channel that is read: its interrupt and its eventfd. -/
def closeRx (handle : RtssMbHandle) : Prog CloseSig Int := do
  let nRet ← Close.disInterrupt handle.fd (handle.evfdInfo rtssMbModeRx 0)
  let nCloseRet := if nRet.ret ≠ 0 then -nRet.errno else rtssMbReturnSuccess
  if handle.eventFd ≥ 0 then
    Close.close handle.eventFd
    return nCloseRet
  else
    return nCloseRet

/-- The handle is freed at the end, so that its fields are lost. -/
def rtssMbClose (handle : Option RtssMbHandle) : Prog CloseSig Int := do
  let some handle := handle | return -einval
  if handle.fd < 0 then
    return -ebadf
  let nCloseRet ← if handle.mode = rtssMbModeRx then closeRx handle else
    pure rtssMbReturnSuccess
  Close.close handle.fd
  Close.free
  return nCloseRet

/-- What a process holds: descriptors, those of `eventfd` included, mappings with their
size, and blocks of a handle. -/
inductive HandleResource where
  | fd (n : Int)
  | mapping (addr : Nat) (size : UInt32)
  | block
deriving DecidableEq

/-- What belongs to an open handle. -/
def RtssMbHandle.resources (h : RtssMbHandle) : Multiset HandleResource :=
  (if h.mode = rtssMbModeRx then {.fd h.eventFd} else 0) +
    {.mapping h.pMbBaseAddr h.mbSize, .fd h.fd, .block}

/-- A call that creates a descriptor returns -1 if it fails. -/
def fdResource (s : SysStatus) : Option HandleResource :=
  if s.ret = -1 then none else some (.fd s.ret)

def openAcquires : Event DevSig → Option HandleResource
  | ⟨.calloc, allocated⟩ => bif allocated then some .block else none
  | ⟨.open, status⟩ | ⟨.eventfd, status⟩ => fdResource status
  | ⟨.mmap size _, (addr, _)⟩ =>
      -- no mapping is placed at address zero, which the code takes for a failure too
      if addr = mapFailed ∨ addr = null then none else some (.mapping addr size)
  | _ => none

def openReleases : DevOp → Option HandleResource
  | .free => some .block
  | .close fd => some (.fd fd)
  | .munmap addr size => some (.mapping addr size)
  | _ => none

/-- A descriptor is not negative. -/
def openAssumes : Event DevSig → Prop
  | ⟨.open, status⟩ | ⟨.eventfd, status⟩ => status.ret = -1 ∨ 0 ≤ status.ret
  | _ => True

def closeAcquires : Event CloseSig → Option HandleResource := fun _ => none

def closeReleases : CloseOp → Option HandleResource
  | .free => some .block
  | .close fd => some (.fd fd)
  | .disInterrupt _ _ => none

abbrev openMonitor : Monitor DevSig (List (Change HandleResource)) :=
  monitor openAcquires openReleases openAssumes

abbrev closeMonitor : Monitor CloseSig (List (Change HandleResource)) :=
  monitor closeAcquires closeReleases fun _ => True

section Open
variable {X : Multiset HandleResource} {history : List (Change HandleResource)}

theorem keeps_dev_release {α : Type} {o : DevOp} {r : HandleResource}
    {f : DevSig.Res o → Prog DevSig α} {Q : α → List (Change HandleResource) → Prop}
    (ho : openReleases o = some r) (hheld : Holding (r ::ₘ X) history)
    (hf : ∀ a history', Holding X history' → openMonitor.Keeps Q (f a) history') :
    openMonitor.Keeps Q (Prog.perform (S := DevSig) o >>= f) history :=
  keeps_release openAcquires openReleases openAssumes ho hheld hf

theorem keeps_dev_acquire {α : Type} {o : DevOp} {f : DevSig.Res o → Prog DevSig α}
    {Q : α → List (Change HandleResource) → Prop} (ho : openReleases o = none)
    (hheld : Holding X history)
    (hf : ∀ a history', openAssumes ⟨o, a⟩ → Holding (gain X (openAcquires ⟨o, a⟩)) history' →
      openMonitor.Keeps Q (f a) history') :
    openMonitor.Keeps Q (Prog.perform (S := DevSig) o >>= f) history :=
  keeps_acquire openAcquires openReleases openAssumes ho hheld hf

theorem keeps_callLib {α : Type} {c : LibCall} {f : c.Res → Prog DevSig α}
    {Q : α → List (Change HandleResource) → Prop} (hheld : Holding X history)
    (hf : ∀ a history', Holding X history' → openMonitor.Keeps Q (f a) history') :
    openMonitor.Keeps Q (callLib c >>= f) history :=
  keeps_dev_acquire (o := .lib c) rfl hheld fun a history' _ h => hf a history' h

/-- The search for a channel holds what it has, and fills in the address of the mapping. -/
theorem findChannel_keeps (mb : Nat) (dev : List UInt8) (handle : RtssMbHandle) (fuel : Nat)
    (i : UInt32) (hheld : Holding X history) :
    openMonitor.Keeps (fun r history' => Holding X history' ∧
      (r.1 = rtssMbReturnSuccess → r.2.pMbBaseAddr = mb))
      (findChannel mb dev handle fuel i) history := by
  induction fuel generalizing i history with
  | zero => exact ⟨hheld, fun h => absurd h (show ¬ -enoent = rtssMbReturnSuccess by decide)⟩
  | succ fuel ih =>
      refine keeps_callLib hheld fun num history₁ h₁ => .guard (fun _ => ?_) fun _ => ?_
      · refine keeps_callLib h₁ fun r history₂ h₂ => ?_
        obtain ⟨nRet, info⟩ := r
        cases info with
        | none => exact ⟨h₂, fun h => absurd h (show ¬ -eio = rtssMbReturnSuccess by decide)⟩
        | some desc =>
            refine .guard (fun _ => ?_) fun _ => .guard (fun _ => .guard (fun _ => ?_) fun _ => ?_)
              fun _ => ih (i + 1) h₂
            · exact ⟨h₂, fun h => absurd h (show ¬ -eio = rtssMbReturnSuccess by decide)⟩
            · exact ⟨h₂, fun h => absurd h (show ¬ -enametoolong = rtssMbReturnSuccess by decide)⟩
            · exact ⟨h₂, fun _ => rfl⟩
      · exact ⟨h₁, fun h => absurd h (show ¬ -enoent = rtssMbReturnSuccess by decide)⟩

theorem rtssmbGetdevctx_keeps (mb : Nat) (handle : RtssMbHandle) (dev : List UInt8)
    (hheld : Holding X history) :
    openMonitor.Keeps (fun r history' => Holding X history' ∧
      (r.1 = rtssMbReturnSuccess → r.2.pMbBaseAddr = mb))
      (rtssmbGetdevctx mb handle dev) history := by
  refine .guard (fun _ => ?_) fun _ => findChannel_keeps mb dev handle _ 0 hheld
  exact ⟨hheld, fun h => absurd h (show ¬ -einval = rtssMbReturnSuccess by decide)⟩

/-- After a successful open the handle's resources have come to those that were held, after
any other nothing has. -/
def Opened (X : Multiset HandleResource) (r : Int × Option RtssMbHandle)
    (history : List (Change HandleResource)) : Prop :=
  match r.2 with
  | some h => Holding (h.resources + X) history ∧ 0 ≤ h.fd ∧
      (h.mode = rtssMbModeRx → 0 ≤ h.eventFd)
  | none => Holding X history

/-! The exits of an open, each with what it gives back. -/

theorem exit_free (hheld : Holding (.block ::ₘ X) history) (ret : Int) :
    openMonitor.Keeps (Opened X) (do Dev.free; return (ret, none)) history :=
  keeps_dev_release (o := .free) rfl hheld fun _ _ h => h

theorem exit_close {fd : Int} (hheld : Holding (.fd fd ::ₘ .block ::ₘ X) history) (ret : Int) :
    openMonitor.Keeps (Opened X) (do Dev.close fd; Dev.free; return (ret, none)) history :=
  keeps_dev_release (o := .close fd) rfl hheld fun _ _ h => exit_free h ret

theorem exit_munmap {fd : Int} {addr : Nat} {size : UInt32}
    (hheld : Holding (.mapping addr size ::ₘ .fd fd ::ₘ .block ::ₘ X) history) (ret : Int) :
    openMonitor.Keeps (Opened X)
      (do Dev.munmap addr size; Dev.close fd; Dev.free; return (ret, none)) history :=
  keeps_dev_release (o := .munmap addr size) rfl hheld fun _ _ h => exit_close h ret

theorem exit_eventfd {fd eventFd : Int} {addr : Nat} {size : UInt32}
    (hheld : Holding (.fd eventFd ::ₘ .mapping addr size ::ₘ .fd fd ::ₘ .block ::ₘ X) history)
    (ret : Int) :
    openMonitor.Keeps (Opened X)
      (do Dev.close eventFd; Dev.munmap addr size; Dev.close fd; Dev.free; return (ret, none))
      history :=
  keeps_dev_release (o := .close eventFd) rfl hheld fun _ _ h => exit_munmap h ret

/-- The resources of the handle that an open fills in. -/
theorem opened_resources_rx {h : RtssMbHandle} {eventFd fd : Int} {size : UInt32}
    (hrx : h.mode = rtssMbModeRx) :
    RtssMbHandle.resources { h with mbSize := size, eventFd := eventFd, fd := fd } + X =
      .fd eventFd ::ₘ .mapping h.pMbBaseAddr size ::ₘ .fd fd ::ₘ .block ::ₘ X := by
  simp only [RtssMbHandle.resources, if_pos hrx, Multiset.insert_eq_cons,
    Multiset.singleton_add, Multiset.cons_add]

theorem opened_resources_tx {h : RtssMbHandle} {fd : Int} {size : UInt32}
    (hrx : h.mode ≠ rtssMbModeRx) :
    RtssMbHandle.resources { h with mbSize := size, eventFd := -1, fd := fd } + X =
      .mapping h.pMbBaseAddr size ::ₘ .fd fd ::ₘ .block ::ₘ X := by
  simp only [RtssMbHandle.resources, if_neg hrx, Multiset.insert_eq_cons, Multiset.zero_add,
    Multiset.singleton_add, Multiset.cons_add]

theorem rtssMbOpen_keeps (handleIsNull : Bool) (dev : Option (List UInt8))
    (hheld : Holding X history) :
    openMonitor.Keeps (Opened X) (rtssMbOpen handleIsNull dev) history := by
  refine .guard (fun _ => hheld) fun _ => ?_
  cases dev with
  | none => exact hheld
  | some dev =>
  refine keeps_dev_acquire (o := .calloc) rfl hheld fun allocated _ _ hblock => ?_
  obtain hfalse | htrue : allocated = false ∨ allocated = true := by
    cases (allocated : Bool) with
    | false => exact Or.inl rfl
    | true => exact Or.inr rfl
  · subst hfalse
    exact hblock
  subst htrue
  refine keeps_dev_acquire (o := .open) rfl hblock fun nFd _ hfd hopened => ?_
  have hacquired : openAcquires ⟨.open, nFd⟩ =
      if nFd.ret = -1 then none else some (.fd nFd.ret) := rfl
  refine .guard (fun hfail => ?_) fun hok' => ?_
  · rw [hacquired, gain_failed hfail] at hopened
    exact exit_free hopened _
  rw [hacquired, gain_succeeded hok'] at hopened
  refine keeps_dev_acquire (o := .getMbRegion nFd.ret) rfl hopened fun region _ _ hregion => ?_
  obtain ⟨status, size⟩ := region
  refine .guard (fun _ => exit_close hregion _) fun _ => ?_
  refine .guard (fun _ => exit_close hregion _) fun _ => ?_
  refine keeps_dev_acquire (o := .mmap size nFd.ret) rfl hregion fun mapped _ _ hmapped => ?_
  obtain ⟨addr, mmapErrno⟩ := mapped
  have hacquired : openAcquires ⟨.mmap size nFd.ret, (addr, mmapErrno)⟩ =
      if addr = mapFailed ∨ addr = null then none else some (.mapping addr size) := rfl
  refine .guard (fun hfail => ?_) fun hok => ?_
  · rw [hacquired, gain_failed hfail] at hmapped
    exact exit_close hmapped _
  rw [hacquired, gain_succeeded hok] at hmapped
  refine keeps_callLib hmapped fun (nRet : Int) _ hvalid => ?_
  refine .guard (fun _ => exit_munmap hvalid _) fun _ => ?_
  refine (rtssmbGetdevctx_keeps addr RtssMbHandle.blank dev hvalid).then fun r _ hfound => ?_
  obtain ⟨nRet, h⟩ := r
  obtain ⟨hfound, hbase⟩ := hfound
  refine .guard (fun _ => exit_munmap hfound _) fun hsuccess => ?_
  have hbase : h.pMbBaseAddr = addr := hbase (not_not.mp hsuccess)
  refine .guard (fun hrx => ?_) fun hrx => .guard (fun htx => ?_) fun _ => exit_munmap hfound _
  · refine keeps_dev_acquire (o := .eventfd) rfl hfound fun evfd _ hevfd hcreated => ?_
    have hacquired : openAcquires ⟨.eventfd, evfd⟩ =
        if evfd.ret = -1 then none else some (.fd evfd.ret) := rfl
    refine .guard (fun hfail => ?_) fun hok => ?_
    · rw [hacquired, gain_failed hfail] at hcreated
      exact exit_munmap hcreated _
    rw [hacquired, gain_succeeded hok] at hcreated
    refine keeps_dev_acquire (o := .setEventFd nFd.ret _) rfl hcreated fun set _ _ hset => ?_
    refine .guard (fun _ => exit_eventfd hset _) fun _ => ?_
    refine ⟨?_, hfd.resolve_left hok', fun _ => hevfd.resolve_left hok⟩
    rw [opened_resources_rx hrx, hbase]
    exact hset
  · refine ⟨?_, hfd.resolve_left hok', fun h => absurd h hrx⟩
    rw [opened_resources_tx hrx, hbase]
    exact hfound

end Open

section Close
variable {X : Multiset HandleResource} {history : List (Change HandleResource)}

theorem keeps_close_release {α : Type} {o : CloseOp} {r : HandleResource}
    {f : CloseSig.Res o → Prog CloseSig α} {Q : α → List (Change HandleResource) → Prop}
    (ho : closeReleases o = some r) (hheld : Holding (r ::ₘ X) history)
    (hf : ∀ a history', Holding X history' → closeMonitor.Keeps Q (f a) history') :
    closeMonitor.Keeps Q (Prog.perform (S := CloseSig) o >>= f) history :=
  keeps_release closeAcquires closeReleases (fun _ => True) ho hheld hf

/-- The end of a close: the descriptor of the device and the block. -/
theorem close_end_keeps {fd : Int} (hheld : Holding (.fd fd ::ₘ .block ::ₘ X) history)
    (ret : Int) :
    closeMonitor.Keeps (fun _ => Holding X)
      (do Close.close fd; Close.free; return ret) history :=
  keeps_close_release (o := .close fd) rfl hheld fun _ _ hblock =>
    keeps_close_release (o := .free) rfl hblock fun _ _ hdone => hdone

theorem closeRx_keeps {h : RtssMbHandle} (hevent : 0 ≤ h.eventFd)
    (hheld : Holding (.fd h.eventFd ::ₘ X) history) :
    closeMonitor.Keeps (fun _ => Holding X) (closeRx h) history := by
  refine keeps_acquire closeAcquires closeReleases (fun _ => True)
    (o := (.disInterrupt h.fd (h.evfdInfo rtssMbModeRx 0) : CloseOp)) rfl hheld
      fun nRet _ _ hdisabled => .guard (fun _ => ?_) fun hneg => absurd hevent hneg
  exact keeps_close_release (o := .close h.eventFd) rfl hdisabled fun _ _ hclosed => hclosed

/-- A close gives back the descriptors and the block of the handle, and keeps its mapping. -/
theorem rtssMbClose_keeps {h : RtssMbHandle} (hfd : 0 ≤ h.fd)
    (hevent : h.mode = rtssMbModeRx → 0 ≤ h.eventFd)
    (hheld : Holding (h.resources + X) history) :
    closeMonitor.Keeps (fun _ => Holding (.mapping h.pMbBaseAddr h.mbSize ::ₘ X))
      (rtssMbClose (some h)) history := by
  refine .guard (fun hneg => absurd hfd (Int.not_le.mpr hneg)) fun _ => ?_
  have hrest : ∀ X : Multiset HandleResource,
      ({.mapping h.pMbBaseAddr h.mbSize, .fd h.fd, .block} : Multiset HandleResource) + X =
        .fd h.fd ::ₘ .block ::ₘ .mapping h.pMbBaseAddr h.mbSize ::ₘ X := by
    intro X
    rw [Multiset.insert_eq_cons, Multiset.insert_eq_cons, Multiset.cons_add, Multiset.cons_add,
      Multiset.singleton_add, Multiset.cons_swap, Multiset.cons_swap HandleResource.block]
  by_cases hrx : h.mode = rtssMbModeRx
  · rw [RtssMbHandle.resources, if_pos hrx, Multiset.add_assoc, Multiset.singleton_add,
      hrest] at hheld
    rw [if_pos hrx]
    exact (closeRx_keeps (hevent hrx) hheld).then fun _ _ hclosed => close_end_keeps hclosed _
  · rw [RtssMbHandle.resources, if_neg hrx, Multiset.zero_add, hrest] at hheld
    rw [if_neg hrx]
    exact close_end_keeps hheld _

end Close

/-- What the process acquired and released, its open handles, and those that it closed. -/
structure HandleTable where
  history : List (Change HandleResource)
  handles : Multiset RtssMbHandle
  closed : Multiset RtssMbHandle

def HandleTable.initial : HandleTable := ⟨[], 0, 0⟩

/-- The calls of open and close, with any answers of the system. A handle is not used after
its close. -/
inductive HandleCall : HandleTable → HandleTable → Prop
  | open (handleIsNull : Bool) (dev : Option (List UInt8)) (t : List (Event DevSig)) (ret : Int)
      (h : Option RtssMbHandle) (s : HandleTable)
      (hruns : Runs (rtssMbOpen handleIsNull dev) t (.ret (ret, h)))
      (hassumed : openMonitor.Assumed s.history t) :
      HandleCall s { s with
        history := openMonitor.after s.history t
        handles := Multiset.ofList h.toList + s.handles }
  | close (h : RtssMbHandle) (others : Multiset RtssMbHandle) (t : List (Event CloseSig))
      (ret : Int) (s : HandleTable) (hopen : s.handles = h ::ₘ others)
      (hruns : Runs (rtssMbClose (some h)) t (.ret ret)) :
      HandleCall s {
        history := closeMonitor.after s.history t
        handles := others
        closed := h ::ₘ s.closed }
  | closeNull (t : List (Event CloseSig)) (ret : Int) (s : HandleTable)
      (hruns : Runs (rtssMbClose none) t (.ret ret)) :
      HandleCall s { s with history := closeMonitor.after s.history t }

/-- What is held is what belongs to the open handles, and nothing was released twice. -/
def HandleTable.Exact (s : HandleTable) : Prop :=
  Proper s.history ∧ held s.history = s.handles.bind RtssMbHandle.resources

/-- What is held beside the resources of the open handles is a mapping for each close. -/
structure HandleInv (s : HandleTable) : Prop where
  holding : Holding (s.handles.bind RtssMbHandle.resources +
    s.closed.map fun h => .mapping h.pMbBaseAddr h.mbSize) s.history
  open' : ∀ h ∈ s.handles, 0 ≤ h.fd ∧ (h.mode = rtssMbModeRx → 0 ≤ h.eventFd)

theorem HandleInv.initial : HandleInv .initial :=
  ⟨⟨.nil, rfl⟩, fun _ h => absurd h (Multiset.notMem_zero _)⟩

theorem HandleCall.inv {s s' : HandleTable} (hcall : HandleCall s s') (hinv : HandleInv s) :
    HandleInv s' := by
  cases hcall with
  | «open» handleIsNull dev t ret h _ hruns hassumed =>
      obtain ⟨-, hopened⟩ := (rtssMbOpen_keeps handleIsNull dev hinv.holding).runs hruns hassumed
      cases h with
      | none =>
          constructor
          · rw [Option.toList_none, Multiset.coe_nil, Multiset.zero_add]
            exact hopened
          · intro h' hmem
            rw [Option.toList_none, Multiset.coe_nil, Multiset.zero_add] at hmem
            exact hinv.open' h' hmem
      | some h =>
          obtain ⟨hheld, hfds⟩ : Opened _ (ret, some h) _ := hopened
          constructor
          · rw [Option.toList_some, Multiset.coe_singleton, Multiset.singleton_add,
              Multiset.cons_bind, Multiset.add_assoc]
            exact hheld
          · intro h' hmem
            rcases Multiset.mem_cons.mp hmem with rfl | hmem
            · exact hfds
            · exact hinv.open' h' hmem
  | close h others t ret _ hopen hruns =>
      obtain ⟨hfd, hevent⟩ := hinv.open' h (hopen ▸ Multiset.mem_cons_self h others)
      have hheld := hinv.holding
      rw [hopen, Multiset.cons_bind, add_assoc] at hheld
      obtain ⟨-, hclosed⟩ := (rtssMbClose_keeps hfd hevent hheld).runs hruns fun _ _ _ _ => trivial
      constructor
      · rw [Multiset.map_cons, Multiset.add_cons]
        exact hclosed
      · exact fun h' hmem => hinv.open' h' (hopen ▸ Multiset.mem_cons_of_mem hmem)
  | closeNull t ret _ hruns =>
      have hkeeps : closeMonitor.Keeps (fun _ history => history = s.history) (rtssMbClose none)
          s.history := rfl
      obtain ⟨-, hsame⟩ := hkeeps.runs hruns fun _ _ _ _ => trivial
      have hsame : closeMonitor.after s.history t = s.history := hsame
      refine ⟨?_, hinv.open'⟩
      simp only [hsame]
      exact hinv.holding

theorem handleInv_run {s : HandleTable} (hrun : ReflTransGen HandleCall .initial s) :
    HandleInv s := by
  induction hrun with
  | refl => exact .initial
  | tail _ hcall ih => exact hcall.inv ih

theorem HandleInv.exact_iff {s : HandleTable} (hinv : HandleInv s) :
    s.Exact ↔ s.closed = 0 := by
  obtain ⟨hproper, hheld⟩ := hinv.holding
  rw [HandleTable.Exact, and_iff_right hproper, hheld, add_eq_left, Multiset.map_eq_zero]

/-- In every run of opens and closes nothing is released that is not held, and what is held
belongs to the open handles exactly if none was closed: each close leaves its mapping. -/
theorem handle_resources {s : HandleTable} (hrun : ReflTransGen HandleCall .initial s) :
    Proper s.history ∧
      held s.history = s.handles.bind RtssMbHandle.resources +
        (s.closed.map fun h => .mapping h.pMbBaseAddr h.mbSize) ∧
      (s.Exact ↔ s.closed = 0) := by
  have hinv := handleInv_run hrun
  exact ⟨hinv.holding.1, hinv.holding.2, hinv.exact_iff⟩

def closeSucceeds : Handler CloseSig Unit
  | .disInterrupt _ _, s => (⟨0, 0⟩, s)
  | .close _, s | .free, s => ((), s)

theorem openAssumes_devHandler {env : SysEnv} (hopen : 0 ≤ env.open'.ret)
    (hevent : 0 ≤ env.eventfd.ret) (o : DevOp) (m : Mem) :
    openAssumes ⟨o, (devHandler env o m).1⟩ := by
  cases o with
  | «open» => exact Or.inr hopen
  | eventfd => exact Or.inr hevent
  | _ => trivial

theorem exists_closed : ∃ s, ReflTransGen HandleCall .initial s ∧ s.closed ≠ 0 := by
  have hopened : ((rtssMbOpen false (some [])).run (devHandler SysEnv.interruptFails)
      Channel.sampleMem).1.2.isSome := by decide +kernel
  have hruns := runs_eventTrace (devHandler SysEnv.interruptFails) (rtssMbOpen false (some []))
    Channel.sampleMem
  generalize ((rtssMbOpen false (some [])).run (devHandler SysEnv.interruptFails)
    Channel.sampleMem).1 = r at hopened hruns
  obtain ⟨ret, h⟩ := r
  obtain ⟨h, rfl⟩ := Option.isSome_iff_exists.mp hopened
  have hassumed := Monitor.assumed_eventTrace (M := openMonitor) (devHandler SysEnv.interruptFails)
    (fun _ o m => openAssumes_devHandler (by decide) (by decide) o m)
    (rtssMbOpen false (some [])) Channel.sampleMem []
  refine ⟨_, (ReflTransGen.single (.open false (some []) _ ret (some h) .initial hruns
    hassumed)).tail (.close h 0 _ _ _ rfl (runs_eventTrace closeSucceeds (rtssMbClose (some h))
      ())), Multiset.cons_ne_zero⟩

theorem handle_resources_sample : ∃ s : HandleTable, s.closed ≠ 0 ∧ Proper s.history ∧
    held s.history = s.handles.bind RtssMbHandle.resources +
      (s.closed.map fun h => .mapping h.pMbBaseAddr h.mbSize) ∧
    (s.Exact ↔ s.closed = 0) := by
  obtain ⟨s, hrun, hclosed⟩ := exists_closed
  exact ⟨s, hclosed, handle_resources hrun⟩

/-- After the close the mapping is still held, and belongs to no handle. -/
theorem close_leaks_mapping :
    ¬ ∀ s : HandleTable, ReflTransGen HandleCall .initial s → s.Exact := by
  intro h
  obtain ⟨s, hrun, hclosed⟩ := exists_closed
  exact hclosed ((handleInv_run hrun).exact_iff.mp (h s hrun))

end RtssMailbox
