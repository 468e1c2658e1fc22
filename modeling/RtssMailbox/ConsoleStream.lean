import RtssMailbox.HandleLifetimes
import RtssMailbox.Library.Layers
import RtssMailbox.MailboxSessions
import RtssMailbox.UpdaterMessages

/-!
The console on a created mailbox. It opens the log channel and copies what the owner writes
there to its standard output, while the owner and other clients call the library at any time.
A write of the output may take a part of the bytes only, which the loop does not look at.
-/
namespace RtssMailbox
open Effects ByteMemory CyclicBuffer Iteration Monitoring Monitor Refinement

def rtssConsoleBufSize : Nat := 24576
def rtssConsoleChannel : CString := cString "/dev/sail/log"

/-- The operations of the console besides those of its channel: `g_running` is read, and the
output written. -/
inductive ConsoleOp where
  | dev (o : DevOp)
  | mbClose (o : CloseOp)
  | malloc (size : Nat)
  | free
  | running
  | write (buf : Option Mem) (count : Nat)

def ConsoleSig : Signature where
  Op := ConsoleOp
  Res
    | .dev o => DevSig.Res o
    | .mbClose o => CloseSig.Res o
    | .malloc _ => Option Mem
    | .free => Unit
    | .running => Bool
    | .write _ _ => Int

namespace Console

def dev {α : Type} (p : Prog DevSig α) : Prog ConsoleSig α :=
  p.expand fun o => Prog.perform (S := ConsoleSig) (.dev o)

def mbClose (handle : Option RtssMbHandle) : Prog ConsoleSig Int :=
  (rtssMbClose handle).expand fun o => Prog.perform (S := ConsoleSig) (.mbClose o)

def malloc (size : Nat) : Prog ConsoleSig (Option Mem) :=
  Prog.perform (S := ConsoleSig) (.malloc size)

def free : Prog ConsoleSig Unit := Prog.perform (S := ConsoleSig) .free

def running : Prog ConsoleSig Bool := Prog.perform (S := ConsoleSig) .running

def write (buf : Option Mem) (count : Nat) : Prog ConsoleSig Int :=
  Prog.perform (S := ConsoleSig) (.write buf count)

end Console

/-- Where `main` is between its operations: at its start, at the test of its loop, or inside
the read with the read's own control point. -/
inductive ConsolePoint where
  | start
  | test (client : Option RtssMbHandle) (buf : Option Mem)
  | reading (client : Option RtssMbHandle) (buf : Option Mem) (point : ReadPoint)

/-- The end of `main` behind its loop. -/
def rtssConsoleEnd (client : Option RtssMbHandle) : Prog ConsoleSig (ConsolePoint ⊕ UInt32) := do
  let _ ← Console.mbClose client
  Console.free
  return .inr exitSuccess

/-- What `main` does with the outcome of a read. -/
def rtssConsolePrint (client : Option RtssMbHandle) :
    ReadPoint ⊕ (Int × Option Mem) → Option Mem → Prog ConsoleSig (ConsolePoint ⊕ UInt32)
  | .inl point, buf => return .inl (.reading client buf point)
  | .inr (ret, buf), _ => do
      if ret = -eintr then
        rtssConsoleEnd client
      else if ret ≤ 0 then
        rtssConsoleEnd client
      else
        let written ← Console.write buf ret.toNat
        if written < 0 then
          rtssConsoleEnd client
        else
          return .inl (.test client buf)

def rtssConsoleMain : ConsolePoint → Prog ConsoleSig (ConsolePoint ⊕ UInt32)
  | .start => do
      let buf ← Console.malloc rtssConsoleBufSize
      if buf.isNone then
        return .inr exitFailure
      let (ret, client) ← Console.dev (rtssMbOpen false (some rtssConsoleChannel))
      if ret ≠ rtssMbReturnSuccess then
        Console.free
        return .inr exitFailure
      return .inl (.test client buf)
  | .test client buf => do
      let running ← Console.running
      if running then
        return .inl (.reading client buf .start)
      rtssConsoleEnd client
  | .reading client buf point => do
      let r ← Console.dev (rtssMbRead client buf rtssConsoleBufSize point)
      rtssConsolePrint client r buf

def consoleCalls : Calls ConsoleSig Unit ConsolePoint UInt32 where
  start := .start
  body _ := rtssConsoleMain

/-! What happens beside the console, and what its operations may do. -/

/-- The memory of the mailbox, the items that were written to each channel, `g_running`, the
bytes of the output, and whether every write of the output took all its bytes. -/
structure ConsoleState where
  mem : Mem
  written : UInt32 → List (List UInt8)
  running : Bool
  stdout : List UInt8
  whole : Bool

/-- A call that takes items out of its ring. -/
def RingCall.Takes : RingCall → Prop
  | .read _ _ | .chanReset => True
  | .write _ _ | .getFreeItemNum | .getValidItemNum => False

/-- The items that a call with its return value has added to the ring. -/
def RingCall.adds (size : Nat) (ret : Int) : RingCall → List (List UInt8)
  | .write source itemNum => if 0 < ret then bufferItems size source itemNum.toNat else []
  | .read _ _ | .chanReset | .getFreeItemNum | .getValidItemNum => []

/-- The library call of another party, which reads no channel that the owner writes, or a
signal. -/
inductive OthersStep (pl : MailboxPlan) : ConsoleState → ConsoleState → Prop
  | call (index : UInt32) (c : RingCall) (s : ConsoleState)
      (huse : (pl.cfg index).mode ≠ mbChanRdMode → ¬ c.Takes) :
      OthersStep pl s { s with
        mem := (c.run pl.mb index s.mem).2
        written := Function.update s.written index (s.written index ++
          c.adds (pl.cfg index).itemMaxSize.toNat (c.run pl.mb index s.mem).1.1) }
  | signal (s : ConsoleState) : OthersStep pl s { s with running := false }

/-- The device maps the mailbox, if anything, and `errno` is never negative. -/
def channelAnswers (pl : MailboxPlan) :
    (o : DevOp) → ConsoleState → DevSig.Res o → ConsoleState → Prop
  | .lib c, s, r, s' =>
      r = (c.prog.run memHandler s.mem).1 ∧
        s' = { s with mem := (c.prog.run memHandler s.mem).2 }
  | .open, s, r, s' => s' = s ∧ (r.ret = -1 ∨ 0 ≤ r.ret)
  | .mmap _ _, s, r, s' => s' = s ∧ (r.1 = mapFailed ∨ r.1 = null ∨ r.1 = pl.mb)
  | .poll _ _, s, r, s' => s' = s ∧ 0 ≤ r.errno
  | .eventfdRead _, s, r, s' => s' = s ∧ 0 ≤ r.errno
  | _, s, _, s' => s' = s

/-- A write of the output fails, or takes bytes from the start of the buffer. -/
def consoleAnswers (pl : MailboxPlan) :
    (o : ConsoleOp) → ConsoleState → ConsoleSig.Res o → ConsoleState → Prop
  | .dev o, s, r, s' => channelAnswers pl o s r s'
  | .running, s, r, s' => r = s.running ∧ s' = s
  | .write buf count, s, (ret : Int), s' =>
      ret = -1 ∧ s' = { s with whole := false } ∨
        ∃ bytes n, buf = some bytes ∧ ret = Int.ofNat n ∧ n ≤ count ∧
          s' = { s with
            stdout := s.stdout ++ loadBytes bytes 0 n
            whole := s.whole && n == count }
  | _, s, _, s' => s' = s

def consoleEnvironment (pl : MailboxPlan) : Environment ConsoleSig ConsoleState :=
  ⟨consoleAnswers pl, OthersStep pl⟩

/-- The operations of the channel API in it. -/
def channelEnvironment (pl : MailboxPlan) : Environment DevSig ConsoleState :=
  ⟨channelAnswers pl, OthersStep pl⟩

/-! The search for the channel beside the others. -/

/-- Operations of an open, which only look at the mailbox. -/
def DevOp.Looks : DevOp → Prop
  | .lib (.write _ _ _ _) | .lib (.read _ _ _ _) => False
  | .lib (.getFreeItemNum _ _) | .lib (.getValidItemNum _ _) => False
  | _ => True

/-- Each library call sees a memory that can be searched, not always the same one. -/
def MailboxPlan.Searched (pl : MailboxPlan) : Event DevSig → Prop
  | ⟨.lib c, r⟩ => ∃ m, Discoverable pl.mb pl.mbCfg pl.subregionCfg m ∧
      r = (c.prog.run memHandler m).1
  | ⟨.open, (status : SysStatus)⟩ => status.ret = -1 ∨ 0 ≤ status.ret
  | ⟨.mmap _ _, (r : Nat × Int)⟩ => r.1 = mapFailed ∨ r.1 = null ∨ r.1 = pl.mb
  | _ => True

def MailboxPlan.search (pl : MailboxPlan) : Monitor DevSig Unit where
  next _ _ := ()
  allows _ o := o.Looks
  assumes _ := pl.Searched

section Search
variable {pl : MailboxPlan}

/-- Whatever happens to the rings between two looks, the search goes by the configuration. -/
theorem findChannel_searches (dev : CString) (hdev : 0 ∉ dev) (handle : RtssMbHandle)
    (fuel i : Nat) (hfuel : pl.mbCfg.numSubRegions.toNat < fuel + i)
    (hi : i ≤ pl.mbCfg.numSubRegions.toNat) :
    pl.search.Keeps (fun r _ => r = searchResult pl.mb pl.mbCfg pl.subregionCfg dev handle
        (searchEnd pl.mbCfg pl.subregionCfg dev i))
      (findChannel pl.mb dev handle fuel (UInt32.ofNat i)) () := by
  have hlt := pl.mbCfg.numSubRegions.toNat_lt
  induction fuel generalizing i with
  | zero => omega
  | succ fuel ih =>
      have hnat : (UInt32.ofNat i).toNat = i := by
        rw [UInt32.toNat_ofNat']
        exact Nat.mod_eq_of_lt (by omega)
      refine ⟨trivial, fun num hnum => ?_⟩
      obtain ⟨m, hm, rfl⟩ := hnum
      have hcount : ((LibCall.numOfSubRegion pl.mb).prog.run memHandler m).1 =
          pl.mbCfg.numSubRegions := hm.num
      rw [hcount]
      refine .guard (fun hmore => ?_) fun hdone => ?_
      · rw [UInt32.lt_iff_toNat_lt, hnat] at hmore
        refine ⟨trivial, fun info hinfo => ?_⟩
        obtain ⟨m', hm', rfl⟩ := hinfo
        have hanswer := congrArg Prod.fst (hm'.chanInfo pl.mb_ne_null (UInt32.ofNat i)
          (by rw [hnat]; exact hmore) ⟨[], 0, 0, 0, 0, 0, 0, 0, 0⟩)
        rw [hnat] at hanswer
        rw [show ((LibCall.getChanInfo pl.mb (UInt32.ofNat i)
          ⟨[], 0, 0, 0, 0, 0, 0, 0, 0⟩).prog.run memHandler m').1 = _ from hanswer,
          searchEnd_of_lt _ _ _ hmore]
        by_cases hs : Serves pl.mbCfg (subregionCfgAt pl.subregionCfg i) (UInt32.ofNat i)
        · have hends := endsSearch_iff pl.mbCfg pl.subregionCfg hdev hs
          rw [if_pos hs]
          refine .guard (fun hsame => ?_) fun hother => ?_
          · rw [if_pos (hends.mpr hsame), searchResult, if_neg (not_not.mpr hs)]
            refine .guard (fun hlong => ?_) fun hlong => ?_
            · rw [if_pos hlong]
              rfl
            · rw [if_neg hlong]
              rfl
          · rw [if_neg (mt hends.mp hother)]
            exact UInt32.ofNat_add i 1 ▸ ih (i + 1) (by omega) hmore
        · have hends : EndsSearch pl.mbCfg pl.subregionCfg dev i := Or.inl hs
          rw [if_neg hs, if_pos hends, searchResult, if_pos hs]
          exact (rfl : (-eio, handle) = (-eio, handle))
      · rw [UInt32.lt_iff_toNat_lt, hnat] at hdone
        rw [show i = pl.mbCfg.numSubRegions.toNat by omega, searchEnd_all]
        rfl

section Open
variable {index : UInt32} {dev : CString} (hs : Serves pl.mbCfg (pl.cfg index) index)

/-- A handle that comes out of an open is one of the channel. -/
def OpensOn (r : Int × Option RtssMbHandle) (_ : Unit) : Prop :=
  ∀ h ∈ r.2, OpenOn h (pl.channel index hs)

variable {hs}

/-- An exit that gives back what the open has acquired. -/
theorem exit_opensOn {p : Prog DevSig Unit} {ret : Int} (hp : Only DevOp.Looks p) :
    pl.search.Keeps (OpensOn hs) (p >>= fun _ => .ret (ret, none)) () :=
  (hp.keeps (P := fun _ => True) (fun _ _ ho _ => ⟨ho, fun _ _ => trivial⟩) trivial).then
    fun _ _ _ h hh => absurd hh (Option.not_mem_none h)

/-- The channel of the search, with the descriptors of the open. -/
theorem openOn_found {r : Int × RtssMbHandle} {handle : RtssMbHandle} {fd eventFd : Int}
    {size : UInt32}
    (hr : r = searchResult pl.mb pl.mbCfg pl.subregionCfg dev handle (some index.toNat))
    (hok : r.1 = rtssMbReturnSuccess) (hfd : 0 ≤ fd) :
    OpenOn { r.2 with mbSize := size, eventFd := eventFd, fd := fd } (pl.channel index hs) := by
  have hserves : Serves pl.mbCfg (subregionCfgAt pl.subregionCfg index.toNat)
      (UInt32.ofNat index.toNat) := by
    rw [UInt32.ofNat_toNat]
    exact hs
  rw [searchResult, if_neg (not_not.mpr hserves)] at hr
  by_cases hlong : dev.length ≥ rtssMailboxNameSize
  · rw [hr, if_pos hlong] at hok
    exact absurd hok (show ¬ -enametoolong = rtssMbReturnSuccess by decide)
  · rw [if_neg hlong, UInt32.ofNat_toNat] at hr
    rw [hr]
    exact ⟨hfd, rfl, rfl, rfl⟩

theorem rtssMbOpen_searches (hdev : 0 ∉ dev)
    (hfound : searchEnd pl.mbCfg pl.subregionCfg dev 0 = some index.toNat) :
    pl.search.Keeps (OpensOn hs) (rtssMbOpen false (some dev)) () := by
  have hnone : ∀ ret, OpensOn hs (ret, none) () := fun _ h hh => absurd hh (Option.not_mem_none h)
  have hperform : ∀ o : DevOp, o.Looks → Only DevOp.Looks (Prog.perform (S := DevSig) o) :=
    fun o ho => .perform ho
  refine .guard (fun h => absurd h Bool.false_ne_true) fun _ => ⟨trivial, fun allocated _ => ?_⟩
  refine .guard (fun _ => hnone _) fun _ => ⟨trivial, fun (nFd : SysStatus) hopen => ?_⟩
  refine .guard (fun _ => ?_) fun hopened => ?_
  · exact exit_opensOn (p := Dev.free) (hperform .free trivial)
  have hfd : 0 ≤ nFd.ret := hopen.resolve_left hopened
  have hclose : Only DevOp.Looks (do Dev.close nFd.ret; Dev.free) :=
    (hperform (.close _) trivial).bind fun _ => hperform .free trivial
  refine ⟨trivial, fun (status, size) _ => .guard (fun _ => exit_opensOn hclose) fun _ => ?_⟩
  refine .guard (fun _ => exit_opensOn hclose) fun _ => ?_
  refine ⟨trivial, fun (addr, errno) hmmap => .guard (fun _ => exit_opensOn hclose) fun hnot => ?_⟩
  obtain ⟨hfailed, hnull⟩ := not_or.mp hnot
  obtain rfl : addr = pl.mb := (hmmap.resolve_left hfailed).resolve_left hnull
  have hunmap : Only DevOp.Looks (do Dev.munmap pl.mb size; Dev.close nFd.ret; Dev.free) :=
    (hperform (.munmap _ _) trivial).bind fun _ => hclose
  refine ⟨trivial, fun (nRet : Int) _ => .guard (fun _ => exit_opensOn hunmap) fun _ => ?_⟩
  have hbounded := pl.checked.bounded
  have hsearch := @findChannel_searches pl dev hdev RtssMbHandle.blank (2 ^ 32) 0 (by omega)
    (Nat.zero_le _)
  rw [hfound] at hsearch
  have hget : pl.search.Keeps _ (rtssmbGetdevctx pl.mb RtssMbHandle.blank dev) () :=
    .guard (fun h => absurd h hnull) fun _ => hsearch
  refine hget.then fun r _ hr => .guard (fun _ => exit_opensOn hunmap) fun hok => ?_
  have hopens : ∀ eventFd, OpenOn { r.2 with mbSize := size, eventFd := eventFd, fd := nFd.ret }
      (pl.channel index hs) := fun _ => openOn_found hr (not_not.mp hok) hfd
  refine .guard (fun _ => ?_) fun _ => .guard (fun _ => ?_) fun _ => exit_opensOn hunmap
  · refine ⟨trivial, fun (evfd : SysStatus) _ => .guard (fun _ => exit_opensOn hunmap) fun _ => ?_⟩
    have hevent : Only DevOp.Looks
        (do Dev.close evfd.ret; Dev.munmap pl.mb size; Dev.close nFd.ret; Dev.free) :=
      (hperform (.close _) trivial).bind fun _ => hunmap
    refine ⟨trivial, fun (set : SysStatus) _ => .guard (fun _ => exit_opensOn hevent) fun _ => ?_⟩
    intro h hh
    cases hh
    exact hopens evfd.ret
  · intro h hh
    cases hh
    exact hopens (-1)

end Open
end Search

/-! What the console has printed and what it has not. -/

/-- What a ring read stores is found again by its number of items. -/
theorem Represents.oldest_handed {ch : Channel} {m : Mem}
    {q : BoundedQueue (List UInt8) (ch.num.toNat - 1)} (hq : Represents ch m q) (buf : Mem)
    (n : Nat) :
    loadBytes (storeBytes buf 0 (q.oldest n).flatten) 0
      (min n q.items.length * ch.size.toNat) = (q.oldest n).flatten := by
  have hitem : ∀ k ∈ (q.oldest n).map List.length, k = ch.size.toNat := by
    intro k hk
    obtain ⟨item, hin, rfl⟩ := List.mem_map.mp hk
    have hmem : item ∈ ch.items m := hq.items_eq ▸ List.mem_of_mem_take hin
    obtain ⟨i, -, rfl⟩ := List.mem_map.mp hmem
    exact loadBytes_length _ _ _
  have hlen : (q.oldest n).flatten.length = min n q.items.length * ch.size.toNat := by
    rw [List.length_flatten, List.eq_replicate_of_mem hitem, List.sum_replicate_nat,
      List.length_map]
    exact congrArg (· * ch.size.toNat) List.length_take
  rw [← hlen]
  exact loadBytes_storeBytes_same _ _ _

theorem RingCall.spec_adds {capacity size : Nat} {c : RingCall} (hc : ¬ c.Takes)
    (q : BoundedQueue (List UInt8) capacity) :
    (c.spec size q).2.items = q.items ++ c.adds size (c.spec size q).1.1 := by
  cases c with
  | write source itemNum =>
      by_cases hfits : (bufferItems size source itemNum.toNat).length ≤ capacity - q.items.length
      · simp only [RingCall.spec, RingCall.adds, BoundedQueue.offer, dif_pos hfits]
        by_cases hsome : 0 < ((itemNum.toNat : Nat) : Int)
        · rw [if_pos hsome]
        · have hzero : itemNum.toNat = 0 := by omega
          rw [if_neg hsome, hzero]
          rfl
      · simp only [RingCall.spec, RingCall.adds, BoundedQueue.offer, dif_neg hfits]
        have hfull : ¬ 0 < mbENoEnoughBuf := by decide
        rw [if_neg hfull, List.append_nil]
  | read dest itemNum => exact absurd trivial hc
  | chanReset => exact absurd trivial hc
  | getFreeItemNum => exact (List.append_nil _).symm
  | getValidItemNum => exact (List.append_nil _).symm

/-- The bytes that were taken out of the channel are those of the output and the ones in hand.
After a write that was not whole, some of them may be missing in the output. -/
structure Copied (taken : List (List UInt8)) (inHand : List UInt8) (s : ConsoleState) : Prop where
  sublist : (s.stdout ++ inHand).Sublist taken.flatten
  eq_of_whole : s.whole = true → s.stdout ++ inHand = taken.flatten

section Stream
variable (pl : MailboxPlan) (m₀ : Mem) (index : UInt32)

/-- The ring of the channel goes on where the console has stopped taking. -/
def Streams (inHand : List UInt8) (s : ConsoleState) : Prop :=
  ∃ queues taken, pl.Kept m₀ s.mem queues ∧
    s.written index = taken ++ (queues index).items ∧ Copied taken inHand s

/-- The output against what was written. -/
structure FollowsWritten (s : ConsoleState) : Prop where
  sublist : s.stdout.Sublist (s.written index).flatten
  prefix_of_whole : s.whole = true → s.stdout <+: (s.written index).flatten

/-- An operation that stays inside the buffer of the console. -/
def InBuffer : ConsoleOp → Prop
  | .dev (.lib (.read _ _ itemNum index)) =>
      itemNum.toNat * (pl.cfg index).itemMaxSize.toNat ≤ rtssConsoleBufSize
  | .write _ count => count ≤ rtssConsoleBufSize
  | _ => True

variable {pl m₀ index} {inHand : List UInt8} {s s' : ConsoleState}

theorem Streams.follows (h : Streams pl m₀ index inHand s) : FollowsWritten index s := by
  obtain ⟨queues, taken, -, hwritten, hcopied⟩ := h
  have hsplit : (s.written index).flatten = taken.flatten ++ (queues index).items.flatten := by
    rw [hwritten, List.flatten_append]
  refine ⟨?_, fun hwhole => ?_⟩
  · rw [hsplit]
    exact ((List.sublist_append_left _ _).trans hcopied.sublist).trans
      (List.sublist_append_left _ _)
  · rw [hsplit, ← hcopied.eq_of_whole hwhole, List.append_assoc]
    exact List.prefix_append _ _

variable (hcreated : Created pl.mb pl.mbCfg pl.subregionCfg m₀)
  (hs : Serves pl.mbCfg (pl.cfg index) index) (howner : (pl.cfg index).mode ≠ mbChanRdMode)

include hcreated hs howner in
/-- The others add to the channel at most. -/
theorem Streams.others (h : Streams pl m₀ index inHand s) (hstep : OthersStep pl s s') :
    Streams pl m₀ index inHand s' := by
  obtain ⟨queues, taken, hkept, hwritten, hsub, hwhole⟩ := h
  cases hstep with
  | signal => exact ⟨queues, taken, hkept, hwritten, hsub, hwhole⟩
  | call other c _ huse =>
      refine ⟨_, taken, hkept.peer hcreated other c, ?_, hsub, hwhole⟩
      by_cases hsame : other = index
      · subst hsame
        have hanswer := ((hkept.represents other hs).run_call
          (MailboxPlan.channel_usable other hs) c).1
        have hanswer : (c.run pl.mb other s.mem).1 =
          (c.spec (pl.cfg other).itemMaxSize.toNat (queues other)).1 := hanswer
        simp only [Function.update_self]
        rw [channelSpec, if_pos hs, hwritten, hanswer, List.append_assoc]
        exact congrArg (taken ++ ·) (RingCall.spec_adds (huse howner) (queues other)).symm
      · simp only [Function.update_of_ne (Ne.symm hsame)]
        exact hwritten

include hcreated hs in
/-- A ring read hands over the oldest items that are there. -/
theorem Streams.take (h : Streams pl m₀ index [] s) (buf : Mem) (n : UInt32) :
    ∃ k dest, k ≤ n.toNat ∧
      ((libMBRead pl.mb (some buf) n index).run memHandler s.mem).1 = ((k : Int), some dest) ∧
      Streams pl m₀ index (loadBytes dest 0 (k * (pl.cfg index).itemMaxSize.toNat))
        { s with mem := ((libMBRead pl.mb (some buf) n index).run memHandler s.mem).2 } := by
  obtain ⟨queues, taken, hkept, hwritten, hsub, hwhole⟩ := h
  have hq := hkept.represents index hs
  obtain ⟨hanswer, -⟩ := hq.run_read (MailboxPlan.channel_usable index hs) buf n
  have hload : loadBytes (storeBytes buf 0 ((queues index).oldest n.toNat).flatten) 0
      (min n.toNat (queues index).items.length * (pl.cfg index).itemMaxSize.toNat) =
        ((queues index).oldest n.toNat).flatten := hq.oldest_handed buf n.toNat
  refine ⟨min n.toNat (queues index).items.length,
    storeBytes buf 0 ((queues index).oldest n.toNat).flatten, Nat.min_le_left _ _, hanswer, _,
    taken ++ (queues index).oldest n.toNat, hkept.call hcreated index hs (.read buf n), ?_, ?_⟩
  · rw [Function.update_self, hwritten, List.append_assoc]
    exact congrArg (taken ++ ·) (List.take_append_drop _ _).symm
  · rw [List.append_nil] at hsub hwhole
    refine ⟨?_, fun hw => ?_⟩
    · rw [hload, List.flatten_append]
      exact hsub.append_right _
    · rw [hload, List.flatten_append, ← hwhole hw]

/-- The items that a read asks for fit into its buffer, however many it has seen. -/
theorem asked_le (k sz size : Nat) :
    (if k * size > sz then UInt32.ofNat (sz / size) else UInt32.ofNat k).toNat * size ≤ sz := by
  split
  · rw [UInt32.toNat_ofNat']
    exact Nat.le_trans (Nat.mul_le_mul_right _ (Nat.mod_le _ _)) (Nat.div_mul_le_self _ _)
  · rename_i hfits
    rw [UInt32.toNat_ofNat']
    exact Nat.le_trans (Nat.mul_le_mul_right _ (Nat.mod_le _ _)) (Nat.le_of_not_lt hfits)

/-! The read. -/

/-- The bytes that a read has handed over. -/
def handed : Int × Option Mem → List UInt8
  | (ret, some buf) => loadBytes buf 0 ret.toNat
  | (_, none) => []

theorem handed_of_nonpos {ret : Int} {buf : Option Mem} (hret : ret ≤ 0) :
    handed (ret, buf) = [] := by
  cases buf with
  | none => rfl
  | some buf => rw [handed, Int.toNat_eq_zero.mpr hret, loadBytes_zero]

variable (pl m₀ index) in
/-- What holds at the control points of a read and at its end. -/
def ReadPost : ReadPoint ⊕ (Int × Option Mem) → ConsoleState → Prop
  | .inl _, s => Streams pl m₀ index [] s
  | .inr r, s => r.1 ≤ rtssConsoleBufSize ∧ Streams pl m₀ index (handed r) s

variable (pl index) in
def ReadAt (o : DevOp) (s : ConsoleState) : Prop :=
  FollowsWritten index s ∧ InBuffer pl (.dev o)

variable (pl m₀ index) in
/-- A read up to its next control point, beside the others. -/
abbrev ReadsOn (p : Prog DevSig (ReadPoint ⊕ (Int × Option Mem))) (s : ConsoleState) : Prop :=
  Always (channelEnvironment pl) (fun _ _ => True) (ReadAt pl index) (ReadPost pl m₀ index) p s

section Read
variable {client : Option RtssMbHandle}

include hcreated hs howner in
/-- A read that is done has handed over what it has taken. -/
theorem always_done {r : Int × Option Mem} (hle : r.1 ≤ rtssConsoleBufSize)
    (h : Streams pl m₀ index (handed r) s) : ReadsOn pl m₀ index (.ret (.inr r)) s :=
  .ret (fun _ _ hpost hstep => ⟨hpost.1, hpost.2.others hcreated hs howner hstep⟩) ⟨hle, h⟩

include hcreated hs howner in
theorem always_ended {ret : Int} {buf : Option Mem} (hret : ret ≤ 0)
    (h : Streams pl m₀ index [] s) : ReadsOn pl m₀ index (.ret (.inr (ret, buf))) s := by
  refine always_done hcreated hs howner (Int.le_trans hret (Int.natCast_nonneg _)) ?_
  rw [handed_of_nonpos hret]
  exact h

include hcreated howner in
/-- A look at the ring, which the read goes on from with any number of items. -/
theorem always_looked {h : RtssMbHandle} (hopen : OpenOn h (pl.channel index hs))
    {buf : Option Mem} (hstream : Streams pl m₀ index [] s) :
    ReadsOn pl m₀ index
      (Dev.getValidItemNum h.pMbBaseAddr h.subregionIndex >>= fun nNumItems =>
        if nNumItems < 0 then .ret (.inr (-eio, buf)) else .ret (.inl (.test nNumItems))) s := by
  refine .perform_bind (S := DevSig)
    (o := DevOp.lib (.getValidItemNum h.pMbBaseAddr h.subregionIndex))
    (P := Streams pl m₀ index []) (fun s s' hs' hstep => hs'.others hcreated hs howner hstep)
    hstream (fun s hs' => ⟨hs'.follows, trivial⟩) fun s (r : Int) s' hs' _ hanswer => ?_
  obtain ⟨-, hnext⟩ := hanswer
  have hsame : s' = s := by
    obtain ⟨queues, taken, hkept, -⟩ := hs'
    have hrun := (hkept.represents index hs).toConsistent.run_libMBGetValidItemNum
      (MailboxPlan.channel_usable index hs)
    rw [← hopen.mapped, ← hopen.index] at hrun
    have hmem : ((LibCall.getValidItemNum h.pMbBaseAddr h.subregionIndex).prog.run memHandler
        s.mem).2 = s.mem := congrArg Prod.snd hrun
    rw [hnext, hmem]
  subst hsame
  refine .guard (fun _ => ?_) fun _ => ?_
  · exact always_ended hcreated hs howner (by decide) hs'
  · exact .ret (fun s s' hpost hstep => hpost.others hcreated hs howner hstep) hs'

include hcreated howner in
/-- The ring read of a call that knows of `k` items. -/
theorem always_taken {h : RtssMbHandle} (hopen : OpenOn h (pl.channel index hs)) (k : Nat)
    (buf : Mem) (hstream : Streams pl m₀ index [] s) :
    ReadsOn pl m₀ index
      (do
        let (nItemsRead, dest) ← Dev.read h.pMbBaseAddr buf
          (if k * h.subchanItemSize.toNat > rtssConsoleBufSize then
            UInt32.ofNat (rtssConsoleBufSize / h.subchanItemSize.toNat)
          else
            UInt32.ofNat k) h.subregionIndex
        if nItemsRead < 0 then
          return .inr (-eio, dest)
        return .inr (int32 (nItemsRead.toNat * h.subchanItemSize.toNat), dest)) s := by
  have hasked := asked_le k rtssConsoleBufSize h.subchanItemSize.toNat
  generalize (if k * h.subchanItemSize.toNat > rtssConsoleBufSize then
    UInt32.ofNat (rtssConsoleBufSize / h.subchanItemSize.toNat) else UInt32.ofNat k) = n at hasked ⊢
  have hsize : h.subchanItemSize.toNat = (pl.cfg index).itemMaxSize.toNat :=
    congrArg UInt32.toNat hopen.size
  have hindex : h.subregionIndex = index := hopen.index
  have hfits : n.toNat * (pl.cfg h.subregionIndex).itemMaxSize.toNat ≤ rtssConsoleBufSize := by
    rwa [hindex, ← hsize]
  refine .perform_bind (S := DevSig)
    (o := DevOp.lib (.read h.pMbBaseAddr buf n h.subregionIndex))
    (P := Streams pl m₀ index []) (fun s s' hs' hstep => hs'.others hcreated hs howner hstep)
    hstream (fun s hs' => ⟨hs'.follows, hfits⟩) fun s (r : Int × Option Mem) s' hs' _ hanswer => ?_
  obtain ⟨items, dest, hle, hread, htaken⟩ := hs'.take hcreated hs buf n
  have hrun : (libMBRead h.pMbBaseAddr (some buf) n h.subregionIndex).run memHandler s.mem =
      (libMBRead pl.mb (some buf) n index).run memHandler s.mem := by
    rw [hopen.mapped, hindex]
    rfl
  obtain ⟨hr, rfl⟩ := hanswer
  have hr : r = ((items : Int), some dest) := hr.trans ((congrArg Prod.fst hrun).trans hread)
  have hnext : { s with mem := ((LibCall.read h.pMbBaseAddr buf n h.subregionIndex).prog.run
      memHandler s.mem).2 } = { s with
        mem := ((libMBRead pl.mb (some buf) n index).run memHandler s.mem).2 } :=
    congrArg (fun m => { s with mem := m }) (congrArg Prod.snd hrun)
  rw [hr, hnext]
  have hbytes : items * h.subchanItemSize.toNat ≤ rtssConsoleBufSize :=
    Nat.le_trans (Nat.mul_le_mul_right _ hle) hasked
  refine .guard (fun hneg => absurd hneg (Int.not_lt.mpr (Int.natCast_nonneg _))) fun _ => ?_
  have hint : int32 ((items : Int).toNat * h.subchanItemSize.toNat) =
      ((items * h.subchanItemSize.toNat : Nat) : Int) := by
    rw [Int.toNat_natCast]
    exact int32_of_lt _ (Nat.lt_of_le_of_lt hbytes (by decide))
  rw [hint]
  refine always_done hcreated hs howner (Int.ofNat_le.mpr hbytes) ?_
  rw [handed, Int.toNat_natCast, hsize]
  exact htaken

include hcreated howner in
/-- Every piece of a read leaves the stream as it is, or hands over what it has taken. -/
theorem rtssMbRead_streams (hclient : ∀ h ∈ client, OpenOn h (pl.channel index hs))
    (buf : Option Mem) (point : ReadPoint) (hstream : Streams pl m₀ index [] s) :
    ReadsOn pl m₀ index (rtssMbRead client buf rtssConsoleBufSize point) s := by
  have hend : ∀ {ret : Int} {buf : Option Mem} {s : ConsoleState}, ret ≤ 0 →
      Streams pl m₀ index [] s → ReadsOn pl m₀ index (.ret (.inr (ret, buf))) s :=
    fun hret hs' => always_ended hcreated hs howner hret hs'
  have hstep : ∀ s s', Streams pl m₀ index [] s → OthersStep pl s s' →
      Streams pl m₀ index [] s' := fun s s' hs' hstep => hs'.others hcreated hs howner hstep
  cases client with
  | none =>
      cases point with
      | start => exact hend (by decide) hstream
      | test n => exact hend (by decide) hstream
  | some h =>
      have hopen := hclient h rfl
      cases buf with
      | none =>
          cases point with
          | start => exact hend (by decide) hstream
          | test n => exact hend (by decide) hstream
      | some buf =>
          cases point with
          | start =>
              simp only [rtssMbRead, rtssMbReadTimed]
              refine .guard (fun _ => hend (by decide) hstream) fun _ => ?_
              refine .guard (fun _ => hend (by decide) hstream) fun _ => ?_
              refine .guard (fun _ => hend (by decide) hstream) fun _ => ?_
              refine .guard (fun _ => hend (by decide) hstream) fun _ => ?_
              refine .guard (fun _ => hend (by decide) hstream) fun _ => ?_
              refine .guard (fun _ => hend (by decide) hstream) fun _ => ?_
              exact always_looked hcreated hs howner hopen hstream
          | test n =>
              simp only [rtssMbRead, rtssMbReadTimed]
              refine .guard (fun _ => ?_) fun _ => ?_
              · refine .perform_bind (S := DevSig) (o := DevOp.poll h.eventFd (-1)) hstep hstream
                  (fun s hs' => ⟨hs'.follows, trivial⟩)
                  fun s (r : PollStatus) s' hs' _ hanswer => ?_
                obtain ⟨rfl, herrno⟩ := hanswer
                have hneg : -r.errno ≤ 0 := Int.neg_nonpos_of_nonneg herrno
                refine .guard (fun _ => ?_) fun _ => ?_
                · exact .guard (fun _ => hend (by decide) hs') fun _ => hend hneg hs'
                refine .guard (fun _ => hend (by decide) hs') fun _ => ?_
                refine .guard (fun _ => ?_) fun _ => ?_
                · refine .perform_bind (S := DevSig) (o := DevOp.eventfdRead h.eventFd) hstep hs'
                    (fun s hs' => ⟨hs'.follows, trivial⟩)
                    fun s (evval : SysStatus) s' hs' _ hanswer => ?_
                  obtain ⟨rfl, herrno⟩ := hanswer
                  refine .guard (fun _ => hend (Int.neg_nonpos_of_nonneg herrno) hs') fun _ => ?_
                  exact always_looked hcreated hs howner hopen hs'
                · refine .guard (fun _ => hend (by decide) hs') fun _ => ?_
                  exact always_looked hcreated hs howner hopen hs'
              · exact always_taken hcreated hs howner hopen n.toNat buf hstream

end Read

/-! The console between its reads. -/

/-- The bytes that a write of the output has not taken are lost. -/
theorem Streams.printed {bytes : Mem} {n count : Nat} (hn : n ≤ count)
    (h : Streams pl m₀ index (loadBytes bytes 0 count) s) :
    Streams pl m₀ index [] { s with
      stdout := s.stdout ++ loadBytes bytes 0 n
      whole := s.whole && n == count } := by
  obtain ⟨queues, taken, hkept, hwritten, hsub, hwhole⟩ := h
  refine ⟨queues, taken, hkept, hwritten, ?_, fun hw => ?_⟩
  · have hsplit : loadBytes bytes 0 count =
        loadBytes bytes 0 n ++ loadBytes bytes (0 + n) (count - n) := by
      rw [← loadBytes_append, Nat.add_sub_cancel' hn]
    rw [hsplit, ← List.append_assoc] at hsub
    rw [List.append_nil]
    exact (List.sublist_append_left _ _).trans hsub
  · obtain ⟨hw, heq⟩ := Bool.and_eq_true_iff.mp hw
    rw [List.append_nil, eq_of_beq heq]
    exact hwhole hw

theorem Streams.lost (h : Streams pl m₀ index inHand s) :
    Streams pl m₀ index [] { s with whole := false } := by
  obtain ⟨queues, taken, hkept, hwritten, hsub, -⟩ := h
  refine ⟨queues, taken, hkept, hwritten, ?_, fun hw => absurd hw Bool.false_ne_true⟩
  rw [List.append_nil]
  exact (List.sublist_append_left _ _).trans hsub

variable (pl index) in
def ConsoleAt (o : ConsoleOp) (s : ConsoleState) : Prop := FollowsWritten index s ∧ InBuffer pl o

variable (m₀) in
/-- What holds at the control points of `main`. -/
def PointStreams : ConsolePoint → ConsoleState → Prop
  | .start, s => Streams pl m₀ index [] s
  | .test client _, s | .reading client _ _, s =>
      (∀ h ∈ client, OpenOn h (pl.channel index hs)) ∧ Streams pl m₀ index [] s

variable (m₀) in
/-- The rest of `main` up to its next control point, beside the others. -/
abbrev KeepsUp (p : Prog ConsoleSig (ConsolePoint ⊕ UInt32)) (s : ConsoleState) : Prop :=
  Always (consoleEnvironment pl) (fun _ _ => True) (ConsoleAt pl index)
    (Sum.elim (PointStreams m₀ hs) fun _ => Streams pl m₀ index []) p s

section Main
variable {client : Option RtssMbHandle}

include hcreated howner in
theorem pointStreams_others {a : ConsolePoint} (h : PointStreams m₀ hs a s)
    (hstep : OthersStep pl s s') : PointStreams m₀ hs a s' := by
  cases a with
  | start => exact Streams.others hcreated hs howner h hstep
  | test client buf => exact ⟨h.1, h.2.others hcreated hs howner hstep⟩
  | reading client buf point => exact ⟨h.1, h.2.others hcreated hs howner hstep⟩

include hcreated howner in
theorem always_point {a : ConsolePoint} (h : PointStreams m₀ hs a s) :
    KeepsUp m₀ hs (.ret (.inl a)) s :=
  .ret (fun _ _ h hstep => pointStreams_others hcreated hs howner h hstep) h

include hcreated howner in
theorem always_exit {code : UInt32} (h : Streams pl m₀ index [] s) :
    KeepsUp m₀ hs (.ret (.inr code)) s :=
  .ret (fun _ _ h hstep => h.others hcreated hs howner hstep) h

include hcreated howner in
/-- An operation that leaves the mailbox and the output alone. -/
theorem always_apart {o : ConsoleOp} (hin : InBuffer pl o)
    (hsame : ∀ s r s', consoleAnswers pl o s r s' → s' = s)
    {f : ConsoleSig.Res o → Prog ConsoleSig (ConsolePoint ⊕ UInt32)}
    (h : Streams pl m₀ index [] s)
    (hf : ∀ r s, Streams pl m₀ index [] s → KeepsUp m₀ hs (f r) s) :
    KeepsUp m₀ hs (Prog.perform (S := ConsoleSig) o >>= f) s := by
  refine .perform_bind (S := ConsoleSig) (o := o) (P := Streams pl m₀ index [])
    (fun s s' hs' hstep => hs'.others hcreated hs howner hstep) h
    (fun s hs' => ⟨hs'.follows, hin⟩) fun s r s' hs' _ hanswer => ?_
  obtain rfl := hsame s r s' hanswer
  exact hf r s' hs'

include hcreated howner in
theorem always_mbClose {f : Int → Prog ConsoleSig (ConsolePoint ⊕ UInt32)}
    (h : Streams pl m₀ index [] s) (hf : ∀ r s, Streams pl m₀ index [] s → KeepsUp m₀ hs (f r) s) :
    KeepsUp m₀ hs (Console.mbClose client >>= f) s := by
  have hkeeps : Monitor.any.Keeps (fun _ _ => True) (rtssMbClose client) () := .any _
  refine Always.of_keeps (ι := ConsoleOp.mbClose) (ρ := fun _ r => r)
    (fun _ => Streams pl m₀ index []) (fun _ s s' hs' hstep => hs'.others hcreated hs howner hstep)
    (fun o _ s hs' _ => ⟨hs'.follows, trivial⟩) (fun o _ s r s' hs' _ hanswer => ⟨trivial, ?_⟩)
    hkeeps h fun r _ s _ hs' => hf r s hs'
  obtain rfl : s' = s := hanswer
  exact hs'

include hcreated howner in
theorem rtssConsoleEnd_streams (h : Streams pl m₀ index [] s) :
    KeepsUp m₀ hs (rtssConsoleEnd client) s := by
  refine always_mbClose hcreated hs howner h fun _ s hs' => ?_
  exact always_apart hcreated hs howner (o := .free) trivial (fun _ _ _ hanswer => hanswer) hs'
    fun _ s hs' => always_exit hcreated hs howner hs'

variable (hdescribed : ∀ i < pl.mbCfg.numSubRegions.toNat,
    Described (pl.mb + (subregionCfgAt pl.subregionCfg i).startAddrOffset.toNat)
      (subregionCfgAt pl.subregionCfg i) m₀)

omit hs in
include hcreated hdescribed in
/-- An operation of an open finds the mailbox as it was configured, and leaves it so. -/
theorem searched_of_answer {o : DevOp} {r : DevSig.Res o} (ho : o.Looks)
    (h : Streams pl m₀ index inHand s) (hanswer : channelAnswers pl o s r s') :
    pl.Searched ⟨o, r⟩ ∧ s' = s := by
  obtain ⟨queues, taken, hkept, -⟩ := h
  have hsearch := hkept.discoverable hcreated hdescribed
  have hlib : ∀ (c : LibCall) (r : c.Res), (c.prog.run memHandler s.mem).2 = s.mem →
      channelAnswers pl (.lib c) s r s' → pl.Searched ⟨.lib c, r⟩ ∧ s' = s := by
    rintro c r hmem ⟨hr, rfl⟩
    exact ⟨⟨s.mem, hsearch, hr⟩, by rw [hmem]⟩
  cases o with
  | lib c =>
      refine hlib c r ?_ hanswer
      cases c with
      | numOfSubRegion mb => rfl
      | validate mb =>
          obtain ⟨ret, hrun, -⟩ := RtssMailbox.run_libMBValidate mb s.mem
          exact congrArg Prod.snd hrun
      | getChanInfo mb i chaninfo => exact run_libMBGetChanInfo_mem mb i (some chaninfo) s.mem
      | getFreeItemNum mb i => exact absurd ho not_false
      | getValidItemNum mb i => exact absurd ho not_false
      | write mb source itemNum i => exact absurd ho not_false
      | read mb dest itemNum i => exact absurd ho not_false
  | «open» => exact ⟨hanswer.2, hanswer.1⟩
  | mmap size fd => exact ⟨hanswer.2, hanswer.1⟩
  | poll fd ms => exact ⟨trivial, hanswer.1⟩
  | eventfdRead fd => exact ⟨trivial, hanswer.1⟩
  | calloc | free | close | getMbRegion | munmap | eventfd | setEventFd | sendInterrupt =>
      exact ⟨trivial, hanswer⟩

theorem inBuffer_of_looks {o : DevOp} (ho : o.Looks) : InBuffer pl (.dev o) := by
  cases o with
  | lib c =>
      cases c with
      | read mb dest itemNum i => exact absurd ho not_false
      | numOfSubRegion | validate | getChanInfo | getFreeItemNum | getValidItemNum | write =>
          exact trivial
  | _ => exact trivial

include hcreated howner hdescribed in
theorem always_mbOpen
    (hfound : searchEnd pl.mbCfg pl.subregionCfg rtssConsoleChannel 0 = some index.toNat)
    {f : Int × Option RtssMbHandle → Prog ConsoleSig (ConsolePoint ⊕ UInt32)}
    (h : Streams pl m₀ index [] s)
    (hf : ∀ r s, OpensOn hs r () → Streams pl m₀ index [] s → KeepsUp m₀ hs (f r) s) :
    KeepsUp m₀ hs (Console.dev (rtssMbOpen false (some rtssConsoleChannel)) >>= f) s := by
  have hopen : pl.search.Keeps (OpensOn hs) (rtssMbOpen false (some rtssConsoleChannel)) () :=
    rtssMbOpen_searches (by decide) hfound
  refine Always.of_keeps (ι := ConsoleOp.dev) (ρ := fun _ r => r) (fun _ => Streams pl m₀ index [])
    (fun _ s s' hs' hstep => hs'.others hcreated hs howner hstep)
    (fun o _ s hs' ho => ⟨hs'.follows, inBuffer_of_looks ho⟩)
    (fun o _ s r s' hs' ho hanswer => ?_) hopen h fun r _ s hr hs' => hf r s hr hs'
  obtain ⟨hassumes, rfl⟩ := searched_of_answer hcreated hdescribed ho hs' hanswer
  exact ⟨hassumes, hs'⟩

include hcreated howner in
/-- What a read has handed over is written, or the console ends. -/
theorem rtssConsolePrint_streams (hclient : ∀ h ∈ client, OpenOn h (pl.channel index hs))
    {r : ReadPoint ⊕ (Int × Option Mem)} {buf : Option Mem} (h : ReadPost pl m₀ index r s) :
    KeepsUp m₀ hs (rtssConsolePrint client r buf) s := by
  cases r with
  | inl point => exact always_point hcreated hs howner ⟨hclient, h⟩
  | inr r =>
      obtain ⟨ret, buf⟩ := r
      obtain ⟨hle, hstream⟩ := h
      have hend : ret ≤ 0 → KeepsUp m₀ hs (rtssConsoleEnd client) s := fun hret => by
        have hnone : handed (ret, buf) = [] := handed_of_nonpos hret
        rw [hnone] at hstream
        exact rtssConsoleEnd_streams hcreated hs howner hstream
      refine .guard (fun heintr => hend (heintr ▸ by decide)) fun _ => .guard hend fun hpos => ?_
      have hcount : ret.toNat ≤ rtssConsoleBufSize := Int.toNat_le.mpr hle
      refine .perform_bind (S := ConsoleSig) (o := ConsoleOp.write buf ret.toNat)
        (P := Streams pl m₀ index (handed (ret, buf)))
        (fun s s' hs' hstep => hs'.others hcreated hs howner hstep) hstream
        (fun s hs' => ⟨hs'.follows, hcount⟩) fun s (written : Int) s' hs' _ hanswer => ?_
      have hstream' : Streams pl m₀ index [] s' := by
        rcases hanswer with ⟨-, rfl⟩ | ⟨bytes, n, rfl, -, hn, rfl⟩
        · exact hs'.lost
        · exact hs'.printed hn
      refine .guard (fun _ => rtssConsoleEnd_streams hcreated hs howner hstream') fun _ => ?_
      exact always_point hcreated hs howner ⟨hclient, hstream'⟩

include hcreated howner hdescribed in
/-- Every piece of `main` keeps what is printed and unread in step with what was written. -/
theorem rtssConsoleMain_streams
    (hfound : searchEnd pl.mbCfg pl.subregionCfg rtssConsoleChannel 0 = some index.toNat)
    (a : ConsolePoint) (h : PointStreams m₀ hs a s) :
    KeepsUp m₀ hs (rtssConsoleMain a) s := by
  cases a with
  | start =>
      refine always_apart hcreated hs howner (o := .malloc rtssConsoleBufSize) trivial
        (fun _ _ _ hanswer => hanswer) h fun (buf : Option Mem) s hs' => ?_
      refine .guard (fun _ => always_exit hcreated hs howner hs') fun _ => ?_
      refine always_mbOpen hcreated hs howner hdescribed hfound hs' fun r s hr hs' => ?_
      refine .guard (fun _ => ?_) fun _ => always_point hcreated hs howner ⟨hr, hs'⟩
      exact always_apart hcreated hs howner (o := .free) trivial (fun _ _ _ hanswer => hanswer)
        hs' fun _ s hs' => always_exit hcreated hs howner hs'
  | test client buf =>
      refine always_apart hcreated hs howner (o := .running) trivial
        (fun _ _ _ hanswer => hanswer.2) h.2 fun (running : Bool) s hs' => ?_
      refine .guard (fun _ => ?_) fun _ => rtssConsoleEnd_streams hcreated hs howner hs'
      exact always_point hcreated hs howner ⟨h.1, hs'⟩
  | reading client buf point =>
      have hread := rtssMbRead_streams hcreated hs howner h.1 buf point h.2
      have hdev : Always (consoleEnvironment pl) (fun _ _ => True) (ConsoleAt pl index)
          (ReadPost pl m₀ index) ((rtssMbRead client buf rtssConsoleBufSize point).expand
            fun o => Prog.op (S := ConsoleSig) (.dev o) fun r => .ret r) s :=
        Always.expand (S := DevSig) (T := ConsoleSig) (ι := ConsoleOp.dev) (ρ := fun _ r => r)
          (fun _ _ hstep => hstep) (fun _ _ hmeets => hmeets) (fun _ _ _ _ hanswer => hanswer)
          (fun _ _ hAt => hAt) hread
      exact hdev.bind fun r s hr => rtssConsolePrint_streams hcreated hs howner h.1 hr

end Main

end Stream

/-- The state in which the console is started, after the creation of the mailbox. -/
def ConsoleState.start (m : Mem) : ConsoleState := ⟨m, fun _ => [], true, [], true⟩

/-- However the owner, other clients and signals interleave with it, the console prints what is
written to the log channel in its order and nothing twice. While its writes are whole nothing is
missing, and between its pieces all of it is either printed or in the ring. It takes no more
than its buffer holds. -/
theorem console_streams (pl : MailboxPlan) (m : Mem) (index : UInt32)
    (hs : Serves pl.mbCfg (pl.cfg index) index) (howner : (pl.cfg index).mode ≠ mbChanRdMode)
    (hfound : searchEnd pl.mbCfg pl.subregionCfg rtssConsoleChannel 0 = some index.toNat)
    (p : Prog ConsoleSig (ConsolePoint ⊕ UInt32)) (s : ConsoleState)
    (hreach : During consoleCalls (consoleEnvironment pl) (fun _ _ => True) ()
      (.start (pl.created m)) (p, s)) :
    FollowsWritten index s ∧ (∀ o k, p = .op o k → InBuffer pl o) ∧
      ∀ r, p = .ret r → s.whole = true →
        s.stdout ++ ((pl.channel index hs).items s.mem).flatten = (s.written index).flatten := by
  have hcreated := pl.created_created m
  have hdescribed := (libMBCreate_discoverable pl.mb pl.mbCfg pl.subregionCfg m pl.mb_ne_null
    pl.checked pl.bytes_lt).described
  have hstart : PointStreams (pl.created m) hs .start (.start (pl.created m)) :=
    ⟨fun _ => .empty, [],
      ⟨fun _ _ => rfl, fun i hi => MailboxPlan.channel_represents hcreated i hi⟩,
      rfl, List.nil_sublist _, fun _ => rfl⟩
  have hrest := hreach.holds (fun a s ha =>
    rtssConsoleMain_streams hcreated hs howner hdescribed hfound a ha) hstart
  cases p with
  | op o k =>
      obtain ⟨⟨hfollows, hin⟩, -⟩ := hrest s .refl
      refine ⟨hfollows, ?_, ?_⟩
      · intro o' k' heq
        cases heq
        exact hin
      · intro r hr
        cases hr
  | ret r =>
      have hpost := hrest s .refl
      have hstream : Streams pl (pl.created m) index [] s := by
        rcases r with (_ | _ | _) | _
        · exact hpost
        · exact hpost.2
        · exact hpost.2
        · exact hpost
      refine ⟨hstream.follows, ?_, ?_⟩
      · intro o k heq
        cases heq
      · intro _ _ hw
        obtain ⟨queues, taken, hkept, hwritten, -, hwhole⟩ := hstream
        have hitems := (hkept.represents index hs).items_eq
        rw [hitems, hwritten, List.flatten_append, ← hwhole hw, List.append_nil]

/-- A mailbox with the log channel, which the owner writes. -/
def logPlan : MailboxPlan where
  mb := 4096
  mbCfg := oneRegionMailbox 1024
  subregionCfg := (oneSubRegion 44 900 4 2).map fun c =>
    { c with name := Vector.ofFn fun i => rtssConsoleChannel.getD i 0, mode := mbChanWrMode }
  mb_ne_null := Channel.sample.mb_ne_null
  checked := (checked_iff _ _).mp (by decide)
  size_ne := by decide
  bytes_lt := by decide

/-- A system in which every call succeeds and every write of the output is whole. -/
def logSystem : Handler ConsoleSig ConsoleState
  | .dev o, s =>
      let r := devHandler (openingSystem 4096) o s.mem
      (r.1, { s with mem := r.2 })
  | .mbClose o, s => ((closeSucceeds o ()).1, s)
  | .malloc _, s => (some fun _ => 0, s)
  | .free, s => ((), s)
  | .running, s => (s.running, s)
  | .write none _, s => ((-1 : Int), { s with whole := false })
  | .write (some bytes) count, s =>
      (Int.ofNat count, { s with
        stdout := s.stdout ++ loadBytes bytes 0 count
        whole := s.whole && count == count })

theorem logSystem_answers (o : ConsoleOp) (s : ConsoleState) :
    consoleAnswers logPlan o s (logSystem o s).1 (logSystem o s).2 := by
  cases o with
  | dev o =>
      cases o with
      | lib c => exact ⟨rfl, rfl⟩
      | «open» => exact ⟨rfl, Or.inr (show (0 : Int) ≤ 3 by decide)⟩
      | mmap size fd => exact ⟨rfl, Or.inr (Or.inr rfl)⟩
      | poll fd ms => exact ⟨rfl, show (0 : Int) ≤ 0 by decide⟩
      | eventfdRead fd => exact ⟨rfl, show (0 : Int) ≤ 0 by decide⟩
      | calloc | free | close | getMbRegion | munmap | eventfd | setEventFd | sendInterrupt =>
          exact rfl
  | running => exact ⟨rfl, rfl⟩
  | write buf count =>
      cases buf with
      | none => exact Or.inl ⟨rfl, rfl⟩
      | some bytes => exact Or.inr ⟨bytes, count, rfl, rfl, Nat.le_refl _, rfl⟩
  | mbClose | malloc | free => exact rfl

/-- Three items are printed, and a fourth one waits in the ring. -/
theorem console_streams_sample :
    ∃ s : ConsoleState, s.stdout = [0, 1, 2, 3, 4, 5] ∧ s.whole = true ∧
      (logPlan.channel 0 (by decide)).items s.mem = [[9, 9]] ∧
      s.stdout ++ ((logPlan.channel 0 (by decide)).items s.mem).flatten =
        (s.written 0).flatten := by
  let created : ConsoleState := .start (logPlan.created fun _ => 0)
  have hanswers : ∀ (o : ConsoleSig.Op) s, (consoleEnvironment logPlan).answers o s
      (logSystem o s).1 (logSystem o s).2 := logSystem_answers
  have hstart : During consoleCalls (consoleEnvironment logPlan) (fun _ _ => True) () created
      (consoleCalls.body () .start, created) := .refl
  have hwritten : During consoleCalls (consoleEnvironment logPlan) (fun _ _ => True) () created
      (consoleCalls.body () .start, _) :=
    hstart.tail (.other _ _ _ (.call 0 (.write (fun i => UInt8.ofNat i) 3) _ fun _ => not_false))
  obtain ⟨r, hprinted⟩ := hwritten.unroll (fun _ _ => trivial) hanswers 4
  have hmore := hprinted.tail (.other _ _ _ (.call 0 (.write (fun _ => 9) 1) _ fun _ => not_false))
  obtain ⟨-, -, hstream⟩ := console_streams logPlan (fun _ => 0) 0 (by decide) (by decide)
    (by decide) _ _ hmore
  exact ⟨_, by decide, by decide, by decide, hstream r rfl (by decide)⟩

end RtssMailbox
