import RtssMailbox.SequenceInvariants
import RtssMailbox.UpdaterProcess

/-!
What the updater holds and uses during a run. Nothing is used that is not open or mapped,
nothing is given back twice, no command is sent before the RTSS has answered three HELLOs
in a row, and what is held at the end depends on whether the handshake and the closes
succeeded.
-/
namespace RtssMailbox
open Effects ByteMemory Iteration Monitoring Monitor Resources

/-- What the process holds beside its channels. -/
inductive UpdaterResource where
  | mmapData
  | ota (addr : Nat) (size : UInt32)
  | file (fd : Int)
  | stream
  | gptBuf
deriving DecidableEq

def mainAcquires : Event MainSig → Option UpdaterResource
  | ⟨.callocMmapData, (allocated : Bool)⟩ => bif allocated then some .mmapData else none
  | ⟨.mapOta, (attempt : MapAttempt)⟩ =>
      if ¬ attempt.Maps then none else some (.ota attempt.otaAddr attempt.regionSize)
  | ⟨.hello (.upd (.open _)), (fd : Int)⟩ => if fd = -1 then none else some (.file fd)
  | ⟨.hello (.upd (.fopen _)), (opened : Bool)⟩ => bif opened then some .stream else none
  | ⟨.hello (.upd (.calloc _)), (allocated : Bool)⟩ => bif allocated then some .gptBuf else none
  | _ => none

def mainReleases : MainOp → Option UpdaterResource
  | .freeMmapData => some .mmapData
  | .munmapOta addr size => some (.ota addr size)
  | .hello (.upd (.close fd)) => some (.file fd)
  | .hello (.upd .fclose) => some .stream
  | .hello (.upd .free) => some .gptBuf
  | _ => none

abbrev otherMonitor : Monitor MainSig (List (Change UpdaterResource)) :=
  monitor mainAcquires mainReleases fun _ => True

/-- How many HELLOs in a row were answered by the first read after them, with the one that
waits for its read, until they are enough. -/
inductive HandshakePhase where
  | trying (rounds : Nat) (sent : Option Mem)
  | ready

namespace HandshakePhase

def answered (rounds : Nat) : HandshakePhase :=
  if rounds + 1 < rtssUpdPingRetryCnt then .trying (rounds + 1) none else .ready

def next : HandshakePhase → Event HelloSig → HandshakePhase
  | .ready, _ => .ready
  | .trying rounds _, ⟨.upd (.mbWrite _ msg _), (ret : Int)⟩ =>
      if ret = sizeofRtssUpdMsgHeader ∧ IsHello msg then .trying rounds (some msg)
      else .trying 0 none
  | .trying rounds (some msg), ⟨.mbReadTimed _ _ _ _, (r : Int × Mem)⟩ =>
      if r.1 = sizeofRtssUpdMsgHeader ∧ comparedTx msg = comparedRx r.2 then answered rounds
      else .trying 0 none
  | .trying _ _, _ => .trying 0 none

end HandshakePhase

/-- What the process acquired and released, how far the handshake is, whether the GPT file
was read whole, and whether the interrupt of some channel could not be disabled. -/
structure ProcessState where
  channels : List (Change HandleResource)
  others : List (Change UpdaterResource)
  phase : HandshakePhase
  gptRead : Bool
  failed : Bool

namespace ProcessState

/-- The handshake, and whether the GPT file was read, are as before. -/
structure SameProgress (s s' : ProcessState) : Prop where
  phase : s'.phase = s.phase
  gptRead : s'.gptRead = s.gptRead

def initial : ProcessState := ⟨[], [], .trying 0 none, false, false⟩

def CloseFails : Event CloseSig → Bool
  | ⟨.disInterrupt _ _, (status : SysStatus)⟩ => status.ret ≠ 0
  | _ => false

/-- A read of as many bytes as the file has. -/
def ReadsWhole : Event HelloSig → Bool
  | ⟨.upd (.fread count), bytes⟩ => (Subtype.val bytes).length = count ∧ count ≠ 0
  | _ => false

def next (s : ProcessState) : Event MainSig → ProcessState
  | ⟨.dev o, r⟩ => { s with channels := openMonitor.next s.channels ⟨o, r⟩ }
  | ⟨.mbClose o, r⟩ =>
      { s with
        channels := closeMonitor.next s.channels ⟨o, r⟩
        failed := s.failed || CloseFails ⟨o, r⟩ }
  | ⟨.hello o, r⟩ =>
      { s with
        others := otherMonitor.next s.others ⟨.hello o, r⟩
        phase := s.phase.next ⟨o, r⟩
        gptRead := ReadsWhole ⟨o, r⟩ || s.gptRead }
  | e => { s with others := otherMonitor.next s.others e }

/-- All that belongs to the handle is held. -/
def Open (s : ProcessState) (h : RtssMbHandle) : Prop := h.resources ≤ held s.channels

def Mapped (s : ProcessState) : Prop := ∃ addr size, .ota addr size ∈ held s.others

/-- What an operation of a sequence needs. A message before the end of the handshake is a
HELLO. -/
def UsesUpd (s : ProcessState) : UpdOp → Prop
  | .mbWrite h msg _ => s.Open h ∧ (s.phase = .ready ∨ IsHello msg)
  | .mbRead h _ _ => s.Open h ∧ s.phase = .ready
  | .otaLoad _ _ | .otaStore _ _ => s.Mapped
  | .pread fd _ => .file fd ∈ held s.others
  | .ftell => .stream ∈ held s.others
  | .fread _ => .stream ∈ held s.others ∧ .gptBuf ∈ held s.others
  | .reboot => s.phase = .ready
  | _ => True

/-- What an operation needs, but for what it releases. -/
def Uses (s : ProcessState) : MainOp → Prop
  | .dev o => openMonitor.allows s.channels o
  | .mbClose o => closeMonitor.allows s.channels o
  | .hello (.upd o) => s.UsesUpd o
  | .hello (.mbReadTimed h _ _ _) | .hello (.chanReset h) => ∃ h' ∈ h, s.Open h'
  | .mapOta => .mmapData ∈ held s.others
  | _ => True

end ProcessState

/-- A descriptor of the device or an eventfd is not negative, and a call that fails sets
`errno`. -/
def MainAssumes : Event MainSig → Prop
  | ⟨.dev o, r⟩ => openAssumes ⟨o, r⟩ ∧ SetsErrno ⟨o, r⟩
  | _ => True

def mainMonitor : Monitor MainSig ProcessState where
  next := ProcessState.next
  allows s o := (∀ r ∈ mainReleases o, r ∈ held s.others) ∧ s.Uses o
  assumes _ := MainAssumes

/-- What the monitor knows of the handshake. -/
def helloMonitor : Monitor HelloSig ProcessState where
  next s e := mainMonitor.next s ⟨.hello e.op, e.res⟩
  allows s o := mainMonitor.allows s (.hello o)
  assumes _ _ := True

/-- What the monitor knows of a sequence. -/
def updMonitor : Monitor UpdSig ProcessState where
  next s e := mainMonitor.next s ⟨.hello (.upd e.op), e.res⟩
  allows s o := mainMonitor.allows s (.hello (.upd o))
  assumes _ _ := True

theorem keeps_hello {α : Type} {Q : α → ProcessState → Prop} {p : Prog HelloSig α}
    {s : ProcessState} (hp : helloMonitor.Keeps Q p s) : mainMonitor.Keeps Q (Main.hello p) s := by
  refine .mono ?_ (Keeps.expand (N := mainMonitor) Eq _ ?_ hp rfl)
  · rintro a s ⟨_, rfl, hQ⟩
    exact hQ
  · rintro o s _ rfl hallows
    exact .perform hallows fun r _ => ⟨trivial, rfl⟩

theorem keeps_upd {α : Type} {Q : α → ProcessState → Prop} {p : Prog UpdSig α}
    {s : ProcessState} (hp : updMonitor.Keeps Q p s) : mainMonitor.Keeps Q (Main.upd p) s := by
  refine .mono ?_ (Keeps.expand (N := mainMonitor) Eq _ ?_ hp rfl)
  · rintro a s ⟨_, rfl, hQ⟩
    exact hQ
  · rintro o s _ rfl hallows
    exact .perform hallows fun r _ => ⟨trivial, rfl⟩

/-- What is held of the channels and beside them. -/
structure Holds (X : Multiset HandleResource) (Y : Multiset UpdaterResource)
    (s : ProcessState) : Prop where
  channels : Holding X s.channels
  others : Holding Y s.others

theorem Holds.open' {X : Multiset HandleResource} {Y : Multiset UpdaterResource}
    {s : ProcessState} (h : Holds X Y s) {handle : RtssMbHandle} (hle : handle.resources ≤ X) :
    s.Open handle := by
  rwa [ProcessState.Open, h.channels.2]

/-! The sequences: the handshake is over, and what they open they close. -/

structure Working (X : Multiset HandleResource) (Y : Multiset UpdaterResource) (read : Bool)
    (s : ProcessState) : Prop extends Holds X Y s where
  phase : s.phase = .ready
  gptRead : s.gptRead = read
  failed : s.failed = false

section Sequences
variable {X : Multiset HandleResource} {Y : Multiset UpdaterResource} {read : Bool}
  {s : ProcessState}

theorem next_ready (e : Event HelloSig) : HandshakePhase.ready.next e = .ready := by
  unfold HandshakePhase.next
  rfl

/-- An operation that acquires nothing or what its answer says. -/
theorem Working.acquire (h : Working X Y read s) {o : UpdOp}
    (ho : mainReleases (.hello (.upd o)) = none) (r : UpdSig.Res o) :
    Working X (gain Y (mainAcquires ⟨.hello (.upd o), r⟩))
      (ProcessState.ReadsWhole ⟨.upd o, r⟩ || read) (updMonitor.next s ⟨o, r⟩) where
  channels := h.channels
  others := h.others.acquire mainAcquires mainReleases (fun _ => True)
    (o := .hello (.upd o)) ho r
  phase := by
    change s.phase.next _ = _
    rw [h.phase, next_ready]
  gptRead := congrArg (ProcessState.ReadsWhole ⟨.upd o, r⟩ || ·) h.gptRead
  failed := h.failed

theorem Working.release {x : UpdaterResource} (h : Working X (x ::ₘ Y) read s) {o : UpdOp}
    (ho : mainReleases (.hello (.upd o)) = some x) (r : UpdSig.Res o) :
    Working X Y (ProcessState.ReadsWhole ⟨.upd o, r⟩ || read) (updMonitor.next s ⟨o, r⟩) where
  channels := h.channels
  others := h.others.release mainAcquires mainReleases (fun _ => True)
    (o := .hello (.upd o)) ho r
  phase := by
    change s.phase.next _ = _
    rw [h.phase, next_ready]
  gptRead := congrArg (ProcessState.ReadsWhole ⟨.upd o, r⟩ || ·) h.gptRead
  failed := h.failed

section Rules
variable {α : Type} {o : UpdOp} {f : UpdSig.Res o → Prog UpdSig α} {Q : α → ProcessState → Prop}

theorem Working.keeps_acquire (h : Working X Y read s)
    (ho : mainReleases (.hello (.upd o)) = none) (huses : s.UsesUpd o)
    (hf : ∀ a s', Working X (gain Y (mainAcquires ⟨.hello (.upd o), a⟩))
      (ProcessState.ReadsWhole ⟨.upd o, a⟩ || read) s' → updMonitor.Keeps Q (f a) s') :
    updMonitor.Keeps Q (Prog.perform (S := UpdSig) o >>= f) s := by
  refine ⟨⟨fun r hr => ?_, huses⟩, fun a _ => hf a _ (h.acquire ho a)⟩
  cases ho.symm.trans hr

theorem Working.keeps_release {x : UpdaterResource} (h : Working X (x ::ₘ Y) read s)
    (ho : mainReleases (.hello (.upd o)) = some x) (huses : s.UsesUpd o)
    (hf : ∀ a s', Working X Y (ProcessState.ReadsWhole ⟨.upd o, a⟩ || read) s' →
      updMonitor.Keeps Q (f a) s') :
    updMonitor.Keeps Q (Prog.perform (S := UpdSig) o >>= f) s := by
  refine ⟨⟨fun r hr => ?_, huses⟩, fun a _ => hf a _ (h.release ho a)⟩
  cases ho.symm.trans hr
  exact h.others.2 ▸ Multiset.mem_cons_self x Y

end Rules

theorem Working.mem (h : Working X Y read s) {x : UpdaterResource} (hx : x ∈ Y) :
    x ∈ held s.others :=
  h.others.2 ▸ hx

theorem Working.mapped (h : Working X Y read s) (hota : ∃ addr size, .ota addr size ∈ Y) :
    s.Mapped := by
  obtain ⟨addr, size, hmem⟩ := hota
  exact ⟨addr, size, h.mem hmem⟩

/-- The exits of the load: the file is closed. -/
theorem close_keeps {fd : Int} (h : Working X (.file fd ::ₘ Y) read s) (ret : Int) :
    updMonitor.Keeps (fun _ => Working X Y read) (do Upd.close fd; return ret) s :=
  h.keeps_release (o := .close fd) rfl trivial fun _ _ h => h

theorem loadfile_preserves (hota : ∃ addr size, .ota addr size ∈ Y) (path : CString)
    (dst alignment : Nat) :
    updMonitor.Preserves (Working X Y read) (rtssUpdaterLoadfile path dst alignment) := by
  intro s h
  refine .guard (fun _ => h) fun _ => ?_
  refine h.keeps_acquire (o := .stat path) rfl trivial fun found s h => ?_
  cases found with
  | none => exact h
  | some file =>
      obtain ⟨mode, fsize⟩ := file
      refine .guard (fun _ => h) fun _ => ?_
      refine h.keeps_acquire (o := .open path) rfl trivial fun (fd : Int) s h => ?_
      have hacquired : mainAcquires ⟨.hello (.upd (.open path)), fd⟩ =
        if fd = -1 then none else some (.file fd) := rfl
      refine .guard (fun hfail => ?_) fun hopen => ?_
      · rwa [hacquired, gain_failed hfail] at h
      rw [hacquired, gain_succeeded hopen] at h
      refine h.keeps_acquire (o := .pread fd fsize) rfl (h.mem (Multiset.mem_cons_self _ Y))
        fun bytes s h => ?_
      have hmapped : ∃ addr size, .ota addr size ∈ UpdaterResource.file fd ::ₘ Y := by
        obtain ⟨addr, size, hmem⟩ := hota
        exact ⟨addr, size, Multiset.mem_cons_of_mem hmem⟩
      cases bytes with
      | none => exact close_keeps h _
      | some bytes =>
          refine h.keeps_acquire (o := .otaStore 0 bytes.val) rfl (h.mapped hmapped)
            fun _ s h => .guard (fun _ => close_keeps h _) fun _ => .guard (fun _ => ?_) fun _ => ?_
          · refine h.keeps_acquire (o := .otaStore fsize [0]) rfl (h.mapped hmapped)
              fun _ s h => ?_
            exact h.keeps_acquire (o := .otaStore fsize _) rfl (h.mapped hmapped)
              fun _ s h => close_keeps h _
          · exact close_keeps h _

/-- The loop ends with a result exactly if the last read was of the whole file. -/
theorem readGptFile_keeps_read (hstream : UpdaterResource.stream ∈ Y)
    (hbuf : UpdaterResource.gptBuf ∈ Y) (bufSize fuel numBytes : Nat) (bufGpt : Mem)
    (h : Working X Y false s) :
    updMonitor.Keeps (fun r => Working X Y r.isSome)
      (readGptFile bufSize fuel numBytes bufGpt) s := by
  induction fuel generalizing numBytes bufGpt s with
  | zero => exact h
  | succ fuel ih =>
      refine h.keeps_acquire (o := .fread bufSize) rfl ⟨h.mem hstream, h.mem hbuf⟩
        fun (bytes : { bytes : List UInt8 // bytes.length ≤ bufSize }) s h => ?_
      have hread : ProcessState.ReadsWhole ⟨.upd (.fread bufSize), bytes⟩ =
        decide (bytes.val.length = bufSize ∧ bufSize ≠ 0) := rfl
      rw [hread, Bool.or_false] at h
      refine .guard (fun hnone => ?_) fun hsome => .guard (fun hshort => ih _ _ ?_) fun hlong => ?_
      · rwa [decide_eq_false (by omega)] at h
      · rwa [decide_eq_false (by omega)] at h
      · have hlen := bytes.property
        rwa [decide_eq_true ⟨by omega, by omega⟩] at h

/-- The buffer is freed if the file cannot be read, and else left to the caller. -/
theorem modifygpt_keeps_buf (gfile : CString) (gptHdr : Mem) (h : Working X Y false s) :
    updMonitor.Keeps (fun r s' => r.elim (Working X Y false s')
        fun _ => Working X (.gptBuf ::ₘ Y) true s')
      (rtssUpdaterModifygpt gfile gptHdr) s := by
  have hfails : ∀ s, Working X (.stream ::ₘ Y) false s →
      updMonitor.Keeps (fun r s' => r.elim (Working X Y false s')
        fun _ => Working X (.gptBuf ::ₘ Y) true s')
        (do Upd.fclose; return (none : Option (Mem × Nat))) s :=
    fun s h => h.keeps_release (o := .fclose) rfl trivial fun _ _ h => h
  refine h.keeps_acquire (o := .access gfile) rfl trivial fun _ s h => ?_
  refine .guard (fun _ => h) fun _ => ?_
  refine h.keeps_acquire (o := .fopen gfile) rfl trivial fun (opened : Bool) s h => ?_
  cases opened with
  | false => exact h
  | true =>
  replace h : Working X (.stream ::ₘ Y) false s := h
  refine h.keeps_acquire (o := .ftell) rfl (h.mem (Multiset.mem_cons_self _ Y))
    fun (bufSize, errno) s h => ?_
  refine .guard (fun _ => hfails s h) fun _ => ?_
  refine h.keeps_acquire (o := .calloc _) rfl trivial fun (allocated : Bool) s h => ?_
  cases allocated with
  | false => exact hfails s h
  | true =>
  replace h : Working X (.gptBuf ::ₘ .stream ::ₘ Y) false s := h
  refine (readGptFile_keeps_read (Multiset.mem_cons_of_mem (Multiset.mem_cons_self _ Y))
    (Multiset.mem_cons_self _ _) _ _ _ _ h).then fun r s h => ?_
  cases r with
  | none => exact h.keeps_release (o := .free) rfl trivial fun _ s h => hfails s h
  | some bufGpt =>
      rw [Multiset.cons_swap] at h
      exact h.keeps_release (o := .fclose) rfl trivial fun _ _ h => h

/-- While both channels are open and the OTA buffer is mapped, a sequence holds what it has
held before at its end. -/
theorem working_upholds {u : Updater} (htx : u.txClientData.resources ≤ X)
    (hrx : u.rxClientData.resources ≤ X) (hota : ∃ addr size, .ota addr size ∈ Y) :
    Upholds updMonitor (Working X Y read) u where
  plain o s ho h := by
    have hnone : mainReleases (.hello (.upd o)) = none ∧ s.UsesUpd o ∧
        ∀ r : UpdSig.Res o, mainAcquires ⟨.hello (.upd o), r⟩ = none ∧
          ProcessState.ReadsWhole ⟨.upd o, r⟩ = false := by
      cases o with
      | mbWrite handle msg sz =>
          exact ⟨rfl, ⟨h.open' (ho ▸ htx), .inl h.phase⟩, fun _ => ⟨rfl, rfl⟩⟩
      | mbRead handle buf sz => exact ⟨rfl, ⟨h.open' (ho ▸ hrx), h.phase⟩, fun _ => ⟨rfl, rfl⟩⟩
      | otaLoad _ _ | otaStore _ _ => exact ⟨rfl, h.mapped hota, fun _ => ⟨rfl, rfl⟩⟩
      | reboot => exact ⟨rfl, h.phase, fun _ => ⟨rfl, rfl⟩⟩
      | cfgfileRead _ => exact ⟨rfl, trivial, fun _ => ⟨rfl, rfl⟩⟩
      | _ => exact ho.elim
    obtain ⟨hreleases, huses, hacquires⟩ := hnone
    refine ⟨⟨fun r hr => ?_, huses⟩, fun r _ => ?_⟩
    · cases hreleases.symm.trans hr
    · have hnext := h.acquire hreleases r
      obtain ⟨hnothing, hunread⟩ := hacquires r
      rwa [hnothing, hunread] at hnext
  loadfile path := loadfile_preserves hota path _ _

end Sequences

/-! The handshake: the counter of its successes is at most that of the rounds seen. -/

namespace HandshakePhase

def AtLeast (rounds : Nat) : HandshakePhase → Prop
  | .ready => True
  | .trying n _ => rounds ≤ n

/-- The message waits for its read, which makes so many rounds. -/
def Awaits (msg : Mem) (rounds : Nat) : HandshakePhase → Prop
  | .ready => True
  | .trying n sent => sent = some msg ∧ rounds ≤ n + 1

variable {phase : HandshakePhase} {rounds : Nat} {msg : Mem}

theorem atLeast_zero (phase : HandshakePhase) : phase.AtLeast 0 := by
  cases phase with
  | ready => trivial
  | trying n sent => exact Nat.zero_le n

theorem AtLeast.sent (h : phase.AtLeast rounds) (hhello : IsHello msg) (handle : RtssMbHandle) :
    (phase.next (sentWhole handle msg)).Awaits msg (rounds + 1) := by
  cases phase with
  | ready => trivial
  | trying n sent =>
      rw [sentWhole, next, if_pos ⟨rfl, hhello⟩]
      exact ⟨rfl, Nat.succ_le_succ h⟩

/-- The read of the response makes a round, and the third one ends the handshake. -/
theorem Awaits.answered {r : Int × Mem} (h : phase.Awaits msg rounds)
    (handle : Option RtssMbHandle) (buf : Mem) (sz : Nat) (ms : Int)
    (hwhole : r.1 = sizeofRtssUpdMsgHeader) (hsame : comparedTx msg = comparedRx r.2) :
    (phase.next ⟨.mbReadTimed handle buf sz ms, r⟩).AtLeast rounds ∧
      (rtssUpdPingRetryCnt ≤ rounds → phase.next ⟨.mbReadTimed handle buf sz ms, r⟩ = .ready) := by
  cases phase with
  | ready => exact ⟨trivial, fun _ => rfl⟩
  | trying n sent =>
      obtain ⟨rfl, hle⟩ := h
      rw [next, if_pos ⟨hwhole, hsame⟩, HandshakePhase.answered]
      split
      · exact ⟨hle, fun henough => by omega⟩
      · exact ⟨trivial, fun _ => rfl⟩

end HandshakePhase

section Handshake
variable {X : Multiset HandleResource} {Y : Multiset UpdaterResource} {call : PingCall}
  {tx rx : RtssMbHandle} {v : PingVars} {s : ProcessState}

/-- No close has failed while the handshake runs. -/
structure Trying (X : Multiset HandleResource) (Y : Multiset UpdaterResource)
    (s : ProcessState) : Prop extends Holds X Y s where
  gptRead : s.gptRead = false
  failed : s.failed = false

/-- The counters stay within these bounds, so that a call leaves each control point with less
remaining to try. -/
def PingPoint.Within : PingPoint → Prop
  | .start => True
  | .ping v => (v.pingErrCnt ≤ rtssUpdPingErrCnt ∨
      v.pingErrCnt = rtssUpdPingErrCnt + 1 ∧ v.pingRetryCnt = 0) ∧
      v.pingRetryCnt < rtssUpdPingRetryCnt
  | .recovery v => v.pingErrCnt ≤ rtssUpdPingErrCnt ∧ v.pingRetryCnt ≤ rtssUpdPingRetryCnt

/-- What is known at the control points. After a response that did not match, another read
follows without a HELLO before it, and no round is counted. -/
def PingPoint.Watched (X : Multiset HandleResource) (Y : Multiset UpdaterResource) :
    PingPoint → ProcessState → Prop
  | .start, s => Trying X Y s
  | .ping v, s => Trying X Y s ∧ s.phase.AtLeast v.pingRetryCnt
  | .recovery v, s => Trying X Y s ∧ IsHello v.txMsg ∧
      (v.pingRetryCnt = 0 ∨ s.phase.Awaits v.txMsg v.pingRetryCnt)

/-- The next control point, with less remaining. -/
def PingPoint.Leads (X : Multiset HandleResource) (Y : Multiset UpdaterResource) (a : PingPoint)
    (a' : PingPoint) (s : ProcessState) : Prop :=
  (a'.Watched X Y s ∧ a'.Within) ∧ a'.remaining < a.remaining

def PingDone (X : Multiset HandleResource) (Y : Multiset UpdaterResource)
    (r : Bool × RtssUpdLibHandle) (s : ProcessState) : Prop :=
  Trying X Y s ∧ (r.1 = true → s.phase = .ready)

/-- A handshake operation leaves what is held as it is. -/
theorem Trying.next (h : Trying X Y s) {o : HelloOp} (ho : mainReleases (.hello o) = none)
    {r : HelloSig.Res o} (hr : mainAcquires ⟨.hello o, r⟩ = none)
    (hread : ProcessState.ReadsWhole ⟨o, r⟩ = false) :
    Trying X Y (helloMonitor.next s ⟨o, r⟩) where
  channels := h.channels
  others := by
    have hothers := h.others.acquire mainAcquires mainReleases (fun _ => True) (o := .hello o) ho r
    rwa [hr] at hothers
  gptRead := by
    change (ProcessState.ReadsWhole ⟨o, r⟩ || s.gptRead) = false
    rw [hread, h.gptRead]
    rfl
  failed := h.failed

theorem Trying.chanReset {α : Type} {Q : α → ProcessState → Prop} {handle : RtssMbHandle}
    (h : Trying X Y s) (hle : handle.resources ≤ X) {f : Int → Prog HelloSig α}
    (hf : ∀ r s, Trying X Y s → helloMonitor.Keeps Q (f r) s) :
    helloMonitor.Keeps Q (Hello.chanReset (some handle) >>= f) s :=
  ⟨⟨fun _ hr => absurd hr (Option.not_mem_none _), handle, rfl, h.open' hle⟩,
    fun r _ => hf r _ (h.next rfl rfl rfl)⟩

/-- An error leaves less to try than there was before, and so does a success. -/
theorem PingPoint.Within.send (h : (PingPoint.ping v).Within)
    (herr : ¬ v.pingErrCnt > rtssUpdPingErrCnt) (msg : Mem) :
    ((PingPoint.ping (v.packed msg).failed).Within ∧
      (PingPoint.ping (v.packed msg).failed).remaining < (PingPoint.ping v).remaining) ∧
    (PingPoint.recovery (v.packed msg)).Within ∧
      (PingPoint.recovery (v.packed msg)).remaining < (PingPoint.ping v).remaining := by
  obtain ⟨-, hretry⟩ := h
  simp only [Within, remaining, PingVars.failed, PingVars.packed, rtssUpdPingErrCnt,
    rtssUpdPingRetryCnt, and_true] at herr hretry ⊢
  omega

theorem PingPoint.Within.failed (h : (PingPoint.recovery v).Within) :
    (PingPoint.ping v.failed).Within ∧
      (PingPoint.ping v.failed).remaining < (PingPoint.recovery v).remaining := by
  simp only [Within, remaining, PingVars.failed, rtssUpdPingErrCnt, rtssUpdPingRetryCnt,
    and_true] at h ⊢
  omega

theorem pingSend_keeps (htx : call.pTxClientData = some tx) (hrx : call.pRxClientData = some rx)
    (htx' : tx.resources ≤ X) (hrx' : rx.resources ≤ X)
    (h : (PingPoint.ping v).Watched X Y s) (hwithin : (PingPoint.ping v).Within) :
    helloMonitor.Keeps (Sum.elim ((PingPoint.ping v).Leads X Y) (PingDone X Y))
      (pingSend call v) s := by
  obtain ⟨htry, hrounds⟩ := h
  by_cases herr : v.pingErrCnt > rtssUpdPingErrCnt
  · rw [pingSend, if_pos herr]
    exact ⟨htry, fun h => absurd h Bool.false_ne_true⟩
  obtain ⟨txMsg, hpack⟩ := Option.isSome_iff_exists.mp rtssUpdPingTxMsgPack_isSome
  have hhello : IsHello txMsg := comparedTx_pack hpack
  obtain ⟨⟨hfailed, hless⟩, hsent, hless'⟩ := hwithin.send herr txMsg
  rw [pingSend_eq hpack htx herr, htx, hrx]
  refine ⟨⟨fun _ hr => absurd hr (Option.not_mem_none _), htry.open' htx', .inr hhello⟩,
    fun (ret : Int) _ => ?_⟩
  have hnext := htry.next (o := .upd (.mbWrite tx txMsg sizeofRtssUpdMsgHeader)) rfl
    (r := ret) rfl rfl
  refine .guard (fun _ => ?_) fun hgood => ?_
  · refine hnext.chanReset htx' fun _ s h => h.chanReset hrx' fun _ s h => ?_
    exact ⟨⟨⟨h, HandshakePhase.atLeast_zero _⟩, hfailed⟩, hless⟩
  · obtain ⟨-, hwhole⟩ := not_or.mp hgood
    obtain rfl : ret = sizeofRtssUpdMsgHeader := not_not.mp hwhole
    exact ⟨⟨⟨hnext, hhello, .inr (hrounds.sent hhello tx)⟩, hsent⟩, hless'⟩

theorem pingRecover_keeps (hrx : call.pRxClientData = some rx) (hrx' : rx.resources ≤ X)
    (h : (PingPoint.recovery v).Watched X Y s) (hwithin : (PingPoint.recovery v).Within) :
    helloMonitor.Keeps (Sum.elim ((PingPoint.recovery v).Leads X Y) (PingDone X Y))
      (pingRecover call v) s := by
  obtain ⟨htry, hhello, hrounds⟩ := h
  rw [pingRecover, hrx]
  refine ⟨⟨fun _ hr => absurd hr (Option.not_mem_none _), rx, rfl, htry.open' hrx'⟩,
    fun (r : Int × Mem) _ => ?_⟩
  have hnext := htry.next
    (o := .mbReadTimed (some rx) v.rxMsg sizeofRtssUpdMsgHeader v.timeout) rfl (r := r) rfl rfl
  change helloMonitor.Keeps _ (pingReceived call v r.1 r.2) _
  obtain ⟨hmatch, hother⟩ := @verifyHandshake_eq call v.lib v.txMsg r.2
  rw [pingReceived]
  refine .guard (fun _ => ?_) fun hgood => ?_
  · rw [hrx]
    exact hnext.chanReset hrx' fun _ s h =>
      ⟨⟨⟨h, HandshakePhase.atLeast_zero _⟩, hwithin.failed.1⟩, hwithin.failed.2⟩
  obtain ⟨-, hwhole⟩ := not_or.mp hgood
  replace hwhole : r.1 = sizeofRtssUpdMsgHeader := not_not.mp hwhole
  by_cases hmatches : Matches call v.txMsg r.2
  · simp only [hmatch hmatches]
    have hleads : ∀ {s'}, Trying X Y s' → s'.phase.AtLeast v.pingRetryCnt →
        v.pingRetryCnt < rtssUpdPingRetryCnt → (PingPoint.recovery v).Leads X Y
          (.ping { v with
            rxMsg := r.2
            lib := call.mode.entered v.lib
            timeout := rtssUpdEvWtTime }) s' := fun htry hatLeast hcount =>
      ⟨⟨⟨htry, hatLeast⟩, .inl hwithin.1, hcount⟩, Nat.lt_succ_self _⟩
    refine .guard (fun hne => absurd rfl hne) fun _ => ?_
    obtain hzero | hawaits := hrounds
    · refine .guard (fun hcount => hleads hnext ?_ hcount) fun hcount => absurd ?_ hcount
      · rw [hzero]
        exact HandshakePhase.atLeast_zero _
      · rw [hzero]
        decide
    · obtain ⟨hatLeast, hready⟩ := hawaits.answered (some rx) v.rxMsg
        sizeofRtssUpdMsgHeader v.timeout hwhole hmatches.1
      exact .guard (fun hcount => hleads hnext hatLeast hcount) fun hcount =>
        ⟨hnext, fun _ => hready (Nat.not_lt.mp hcount)⟩
  · obtain ⟨txMsg, hpack⟩ := Option.isSome_iff_exists.mp rtssUpdPingTxMsgPack_isSome
    simp only [hother hmatches, hpack]
    refine .guard (fun _ => .guard (fun _ => ?_) fun herr => ?_) fun hok => absurd ?_ hok
    · exact ⟨hnext, fun h => absurd h Bool.false_ne_true⟩
    · refine ⟨⟨⟨hnext, comparedTx_pack hpack, .inl rfl⟩, Nat.not_lt.mp herr, Nat.zero_le _⟩, ?_⟩
      have hless := hwithin.failed.2
      simp only [PingPoint.Within, PingPoint.remaining, PingVars.failed, rtssUpdPingErrCnt,
        rtssUpdPingRetryCnt] at hwithin hless ⊢
      omega
    · decide

/-- The handshake uses the two channels alone, and succeeds after three rounds. Its bound does
not cut it short. -/
theorem isReady_keeps (htx : call.pTxClientData = some tx) (hrx : call.pRxClientData = some rx)
    (htx' : tx.resources ≤ X) (hrx' : rx.resources ≤ X) (h : Trying X Y s) :
    helloMonitor.Keeps (PingDone X Y) (isReady call) s := by
  have hbody : ∀ (a : PingPoint) s, a.Watched X Y s ∧ a.Within →
      helloMonitor.Keeps (Sum.elim (a.Leads X Y) (PingDone X Y)) (rtssUpdIsReady.body call a)
        s := by
    intro a s ⟨h, hwithin⟩
    cases a with
    | start =>
        refine .guard (fun _ => ⟨h, fun h => absurd h Bool.false_ne_true⟩) fun _ => ?_
        refine ⟨⟨⟨h, HandshakePhase.atLeast_zero _⟩, .inl (Nat.zero_le _), Nat.zero_lt_succ 2⟩, ?_⟩
        simp only [PingPoint.remaining, rtssUpdPingErrCnt, rtssUpdPingRetryCnt]
        omega
    | ping v => exact pingSend_keeps htx hrx htx' hrx' h hwithin
    | recovery v => exact pingRecover_keeps hrx hrx' h hwithin
  refine (Keeps.unroll PingPoint.remaining hbody (a := .start) ⟨h, trivial⟩
    (Nat.lt_succ_self 100)).then fun r s hr => ?_
  obtain ⟨r, rfl, hdone⟩ := hr
  exact hdone

end Handshake

/-! Opens and closes, with the programs of the mailbox library. -/

/-- What a close makes of its outcome: a result other than zero follows a failed call. -/
def closeOutcome : Monitor CloseSig Bool where
  next failed e := failed || ProcessState.CloseFails e
  allows _ _ := True
  assumes _ _ := True

theorem rtssMbClose_outcome {handle : RtssMbHandle} (hfd : 0 ≤ handle.fd) :
    closeOutcome.Keeps (fun ret failed => failed = false → ret = rtssMbReturnSuccess)
      (rtssMbClose (some handle)) false := by
  refine .guard (fun hneg => absurd hfd (Int.not_le.mpr hneg)) fun _ => ?_
  have hend : ∀ (ret : Int) failed, (failed = false → ret = rtssMbReturnSuccess) →
      closeOutcome.Keeps (fun ret failed => failed = false → ret = rtssMbReturnSuccess)
        (do Close.close handle.fd; Close.free; return ret) failed := by
    intro ret failed h
    refine ⟨trivial, fun _ _ => ⟨trivial, fun _ _ hfailed => h ?_⟩⟩
    exact (Bool.or_eq_false_iff.mp (Bool.or_eq_false_iff.mp hfailed).1).1
  refine .guard (fun _ => ?_) fun _ => hend _ _ fun _ => rfl
  refine Keeps.then (Q := fun ret failed => failed = false → ret = rtssMbReturnSuccess) ?_ hend
  refine ⟨trivial, fun (status : SysStatus) _ => ?_⟩
  have houtcome : decide (status.ret ≠ 0) = false →
      (if status.ret ≠ 0 then -status.errno else rtssMbReturnSuccess) = rtssMbReturnSuccess :=
    fun h => if_neg (of_decide_eq_false h)
  refine .guard (fun _ => ⟨trivial, fun _ _ h => houtcome ?_⟩) fun _ h => houtcome h
  exact (Bool.or_eq_false_iff.mp h).1

section Channels
variable {X : Multiset HandleResource} {s : ProcessState}

/-- An open changes what is held of the channels, by all that belongs to the new handle. -/
theorem mbOpen_keeps (dev : CString) (h : Holding X s.channels) :
    mainMonitor.Keeps (fun r s' => Opened X (0, r) s'.channels ∧ s'.others = s.others ∧
      s.SameProgress s' ∧ s'.failed = s.failed) (Main.mbOpen dev) s := by
  refine (Keeps.and_lax
    (Keeps.expand (N := mainMonitor) (fun channels s' => s' = { s with channels := channels }) _ ?_
      (rtssMbOpen_keeps false (some dev) h) rfl)
    (Keeps.expand (N := mainMonitor.lax) (fun _ _ => True) _ ?_ (rtssMbOpen_stores dev)
      trivial)).then fun (ret, handle) s' hr => ?_
  · rintro o channels _ rfl hallows
    exact .perform ⟨fun _ hr => absurd hr (Option.not_mem_none _), hallows⟩
      fun r hassumes => ⟨hassumes.1, rfl⟩
  · intro o _ _ _ _
    exact .perform trivial fun r hassumes => ⟨hassumes.2, trivial⟩
  · obtain ⟨⟨channels, rfl, hopened⟩, _, -, hstored⟩ := hr
    refine .guard (fun hfail => ⟨?_, rfl, ⟨rfl, rfl⟩, rfl⟩) fun _ =>
      ⟨hopened, rfl, ⟨rfl, rfl⟩, rfl⟩
    cases handle with
    | none => exact hopened
    | some handle => exact absurd (hstored.mpr rfl) hfail

/-- A close leaves the mapping, and fails only if the interrupt cannot be disabled. -/
theorem mbClose_keeps {handle : RtssMbHandle} (hfd : 0 ≤ handle.fd)
    (hevent : handle.mode = rtssMbModeRx → 0 ≤ handle.eventFd)
    (h : Holding (handle.resources + X) s.channels) :
    mainMonitor.Keeps (fun ret s' =>
      (Holding (.mapping handle.pMbBaseAddr handle.mbSize ::ₘ X) s'.channels ∧
        s'.others = s.others ∧ s.SameProgress s') ∧
      (s'.failed = false → s.failed = false ∧ ret = rtssMbReturnSuccess))
      (Main.mbClose handle) s := by
  refine .and_lax
    (.mono ?_ (Keeps.expand (N := mainMonitor)
      (fun channels s' => ∃ failed, s' = { s with channels := channels, failed := failed }) _ ?_
      (rtssMbClose_keeps hfd hevent h) ⟨s.failed, rfl⟩))
    (.mono ?_ (Keeps.expand (N := mainMonitor.lax)
      (fun failed s' => s'.failed = (s.failed || failed)) _ ?_ (rtssMbClose_outcome hfd)
      (Bool.or_false _).symm))
  · rintro ret s' ⟨channels, ⟨failed, rfl⟩, hheld⟩
    exact ⟨hheld, rfl, ⟨rfl, rfl⟩⟩
  · rintro o channels _ ⟨failed, rfl⟩ hallows
    exact .perform ⟨fun _ hr => absurd hr (Option.not_mem_none _), hallows⟩
      fun r _ => ⟨trivial, _, rfl⟩
  · rintro ret s' ⟨failed, hs', hret⟩ hnone
    rw [hs', Bool.or_eq_false_iff] at hnone
    exact ⟨hnone.1, hret hnone.2⟩
  · intro o failed s' hs' _
    refine .perform trivial fun r _ => ⟨trivial, ?_⟩
    change (s'.failed || _) = _
    rw [hs', Bool.or_assoc]
    rfl

end Channels

/-! The rest of `main`. -/

/-- The operations of `main` itself. -/
def IsOwn : MainOp → Prop
  | .callocMmapData | .freeMmapData | .mapOta | .munmapOta _ _ => True
  | _ => False

section Own
variable {Y : Multiset UpdaterResource} {s : ProcessState} {o : MainOp}

theorem next_own (ho : IsOwn o) (r : MainSig.Res o) :
    mainMonitor.next s ⟨o, r⟩ = { s with others := otherMonitor.next s.others ⟨o, r⟩ } := by
  cases o <;> first | exact ho.elim | rfl

theorem own_acquires (ho : IsOwn o) (hnone : mainReleases o = none) (huses : s.Uses o)
    (h : Holding Y s.others) :
    mainMonitor.Keeps (fun r s' => Holding (gain Y (mainAcquires ⟨o, r⟩)) s'.others ∧
      s'.channels = s.channels ∧ s.SameProgress s' ∧ s'.failed = s.failed)
      (Prog.perform (S := MainSig) o) s := by
  refine .perform ⟨fun r hr => ?_, huses⟩ fun r _ => ?_
  · rw [hnone] at hr
    cases hr
  · rw [next_own ho]
    exact ⟨h.acquire mainAcquires mainReleases (fun _ => True) hnone r, rfl, ⟨rfl, rfl⟩, rfl⟩

theorem own_releases {x : UpdaterResource} (ho : IsOwn o) (hsome : mainReleases o = some x)
    (huses : s.Uses o) (h : Holding (x ::ₘ Y) s.others) :
    mainMonitor.Keeps (fun _ s' => Holding Y s'.others ∧
      s'.channels = s.channels ∧ s.SameProgress s' ∧ s'.failed = s.failed)
      (Prog.perform (S := MainSig) o) s := by
  refine .perform ⟨fun r hr => ?_, huses⟩ fun r _ => ?_
  · rw [hsome] at hr
    cases hr
    exact h.2 ▸ Multiset.mem_cons_self x Y
  · rw [next_own ho]
    exact ⟨h.release mainAcquires mainReleases (fun _ => True) hsome r, rfl, ⟨rfl, rfl⟩, rfl⟩

end Own

/-- No channel is open: what is left of them are mappings. -/
def ProcessState.Closed (s : ProcessState) : Prop :=
  ∀ r ∈ held s.channels, ∃ addr size, r = .mapping addr size

/-- An open handle has the descriptors that belong to it. -/
def RtssMbHandle.Valid (h : RtssMbHandle) : Prop :=
  0 ≤ h.fd ∧ (h.mode = rtssMbModeRx → 0 ≤ h.eventFd)

/-- What is held after `rtss_updater_mem_init`. Without a result it has given back all but the
mappings of the channels. -/
def Acquired (r : Option UpdaterMemory) (s : ProcessState) : Prop :=
  match r with
  | none => s.Closed ∧ held s.others = 0
  | some mem => ∃ addr size,
      Trying (mem.rxClientData.resources + mem.txClientData.resources)
        {.ota addr size, .mmapData} s ∧
      mem.txClientData.Valid ∧ mem.rxClientData.Valid ∧
      (rtssUpdReleaseOtaBuffer (some mem.mmapData) mem.otaCtx).2.2.1 = some (addr, size)

section Init
variable {s : ProcessState} {tx rx : RtssMbHandle}

theorem closed_of_holding {X : Multiset HandleResource} (h : Holding X s.channels)
    (hX : ∀ r ∈ X, ∃ addr size, r = .mapping addr size) : s.Closed := by
  rwa [ProcessState.Closed, h.2]

/-- The exits of the initialisation free the block of the client at their end. -/
theorem exit_init (hclosed : s.Closed) (hothers : Holding {.mmapData} s.others) :
    mainMonitor.Keeps Acquired (do Main.freeMmapData; return none) s := by
  refine (own_releases (o := .freeMmapData) trivial rfl trivial hothers).then
    fun _ s' ⟨hheld, hchannels, _⟩ => ⟨?_, hheld.2⟩
  rwa [ProcessState.Closed, hchannels]

/-- The first get of the process maps the buffer or fails, and its release unmaps it. -/
theorem get_release (attempt : MapAttempt) (data : OtaMmapData) :
    ((rtssUpdGetOtaBuffer attempt data rtssOtaCtx).1 = rtssUpdEOk ↔ attempt.Maps) ∧
      (attempt.Maps → ∀ data', (rtssUpdReleaseOtaBuffer (some data')
        (rtssUpdGetOtaBuffer attempt data rtssOtaCtx).2.2).2.2.1 =
          some (attempt.otaAddr, attempt.regionSize)) := by
  by_cases hmaps : attempt.Maps
  · have hmaps' := hmaps
    obtain ⟨hfd, hret, hfailed, hnull⟩ := hmaps
    have hone : ¬ (1 : Int32) ≤ 0 := by decide
    have hlast : (1 : Int32) - 1 = 0 := by decide
    simp [rtssUpdGetOtaBuffer, mapOtaBufferLocked, rtssOtaCtx, rtssUpdReleaseOtaBuffer, hmaps', hfd,
      hret, hfailed, hnull, hone, hlast]
  · refine ⟨iff_of_false (fun hok => ?_) hmaps, fun h => absurd h hmaps⟩
    by_cases hfd : attempt.fd = -1
    · simp [rtssUpdGetOtaBuffer, mapOtaBufferLocked, rtssOtaCtx, hfd, rtssUpdEErr,
        rtssUpdEOk] at hok
    by_cases hret : attempt.nRet ≠ 0
    · simp [rtssUpdGetOtaBuffer, mapOtaBufferLocked, rtssOtaCtx, hfd, hret, rtssUpdEErr,
        rtssUpdEOk] at hok
    by_cases haddr : attempt.otaAddr = mapFailed ∨ attempt.otaAddr = null
    · simp [rtssUpdGetOtaBuffer, mapOtaBufferLocked, rtssOtaCtx, hfd, hret, haddr, rtssUpdEErr,
        rtssUpdEOk] at hok
    obtain ⟨hfailed, hnull⟩ := not_or.mp haddr
    exact hmaps ⟨hfd, not_not.mp hret, hfailed, hnull⟩

theorem memInit_keeps :
    mainMonitor.Keeps Acquired rtssUpdaterMemInit .initial := by
  refine (own_acquires (o := .callocMmapData) (Y := 0) trivial rfl trivial ⟨.nil, rfl⟩).then
    fun (allocated : Bool) s ⟨hothers, hchannels, hp, hfailed⟩ => ?_
  have hgpt : s.gptRead = false := hp.gptRead
  have hnone : Holding (0 : Multiset HandleResource) s.channels := by
    rw [hchannels]
    exact ⟨.nil, rfl⟩
  cases allocated with
  | false => exact ⟨closed_of_holding hnone fun _ h => absurd h (Multiset.notMem_zero _), hothers.2⟩
  | true =>
  replace hothers : Holding {.mmapData} s.others := hothers
  refine .guard (fun h => absurd h (by decide)) fun _ => ?_
  refine (mbOpen_keeps updaterTxChannel hnone).then fun tx s ⟨htx, ho, hp, hf⟩ => ?_
  rw [← ho] at hothers
  rw [← hp.gptRead] at hgpt
  rw [← hf] at hfailed
  cases tx with
  | none =>
      exact exit_init (closed_of_holding htx fun _ h => absurd h (Multiset.notMem_zero _)) hothers
  | some tx =>
  obtain ⟨hheld, hvalidTx⟩ : Holding (tx.resources + 0) s.channels ∧ tx.Valid := htx
  refine (mbOpen_keeps updaterRxChannel hheld).then fun rx s ⟨hrx, ho, hp, hf⟩ => ?_
  rw [← ho] at hothers
  rw [← hp.gptRead] at hgpt
  rw [← hf] at hfailed
  cases rx with
  | none =>
      refine (mbClose_keeps hvalidTx.1 hvalidTx.2 hrx).then fun _ s ⟨⟨hheld, ho, _⟩, _⟩ => ?_
      rw [← ho] at hothers
      refine exit_init (closed_of_holding hheld fun r hr => ?_) hothers
      rw [Multiset.mem_cons] at hr
      exact ⟨_, _, hr.resolve_right (Multiset.notMem_zero _)⟩
  | some rx =>
  obtain ⟨hheld, hvalidRx⟩ : Holding (rx.resources + (tx.resources + 0)) s.channels ∧ rx.Valid :=
    hrx
  rw [add_zero] at hheld
  have hmem : UpdaterResource.mmapData ∈ held s.others := by
    rw [hothers.2]
    exact Multiset.mem_singleton_self _
  refine (own_acquires (o := .mapOta) trivial rfl hmem hothers).then
    fun (attempt : MapAttempt) s ⟨hothers, hc, hp, hf⟩ => ?_
  rw [← hc] at hheld
  rw [← hp.gptRead] at hgpt
  rw [← hf] at hfailed
  obtain ⟨hok, hrelease⟩ := get_release attempt ⟨null, 0, 0⟩
  have hacquired : mainAcquires ⟨.mapOta, attempt⟩ =
    if ¬ attempt.Maps then none else some (.ota attempt.otaAddr attempt.regionSize) := rfl
  generalize rtssUpdGetOtaBuffer attempt ⟨null, 0, 0⟩ rtssOtaCtx = get at hok hrelease
  obtain ⟨nRet, mmapData, otaCtx⟩ := get
  refine .guard (fun hfail => ?_) fun hsuccess => ?_
  · rw [hacquired, gain_failed (mt hok.mpr hfail)] at hothers
    rw [add_comm] at hheld
    refine (mbClose_keeps hvalidTx.1 hvalidTx.2 hheld).then fun _ s ⟨⟨hheld, ho, _⟩, _⟩ => ?_
    rw [← ho] at hothers
    rw [← add_zero rx.resources, ← Multiset.add_cons] at hheld
    refine (mbClose_keeps hvalidRx.1 hvalidRx.2 hheld).then fun _ s ⟨⟨hheld, ho, _⟩, _⟩ => ?_
    rw [← ho] at hothers
    refine exit_init (closed_of_holding hheld fun r hr => ?_) hothers
    simp only [Multiset.mem_cons, Multiset.notMem_zero, or_false] at hr
    obtain rfl | rfl := hr
    · exact ⟨_, _, rfl⟩
    · exact ⟨_, _, rfl⟩
  · have hmaps := hok.mp (not_not.mp hsuccess)
    rw [hacquired, gain_succeeded (not_not.mpr hmaps)] at hothers
    exact ⟨_, _, ⟨⟨hheld, hothers⟩, hgpt, hfailed⟩, hvalidTx, hvalidRx, hrelease hmaps mmapData⟩

end Init

/-- With the buffer for the GPT file, if that was read. -/
def withGptBuf (read : Bool) (Y : Multiset UpdaterResource) : Multiset UpdaterResource :=
  bif read then .gptBuf ::ₘ Y else Y

theorem mem_withGptBuf {read : Bool} {Y : Multiset UpdaterResource} {x : UpdaterResource} :
    x ∈ withGptBuf read Y ↔ (x = .gptBuf ∧ read = true) ∨ x ∈ Y := by
  cases read with
  | false => simp [withGptBuf]
  | true => simp [withGptBuf]

theorem withGptBuf_cons (read : Bool) (x : UpdaterResource) (Y : Multiset UpdaterResource) :
    withGptBuf read (x ::ₘ Y) = x ::ₘ withGptBuf read Y := by
  cases read with
  | false => rfl
  | true => exact Multiset.cons_swap _ _ _

/-- What is held at the end of the process: nothing but mappings of channels that are closed
if it was refused before the handshake, everything if the RTSS did not answer, and else
nothing but the block of the client unless a close failed. A GPT update that has read its file
never frees the buffer for it. -/
inductive Ended (sequence : Option SequenceId) : UInt32 → ProcessState → Prop
  | refused (s : ProcessState) (hclosed : s.Closed) (hothers : held s.others = 0) :
      Ended sequence exitFailure s
  | unanswered (s : ProcessState) (tx rx : RtssMbHandle) (addr : Nat) (size : UInt32)
      (hchannels : held s.channels = rx.resources + tx.resources)
      (hothers : held s.others = {.ota addr size, .mmapData}) : Ended sequence exitFailure s
  | finished (s : ProcessState) (hready : s.phase = .ready)
      (hgpt : s.gptRead = true → sequence = some .gptUpdate)
      (hclosed : s.failed = false →
        s.Closed ∧ held s.others = withGptBuf s.gptRead {.mmapData})
      (hbuf : .gptBuf ∈ held s.others ↔ s.gptRead = true)
      (hothers : ∀ x ∈ held s.others, x = .mmapData ∨ x = .gptBuf ∨
        ∃ addr size, x = .ota addr size) :
      Ended sequence exitSuccess s

/-- Both channels are open and the buffer is mapped, and the release unmaps it. -/
def Serving (mem : UpdaterMemory) (read : Bool) (s : ProcessState) : Prop :=
  ∃ addr size,
    Working (mem.rxClientData.resources + mem.txClientData.resources)
      (withGptBuf read {.ota addr size, .mmapData}) read s ∧
    mem.txClientData.Valid ∧ mem.rxClientData.Valid ∧
    (rtssUpdReleaseOtaBuffer (some mem.mmapData) mem.otaCtx).2.2.1 = some (addr, size)

def Prepared (sequence : Option SequenceId) (r : Option UpdaterMemory) (s : ProcessState) : Prop :=
  match r with
  | none => Ended sequence exitFailure s
  | some mem => Serving mem false s

section Run
variable {s : ProcessState} {mem : UpdaterMemory} {sequence : Option SequenceId}

theorem memCtxInit_keeps (sequence : Option SequenceId) :
    mainMonitor.Keeps (Prepared sequence) rtssUpdaterMemCtxInit .initial := by
  refine memInit_keeps.then fun r s hr => ?_
  cases r with
  | none => exact .refused s hr.1 hr.2
  | some mem =>
      obtain ⟨addr, size, htry, hvalidTx, hvalidRx, hrelease⟩ := hr
      have hkeeps : helloMonitor.Keeps _ (isReady mem.pingCall) s :=
        isReady_keeps rfl rfl (Multiset.le_add_left _ _) (Multiset.le_add_right _ _) htry
      refine (keeps_hello hkeeps).then fun (ready, _) s ⟨htry, hready⟩ => ?_
      cases ready with
      | false =>
          exact .unanswered s mem.txClientData mem.rxClientData addr size htry.channels.2
            htry.others.2
      | true =>
          exact ⟨addr, size, ⟨htry.toHolds, hready rfl, htry.gptRead, htry.failed⟩, hvalidTx,
            hvalidRx, hrelease⟩

/-- Whatever the sequence does and returns, it serves as before; a GPT update may have read
its file. -/
theorem runSequence_keeps (args : RtssUpdaterArgopt) (imgParseInf : ImgConfig)
    (h : Serving mem false s) :
    mainMonitor.Keeps (fun _ s => ∃ read, Serving mem read s ∧
        (read = true → args.sequence = some .gptUpdate))
      (runSequence args (args.updater (mem.updater imgParseInf))) s := by
  unfold runSequence
  obtain ⟨addr, size, hworking, hrest⟩ := h
  have hupholds : ∀ read, Upholds updMonitor
      (Working (mem.rxClientData.resources + mem.txClientData.resources)
        (withGptBuf read {.ota addr size, .mmapData}) read)
      (args.updater (mem.updater imgParseInf)) := fun read =>
    working_upholds (Multiset.le_add_left _ _) (Multiset.le_add_right _ _)
      ⟨addr, size, mem_withGptBuf.mpr (.inr (Multiset.mem_cons_self _ _))⟩
  have hserves : ∀ read s, Working (mem.rxClientData.resources + mem.txClientData.resources)
      (withGptBuf read {.ota addr size, .mmapData}) read s → Serving mem read s :=
    fun read s hworking => ⟨addr, size, hworking, hrest⟩
  cases args.sequence with
  | none => exact ⟨false, hserves _ _ hworking, fun hread => absurd hread Bool.false_ne_true⟩
  | some id =>
      by_cases hid : id = .gptUpdate
      · subst hid
        refine (keeps_upd ((hupholds false).imageUpdateGpt (hupholds true)
          (fun gfile gptHdr _ h => modifygpt_keeps_buf gfile gptHdr h) .zero hworking)).then
            fun _ s h => ?_
        exact h.elim (fun h => ⟨false, hserves _ _ h, fun _ => rfl⟩)
          fun h => ⟨true, hserves _ _ h, fun _ => rfl⟩
      · exact (keeps_upd ((hupholds false).sequence hid .zero s hworking)).then fun _ s h =>
          ⟨false, hserves _ _ h, fun hread => absurd hread Bool.false_ne_true⟩

/-- The end after a close that failed. -/
theorem ended_early {addr : Nat} {size : UInt32} (hready : s.phase = .ready)
    (hgpt : s.gptRead = true → sequence = some .gptUpdate) (hfailed : ¬ s.failed = false)
    (hothers : Holding (withGptBuf s.gptRead {.ota addr size, .mmapData}) s.others) :
    Ended sequence exitSuccess s := by
  refine .finished s hready hgpt (fun hgood => absurd hgood hfailed) ?_ fun x hx => ?_
  · rw [hothers.2, mem_withGptBuf]
    simp
  · rw [hothers.2, mem_withGptBuf, Multiset.insert_eq_cons, Multiset.mem_cons,
      Multiset.mem_singleton] at hx
    obtain ⟨rfl, -⟩ | rfl | rfl := hx
    · exact .inr (.inl rfl)
    · exact .inr (.inr ⟨_, _, rfl⟩)
    · exact .inl rfl

theorem memDeinit_keeps {read : Bool} (h : Serving mem read s)
    (hgpt : read = true → sequence = some .gptUpdate) :
    mainMonitor.Keeps (fun _ => Ended sequence exitSuccess) (rtssUpdaterMemDeinit mem) s := by
  obtain ⟨addr, size, hworking, hvalidTx, hvalidRx, hrelease⟩ := h
  have hheld := hworking.channels
  rw [add_comm] at hheld
  rw [← hworking.gptRead] at hgpt
  have hothers := hworking.others
  rw [← hworking.gptRead] at hothers
  refine (mbClose_keeps hvalidTx.1 hvalidTx.2 hheld).then
    fun ret s₁ ⟨⟨hheld₁, ho₁, hp₁⟩, hret₁⟩ => .guard (fun hbad => ?_) fun _ => ?_
  · rw [← ho₁, ← hp₁.gptRead] at hothers
    rw [← hp₁.gptRead] at hgpt
    exact ended_early (hp₁.phase.trans hworking.phase) hgpt
      (fun hgood => absurd (hret₁ hgood).2 hbad) hothers
  rw [← add_zero mem.rxClientData.resources, ← Multiset.add_cons] at hheld₁
  refine (mbClose_keeps hvalidRx.1 hvalidRx.2 hheld₁).then
    fun ret s₂ ⟨⟨hheld₂, ho₂, hp₂⟩, hret₂⟩ => .guard (fun hbad => ?_) fun _ => ?_
  · rw [← ho₁, ← ho₂, ← hp₁.gptRead, ← hp₂.gptRead] at hothers
    rw [← hp₁.gptRead, ← hp₂.gptRead] at hgpt
    exact ended_early (hp₂.phase.trans (hp₁.phase.trans hworking.phase)) hgpt
      (fun hgood => absurd (hret₂ hgood).2 hbad) hothers
  rw [← ho₁, ← ho₂, ← hp₁.gptRead, ← hp₂.gptRead, Multiset.insert_eq_cons,
    withGptBuf_cons] at hothers
  have hbuffer : releaseOtaBuffer mem = Main.munmapOta addr size := by
    unfold releaseOtaBuffer
    generalize rtssUpdReleaseOtaBuffer (some mem.mmapData) mem.otaCtx = r at hrelease
    obtain ⟨ret, data, unmap, ctx⟩ := r
    cases hrelease
    rfl
  rw [hbuffer]
  refine (own_releases (o := .munmapOta addr size) trivial rfl trivial hothers).then
    fun _ s₃ ⟨hothers, hc, hp₃, _⟩ => ?_
  rw [← hp₃.gptRead] at hothers
  rw [← hp₁.gptRead, ← hp₂.gptRead, ← hp₃.gptRead] at hgpt
  refine .finished s₃ (hp₃.phase.trans (hp₂.phase.trans (hp₁.phase.trans hworking.phase))) hgpt
    (fun _ => ⟨?_, hothers.2⟩) ?_ fun x hx => ?_
  · refine closed_of_holding (hc ▸ hheld₂) fun r hr => ?_
    simp only [Multiset.mem_cons, Multiset.notMem_zero, or_false] at hr
    obtain rfl | rfl := hr
    · exact ⟨_, _, rfl⟩
    · exact ⟨_, _, rfl⟩
  · rw [hothers.2, mem_withGptBuf]
    simp
  · rw [hothers.2, mem_withGptBuf, Multiset.mem_singleton] at hx
    exact hx.elim (fun hx => .inr (.inl hx.1)) .inl

theorem refused_initial : Ended sequence exitFailure .initial :=
  .refused _ (fun _ h => absurd h (Multiset.notMem_zero _)) rfl

/-- The sequence that the command line asks for, if it is accepted. -/
def requestedSequence (args : RtssUpdaterArgopt) (argc : Nat)
    (found : List (RtssUpdaterOption × Option CString)) : Option SequenceId :=
  (rtssUpdaterGetoptParser { args with gptUpdate := args.gptUpdate.terminate } argc found).bind
    RtssUpdaterArgopt.sequence

theorem rtssUpdaterMain_keeps (args : RtssUpdaterArgopt) (argc : Nat)
    (found : List (RtssUpdaterOption × Option CString)) :
    mainMonitor.Keeps (Ended (requestedSequence args argc found))
      (rtssUpdaterMain args argc found) .initial := by
  unfold rtssUpdaterMain requestedSequence
  cases rtssUpdaterGetoptParser { args with gptUpdate := args.gptUpdate.terminate } argc found with
  | none => exact refused_initial
  | some args =>
      have hconfig : mainMonitor.Keeps (fun _ s => s = .initial) (readConfig args) .initial := by
        refine .guard (fun _ => rfl) fun _ => ?_
        exact ⟨⟨fun _ hr => absurd hr (Option.not_mem_none _), trivial⟩, fun _ _ => rfl⟩
      refine hconfig.then fun r s hs => ?_
      subst hs
      cases r with
      | none => exact refused_initial
      | some imgParseInf =>
          refine (memCtxInit_keeps args.sequence).then fun r s hr => ?_
          cases r with
          | none => exact hr
          | some mem =>
              refine (runSequence_keeps args imgParseInf hr).then fun _ s ⟨read, h, hgpt⟩ => ?_
              exact (memDeinit_keeps h hgpt).then fun _ s h => h

end Run

/-- In every run of the updater, finished or not, whatever the system, the RTSS and the files
answer, each operation only uses what is held then and gives nothing back twice, no command
goes before the handshake, and the end holds what its result says. -/
theorem updater_accounted (args : RtssUpdaterArgopt) (argc : Nat)
    (found : List (RtssUpdaterOption × Option CString)) (t : List (Event MainSig))
    (q : Prog MainSig UInt32) (hruns : Runs (rtssUpdaterMain args argc found) t q)
    (hassumed : mainMonitor.Assumed .initial t) :
    mainMonitor.Allowed .initial t ∧
      ∀ ret, q = .ret ret →
        Ended (requestedSequence args argc found) ret (mainMonitor.after .initial t) := by
  obtain ⟨hallowed, hrest⟩ := (rtssUpdaterMain_keeps args argc found).runs hruns hassumed
  refine ⟨hallowed, fun ret hret => ?_⟩
  subst hret
  exact hrest

/-! A run from the command line to the end. -/

/-- What the library finds in a mailbox with the channels of the updater. -/
def updaterLib : (c : LibCall) → c.Res
  | .numOfSubRegion _ => (2 : UInt32)
  | .getChanInfo _ index _ =>
      ((0 : Int), some (if index = 0 then ⟨updaterTxChannel, 0, 0, 0, 0, rtssMbModeTx, 0, 16, 72⟩
        else ⟨updaterRxChannel, 0, 0, 0, 0, rtssMbModeRx, 0, 16, 72⟩))
  | .read _ dest _ _ => ((0 : Int), some dest)
  | .validate _ | .getFreeItemNum _ _ | .getValidItemNum _ _ | .write _ _ _ _ => (0 : Int)

def updaterDevice : (o : DevOp) → DevSig.Res o
  | .lib c => updaterLib c
  | .calloc => true
  | .open => (⟨3, 0⟩ : SysStatus)
  | .eventfd => (⟨4, 0⟩ : SysStatus)
  | .getMbRegion _ => ((⟨0, 0⟩ : SysStatus), (1024 : UInt32))
  | .mmap _ _ => ((4096 : Nat), (0 : Int))
  | .poll _ _ => (⟨⟨1, 0⟩, true, false⟩ : PollStatus)
  | .setEventFd _ _ | .sendInterrupt _ _ | .eventfdRead _ => (⟨0, 0⟩ : SysStatus)
  | .free | .close _ | .munmap _ _ => ()

theorem openAssumes_updaterDevice (o : DevOp) : openAssumes ⟨o, updaterDevice o⟩ := by
  cases o with
  | «open» | eventfd => exact .inr (by decide)
  | _ => trivial

theorem setsErrno_updaterDevice (o : DevOp) : SetsErrno ⟨o, updaterDevice o⟩ := by
  cases o with
  | «open» | eventfd => exact fun h => absurd h (by decide)
  | getMbRegion _ | setEventFd _ _ => exact fun h => absurd rfl h
  | mmap _ _ =>
      have hmapped : ¬ ((4096 : Nat) = mapFailed ∨ (4096 : Nat) = null) := by decide
      exact fun h => absurd h hmapped
  | _ => trivial

/-- A system in which every call succeeds, and an RTSS that answers every HELLO. -/
def processHandler : Handler MainSig World
  | .dev o, w => (updaterDevice o, w)
  | .mbClose o, w => ((closeSucceeds o ()).1, w)
  | .hello (.upd o), w => World.step o w
  | .hello (.mbReadTimed _ _ _ _), w => (((sizeofRtssUpdMsgHeader : Int), sampleHelloResponse), w)
  | .hello (.chanReset _), w => ((0 : Int), w)
  | .callocMmapData, w => (true, w)
  | .mapOta, w => (sampleAttempt, w)
  | .freeMmapData, w | .munmapOta _ _, w => ((), w)

def gptOptions : List (RtssUpdaterOption × Option CString) :=
  [(.gptUpdate, some (cString "/gpt"))]

/-- A GPT file of one byte, and the responses until it is read. -/
def gptWorld : World :=
  { World.sample [(sampleResponse rtssUpdMsgCheckGpt 0 [0, 0, 16], []),
      (sampleResponse rtssUpdMsgReadGpt 0 [], [])] with files := [(cString "/gpt", [1])] }

/-- The file is read, and its buffer is held at the end. -/
theorem updater_accounted_gpt : ∃ t,
    Runs (rtssUpdaterMain .zero 3 gptOptions) t (.ret exitSuccess) ∧
    mainMonitor.Allowed .initial t ∧
    Ended (some .gptUpdate) exitSuccess (mainMonitor.after .initial t) ∧
    (mainMonitor.after .initial t).gptRead = true := by
  have hret : ((rtssUpdaterMain .zero 3 gptOptions).run processHandler gptWorld).1 =
      exitSuccess := by decide +kernel
  have hruns := runs_eventTrace processHandler (rtssUpdaterMain .zero 3 gptOptions) gptWorld
  rw [hret] at hruns
  have hassumed := assumed_eventTrace (M := mainMonitor) processHandler (fun _ o w => by
    cases o with
    | dev o => exact ⟨openAssumes_updaterDevice o, setsErrno_updaterDevice o⟩
    | _ => trivial) (rtssUpdaterMain .zero 3 gptOptions) gptWorld .initial
  obtain ⟨hallowed, hended⟩ := updater_accounted _ _ _ _ _ hruns hassumed
  exact ⟨_, hruns, hallowed, hended _ rfl, by decide +kernel⟩

end RtssMailbox
