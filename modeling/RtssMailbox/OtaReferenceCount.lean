import Mathlib.Logic.Relation
import RtssMailbox.ChannelHandle
import RtssMailbox.Library.Resources
import RtssMailbox.UpdaterChecksums

/-!
The OTA buffer that the clients of the updater share. The first client that asks for it has
it mapped, a count follows the others, and the last release takes the mapping out of the
context and unmaps it after the lock is given back.
-/
namespace RtssMailbox
open Relation Resources

structure OtaContext where
  baseAddr : Nat
  sVA : UInt32
  refcount : Int32
  size : UInt32

def rtssOtaCtx : OtaContext := ⟨null, 0, 0, 0⟩

structure OtaMmapData where
  pOtaBaseAddr : Nat
  sVA : UInt32
  nSizeofBuffer : UInt32

/-- What the system calls of an attempt to map the buffer return. -/
structure MapAttempt where
  fd : Int
  nRet : Int
  regionAddr : UInt64
  regionSize : UInt32
  otaAddr : Nat

/-- `map_ota_buffer_locked`: the result, the data of the client and the context. -/
def mapOtaBufferLocked (attempt : MapAttempt) (data : OtaMmapData) (ctx : OtaContext) :
    UInt32 × OtaMmapData × OtaContext :=
  if attempt.fd = -1 then
    (rtssUpdEErr, data, ctx)
  else if attempt.nRet ≠ 0 then
    (rtssUpdEErr, data, ctx)
  else if attempt.otaAddr = mapFailed ∨ attempt.otaAddr = null then
    (rtssUpdEErr, data, ctx)
  else
    let ctx := ⟨attempt.otaAddr, attempt.regionAddr.toUInt32, 1, attempt.regionSize⟩
    (rtssUpdEOk, ⟨ctx.baseAddr, ctx.sVA, ctx.size⟩, ctx)

/-- `rtss_upd_get_ota_buffer`, which holds the lock for all that it does. -/
def rtssUpdGetOtaBuffer (attempt : MapAttempt) (data : OtaMmapData) (ctx : OtaContext) :
    UInt32 × OtaMmapData × OtaContext :=
  if ctx.baseAddr ≠ null then
    (rtssUpdEOk, ⟨ctx.baseAddr, ctx.sVA, ctx.size⟩, { ctx with refcount := ctx.refcount + 1 })
  else
    let (nRet, data, ctx) := mapOtaBufferLocked attempt data ctx
    (if nRet ≠ rtssUpdEOk then rtssUpdEErr else rtssUpdEOk, data, ctx)

/-- `rtss_upd_release_ota_buffer` up to the end of its locked part: the result, the data of
the client, the mapping that it unmaps after that, and the context. -/
def rtssUpdReleaseOtaBuffer (data : Option OtaMmapData) (ctx : OtaContext) :
    UInt32 × Option OtaMmapData × Option (Nat × UInt32) × OtaContext :=
  match data with
  | none => (rtssUpdEErr, none, none, ctx)
  | some data =>
      let data := { data with pOtaBaseAddr := null, nSizeofBuffer := 0 }
      if ctx.refcount ≤ 0 then
        (rtssUpdEErr, some data, none, ctx)
      else
        let ctx := { ctx with refcount := ctx.refcount - 1 }
        if ctx.refcount = 0 then
          let addr := ctx.baseAddr
          let size := ctx.size
          (rtssUpdEOk, some data, if addr ≠ null then some (addr, size) else none,
            { ctx with baseAddr := null, sVA := 0, size := 0 })
        else
          (rtssUpdEOk, some data, none, ctx)

section System
variable (Client : Type)

/-- The context with the mappings that were made and unmapped, the calls of `munmap` that
are still to come, and who has the buffer. -/
structure OtaSystem where
  ctx : OtaContext
  mappings : List (Change (Nat × UInt32))
  pending : Multiset (Nat × UInt32)
  gets : Nat
  releases : Nat
  /-- The mapping of every successful get that its client has not released. -/
  having : Multiset (Client × (Nat × UInt32))
  /-- Some client released what it did not have. -/
  surplus : Bool

variable {Client}

def OtaSystem.initial : OtaSystem Client := ⟨rtssOtaCtx, [], 0, 0, 0, 0, false⟩

/-- A get maps the buffer if there is none and every call of the attempt succeeds. -/
def MapAttempt.Maps (attempt : MapAttempt) : Prop :=
  attempt.fd ≠ -1 ∧ attempt.nRet = 0 ∧ attempt.otaAddr ≠ mapFailed ∧ attempt.otaAddr ≠ null

instance (attempt : MapAttempt) : Decidable attempt.Maps := by
  unfold MapAttempt.Maps
  infer_instance

def OtaSystem.get (c : Client) (attempt : MapAttempt) (data : OtaMmapData)
    (s : OtaSystem Client) : OtaSystem Client :=
  let (ret, data, ctx) := rtssUpdGetOtaBuffer attempt data s.ctx
  let mappings := if s.ctx.baseAddr = null ∧ attempt.Maps then
    s.mappings ++ [.acquired (attempt.otaAddr, attempt.regionSize)] else s.mappings
  if ret = rtssUpdEOk then
    { s with
      ctx := ctx
      mappings := mappings
      gets := s.gets + 1
      having := (c, data.pOtaBaseAddr, data.nSizeofBuffer) ::ₘ s.having }
  else
    { s with ctx := ctx, mappings := mappings }

/-- The locked part of a release, and who has the buffer after it if it succeeds. -/
def OtaSystem.release (data : Option OtaMmapData)
    (having : Multiset (Client × (Nat × UInt32))) (surplus : Bool) (s : OtaSystem Client) :
    OtaSystem Client :=
  let (ret, _, unmap, ctx) := rtssUpdReleaseOtaBuffer data s.ctx
  if ret = rtssUpdEOk then
    { s with
      ctx := ctx
      pending := s.pending + (Multiset.ofList unmap.toList)
      releases := s.releases + 1
      having := having
      surplus := surplus }
  else
    { s with ctx := ctx }

/-- The `munmap` of a release that was the last. -/
def OtaSystem.unmap (m : Nat × UInt32) (s : OtaSystem Client) : OtaSystem Client :=
  { s with pending := s.pending.erase m, mappings := s.mappings ++ [.released m] }

inductive OtaCall (Client : Type) where
  | get (c : Client) (attempt : MapAttempt) (data : OtaMmapData)
  | release (c : Client) (data : Option OtaMmapData)
  | unmap (m : Nat × UInt32)

/-- The steps of the clients in any order. A client that has the buffer gives back one of
its gets; one that has not releases the get of another. -/
inductive OtaStep [DecidableEq Client] :
    OtaCall Client → OtaSystem Client → OtaSystem Client → Prop
  | get (c : Client) (attempt : MapAttempt) (data : OtaMmapData) (s : OtaSystem Client) :
      OtaStep (.get c attempt data) s (s.get c attempt data)
  | release (c : Client) (m : Nat × UInt32) (data : Option OtaMmapData) (s : OtaSystem Client)
      (hhas : (c, m) ∈ s.having) :
      OtaStep (.release c data) s (s.release data (s.having.erase (c, m)) s.surplus)
  | surplus (c : Client) (data : Option OtaMmapData) (s : OtaSystem Client)
      (hnot : ∀ m, (c, m) ∉ s.having) :
      OtaStep (.release c data) s (s.release data s.having true)
  | unmap (m : Nat × UInt32) (s : OtaSystem Client) (hpending : m ∈ s.pending) :
      OtaStep (.unmap m) s (s.unmap m)

/-- The count is that of the gets not released, the address is there as long as it is
positive and is that of a live mapping, every `munmap` was of a live mapping with its size
and of no mapping twice, and if no client released what it did not have, what the clients
have is mapped. -/
structure Accounted (s : OtaSystem Client) : Prop where
  count : s.ctx.refcount.toInt = s.gets - s.releases
  nonneg : 0 ≤ s.ctx.refcount.toInt
  base : s.ctx.baseAddr ≠ null ↔ 0 < s.ctx.refcount.toInt
  mapped : s.ctx.baseAddr ≠ null → (s.ctx.baseAddr, s.ctx.size) ∈ held s.mappings
  proper : Proper s.mappings
  once : ∀ m, s.mappings.count (.released m) ≤ s.mappings.count (.acquired m)
  having : s.surplus = false → ∀ p ∈ s.having, p.2 ∈ held s.mappings

/-- The count of a get does not overflow. -/
def OtaCall.Counted (s : OtaSystem Client) : OtaCall Client → Prop
  | .get _ _ _ => s.ctx.refcount.toInt < 2 ^ 31 - 1
  | .release _ _ | .unmap _ => True

/-- The mapping that the context has. -/
def OtaContext.current (ctx : OtaContext) : Multiset (Nat × UInt32) :=
  if ctx.baseAddr = null then 0 else {(ctx.baseAddr, ctx.size)}

theorem OtaContext.current_of_null {ctx : OtaContext} (h : ctx.baseAddr = null) :
    ctx.current = 0 := if_pos h

theorem OtaContext.current_of_mapped {ctx : OtaContext} (h : ctx.baseAddr ≠ null) :
    ctx.current = {(ctx.baseAddr, ctx.size)} := if_neg h

/-- What is mapped is what the context has and what is still to be unmapped. -/
structure OtaInv (s : OtaSystem Client) : Prop where
  count : s.ctx.refcount.toInt = s.gets - s.releases
  nonneg : 0 ≤ s.ctx.refcount.toInt
  base : s.ctx.baseAddr ≠ null ↔ 0 < s.ctx.refcount.toInt
  live : held s.mappings = s.pending + s.ctx.current
  proper : Proper s.mappings
  having : s.surplus = false → (s.having.card : ℤ) = s.ctx.refcount.toInt ∧
    ∀ p ∈ s.having, p.2 = (s.ctx.baseAddr, s.ctx.size)

theorem OtaInv.initial : OtaInv (OtaSystem.initial : OtaSystem Client) where
  count := rfl
  nonneg := Int.le_refl _
  base := iff_of_false (fun h => h rfl) (Int.lt_irrefl _)
  live := rfl
  proper := .nil
  having _ := ⟨rfl, fun _ h => absurd h (Multiset.notMem_zero _)⟩

theorem OtaInv.accounted {s : OtaSystem Client} (h : OtaInv s) : Accounted s where
  count := h.count
  nonneg := h.nonneg
  base := h.base
  mapped hbase := by
    rw [h.live, OtaContext.current_of_mapped hbase]
    exact Multiset.mem_add.mpr (Or.inr (Multiset.mem_singleton_self _))
  proper := h.proper
  once m := by
    rw [h.proper.count m]
    exact Nat.le_add_right _ _
  having hsurplus p hp := by
    obtain ⟨hcard, hsame⟩ := h.having hsurplus
    have hpos : 0 < s.ctx.refcount.toInt := by
      have hcard' := Multiset.card_pos_iff_exists_mem.mpr ⟨p, hp⟩
      omega
    rw [h.live, hsame p hp, OtaContext.current_of_mapped (h.base.mpr hpos)]
    exact Multiset.mem_add.mpr (Or.inr (Multiset.mem_singleton_self _))

section Steps
variable {s : OtaSystem Client} {c : Client} {attempt : MapAttempt} {data : OtaMmapData}
  {having : Multiset (Client × (Nat × UInt32))} {surplus : Bool}

theorem get_shared (hbase : s.ctx.baseAddr ≠ null) :
    s.get c attempt data = { s with
      ctx := { s.ctx with refcount := s.ctx.refcount + 1 }
      gets := s.gets + 1
      having := (c, s.ctx.baseAddr, s.ctx.size) ::ₘ s.having } := by
  simp [OtaSystem.get, rtssUpdGetOtaBuffer, hbase]

theorem get_mapped (hbase : s.ctx.baseAddr = null) (hmaps : attempt.Maps) :
    s.get c attempt data = { s with
      ctx := ⟨attempt.otaAddr, attempt.regionAddr.toUInt32, 1, attempt.regionSize⟩
      mappings := s.mappings ++ [.acquired (attempt.otaAddr, attempt.regionSize)]
      gets := s.gets + 1
      having := (c, attempt.otaAddr, attempt.regionSize) ::ₘ s.having } := by
  have hmaps' := hmaps
  obtain ⟨hfd, hret, hfailed, hnull⟩ := hmaps
  simp [OtaSystem.get, rtssUpdGetOtaBuffer, mapOtaBufferLocked, hbase, hmaps', hfd, hret, hfailed,
    hnull]

theorem get_failed (hbase : s.ctx.baseAddr = null) (hmaps : ¬ attempt.Maps) :
    s.get c attempt data = s := by
  have hfail : ∃ data', mapOtaBufferLocked attempt data s.ctx = (rtssUpdEErr, data', s.ctx) := by
    rw [mapOtaBufferLocked]
    split
    · exact ⟨_, rfl⟩
    · split
      · exact ⟨_, rfl⟩
      · split
        · exact ⟨_, rfl⟩
        · rename_i hfd hret haddr
          obtain ⟨hfailed, hnull⟩ := not_or.mp haddr
          exact absurd ⟨hfd, not_not.mp hret, hfailed, hnull⟩ hmaps
  obtain ⟨data', hfail⟩ := hfail
  simp [OtaSystem.get, rtssUpdGetOtaBuffer, hbase, hmaps, hfail, rtssUpdEErr, rtssUpdEOk]

theorem release_refused {data : Option OtaMmapData}
    (h : data = none ∨ s.ctx.refcount ≤ 0) : s.release data having surplus = s := by
  cases data with
  | none => rfl
  | some data =>
      have hcount : s.ctx.refcount ≤ 0 := h.resolve_left nofun
      simp [OtaSystem.release, rtssUpdReleaseOtaBuffer, hcount, rtssUpdEErr, rtssUpdEOk]

theorem release_shared (hpos : ¬ s.ctx.refcount ≤ 0) (hmore : s.ctx.refcount - 1 ≠ 0) :
    s.release (some data) having surplus = { s with
      ctx := { s.ctx with refcount := s.ctx.refcount - 1 }
      releases := s.releases + 1
      having := having
      surplus := surplus } := by
  simp [OtaSystem.release, rtssUpdReleaseOtaBuffer, hpos, hmore]

theorem release_last (hpos : ¬ s.ctx.refcount ≤ 0) (hlast : s.ctx.refcount - 1 = 0)
    (hbase : s.ctx.baseAddr ≠ null) :
    s.release (some data) having surplus = { s with
      ctx := rtssOtaCtx
      pending := s.pending + {(s.ctx.baseAddr, s.ctx.size)}
      releases := s.releases + 1
      having := having
      surplus := surplus } := by
  simp [OtaSystem.release, rtssUpdReleaseOtaBuffer, hpos, hlast, hbase, rtssOtaCtx]

theorem refcount_succ {r : Int32} (hpos : 0 ≤ r.toInt) (hlt : r.toInt < 2 ^ 31 - 1) :
    (r + 1).toInt = r.toInt + 1 := by
  have hone : (1 : Int32).toInt = 1 := rfl
  rw [Int32.toInt_add, hone]
  exact Int.bmod_eq_of_le (by omega) (by omega)

theorem refcount_pred {r : Int32} (hpos : 0 < r.toInt) : (r - 1).toInt = r.toInt - 1 := by
  have hone : (1 : Int32).toInt = 1 := rfl
  have hlt := r.toInt_lt
  rw [Int32.toInt_sub, hone]
  exact Int.bmod_eq_of_le (by omega) (by omega)

theorem refcount_le_zero_iff {r : Int32} : r ≤ 0 ↔ r.toInt ≤ 0 := by
  rw [Int32.le_iff_toInt_le]
  rfl

theorem OtaInv.get (h : OtaInv s) (hcount : s.ctx.refcount.toInt < 2 ^ 31 - 1) :
    OtaInv (s.get c attempt data) := by
  by_cases hbase : s.ctx.baseAddr = null
  · by_cases hmaps : attempt.Maps
    · rw [get_mapped hbase hmaps]
      have hzero : s.ctx.refcount.toInt = 0 := by
        have hle := mt h.base.mpr (not_not.mpr hbase)
        have hge := h.nonneg
        omega
      have hone : (1 : Int32).toInt = 1 := rfl
      have hnull : attempt.otaAddr ≠ null := hmaps.2.2.2
      constructor
      · have hcount := h.count
        simp only [hone]
        omega
      · simp only [hone]
        decide
      · exact iff_of_true hnull (by simp only [hone]; decide)
      · have hlive : held s.mappings = s.pending := by
          rw [h.live, OtaContext.current_of_null hbase, Multiset.add_zero]
        have hcurrent : OtaContext.current
            ⟨attempt.otaAddr, attempt.regionAddr.toUInt32, 1, attempt.regionSize⟩ =
              {(attempt.otaAddr, attempt.regionSize)} := OtaContext.current_of_mapped hnull
        simp only [held_concat, hlive, hcurrent, Change.after]
        rw [Multiset.add_comm, Multiset.singleton_add]
      · exact h.proper.acquire _
      · intro hsurplus
        obtain ⟨hcard, -⟩ := h.having hsurplus
        have hempty : s.having = 0 := Multiset.card_eq_zero.mp (by omega)
        simp only [hempty, hone]
        exact ⟨rfl, fun p hp => by rw [Multiset.mem_singleton.mp hp]⟩
    · rw [get_failed hbase hmaps]
      exact h
  · rw [get_shared hbase]
    have hsucc := refcount_succ h.nonneg hcount
    have hpos := h.base.mp hbase
    have hget := h.count
    constructor
    · simp only [hsucc]
      omega
    · simp only [hsucc]
      omega
    · exact iff_of_true hbase (by simp only [hsucc]; omega)
    · exact h.live
    · exact h.proper
    · intro hsurplus
      obtain ⟨hcard, hsame⟩ := h.having hsurplus
      simp only [hsucc, Multiset.card_cons]
      refine ⟨by omega, fun p hp => ?_⟩
      rcases Multiset.mem_cons.mp hp with rfl | hp
      · rfl
      · exact hsame p hp

theorem OtaInv.release {data : Option OtaMmapData} (h : OtaInv s)
    (hhaving : surplus = false → s.surplus = false ∧ having.card + 1 = s.having.card ∧
      ∀ p ∈ having, p ∈ s.having) : OtaInv (s.release data having surplus) := by
  cases data with
  | none =>
      rw [release_refused (Or.inl rfl)]
      exact h
  | some data =>
      by_cases hrefused : s.ctx.refcount ≤ 0
      · rw [release_refused (Or.inr hrefused)]
        exact h
      · have hpos : 0 < s.ctx.refcount.toInt := by
          have hnot := mt refcount_le_zero_iff.mpr hrefused
          omega
        have hpred := refcount_pred hpos
        have hbase := h.base.mpr hpos
        have hget := h.count
        by_cases hlast : s.ctx.refcount - 1 = 0
        · rw [release_last hrefused hlast hbase]
          have hone : s.ctx.refcount.toInt = 1 := by
            rw [hlast] at hpred
            have hzero : (0 : Int32).toInt = 0 := rfl
            omega
          have hzero : rtssOtaCtx.refcount.toInt = 0 := rfl
          constructor
          · simp only [hzero]
            omega
          · exact Int.le_refl _
          · exact iff_of_false (fun h => h rfl) (Int.lt_irrefl _)
          · have hcurrent : rtssOtaCtx.current = 0 := OtaContext.current_of_null rfl
            simp only [h.live, OtaContext.current_of_mapped hbase, hcurrent, Multiset.add_zero]
          · exact h.proper
          · intro hsurplus
            obtain ⟨hold, hcard, -⟩ := hhaving hsurplus
            obtain ⟨hcount, -⟩ := h.having hold
            have hempty : having = 0 := Multiset.card_eq_zero.mp (by omega)
            rw [hempty]
            exact ⟨rfl, fun _ hp => absurd hp (Multiset.notMem_zero _)⟩
        · rw [release_shared hrefused hlast]
          have hmore : s.ctx.refcount.toInt ≠ 1 := fun hone => hlast (Int32.toInt.inj (by
            rw [hpred, hone]
            rfl))
          constructor
          · simp only [hpred]
            omega
          · simp only [hpred]
            omega
          · exact iff_of_true hbase (by simp only [hpred]; omega)
          · exact h.live
          · exact h.proper
          · intro hsurplus
            obtain ⟨hold, hcard, hsub⟩ := hhaving hsurplus
            obtain ⟨hcount, hsame⟩ := h.having hold
            simp only [hpred]
            exact ⟨by omega, fun p hp => hsame p (hsub p hp)⟩

theorem OtaInv.unmap (h : OtaInv s) {m : Nat × UInt32} (hm : m ∈ s.pending) :
    OtaInv (s.unmap m) where
  count := h.count
  nonneg := h.nonneg
  base := h.base
  live := by
    rw [OtaSystem.unmap, held_concat, h.live]
    exact Multiset.erase_add_left_pos _ hm
  proper := h.proper.release (by
    rw [h.live]
    exact Multiset.mem_add.mpr (Or.inl hm))
  having := h.having

end Steps

variable [DecidableEq Client] {s s' : OtaSystem Client} {call : OtaCall Client}

theorem OtaStep.inv (h : OtaStep call s s') (hcounted : call.Counted s) (hinv : OtaInv s) :
    OtaInv s' := by
  cases h with
  | get c attempt data => exact hinv.get hcounted
  | release c m data _ hhas =>
      refine hinv.release fun hsurplus => ⟨hsurplus, ?_, fun p hp => Multiset.mem_of_mem_erase hp⟩
      exact Multiset.card_erase_add_one hhas
  | surplus c data _ hnot => exact hinv.release nofun
  | unmap m _ hm => exact hinv.unmap hm

/-- In every run in which the count does not overflow, it accounts for the gets and the
mappings in every state. -/
theorem ota_buffer_accounted {s : OtaSystem Client}
    (hrun : ReflTransGen (fun s s' => ∃ call, OtaStep call s s' ∧ OtaCall.Counted s call)
      OtaSystem.initial s) : Accounted s := by
  suffices hinv : OtaInv s from hinv.accounted
  induction hrun with
  | refl => exact .initial
  | tail _ hstep ih =>
      obtain ⟨call, hstep, hcounted⟩ := hstep
      exact hstep.inv hcounted ih

end System

/-- An attempt that maps sixteen pages. -/
def sampleAttempt : MapAttempt := ⟨3, 0, 0x90E00000, 65536, 4096⟩

theorem ota_buffer_accounted_sample :
    Accounted ((OtaSystem.initial : OtaSystem Unit).get () sampleAttempt ⟨null, 0, 0⟩) :=
  ota_buffer_accounted (.single ⟨_, .get () sampleAttempt ⟨null, 0, 0⟩ .initial,
    show (0 : Int32).toInt < 2 ^ 31 - 1 by decide⟩)

/-- So many gets may come before the first release. -/
theorem exists_gets (n : Nat) : ∃ s : OtaSystem Unit,
    ReflTransGen (fun s s' => ∃ call, OtaStep call s s') OtaSystem.initial s ∧
      s.ctx.baseAddr ≠ null ∧ s.gets = n + 1 ∧ s.releases = 0 := by
  induction n with
  | zero =>
      refine ⟨_, .single ⟨_, .get () sampleAttempt ⟨null, 0, 0⟩ .initial⟩, ?_⟩
      rw [get_mapped rfl (by decide)]
      exact ⟨by decide, rfl, rfl⟩
  | succ n ih =>
      obtain ⟨s, hrun, hbase, hgets, hreleases⟩ := ih
      refine ⟨_, hrun.tail ⟨_, .get () sampleAttempt ⟨null, 0, 0⟩ s⟩, ?_⟩
      rw [get_shared hbase]
      exact ⟨hbase, congrArg (· + 1) hgets, hreleases⟩

/-- After 2147483648 gets the count cannot be their number. -/
theorem ota_buffer_not_accounted :
    ¬ ∀ s : OtaSystem Unit, ReflTransGen (fun s s' => ∃ call, OtaStep call s s')
      OtaSystem.initial s → Accounted s := by
  intro h
  obtain ⟨s, hrun, -, hgets, hreleases⟩ := exists_gets 2147483647
  have hcount := (h s hrun).count
  have hlt := s.ctx.refcount.toInt_lt
  rw [hgets, hreleases] at hcount
  omega

end RtssMailbox
