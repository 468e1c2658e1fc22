import RtssMailbox.Library.Monitor
import RtssMailbox.MailboxLibrary

/-!
Calls on a ring whose header the other processor rewrites while they run. Each register
read may give a value of its own, so the items that a call admits and the ring that its
copies go to may belong to different headers.
-/
namespace RtssMailbox
open Effects ByteMemory Monitoring

/-- The values of the register reads of a call, one after the other, and the bytes of its
copies out of the ring. -/
structure PeerAnswers where
  regs : Nat → UInt32
  ring : Nat → Nat → List UInt8

/-- The state is the number of registers read so far. -/
def peerHandler (peer : PeerAnswers) : Handler MemSig Nat
  | .getReg _, k => (peer.regs k, k + 1)
  | .setReg _ _, k => ((), k)
  | .copyIn _ _, k => ((), k)
  | .copyOut a n, k => (peer.ring a n, k)

def RingBounds (ringSize itemSize : UInt32) : Prop :=
  ringSize ≤ mbMaxItemNum ∧ itemSize ≤ mbMaxSize ∧ ringSize.toNat * itemSize.toNat < 2 ^ 32

/-- A monitor of the value that was last read from each register. By these, copies stay in
the ring of the sub-region at `base` and a stored index is one of its slots. -/
def ringMonitor (base : Nat) : Monitor MemSig (Nat → UInt32) where
  next
    | last, ⟨.getReg a, v⟩ => Function.update last a v
    | last, _ => last
  allows last o :=
    let ringSize := last (base + MbSubRgnDesc.maxItemNum)
    let itemSize := last (base + MbSubRgnDesc.maxItemSize)
    let ring := base + mbSubRegionHeaderSz
    RingBounds ringSize itemSize →
      match o with
      | .getReg _ => True
      | .setReg _ v => v < ringSize
      | .copyIn a bs => ring ≤ a ∧ a + bs.length ≤ ring + ringSize.toNat * itemSize.toNat
      | .copyOut a n => ring ≤ a ∧ a + n ≤ ring + ringSize.toNat * itemSize.toNat
  assumes _ _ := True

/-- What is left of the wrapped copy, in the arithmetic of the code, fits in the ring. -/
def SplitFits (index num ringSize itemSize : UInt32) : Prop :=
  index.toNat + num.toNat < 2 ^ 32 ∧
    (index.toNat + num.toNat ≤ ringSize.toNat ∨
      (index.toNat + num.toNat - ringSize.toNat) * itemSize.toNat % 2 ^ 32 ≤
        ringSize.toNat * itemSize.toNat)

section Spans
variable {index num ringSize itemSize : UInt32}

theorem toNat_mul_of_le {k : UInt32} (hbounds : RingBounds ringSize itemSize)
    (hk : k.toNat ≤ ringSize.toNat) : (k * itemSize).toNat = k.toNat * itemSize.toNat := by
  have hle := Nat.mul_le_mul_right itemSize.toNat hk
  have hlt := hbounds.2.2
  rw [UInt32.toNat_mul, Nat.mod_eq_of_lt (by omega)]

/-- A number of items that makes the index overflow is copied past any ring. -/
theorem overflow_outside (hbounds : RingBounds ringSize itemSize) (hindex : index < ringSize)
    (hsize : itemSize ≠ 0) (hover : 2 ^ 32 ≤ index.toNat + num.toNat) :
    ringSize.toNat * itemSize.toNat < index.toNat * itemSize.toNat + (num * itemSize).toNat := by
  have hlt := hbounds.2.2
  have hpos : 0 < itemSize.toNat := UInt32.pos_iff_ne_zero.mpr hsize
  have hindex : index.toNat < ringSize.toNat := hindex
  have hnum := num.toNat_lt
  obtain ⟨k, hk⟩ := Nat.exists_eq_add_of_le hover
  have hkl : k < index.toNat := by omega
  obtain ⟨d, hd⟩ := Nat.exists_eq_add_of_lt hkl
  have hback : num.toNat + (d + 1) = 2 ^ 32 := by omega
  have hdpos : 0 < (d + 1) * itemSize.toNat := Nat.mul_pos (Nat.succ_pos d) hpos
  have hdle : (d + 1) * itemSize.toNat ≤ index.toNat * itemSize.toNat :=
    Nat.mul_le_mul_right _ (by omega)
  have hile : index.toNat * itemSize.toNat ≤ ringSize.toNat * itemSize.toNat :=
    Nat.mul_le_mul_right _ (Nat.le_of_lt hindex)
  have hsum : num.toNat * itemSize.toNat + (d + 1) * itemSize.toNat = 2 ^ 32 * itemSize.toNat := by
    rw [← Nat.add_mul, hback]
  rw [UInt32.toNat_mul]
  omega

/-- The copies stay in the ring exactly if the split fits. -/
theorem ringSpans_inside_iff (hbounds : RingBounds ringSize itemSize) (hindex : index < ringSize)
    (hsize : itemSize ≠ 0) :
    (∀ s ∈ ringSpans index num ringSize itemSize,
      s.slot + s.len ≤ ringSize.toNat * itemSize.toNat) ↔
      SplitFits index num ringSize itemSize := by
  have hlt : index.toNat < ringSize.toNat := hindex
  have hat := toNat_mul_of_le (k := index) hbounds (Nat.le_of_lt hlt)
  have hmax : ringSize.toNat ≤ 1048576 := hbounds.1
  have hnum := num.toNat_lt
  have hadd : (index + num).toNat = (index.toNat + num.toNat) % 2 ^ 32 := UInt32.toNat_add _ _
  rw [ringSpans]
  split
  · rename_i hwrap
    have hwrap : ringSize.toNat < (index + num).toNat := hwrap
    have hsum : (index + num).toNat = index.toNat + num.toNat := by omega
    have hfirst : (ringSize - index).toNat = ringSize.toNat - index.toNat :=
      UInt32.toNat_sub_of_le _ _ (UInt32.le_iff_toNat_le.mpr (Nat.le_of_lt hlt))
    have hrest : (index + num - ringSize).toNat = index.toNat + num.toNat - ringSize.toNat := by
      rw [UInt32.toNat_sub_of_le _ _ (UInt32.le_iff_toNat_le.mpr (by omega)), hsum]
    have hfirstBytes := toNat_mul_of_le (k := ringSize - index) hbounds (by omega)
    have htotal : index.toNat * itemSize.toNat + (ringSize.toNat - index.toNat) * itemSize.toNat =
        ringSize.toNat * itemSize.toNat := by
      rw [← Nat.add_mul, Nat.add_sub_of_le (Nat.le_of_lt hlt)]
    simp only [List.forall_mem_cons, List.not_mem_nil, false_implies, implies_true, and_true, hat,
      hfirstBytes, hfirst, htotal, Nat.le_refl, true_and, Nat.zero_add, UInt32.toNat_mul, hrest]
    rw [SplitFits]
    have hover : index.toNat + num.toNat < 2 ^ 32 := hsum ▸ UInt32.toNat_lt _
    have hpast : ¬ index.toNat + num.toNat ≤ ringSize.toNat := by omega
    rw [and_iff_right hover, or_iff_right hpast]
  · rename_i hwrap
    have hwrap : (index + num).toNat ≤ ringSize.toNat := UInt32.not_lt.mp hwrap
    simp only [List.forall_mem_cons, List.not_mem_nil, false_implies, implies_true, and_true, hat]
    by_cases hover : 2 ^ 32 ≤ index.toNat + num.toNat
    · refine iff_of_false (Nat.not_le.mpr (overflow_outside hbounds hindex hsize hover)) ?_
      exact fun h => absurd h.1 (Nat.not_lt.mpr hover)
    · have hsum : index.toNat + num.toNat ≤ ringSize.toNat := by omega
      have hbytes := toNat_mul_of_le (k := num) hbounds (by omega)
      rw [hbytes, ← Nat.add_mul]
      exact iff_of_true (Nat.mul_le_mul_right _ hsum) ⟨by omega, Or.inl hsum⟩

end Spans

/-- The copies stay in the ring for the values that the copy routine reads itself, unless it
gives up on them. -/
def CopySafe (num itemSize index ringSize : UInt32) : Prop :=
  RingBounds ringSize itemSize → ringSize ≠ 0 → itemSize ≠ 0 → index < ringSize →
    SplitFits index num ringSize itemSize

section Copies
variable (peer : PeerAnswers) (base : Nat)

/-- The copies of one span after the other, into the ring or out of it. -/
theorem allowed_spans {f : Span → Event MemSig} {last : Nat → UInt32} {ringSize itemSize : UInt32}
    (hnext : ∀ s, (ringMonitor base).next last (f s) = last)
    (hallows : ∀ s, (ringMonitor base).allows last (f s).op ↔
      (RingBounds ringSize itemSize → s.slot + s.len ≤ ringSize.toNat * itemSize.toNat))
    (spans : List Span) :
    ((ringMonitor base).Allowed last (spans.map f) ↔ (RingBounds ringSize itemSize →
      ∀ s ∈ spans, s.slot + s.len ≤ ringSize.toNat * itemSize.toNat)) ∧
      (ringMonitor base).after last (spans.map f) = last := by
  induction spans with
  | nil => exact ⟨iff_of_true (Monitor.Allowed.nil _) fun _ _ => nofun, rfl⟩
  | cons s rest ih =>
      rw [List.map_cons, Monitor.allowed_cons, hnext, hallows, ih.1, List.forall_mem_cons]
      refine ⟨?_, ?_⟩
      · exact ⟨fun h hbounds => ⟨h.1 hbounds, h.2 hbounds⟩,
          fun h => ⟨fun hbounds => (h hbounds).1, fun hbounds => (h hbounds).2⟩⟩
      · rw [Monitor.after, List.foldl_cons, hnext]
        exact ih.2

theorem eventTrace_copyIntoRing (ring : Nat) (source : Mem) (spans : List Span) (k : Nat) :
    eventTrace (peerHandler peer) (copyIntoRing ring source spans) k =
      spans.map fun s => ⟨.copyIn (ring + s.slot) (loadBytes source s.off s.len), ()⟩ := by
  induction spans with
  | nil => rfl
  | cons s rest ih => exact congrArg (List.cons _) ih

theorem eventTrace_copyFromRing (ring : Nat) (dest : Mem) (spans : List Span) (k : Nat) :
    eventTrace (peerHandler peer) (copyFromRing ring dest spans) k =
      spans.map fun s => ⟨.copyOut (ring + s.slot) s.len, peer.ring (ring + s.slot) s.len⟩ := by
  induction spans generalizing dest with
  | nil => rfl
  | cons s rest ih => exact congrArg (List.cons _) (ih _)

/-- After the reads of a copy routine the monitor has the values that it read. -/
theorem last_of_reads (last : Nat → UInt32) {field : Nat} (itemSize index ringSize : UInt32)
    (hfield : field = MbSubRgnDesc.itemInIndex ∨ field = MbSubRgnDesc.itemOutIndex) :
    let last' := Function.update (Function.update (Function.update last
      (base + MbSubRgnDesc.maxItemSize) itemSize) (base + field) index)
        (base + MbSubRgnDesc.maxItemNum) ringSize
    last' (base + MbSubRgnDesc.maxItemNum) = ringSize ∧
      last' (base + MbSubRgnDesc.maxItemSize) = itemSize := by
  have hne : base + MbSubRgnDesc.maxItemSize ≠ base + field := by
    rcases hfield with rfl | rfl <;> simp [MbSubRgnDesc.maxItemSize, MbSubRgnDesc.itemInIndex,
      MbSubRgnDesc.itemOutIndex]
  have hne' : base + MbSubRgnDesc.maxItemSize ≠ base + MbSubRgnDesc.maxItemNum := by
    simp [MbSubRgnDesc.maxItemSize, MbSubRgnDesc.maxItemNum]
  refine ⟨Function.update_self _ _ _, ?_⟩
  rw [Function.update_of_ne hne', Function.update_of_ne hne, Function.update_self]

/-- What a copy routine does with these answers from the read number `k` on, for the
register of its index and the events of its copies. -/
def routineEvents (field : Nat) (num : UInt32) (copy : Span → Event MemSig) (k : Nat) :
    List (Event MemSig) :=
  let itemSize := peer.regs k
  let index := peer.regs (k + 1)
  let ringSize := peer.regs (k + 2)
  ⟨.getReg (base + MbSubRgnDesc.maxItemSize), itemSize⟩ :: ⟨.getReg (base + field), index⟩ ::
    ⟨.getReg (base + MbSubRgnDesc.maxItemNum), ringSize⟩ ::
      if ringSize = 0 ∨ itemSize = 0 ∨ index ≥ ringSize then
        []
      else
        (ringSpans index num ringSize itemSize).map copy ++
          [⟨.setReg (base + field) ((index + num) % ringSize), ()⟩]

theorem eventTrace_getReg_bind {α : Type} (a : Nat) (f : UInt32 → Prog MemSig α) (k : Nat) :
    eventTrace (peerHandler peer) (getReg a >>= f) k =
      ⟨.getReg a, peer.regs k⟩ :: eventTrace (peerHandler peer) (f (peer.regs k)) (k + 1) := rfl

theorem eventTrace_libMBWriteItem (source : Mem) (num : UInt32) (k : Nat) :
    eventTrace (peerHandler peer) (libMBWriteItem base source num) k =
      routineEvents peer base MbSubRgnDesc.itemInIndex num (fun s =>
        ⟨.copyIn (base + mbSubRegionHeaderSz + s.slot) (loadBytes source s.off s.len), ()⟩) k := by
  simp only [libMBWriteItem, eventTrace_getReg_bind, routineEvents]
  split
  · rfl
  · rw [eventTrace_bind, eventTrace_copyIntoRing]
    rfl

theorem eventTrace_libMBReadItem (dest : Mem) (num : UInt32) (k : Nat) :
    eventTrace (peerHandler peer) (libMBReadItem base dest num) k =
      routineEvents peer base MbSubRgnDesc.itemOutIndex num (fun s =>
        ⟨.copyOut (base + mbSubRegionHeaderSz + s.slot) s.len,
          peer.ring (base + mbSubRegionHeaderSz + s.slot) s.len⟩) k := by
  simp only [libMBReadItem, eventTrace_getReg_bind, routineEvents]
  split
  · rfl
  · rw [eventTrace_bind, eventTrace_copyFromRing]
    rfl

/-- A copy event: it touches the bytes of its span in the ring, and reads no register. -/
structure IsCopy (copy : Span → Event MemSig) : Prop where
  next : ∀ last s, (ringMonitor base).next last (copy s) = last
  allows : ∀ last s, (ringMonitor base).allows last (copy s).op ↔
    (RingBounds (last (base + MbSubRgnDesc.maxItemNum)) (last (base + MbSubRgnDesc.maxItemSize)) →
      s.slot + s.len ≤ (last (base + MbSubRgnDesc.maxItemNum)).toNat *
        (last (base + MbSubRgnDesc.maxItemSize)).toNat)

theorem isCopy_copyIn (source : Mem) : IsCopy base fun s =>
    ⟨.copyIn (base + mbSubRegionHeaderSz + s.slot) (loadBytes source s.off s.len), ()⟩ where
  next _ _ := rfl
  allows last s := by
    simp only [ringMonitor, loadBytes_length]
    exact imp_congr_right fun _ => by omega

theorem isCopy_copyOut : IsCopy base fun s =>
    ⟨.copyOut (base + mbSubRegionHeaderSz + s.slot) s.len,
      peer.ring (base + mbSubRegionHeaderSz + s.slot) s.len⟩ where
  next _ _ := rfl
  allows last s := by
    simp only [ringMonitor]
    exact imp_congr_right fun _ => by omega

theorem allowed_routineEvents {copy : Span → Event MemSig} (hcopy : IsCopy base copy)
    {field : Nat} (hfield : field = MbSubRgnDesc.itemInIndex ∨ field = MbSubRgnDesc.itemOutIndex)
    (num : UInt32) (k : Nat) (last : Nat → UInt32) :
    (ringMonitor base).Allowed last (routineEvents peer base field num copy k) ↔
      CopySafe num (peer.regs k) (peer.regs (k + 1)) (peer.regs (k + 2)) := by
  have hread : ∀ last a v t, (ringMonitor base).Allowed last (⟨.getReg a, v⟩ :: t) ↔
      (ringMonitor base).Allowed (Function.update last a v) t := fun last a v t =>
    Monitor.allowed_cons.trans (and_iff_right fun _ => trivial)
  rw [routineEvents, CopySafe]
  refine (hread _ _ _ _).trans ((hread _ _ _ _).trans ((hread _ _ _ _).trans ?_))
  obtain ⟨hnum, hsize⟩ := last_of_reads base last (peer.regs k) (peer.regs (k + 1))
    (peer.regs (k + 2)) hfield
  revert hnum hsize
  generalize Function.update (Function.update (Function.update last
    (base + MbSubRgnDesc.maxItemSize) (peer.regs k)) (base + field) (peer.regs (k + 1)))
      (base + MbSubRgnDesc.maxItemNum) (peer.regs (k + 2)) = last'
  intro hnum hsize
  split
  · rename_i hguard
    refine iff_of_true (Monitor.Allowed.nil _) fun _ hN hz hlt => ?_
    rcases hguard with h | h | h
    · exact absurd h hN
    · exact absurd h hz
    · exact absurd hlt (UInt32.not_lt.mpr h)
  · rename_i hguard
    obtain ⟨hN, hrest⟩ := not_or.mp hguard
    obtain ⟨hz, hle⟩ := not_or.mp hrest
    have hlt := UInt32.not_le.mp hle
    have hallows := hcopy.allows last'
    rw [hnum, hsize] at hallows
    obtain ⟨hcopies, hafter⟩ := allowed_spans base (hcopy.next last') hallows
      (ringSpans (peer.regs (k + 1)) num (peer.regs (k + 2)) (peer.regs k))
    have hstore : (ringMonitor base).Allowed last'
        [⟨.setReg (base + field) ((peer.regs (k + 1) + num) % peer.regs (k + 2)), ()⟩] := by
      refine Monitor.allowed_cons.mpr ⟨fun _ => ?_, Monitor.Allowed.nil _⟩
      rw [hnum]
      exact UInt32.mod_lt _ (UInt32.pos_iff_ne_zero.mpr hN)
    rw [Monitor.allowed_append, hafter, and_iff_left hstore, hcopies]
    constructor
    · exact fun h hbounds _ _ _ => (ringSpans_inside_iff hbounds hlt hz).mp (h hbounds)
    · exact fun h hbounds => (ringSpans_inside_iff hbounds hlt hz).mpr (h hbounds hN hz hlt)

end Copies

section Calls
variable (peer : PeerAnswers) (base : Nat)

/-- From the read number `k` on, the program is allowed exactly under a condition, whatever
was read before. -/
def AllowedIff {α : Type} (p : Prog MemSig α) (k : Nat) (P : Prop) : Prop :=
  ∀ last, (ringMonitor base).Allowed last (eventTrace (peerHandler peer) p k) ↔ P

variable {peer base}

theorem AllowedIff.ret {α : Type} (a : α) (k : Nat) : AllowedIff peer base (pure a) k True :=
  fun _ => iff_of_true (Monitor.Allowed.nil _) trivial

theorem AllowedIff.getReg {α : Type} {a k : Nat} {f : UInt32 → Prog MemSig α} {P : Prop}
    (h : AllowedIff peer base (f (peer.regs k)) (k + 1) P) :
    AllowedIff peer base (getReg a >>= f) k P := fun _ =>
  Monitor.allowed_cons.trans ((and_iff_right fun _ => trivial).trans (h _))

/-- What follows the copies of a call performs no operation. -/
theorem AllowedIff.bind_ret {α β : Type} {p : Prog MemSig α} {f : α → β} {k : Nat} {P : Prop}
    (h : AllowedIff peer base p k P) :
    AllowedIff peer base (p >>= fun a => pure (f a)) k P := by
  intro last
  rw [eventTrace_bind, ← h last]
  exact iff_of_eq (congrArg _ (List.append_nil _))

theorem AllowedIff.sanityCheck {α : Type} {f : Bool → Prog MemSig α} {k : Nat} {P : Prop}
    (hbase : base ≠ null)
    (h : AllowedIff peer base (f !(peer.regs k > mbMaxItemNum || peer.regs (k + 1) > mbMaxSize ||
      peer.regs (k + 2) ≥ peer.regs k || peer.regs (k + 3) ≥ peer.regs k)) (k + 4) P) :
    AllowedIff peer base (libMBMailboxSanityCheck base >>= f) k P := by
  simp only [libMBMailboxSanityCheck, if_pos hbase, Prog.bind_bind]
  exact .getReg (.getReg (.getReg (.getReg h)))

end Calls

/-- The registers that the checks of a call read are in order. -/
def HeaderAdmitted (mb : Nat) (subRegionIndex : UInt32) (regs : Nat → UInt32) : Prop :=
  mb ≠ null ∧ regs 0 = mbMagicNumber ∧ subRegionIndex < regs 1 ∧ regs 3 ≤ mbMaxItemNum ∧
    regs 4 ≤ mbMaxSize ∧ regs 5 < regs 3 ∧ regs 6 < regs 3

def freeRead (regs : Nat → UInt32) : UInt32 × Nat :=
  if regs 7 ≥ regs 8 then (regs 9 - regs 7 + regs 8 - 1, 10) else (regs 8 - regs 7 - 1, 9)

def validRead (regs : Nat → UInt32) : UInt32 × Nat :=
  if regs 7 ≥ regs 8 then (regs 7 - regs 8, 9) else (regs 9 - regs 8 + regs 7, 10)

/-- What the copy routine reads, from the read number `k` on, is safe for so many items. -/
def CopySafeAt (regs : Nat → UInt32) (num : UInt32) (k : Nat) : Prop :=
  CopySafe num (regs k) (regs (k + 1)) (regs (k + 2))

/-- The items that a read takes out. -/
def readNum (itemNum : UInt32) (regs : Nat → UInt32) : UInt32 :=
  if (validRead regs).1 < itemNum then (validRead regs).1 else itemNum

def WriteSafe (mb : Nat) (source : Option Mem) (itemNum subRegionIndex : UInt32)
    (regs : Nat → UInt32) : Prop :=
  source.isSome → HeaderAdmitted mb subRegionIndex regs → itemNum ≤ (freeRead regs).1 →
    CopySafeAt regs itemNum (freeRead regs).2

def ReadSafe (mb : Nat) (dest : Option Mem) (itemNum subRegionIndex : UInt32)
    (regs : Nat → UInt32) : Prop :=
  dest.isSome → HeaderAdmitted mb subRegionIndex regs → readNum itemNum regs > 0 →
    CopySafeAt regs (readNum itemNum regs) (validRead regs).2

/-- By the values that the copy routine of a call reads itself, its copies stay in the ring
and the index that it stores is one of the slots. -/
def CopiesInRing {α : Type} (mb : Nat) (peer : PeerAnswers) (call : Prog MemSig α) : Prop :=
  (ringMonitor (mb + (peer.regs 2).toNat)).Allowed (fun _ => 0)
    (eventTrace (peerHandler peer) call 0)

section Calls
variable {peer : PeerAnswers} {mb : Nat} {subRegionIndex : UInt32} {α : Type} {fail : Int → α}
  {body : Nat → Prog MemSig α}

theorem onSubRegion_admitted {P : Prop} (hadm : HeaderAdmitted mb subRegionIndex peer.regs)
    (h : AllowedIff peer (mb + (peer.regs 2).toNat) (body (mb + (peer.regs 2).toNat)) 7 P) :
    AllowedIff peer (mb + (peer.regs 2).toNat) (onSubRegion mb subRegionIndex fail body) 0 P := by
  obtain ⟨hmb, hmagic, hindex, hnum, hsize, hin, hout⟩ := hadm
  have hbase : mb + (peer.regs 2).toNat ≠ null := fun h => hmb (Nat.eq_zero_of_add_eq_zero_right h)
  refine .getReg ?_
  rw [if_pos hmagic]
  refine .getReg ?_
  rw [if_pos hindex]
  refine .getReg (.sanityCheck hbase ?_)
  have hsane : (!(peer.regs 3 > mbMaxItemNum || peer.regs 4 > mbMaxSize ||
      peer.regs 5 ≥ peer.regs 3 || peer.regs 6 ≥ peer.regs 3)) = true := by
    simp [UInt32.not_lt.mpr hnum, UInt32.not_lt.mpr hsize, UInt32.not_le.mpr hin,
      UInt32.not_le.mpr hout]
  rw [hsane]
  exact h

theorem onSubRegion_refused (hmb : mb ≠ null)
    (hnot : ¬ HeaderAdmitted mb subRegionIndex peer.regs) :
    AllowedIff peer (mb + (peer.regs 2).toNat) (onSubRegion mb subRegionIndex fail body) 0
      True := by
  have hbase : mb + (peer.regs 2).toNat ≠ null := fun h => hmb (Nat.eq_zero_of_add_eq_zero_right h)
  refine .getReg ?_
  by_cases hmagic : peer.regs 0 = mbMagicNumber
  · rw [if_pos hmagic]
    refine .getReg ?_
    by_cases hindex : subRegionIndex < peer.regs 1
    · rw [if_pos hindex]
      refine .getReg (.sanityCheck hbase ?_)
      have hsane : (!(peer.regs 3 > mbMaxItemNum || peer.regs 4 > mbMaxSize ||
          peer.regs 5 ≥ peer.regs 3 || peer.regs 6 ≥ peer.regs 3)) = false := by
        by_contra hsane
        refine hnot ⟨hmb, hmagic, hindex, ?_⟩
        simpa [and_assoc] using hsane
      rw [hsane]
      exact .ret _ _
    · rw [if_neg hindex]
      exact .ret _ _
  · rw [if_neg hmagic]
    exact .ret _ _

theorem AllowedIff.freeItem {base : Nat} {f : UInt32 → Prog MemSig α} {P : Prop}
    (h : AllowedIff peer base (f (freeRead peer.regs).1) (freeRead peer.regs).2 P) :
    AllowedIff peer base (libMBFreeItem base >>= f) 7 P := by
  simp only [libMBFreeItem, Prog.bind_bind]
  refine .getReg (.getReg ?_)
  rw [freeRead] at h
  by_cases horder : peer.regs 7 ≥ peer.regs 8
  · rw [if_pos horder] at h ⊢
    exact .getReg h
  · rw [if_neg horder] at h ⊢
    exact h

theorem AllowedIff.validItem {base : Nat} {f : UInt32 → Prog MemSig α} {P : Prop}
    (h : AllowedIff peer base (f (validRead peer.regs).1) (validRead peer.regs).2 P) :
    AllowedIff peer base (libMBValidItem base >>= f) 7 P := by
  simp only [libMBValidItem, Prog.bind_bind]
  refine .getReg (.getReg ?_)
  rw [validRead] at h
  by_cases horder : peer.regs 7 ≥ peer.regs 8
  · rw [if_pos horder] at h ⊢
    exact h
  · rw [if_neg horder] at h ⊢
    exact .getReg h

theorem allowedIff_libMBWriteItem (base : Nat) (source : Mem) (num : UInt32) (k : Nat) :
    AllowedIff peer base (libMBWriteItem base source num) k (CopySafeAt peer.regs num k) := by
  intro last
  rw [eventTrace_libMBWriteItem]
  exact allowed_routineEvents peer base (isCopy_copyIn base source) (Or.inl rfl) num k last

theorem allowedIff_libMBReadItem (base : Nat) (dest : Mem) (num : UInt32) (k : Nat) :
    AllowedIff peer base (libMBReadItem base dest num) k (CopySafeAt peer.regs num k) := by
  intro last
  rw [eventTrace_libMBReadItem]
  exact allowed_routineEvents peer base (isCopy_copyOut peer base) (Or.inr rfl) num k last

theorem libMBWrite_copies (source : Option Mem) (itemNum : UInt32) :
    CopiesInRing mb peer (libMBWrite mb source itemNum subRegionIndex) ↔
      WriteSafe mb source itemNum subRegionIndex peer.regs := by
  cases source with
  | none => exact iff_of_true (Monitor.Allowed.nil _) nofun
  | some source =>
      rw [CopiesInRing, libMBWrite]
      by_cases hmb : mb ≠ null
      · rw [if_pos hmb]
        by_cases hadm : HeaderAdmitted mb subRegionIndex peer.regs
        · refine (onSubRegion_admitted (P := itemNum ≤ (freeRead peer.regs).1 →
            CopySafeAt peer.regs itemNum (freeRead peer.regs).2) hadm (.freeItem ?_) _).trans ?_
          · by_cases hfree : itemNum ≤ (freeRead peer.regs).1
            · rw [if_pos hfree]
              intro last
              rw [forall_prop_of_true hfree]
              exact (allowedIff_libMBWriteItem _ source itemNum _).bind_ret last
            · rw [if_neg hfree]
              exact fun _ => iff_of_true (Monitor.Allowed.nil _) fun h => absurd h hfree
          · exact ⟨fun h _ _ => h, fun h => h rfl hadm⟩
        · exact iff_of_true ((onSubRegion_refused hmb hadm _).mpr trivial)
            fun _ h => absurd h hadm
      · rw [if_neg hmb]
        exact iff_of_true (Monitor.Allowed.nil _) fun _ h => absurd h.1 hmb

theorem libMBRead_copies (dest : Option Mem) (itemNum : UInt32) :
    CopiesInRing mb peer (libMBRead mb dest itemNum subRegionIndex) ↔
      ReadSafe mb dest itemNum subRegionIndex peer.regs := by
  cases dest with
  | none => exact iff_of_true (Monitor.Allowed.nil _) nofun
  | some dest =>
      rw [CopiesInRing, libMBRead]
      by_cases hmb : mb ≠ null
      · rw [if_pos hmb]
        by_cases hadm : HeaderAdmitted mb subRegionIndex peer.regs
        · refine (onSubRegion_admitted (P := readNum itemNum peer.regs > 0 →
            CopySafeAt peer.regs (readNum itemNum peer.regs) (validRead peer.regs).2) hadm
              (.validItem ?_) _).trans ?_
          · change AllowedIff _ _ (if readNum itemNum peer.regs > 0 then _ else _) _ _
            by_cases hread : readNum itemNum peer.regs > 0
            · rw [if_pos hread]
              intro last
              rw [forall_prop_of_true hread]
              exact (allowedIff_libMBReadItem _ dest (readNum itemNum peer.regs) _).bind_ret last
            · rw [if_neg hread]
              exact fun _ => iff_of_true (Monitor.Allowed.nil _) fun h => absurd h hread
          · exact ⟨fun h _ _ => h, fun h => h rfl hadm⟩
        · exact iff_of_true ((onSubRegion_refused hmb hadm _).mpr trivial)
            fun _ h => absurd h hadm
      · rw [if_neg hmb]
        exact iff_of_true (Monitor.Allowed.nil _) fun _ h => absurd h.1 hmb

end Calls

/-- Whatever the registers give, the copies of a call stay in the ring that its copy routine
sees exactly if the items that it admitted fit there: their index does not overflow, and
what is left of them behind the end of the ring is no longer than the ring. -/
theorem ring_copies_iff (mb : Nat) (subRegionIndex itemNum : UInt32) (buf : Option Mem)
    (peer : PeerAnswers) :
    (CopiesInRing mb peer (libMBWrite mb buf itemNum subRegionIndex) ↔
        WriteSafe mb buf itemNum subRegionIndex peer.regs) ∧
      (CopiesInRing mb peer (libMBRead mb buf itemNum subRegionIndex) ↔
        ReadSafe mb buf itemNum subRegionIndex peer.regs) :=
  ⟨libMBWrite_copies buf itemNum, libMBRead_copies buf itemNum⟩

/-- A ring of eight items of one byte that shrinks to two between the count of the free
items and the copy. -/
def shrinkingRing : PeerAnswers where
  regs k := [mbMagicNumber, 1, 64, 8, 1, 0, 0, 0, 0, 8, 1, 0, 2].getD k 0
  ring _ n := List.replicate n 0

theorem ring_copies_outside :
    ¬ CopiesInRing 4096 shrinkingRing (libMBWrite 4096 (some fun _ => 0) 5 0) := by
  intro h
  have hadm : HeaderAdmitted 4096 0 shrinkingRing.regs := by
    refine ⟨?_, ?_, ?_, ?_, ?_, ?_, ?_⟩ <;> decide
  have hsafe := (libMBWrite_copies _ _).mp h rfl hadm (by decide)
  have hfits := hsafe ⟨by decide, by decide, by decide⟩ (by decide) (by decide) (by decide)
  rcases hfits.2 with hfirst | hsecond
  · exact absurd hfirst (by decide)
  · exact absurd hsecond (by decide)

end RtssMailbox
