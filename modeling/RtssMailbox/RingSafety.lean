import RtssMailbox.RingWriter
import RtssMailbox.RingReader

/-!
One writer and one reader in any interleaving. Both parties are verified against
each other's steps, so the composition gives the invariant of every reachable
state: the indices stay in the ring, the slots under copy are disjoint, and what
was received is what was accepted, less what is still in the ring.
-/
namespace RtssMailbox
open Effects ByteMemory CyclicBuffer RelyGuarantee

def MemOp.isCopyIn : MemSig.Op → Bool
  | MemOp.copyIn _ _ => true
  | _ => false

def MemOp.isCopyOut : MemSig.Op → Bool
  | MemOp.copyOut _ _ => true
  | _ => false

abbrev RingSystem (ch : Channel) : Type := System Nat (writer ch) (reader ch)

namespace RingSystem
variable {ch : Channel}

/-- What any interleaving of the two parties reaches from a memory without items. -/
def Reachable (m : Mem) (x : RingSystem ch) : Prop :=
  System.Reachable ringHandler copiedBytes ⟨m, [], []⟩ x

/-- The addresses that the writer's call copies into: those of its copies so far
and of the copies before its next register access. -/
def writing (x : RingSystem ch) : List Nat :=
  x.left.noting ringHandler copiedBytes MemOp.isCopyIn x.state

def reading (x : RingSystem ch) : List Nat :=
  x.right.noting ringHandler copiedBytes MemOp.isCopyOut x.state

theorem verified (ch : Channel) :
    Verified ringHandler copiedBytes (writer ch) (reader ch) (WriterStep ch) (ReaderStep ch)
      (writerSafe ch) (readerSafe ch) (RingInv ch) where
  reflC _ h := .refl h
  reflD _ h := .refl h
  transC _ _ _ h h' := h.trans h'
  transD _ _ _ h h' := h.trans h'
  invC _ _ h := h.inv
  invD _ _ h := h.inv
  callsC call s hs := writer_calls ch call s hs
  callsD call s hs := reader_calls ch call s hs

/-- In every reachable state of every interleaving: both indices are slots of the
ring, the writer copies into no byte that the reader copies out of, and the
accepted items are the received ones followed by those in the ring. -/
theorem interleaving_safe (ch : Channel) (m : Mem) (h : ch.Consistent m)
    (hempty : ch.items m = []) (x : RingSystem ch) (hx : x.Reachable m) :
    ch.inIndex x.state.mem < ch.num.toNat ∧ ch.outIndex x.state.mem < ch.num.toNat ∧
      (∀ p ∈ x.writing, p ∉ x.reading) ∧
      x.state.received <+: x.state.accepted ∧
      x.state.accepted = x.state.received ++ ch.items x.state.mem := by
  have hinit : RingInv ch ⟨m, [], []⟩ := ⟨h, hempty.symm⟩
  obtain ⟨hinv, -, -⟩ := (verified ch).reachable hinit hx
  refine ⟨hinv.in_lt, hinv.out_lt, ?_, ⟨_, hinv.accepted_eq.symm⟩, hinv.accepted_eq⟩
  refine (verified ch).noting_disjoint _ _ (fun o s ho => ?_) (fun l r s hs hl hr p hp => ?_)
    hinit hx
  · cases o with
    | copyOut a n => rfl
    | getReg a | setReg a v | copyIn a bs => cases ho
  · exact fun hp' => hs.toConsistent.free_not_item (hl p hp) (hr p hp')

/-- While one party copies in a third item, the other copies out the first one. -/
theorem interleaving_safe_sample :
    ∃ x : RingSystem Channel.sample, x.Reachable Channel.sampleMem ∧
      x.writing.length = 2 ∧ x.reading.length = 2 ∧ (∀ p ∈ x.writing, p ∉ x.reading) ∧
      x.state.accepted = [[0, 1], [2, 3]] ∧ x.state.received <+: x.state.accepted := by
  have hstart : System.Reachable ringHandler copiedBytes ⟨Channel.sampleMem, [], []⟩
      (⟨.idle, .idle, ⟨Channel.sampleMem, [], []⟩⟩ : RingSystem Channel.sample) := .refl
  have hwritten := hstart.call_left ⟨some fun i => UInt8.ofNat i, 2⟩
  have hwriting := hwritten.tail
    (.left _ (.start (⟨some fun i => UInt8.ofNat i, 1⟩ : TransferCall) _))
  have hreading := hwriting.tail (.right _ (.start (⟨some fun _ => 0, 1⟩ : TransferCall) _))
  have hreach := System.Reachable.turns hreading
    [true, false, true, false, true, false, true, false, true, false, true, false, true,
      false, true, false, true, false, true, false, true, false, true, false, true]
  have hsafe := interleaving_safe Channel.sample Channel.sampleMem Channel.sampleMem_consistent
    (by decide) _ hreach
  exact ⟨_, hreach, by decide, by decide, hsafe.2.2.1, by decide, hsafe.2.2.2.1⟩

end RingSystem
end RtssMailbox
