import RtssMailbox.MailboxLibrary

/-!
The copy routine of the mailbox library, which copies words where both addresses are
aligned and bytes elsewhere. What it leaves in memory is compared with its accesses:
each byte of the source is read once and each byte of the destination written once.
-/
namespace RtssMailbox
open Effects ByteMemory

/-- The addresses that a program accesses in the way of `f`, in order. -/
def accessed {α : Type} (f : MemOp → List Nat) (p : Prog MemSig α) (m : Mem) : List Nat :=
  List.flatMap f (p.ops memHandler m)

theorem accessed_bind {α β : Type} (f : MemOp → List Nat) (p : Prog MemSig α)
    (g : α → Prog MemSig β) (m : Mem) :
    accessed f (p >>= g) m =
      accessed f p m ++ accessed f (g (p.run memHandler m).1) (p.run memHandler m).2 := by
  rw [accessed, Prog.ops_bind]
  exact List.flatMap_append

/-- A copy of `n` bytes: the destination has them, nothing else has changed, and the
accesses are the bytes of the two ranges, each once and in order. -/
structure CopiesOnce (dest src n : Nat) (m : Mem) (p : Prog MemSig Unit) : Prop where
  copied : ∀ i < n, (p.run memHandler m).2 (dest + i) = m (src + i)
  frame : ∀ a, a < dest ∨ dest + n ≤ a → (p.run memHandler m).2 a = m a
  reads : accessed MemOp.read p m = byteRange src n
  writes : accessed MemOp.written p m = byteRange dest n

/-- The accesses of a copy that `f` selects are its bytes from the address `place` on. -/
structure Selects (f : MemOp → List Nat) (place : (dest src : Nat) → Nat) : Prop where
  shift : ∀ dest src k, place (dest + k) (src + k) = place dest src + k
  unit : ∀ w dest src m, accessed f (assignUnit w dest src) m = byteRange (place dest src) w

theorem selects_read : Selects MemOp.read fun _ src => src where
  shift _ _ _ := rfl
  unit w dest src m := by
    change byteRange src w ++ ([] ++ []) = byteRange src w
    rw [List.append_nil, List.append_nil]

theorem selects_written : Selects MemOp.written fun dest _ => dest where
  shift _ _ _ := rfl
  unit w dest src m := by
    change [] ++ (byteRange dest (loadBytes m src w).length ++ []) = byteRange dest w
    rw [List.nil_append, List.append_nil, loadBytes_length]

section Accesses
variable {f : MemOp → List Nat} {place : (dest src : Nat) → Nat} (h : Selects f place)
include h

theorem accessed_assignUnits (w count dest src : Nat) (m : Mem) :
    accessed f (assignUnits w count dest src) m = byteRange (place dest src) (count * w) := by
  induction count generalizing dest src m with
  | zero => rw [Nat.zero_mul]; rfl
  | succ count ih =>
      rw [assignUnits_succ, accessed_bind, h.unit, ih, h.shift, Nat.succ_mul,
        Nat.add_comm (count * w), byteRange_append]

/-- The words and the bytes behind them are one range. -/
theorem accessed_words_bytes (words bytes dest src : Nat) (m : Mem) :
    accessed f (do
      assignUnits 8 words dest src
      assignUnits 1 bytes (dest + words * 8) (src + words * 8)) m =
      byteRange (place dest src) (words * 8 + bytes) := by
  rw [accessed_bind, accessed_assignUnits h, accessed_assignUnits h, h.shift, Nat.mul_one,
    byteRange_append]

theorem accessed_libmbcopyBytes {dest src : Nat} (hdest : dest ≠ null) (hsrc : src ≠ null)
    (byteNum : UInt32) (m : Mem) :
    accessed f (libmbcopyBytes dest src byteNum) m =
      byteRange (place dest src) byteNum.toNat := by
  by_cases hzero : byteNum = 0
  · rw [libmbcopyBytes, if_pos (Or.inr (Or.inr hzero)), hzero]
    rfl
  rw [libmbcopyBytes, if_neg (not_or.mpr ⟨hsrc, not_or.mpr ⟨hdest, hzero⟩⟩)]
  by_cases haligned : dest % 8 = 0 ∧ src % 8 = 0
  · simp only [if_pos haligned]
    rw [accessed_words_bytes h, Nat.div_add_mod']
  · simp only [if_neg haligned]
    rw [accessed_words_bytes h, Nat.zero_mul, Nat.zero_add]

end Accesses

/-- For every alignment and every length, the bytes of the source are copied once, as the
loops over bytes alone would copy them. -/
theorem libmbcopyBytes_copiesOnce (dest src : Nat) (byteNum : UInt32) (m : Mem)
    (hdest : dest ≠ null) (hsrc : src ≠ null)
    (hdisjoint : RangeDisjoint src byteNum.toNat dest byteNum.toNat) :
    CopiesOnce dest src byteNum.toNat m (libmbcopyBytes dest src byteNum) ∧
      (libmbcopyBytes dest src byteNum).run memHandler m =
        (assignUnits 1 byteNum.toNat dest src).run memHandler m := by
  have hrun := run_libmbcopyBytes dest src byteNum m hdest hsrc hdisjoint
  have hmem : ((libmbcopyBytes dest src byteNum).run memHandler m).2 =
      storeBytes m dest (loadBytes m src byteNum.toNat) := congrArg Prod.snd hrun
  have hlen : (loadBytes m src byteNum.toNat).length = byteNum.toNat := loadBytes_length _ _ _
  refine ⟨⟨fun i hi => ?_, fun a ha => ?_, ?_, ?_⟩, ?_⟩
  · rw [hmem, storeBytes_inside _ _ _ _ (by rwa [hlen])]
    have hbyte := getElem?_loadBytes m src byteNum.toNat i hi
    exact Option.some.inj ((List.getElem?_eq_getElem _).symm.trans hbyte)
  · rw [hmem]
    exact storeBytes_outside _ _ _ _ (by rwa [hlen])
  · exact accessed_libmbcopyBytes selects_read hdest hsrc byteNum m
  · exact accessed_libmbcopyBytes selects_written hdest hsrc byteNum m
  · rw [hrun, run_assignUnits, Nat.mul_one]
    rwa [Nat.mul_one]

/-- Nineteen bytes between aligned addresses: two words and three bytes. -/
theorem libmbcopyBytes_copiesOnce_sample :
    CopiesOnce 64 16 19 (fun a => UInt8.ofNat a) (libmbcopyBytes 64 16 19) ∧
      (libmbcopyBytes 64 16 19).run memHandler (fun a => UInt8.ofNat a) =
        (assignUnits 1 19 64 16).run memHandler (fun a => UInt8.ofNat a) :=
  libmbcopyBytes_copiesOnce 64 16 19 (fun a => UInt8.ofNat a) (by decide) (by decide)
    (Or.inl (by decide))

end RtssMailbox
