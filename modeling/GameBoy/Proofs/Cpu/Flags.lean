import GameBoy.Cpu.Execute

/-!
# The byte of the flags

F is **clean** if the lower half of its byte is zero. Assigning a byte to it cleans it, and setting
one flag leaves it clean if it has been (`clean_ofByte`, `Clean.set`). A register that is clean is
told by its four flags (`Clean.ext`); any other has something that no flag shows.

An operation that decides about some of the flags only sets these one by one (`Sets`). So the others
have the values they had, and the whole byte is what it was where there are none to set (`Keeps`).
-/

namespace GameBoy.Flags

variable {fs fs' fs'' : Flags}

/-! ### The lower half -/

/-- **The lower half of the byte is zero.** -/
def Clean (fs : Flags) : Prop := fs.byte &&& 0x0F = 0

instance : DecidablePred Clean := fun _ ↦ inferInstanceAs (Decidable (_ = _))

/-- The lower half of a byte is dropped when the byte is assigned. -/
theorem clean_ofByte (b : UInt8) : (ofByte b).Clean := by
  rw [Clean, ofByte, UInt8.and_assoc]
  exact UInt8.and_zero

/-- No flag is in the lower half. -/
theorem Clean.set (hclean : fs.Clean) (f : Flag) (v : Bool) : (fs.set f v).Clean := by
  have hmask : f.mask &&& 0x0F = 0 := by
    cases f <;> decide
  rw [Clean] at hclean ⊢
  cases v with
  | true =>
    calc (fs.byte ||| f.mask) &&& 0x0F
        = (fs.byte &&& 0x0F) ||| (f.mask &&& 0x0F) :=
          UInt8.toBitVec_inj.mp BitVec.and_or_distrib_right
      _ = 0 := by rw [hclean, hmask]; rfl
  | false =>
    calc fs.byte &&& ~~~f.mask &&& 0x0F
        = (fs.byte &&& 0x0F) &&& ~~~f.mask := by
          rw [UInt8.and_assoc, UInt8.and_comm (~~~f.mask), UInt8.and_assoc]
      _ = 0 := by rw [hclean, UInt8.zero_and]

/-- Nothing is left of what has been in a register that is cleared. -/
theorem clean_of (z n h c : Bool) : (of z n h c).Clean :=
  ((((clean_ofByte 0).set .z z).set .n n).set .h h).set .c c

/-- A clean register holds its flags and nothing else. -/
theorem Clean.eq_of (hclean : fs.Clean) : fs = of fs.z fs.n fs.h fs.c := by
  have hbyte := byte_all
    (P := fun b ↦ Clean ⟨b⟩ → (⟨b⟩ : Flags) = of (z ⟨b⟩) (n ⟨b⟩) (h ⟨b⟩) (c ⟨b⟩))
    (by decide +kernel) fs.byte
  exact hbyte hclean

/-- **Clean registers with the same flags are the same.** -/
theorem Clean.ext (hclean : fs.Clean) (hclean' : fs'.Clean) (hget : ∀ f, fs.get f = fs'.get f) :
    fs = fs' := by
  rw [hclean.eq_of, hclean'.eq_of, z, n, h, c, hget, hget, hget, hget]

/-- Of the flags that have been set one by one, one is set once more. -/
theorem set_z_of (z z' n h c : Bool) : (of z n h c).set .z z' = of z' n h c := by
  refine ((clean_of ..).set ..).ext (clean_of ..) fun f ↦ ?_
  cases f <;> simp [of]

/-! ### Flags that are set one by one -/

variable {flags flags' : List Flag}

/-- **Flags of the list are set, one after the other**, and nothing else is done to the register. -/
inductive Sets (flags : List Flag) (fs : Flags) : Flags → Prop where
  /-- No flag is set. -/
  | refl : Sets flags fs fs
  /-- One more flag is set. -/
  | set {fs' : Flags} (h : Sets flags fs fs') {f : Flag} (hf : f ∈ flags) (v : Bool) :
      Sets flags fs (fs'.set f v)

/-- Flags that are set one by one leave the lower half of the byte zero if it was. -/
theorem Sets.clean (h : Sets flags fs fs') (hclean : fs.Clean) : fs'.Clean := by
  induction h with
  | refl => exact hclean
  | set _ _ v ih => exact ih.set _ v

/-- **The flags that are not listed are kept**, and the whole byte if none is. -/
structure Keeps (flags : List Flag) (fs fs' : Flags) : Prop where
  /-- The other flags have the values they had. -/
  get_eq : ∀ f, f ∉ flags → fs'.get f = fs.get f
  /-- Without a flag that may change, nothing does. -/
  eq_of_nil : flags = [] → fs' = fs

/-- Nothing happens, so everything is kept. -/
theorem keeps_refl : Keeps flags fs fs := ⟨fun _ _ ↦ rfl, fun _ ↦ rfl⟩

/-- What is kept twice is kept. -/
theorem Keeps.trans (h : Keeps flags fs fs') (h' : Keeps flags fs' fs'') : Keeps flags fs fs'' where
  get_eq f hf := (h'.get_eq f hf).trans (h.get_eq f hf)
  eq_of_nil hnone := (h'.eq_of_nil hnone).trans (h.eq_of_nil hnone)

/-- The more flags may change, the less is said. -/
theorem Keeps.mono (h : Keeps flags fs fs') (hsub : flags ⊆ flags') : Keeps flags' fs fs' where
  get_eq f hf := h.get_eq f fun hmem ↦ hf (hsub hmem)
  eq_of_nil hnone := h.eq_of_nil (List.subset_nil.mp (hnone ▸ hsub))

/-- Where all flags may change, it does not matter what becomes of them. -/
theorem keeps_all (fs fs' : Flags) : Keeps Flag.all fs fs' where
  get_eq f hf := absurd f.mem_all hf
  eq_of_nil hnone := absurd hnone (by decide)

/-- Setting flags keeps the others. -/
theorem Sets.keeps (h : Sets flags fs fs') : Keeps flags fs fs' := by
  induction h with
  | refl => exact keeps_refl
  | @set fs' _ f hf v ih =>
    refine ⟨fun g hg ↦ ?_, fun hnone ↦ absurd (hnone ▸ hf) List.not_mem_nil⟩
    have hne : f ≠ g := fun heq ↦ hg (heq ▸ hf)
    rw [get_set, if_neg hne]
    exact ih.get_eq g hg

end GameBoy.Flags

/-! ### The operations that keep some flags -/

namespace GameBoy.Alu

open Flags

variable (v a : UInt8) (x y : UInt16) (i : Fin 8) (fs : Flags)

/-- An increment keeps the carry. -/
theorem sets_inc : Sets [.z, .n, .h] fs (inc v fs).2 :=
  ((Sets.refl.set (by decide) _).set (by decide) _).set (by decide) _

/-- So does a decrement. -/
theorem sets_dec : Sets [.z, .n, .h] fs (dec v fs).2 :=
  ((Sets.refl.set (by decide) _).set (by decide) _).set (by decide) _

/-- Decimal adjustment keeps the subtract flag. -/
theorem sets_decimalAdjust : Sets [.z, .h, .c] fs (decimalAdjust a fs).2 :=
  ((Sets.refl.set (by decide) _).set (by decide) _).set (by decide) _

/-- The test of a bit keeps the carry. -/
theorem sets_testBit : Sets [.z, .n, .h] fs (testBit i v fs) :=
  ((Sets.refl.set (by decide) _).set (by decide) _).set (by decide) _

/-- An addition of words keeps the zero flag. -/
theorem sets_addWords : Sets [.n, .h, .c] fs (addWords x y fs).2 :=
  ((Sets.refl.set (by decide) _).set (by decide) _).set (by decide) _

/-- SCF and CCF differ in what they set the carry to. -/
theorem sets_carry (c : Bool) :
    Sets [.n, .h, .c] fs (((fs.set .c c).set .h false).set .n false) :=
  ((Sets.refl.set (by decide) _).set (by decide) _).set (by decide) _

/-- CPL keeps the zero flag and the carry. -/
theorem sets_complement : Sets [.n, .h] fs ((fs.set .h true).set .n true) :=
  (Sets.refl.set (by decide) _).set (by decide) _

end GameBoy.Alu

/-! ### Moves that leave the register alone -/

namespace GameBoy.Board

variable {M : Type}

/-- No word operand has the flags in it. -/
theorem flags_setPair (s : Board M) (dst : Pair) (w : UInt16) :
    (s.setPair dst w).cpu.regs.flags = s.cpu.regs.flags := by
  cases dst <;> rfl

/-- A pointer that moves leaves the flags alone. -/
theorem flags_follow (s : Board M) (p : Pointer) :
    (s.follow p).2.cpu.regs.flags = s.cpu.regs.flags := by
  cases p <;> rfl

variable [Port M]

/-- Nothing of the CPU changes when an operand is read. -/
theorem cpu_readOperand (s : Board M) (src : Operand) : (s.readOperand src).2.cpu = s.cpu := by
  cases src <;> rfl

/-- No operand is the flags. -/
theorem flags_writeOperand (s : Board M) (dst : Operand) (v : UInt8) :
    (s.writeOperand dst v).cpu.regs.flags = s.cpu.regs.flags := by
  cases dst <;> rfl

theorem flags_pushWord (s : Board M) (w : UInt16) :
    (s.pushWord w).cpu.regs.flags = s.cpu.regs.flags := rfl

/-- A jump by a displacement leaves the flags alone. -/
theorem flags_jumpRelative (s : Board M) (taken : Bool) :
    (s.jumpRelative taken).2.cpu.regs.flags = s.cpu.regs.flags := by
  cases taken <;> rfl

/-- So does a jump to a word. -/
theorem flags_jump (s : Board M) (taken : Bool) :
    (s.jump taken).2.cpu.regs.flags = s.cpu.regs.flags := by
  cases taken <;> rfl

/-- So does a call. -/
theorem flags_call (s : Board M) (taken : Bool) :
    (s.call taken).2.cpu.regs.flags = s.cpu.regs.flags := by
  cases taken with
  | false => rfl
  | true => exact flags_pushWord s.fetchWord.2 s.fetchWord.2.cpu.regs.pc

end GameBoy.Board
