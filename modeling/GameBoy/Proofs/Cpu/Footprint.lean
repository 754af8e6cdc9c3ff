import GameBoy.Cpu.Step
import GameBoy.Proofs.Cpu.Flags

/-!
# Changes that are confined

A state of the CPU on a plain memory, cut into places: the registers, the stack pointer, the parts
that decide whether and how the CPU runs, and the bytes of memory. The program counter and the clock
are no places, as every instruction moves them.

`Board.Confined` relates two boards of which the second one may differ from the first only in some
given flags and places. One lemma for each move out of which instructions are made says where its
change has to be allowed, and moves are put together by `Confined.trans`.
-/

namespace GameBoy

/-- A part of the state that an instruction may change or leave alone. -/
inductive Place where
  /-- The accumulator. -/
  | a
  /-- Register B. -/
  | b
  /-- Register C. -/
  | c
  /-- Register D. -/
  | d
  /-- Register E. -/
  | e
  /-- Register H. -/
  | h
  /-- Register L. -/
  | l
  /-- The stack pointer. -/
  | sp
  /-- The interrupt master enable. -/
  | ime
  /-- The state of power. -/
  | power
  /-- The deferred changes of the master enable. -/
  | imeQueue
  /-- What is done at an opcode without a meaning. -/
  | policy
  /-- A byte of memory. -/
  | cell (address : UInt16)
deriving DecidableEq, Repr

/-- The place holds the same on both boards. -/
def Place.Same (s s' : Board Memory) : Place → Prop
  | a => s'.cpu.regs.a = s.cpu.regs.a
  | b => s'.cpu.regs.b = s.cpu.regs.b
  | c => s'.cpu.regs.c = s.cpu.regs.c
  | d => s'.cpu.regs.d = s.cpu.regs.d
  | e => s'.cpu.regs.e = s.cpu.regs.e
  | h => s'.cpu.regs.h = s.cpu.regs.h
  | l => s'.cpu.regs.l = s.cpu.regs.l
  | sp => s'.cpu.regs.sp = s.cpu.regs.sp
  | ime => s'.cpu.ime = s.cpu.ime
  | power => s'.cpu.power = s.cpu.power
  | imeQueue => s'.cpu.imeQueue = s.cpu.imeQueue
  | policy => s'.cpu.policy = s.cpu.policy
  | cell address => s'.bus.get address = s.bus.get address

theorem Place.Same.trans {s s' s'' : Board Memory} {p : Place} (h : p.Same s s')
    (h' : p.Same s' s'') : p.Same s s'' := by
  cases p <;> exact Eq.trans h' h

/-! ### Where operands are -/

/-- The place of a byte operand. -/
def Operand.place (s : Board Memory) : Operand → Place
  | .b => .b
  | .c => .c
  | .d => .d
  | .e => .e
  | .h => .h
  | .l => .l
  | .atHL => .cell s.cpu.regs.hl
  | .a => .a

/-- The only operand in memory. -/
theorem Operand.ofField_eq_atHL_iff (z : Fin 8) : ofField z = .atHL ↔ z = 6 := by
  decide +revert

/-- The places of a word operand. -/
def Pair.places : Pair → List Place
  | .bc => [.b, .c]
  | .de => [.d, .e]
  | .hl => [.h, .l]
  | .sp => [.sp]

/-- The places of a word operand of PUSH and POP, but for the flags. -/
def StackPair.places : StackPair → List Place
  | .bc => [.b, .c]
  | .de => [.d, .e]
  | .hl => [.h, .l]
  | .af => [.a]

/-- The flags among a word operand of PUSH and POP. -/
def StackPair.flags : StackPair → List Flag
  | .af => Flag.all
  | _ => []

/-- The places that a pointer moves through: HL, if it moves. -/
def Pointer.places : Pointer → List Place
  | .hlUp | .hlDown => [.h, .l]
  | _ => []

/-- The address a pointer holds. -/
def Pointer.address (s : Board Memory) : Pointer → UInt16
  | .bc => s.cpu.regs.bc
  | .de => s.cpu.regs.de
  | .hlUp | .hlDown => s.cpu.regs.hl

/-- The places that a word is pushed through: the stack pointer, and the two bytes below it. -/
def Board.pushPlaces (s : Board Memory) : List Place :=
  [.sp, .cell (s.cpu.regs.sp - 1), .cell (s.cpu.regs.sp - 2)]

namespace Board

/-- **A change that is confined to some flags and places**: on the second board everything else is
what it is on the first one. -/
structure Confined (flags : List Flag) (places : List Place) (s s' : Board Memory) : Prop where
  /-- The other flags are the same. -/
  keeps : Flags.Keeps flags s.cpu.regs.flags s'.cpu.regs.flags
  /-- The other places are the same. -/
  same : ∀ p, p ∉ places → p.Same s s'

variable {flags : List Flag} {places : List Place} {s s' s'' : Board Memory}

/-- **Confined changes one after the other are a confined change.** -/
theorem Confined.trans (h : Confined flags places s s') (h' : Confined flags places s' s'') :
    Confined flags places s s'' where
  keeps := h.keeps.trans h'.keeps
  same p hp := (h.same p hp).trans (h'.same p hp)

/-- A change that is confined is confined to anything more. -/
theorem Confined.mono {flags' : List Flag} {places' : List Place}
    (h : Confined flags places s s') (hflags : flags ⊆ flags') (hplaces : places ⊆ places') :
    Confined flags' places' s s' where
  keeps := h.keeps.mono hflags
  same p hp := h.same p fun hmem ↦ hp (hplaces hmem)

/-! ### Moves of the CPU -/

/-- Nothing has changed. -/
theorem confined_refl : Confined flags places s s where
  keeps := Flags.keeps_refl
  same p _ := by
    cases p <;> rfl

/-- The program counter is no place. -/
theorem confined_setPC (pc : UInt16) : Confined flags places s (s.setPC pc) where
  keeps := Flags.keeps_refl
  same p _ := by
    cases p <;> rfl

/-- The clock is no place. -/
theorem confined_elapse (ticks : Nat) : Confined flags places s (s.elapse ticks) where
  keeps := Flags.keeps_refl
  same p _ := by
    cases p <;> rfl

/-- The stack pointer. -/
theorem confined_setSP (h : .sp ∈ places) (sp : UInt16) :
    Confined flags places s (s.setSP sp) where
  keeps := Flags.keeps_refl
  same p hp := by
    cases p with
    | sp => exact absurd h hp
    | _ => rfl

/-- The accumulator. -/
theorem confined_setA (h : .a ∈ places) (v : UInt8) : Confined flags places s (s.setA v) where
  keeps := Flags.keeps_refl
  same p hp := by
    cases p with
    | a => exact absurd h hp
    | _ => rfl

/-- The state of power. -/
theorem confined_setPower (h : .power ∈ places) (power : Power) :
    Confined flags places s (s.setPower power) where
  keeps := Flags.keeps_refl
  same p hp := by
    cases p with
    | power => exact absurd h hp
    | _ => rfl

/-- The master enable. -/
theorem confined_setIme (h : .ime ∈ places) (ime : Bool) :
    Confined flags places s (s.setIme ime) where
  keeps := Flags.keeps_refl
  same p hp := by
    cases p with
    | ime => exact absurd h hp
    | _ => rfl

/-- The queue of the master enable. -/
theorem confined_requestIme (h : .imeQueue ∈ places) (enable : Bool) :
    Confined flags places s { s with cpu := s.cpu.requestIme enable } where
  keeps := Flags.keeps_refl
  same p hp := by
    cases p with
    | imeQueue => exact absurd h hp
    | _ => rfl

/-- The flags that may change. -/
theorem confined_setFlags {fs : Flags} (h : Flags.Keeps flags s.cpu.regs.flags fs) :
    Confined flags places s (s.setFlags fs) where
  keeps := h
  same p _ := by
    cases p <;> rfl

/-- Where all flags may change, it does not matter what they become. -/
theorem confined_setFlags_all (fs : Flags) : Confined Flag.all places s (s.setFlags fs) :=
  confined_setFlags (Flags.keeps_all ..)

/-- The registers of a word operand. -/
theorem confined_setPair {dst : Pair} (h : dst.places ⊆ places) (w : UInt16) :
    Confined flags places s (s.setPair dst w) where
  keeps := by
    cases dst <;> exact Flags.keeps_refl
  same p hp := by
    have hout : p ∉ dst.places := fun hmem ↦ hp (h hmem)
    cases dst with
    | bc =>
      cases p with
      | b | c => exact absurd (by decide) hout
      | _ => rfl
    | de =>
      cases p with
      | d | e => exact absurd (by decide) hout
      | _ => rfl
    | hl =>
      cases p with
      | h | l => exact absurd (by decide) hout
      | _ => rfl
    | sp =>
      cases p with
      | sp => exact absurd (by decide) hout
      | _ => rfl

/-- Those of a word operand of POP, the flags among them. -/
theorem confined_setStackPair {dst : StackPair} (h : dst.places ⊆ places) (w : UInt16) :
    Confined dst.flags places s (s.setStackPair dst w) := by
  cases dst with
  | bc =>
    have hbc : Pair.bc.places ⊆ places := h
    exact confined_setPair hbc w
  | de =>
    have hde : Pair.de.places ⊆ places := h
    exact confined_setPair hde w
  | hl =>
    have hhl : Pair.hl.places ⊆ places := h
    exact confined_setPair hhl w
  | af =>
    have ha : .a ∈ places := h (List.mem_singleton_self _)
    exact (confined_setA ha (highByte w)).trans (confined_setFlags_all (.ofByte (lowByte w)))

/-- The address that a pointer holds before it moves. -/
theorem fst_follow (p : Pointer) : (s.follow p).1 = p.address s := by
  cases p <;> rfl

/-- HL, if the pointer moves. -/
theorem confined_follow {p : Pointer} (h : p.places ⊆ places) :
    Confined flags places s (s.follow p).2 := by
  cases p with
  | bc | de => exact confined_refl
  | hlUp | hlDown =>
    have hhl : Pair.hl.places ⊆ places := h
    exact confined_setPair hhl _

/-! ### Moves that reach memory -/

/-- A fetch moves the program counter only. -/
theorem confined_fetch : Confined flags places s s.fetch.2 := confined_setPC _

/-- So does the fetch of a word. -/
theorem confined_fetchWord : Confined flags places s s.fetchWord.2 :=
  (confined_setPC _).trans (confined_setPC _)

/-- A write changes the byte that it is made to. -/
theorem confined_write {a : UInt16} (h : .cell a ∈ places) (v : UInt8) :
    Confined flags places s (s.write a v) where
  keeps := Flags.keeps_refl
  same p hp := by
    cases p with
    | cell b =>
      have hne : a ≠ b := by
        rintro rfl
        exact hp h
      exact Memory.get_set_of_ne _ v hne
    | _ => rfl

/-- A push changes the stack pointer and the two bytes below it. -/
theorem confined_pushWord (h : s.pushPlaces ⊆ places) (w : UInt16) :
    Confined flags places s (s.pushWord w) := by
  have hsp : .sp ∈ places := h (by simp [pushPlaces])
  have hhigh : .cell (s.cpu.regs.sp - 1) ∈ places := h (by simp [pushPlaces])
  have hlow : .cell (s.cpu.regs.sp - 1 - 1) ∈ places := by
    have htwo : s.cpu.regs.sp - 1 - 1 = s.cpu.regs.sp - 2 := by grind
    rw [htwo]
    exact h (by simp [pushPlaces])
  exact (((confined_setSP hsp _).trans (confined_write hhigh _)).trans (confined_setSP hsp _)).trans
    (confined_write hlow _)

/-- A pop changes the stack pointer. -/
theorem confined_popWord (h : .sp ∈ places) : Confined flags places s s.popWord.2 :=
  confined_setSP h _

/-- A plain memory is not changed by reading it. -/
theorem snd_readOperand (src : Operand) : (s.readOperand src).2 = s := by
  cases src <;> rfl

/-- The bytes that an opcode can select as an operand, by the three bits that select one. -/
def operandBytes (s : Board Memory) : Vector UInt8 8 :=
  let r := s.cpu.regs
  #v[r.b, r.c, r.d, r.e, r.h, r.l, s.bus.get r.hl, r.a]

/-- The byte that is read is the one that the opcode selects. -/
theorem fst_readOperand_ofField (z : Fin 8) :
    (s.readOperand (.ofField z)).1 = s.operandBytes.get z := by
  match z with
  | 0 | 1 | 2 | 3 | 4 | 5 | 6 | 7 => rfl

/-- The places of those bytes. -/
def operandPlaces (s : Board Memory) : Vector Place 8 :=
  #v[.b, .c, .d, .e, .h, .l, .cell s.cpu.regs.hl, .a]

/-- Where it is read. -/
theorem place_ofField (z : Fin 8) : (Operand.ofField z).place s = s.operandPlaces.get z := by
  match z with
  | 0 | 1 | 2 | 3 | 4 | 5 | 6 | 7 => rfl

/-- A byte operand that is written is the only thing that changes. -/
theorem confined_writeOperand {dst : Operand} (h : dst.place s ∈ places) (v : UInt8) :
    Confined flags places s (s.writeOperand dst v) where
  keeps := by
    cases dst <;> exact Flags.keeps_refl
  same p hp := by
    cases dst with
    | atHL =>
      have hwrite : Confined flags places s (s.write s.cpu.regs.hl v) := confined_write h v
      exact hwrite.same p hp
    | _ => cases p <;> first | rfl | exact absurd h hp

/-- An operation on an operand changes the operand, and the flags that it is said to change. -/
theorem confined_modify {dst : Operand} {f : UInt8 → Flags → UInt8 × Flags}
    (hflags : ∀ v fs, Flags.Keeps flags fs (f v fs).2) (h : dst.place s ∈ places) :
    Confined flags places s (s.modify dst f) := by
  have hplace : ∀ fs, dst.place (s.setFlags fs) = dst.place s := fun fs ↦ by
    cases dst <;> rfl
  simp only [modify, snd_readOperand]
  refine (confined_setFlags (hflags _ _)).trans (confined_writeOperand ?_ _)
  rwa [hplace]

/-- The accumulator and all flags. -/
theorem confined_alu (h : .a ∈ places) (op : AluOp) (v : UInt8) :
    Confined Flag.all places s (s.alu op v) :=
  (confined_setA h _).trans (confined_setFlags_all _)

end Board

end GameBoy
