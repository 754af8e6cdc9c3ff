import GameBoy.Proofs.Cpu.Accumulator
import GameBoy.Proofs.Cpu.Digits

/-!
# Additions of words

A word is added to HL, and a displacement to the stack pointer, by instructions that work on words
at once and find their flags by formulas of their own. This module says that the accumulator would
have come to the same, one byte at a time.

* A sum of two words is what ADD makes of the low bytes and ADC of the high ones, and the carries
  that it leaves are those of ADC (`Alu.addWords_eq`): bit 11, where the half carry arises, is a bit
  of the high byte.
* A displacement may be negative, but its flags are those that ADD leaves of the low byte and the
  displacement as an unsigned byte (`Alu.addOffset_eq`).

The two instructions on bytes are executed on boards of their own, linked by the carry and by
nothing else, so it does not matter how the bytes get into the accumulator in between.
-/

namespace GameBoy

theorem toNat_highByte (w : UInt16) : (highByte w).toNat = w.toNat / 256 := by
  have hw := w.toNat_lt
  rw [highByte, UInt8.toNat_ofNat']
  omega

theorem toNat_lowByte (w : UInt16) : (lowByte w).toNat = w.toNat % 256 := UInt8.toNat_ofNat'

/-- A displacement is the byte as a number in two's complement. -/
theorem toNat_signExtend (e : UInt8) :
    ((signExtend e).toNat : Int) = e.toInt8.toInt % 65536 :=
  byte_all (P := fun e ↦ ((signExtend e).toNat : Int) = e.toInt8.toInt % 65536)
    (by decide +kernel) e

/-- Its low byte is the byte itself. -/
theorem toNat_signExtend_mod (e : UInt8) : (signExtend e).toNat % 256 = e.toNat :=
  byte_all (P := fun e ↦ (signExtend e).toNat % 256 = e.toNat) (by decide +kernel) e

namespace Alu

/-- The lowest bits of a word. -/
theorem toNat_and_lowBits (x mask : UInt16) {n : Nat} (hmask : mask.toNat = 2 ^ n - 1) :
    (x &&& mask).toNat = x.toNat % 2 ^ n := by
  rw [UInt16.toNat_and, hmask]
  exact Nat.and_two_pow_sub_one_eq_mod x.toNat n

/-- **Words are added byte by byte**, the low bytes first. -/
theorem addWords_eq (x y : UInt16) (fs : Flags) :
    let low := add (lowByte x) (lowByte y) false
    let high := add (highByte x) (highByte y) low.2.c
    addWords x y fs =
      (word high.1 low.1, ((fs.set .n false).set .h high.2.h).set .c high.2.c) := by
  intro low high
  have hlow : low.1.toNat + 256 * low.2.c.toNat = x.toNat % 256 + y.toNat % 256 := by
    rw [← toNat_lowByte, ← toNat_lowByte]
    exact add_eq _ _ false
  have hhigh : high.1.toNat + 256 * high.2.c.toNat =
      x.toNat / 256 + y.toNat / 256 + low.2.c.toNat := by
    rw [← toNat_highByte, ← toNat_highByte]
    exact add_eq _ _ _
  have hbyte := low.1.toNat_lt
  have hcarry := low.2.c.toNat_le
  refine Prod.ext (UInt16.toNat_inj.mp ?_) ?_
  · have hbyte' := high.1.toNat_lt
    have hcarry' := high.2.c.toNat_le
    simp only [addWords, UInt16.toNat_add, toNat_word]
    omega
  -- Both sides set the same flags, the two carries by different formulas.
  simp only [addWords]
  congr 2
  · have hh : high.2.h =
        decide (15 < x.toNat / 256 % 16 + y.toNat / 256 % 16 + low.2.c.toNat) := by
      rw [← toNat_highByte, ← toNat_highByte]
      exact h_add _ _ _
    have hx := toNat_and_lowBits x 0x0FFF (n := 12) rfl
    have hy := toNat_and_lowBits y 0x0FFF (n := 12) rfl
    simp only [gt_iff_lt, UInt16.lt_iff_toNat_lt, UInt16.toNat_add, hx, hy, hh,
      decide_eq_decide, UInt16.reduceToNat]
    omega
  · have hc : high.2.c = decide (255 < x.toNat / 256 + y.toNat / 256 + low.2.c.toNat) := by
      rw [← toNat_highByte, ← toNat_highByte]
      exact c_add _ _ _
    have hx := x.toNat_lt
    have hy := y.toNat_lt
    simp only [gt_iff_lt, UInt32.lt_iff_toNat_lt, UInt32.toNat_add,
      UInt16.toNat_toUInt32, hc, decide_eq_decide, UInt32.reduceToNat]
    omega

/-- **A displacement is added to a word** with the flags that its unsigned byte leaves when it is
added to the low byte. -/
theorem addOffset_eq (x : UInt16) (e : UInt8) :
    let low := add (lowByte x) e false
    ((addOffset x e).1.toNat : Int) = (x.toNat + e.toInt8.toInt) % 65536 ∧
      (addOffset x e).2 = .of false false low.2.h low.2.c := by
  intro low
  have hlow := toNat_signExtend_mod e
  have hx := toNat_and_lowBits x
  have he := toNat_and_lowBits (signExtend e)
  constructor
  · have hsigned := toNat_signExtend e
    simp only [addOffset, UInt16.toNat_add]
    omega
  simp only [addOffset]
  congr 1
  · simp only [low, gt_iff_lt, UInt16.lt_iff_toNat_lt, UInt16.toNat_add, h_add,
      hx 0x000F (n := 4) rfl, he 0x000F (n := 4) rfl, toNat_lowByte, decide_eq_decide,
      UInt16.reduceToNat, Bool.toNat_false]
    omega
  · simp only [low, gt_iff_lt, UInt16.lt_iff_toNat_lt, UInt16.toNat_add, c_add,
      hx 0x00FF (n := 8) rfl, he 0x00FF (n := 8) rfl, toNat_lowByte, decide_eq_decide,
      UInt16.reduceToNat, Bool.toNat_false]
    omega

end Alu

namespace Opcode

/-- The opcodes that add a word to HL. -/
theorem decode_addHL (p : Fin 4) :
    decode (.ofNat (0x09 + 16 * p)) = .instruction (.addHL (.ofField p)) := by
  decide +revert

end Opcode

namespace Board

/-! ### Two bytes and one word -/

/-- **The accumulator holds `a` and is combined with `v`** by the instruction at the program
counter. -/
structure CombinesBytes (op : AluOp) (a v : UInt8) (s : Board Memory) : Prop where
  /-- The instruction combines the accumulator with a byte. -/
  combines : s.Combines op
  /-- What the accumulator holds. -/
  before_eq : s.before = a
  /-- The byte that it is combined with. -/
  operand_eq : s.operand = v

/-- **One word is added to another in two instructions**: ADD of the low bytes, and then ADC of the
high ones. -/
structure AddsBytes (x y : UInt16) (low high : Board Memory) : Prop where
  /-- The low bytes are added. -/
  low_adds : low.CombinesBytes .add (lowByte x) (lowByte y)
  /-- The high bytes are added with the carry. -/
  high_adds : high.CombinesBytes .adc (highByte x) (highByte y)
  /-- The carry is handed on. -/
  linked : high.carry = low.executed.carry

variable {s low high : Board Memory}

/-- Any two bytes can be combined by any operation. -/
theorem combinesBytes_standingAt (row : Fin 8) (a v : UInt8) (c : Bool) :
    (standingAt [.ofNat (0xC6 + 8 * row), v] a c).CombinesBytes (AluOp.rows.get row) a v := by
  have hopcode : (standingAt [.ofNat (0xC6 + 8 * row), v] a c).bus.get 0 =
      .ofNat (0xC6 + 8 * row) := rfl
  have hinstruction : (standingAt [.ofNat (0xC6 + 8 * row), v] a c).instruction =
      .primary (.aluImmediate (AluOp.rows.get row)) := by
    show Memory.meaning _ 0 = _
    rw [Memory.meaning, hopcode, Opcode.decode_combiningNext]
  refine ⟨.inl hinstruction, ?_, ?_⟩
  · simp only [before, target, hinstruction]
    rfl
  · simp only [operand, hinstruction]
    exact Memory.get_set_self _ _ v

/-- So any two words can be added in this way. -/
theorem exists_addsBytes (x y : UInt16) : ∃ low high, AddsBytes x y low high :=
  ⟨_, _, combinesBytes_standingAt 0 (lowByte x) (lowByte y) false,
    combinesBytes_standingAt 1 (highByte x) (highByte y) _, carry_standingAt ..⟩

theorem CombinesBytes.executed {op : AluOp} {a v : UInt8} (h : s.CombinesBytes op a v) :
    s.after = (Alu.apply op a v s.cpu.regs.flags).1 ∧
      s.executed.cpu.regs.flags = (Alu.apply op a v s.cpu.regs.flags).2 := by
  obtain ⟨hcombines, rfl, rfl⟩ := h
  exact ⟨congrArg Prod.fst hcombines.executed.2, congrArg Prod.snd hcombines.executed.2⟩

/-- **The sum of the words is made of the two results**, and goes with the flags that the second
instruction has left. -/
theorem AddsBytes.addWords_eq {x y : UInt16} (h : AddsBytes x y low high) (fs : Flags) :
    let flags := high.executed.cpu.regs.flags
    Alu.addWords x y fs =
      (word high.after low.after, ((fs.set .n false).set .h flags.h).set .c flags.c) := by
  obtain ⟨hlow, hflags⟩ := h.low_adds.executed
  obtain ⟨hhigh, hflags'⟩ := h.high_adds.executed
  have hcarry : high.cpu.regs.flags.c = (Alu.add (lowByte x) (lowByte y) false).2.c :=
    h.linked.trans (congrArg (·.c) hflags)
  simp only [Alu.apply, hcarry] at hhigh hflags'
  rw [Alu.addWords_eq, hlow, hhigh, hflags']
  rfl

/-- The flags of a displacement are those of ADD. -/
theorem CombinesBytes.addOffset_eq {x : UInt16} {e : UInt8}
    (h : s.CombinesBytes .add (lowByte x) e) :
    let flags := s.executed.cpu.regs.flags
    Alu.addOffset x e = ((Alu.addOffset x e).1, .of false false flags.h flags.c) := by
  refine Prod.ext rfl ?_
  rw [(Alu.addOffset_eq x e).2, h.executed.2]
  rfl

/-! ### The instructions -/

/-- The words that an opcode can select as an operand, by the two bits that select one. -/
def operandWords (s : Board Memory) : Vector UInt16 4 :=
  let r := s.cpu.regs
  #v[r.bc, r.de, r.hl, r.sp]

theorem pair_ofField (p : Fin 4) : s.pair (.ofField p) = s.operandWords.get p := by
  match p with
  | 0 | 1 | 2 | 3 => rfl

theorem execute_addHL {src : Pair} {x : UInt16} {flags : Flags}
    (h : Alu.addWords s.cpu.regs.hl (s.pair src) s.cpu.regs.flags = (x, flags)) :
    s.execute (.addHL src) = (8, s.setRegs ({ s.cpu.regs with flags }.setHL x)) := by
  simp only [execute, h]

variable {x : UInt16} {flags : Flags}
  (h : Alu.addOffset s.cpu.regs.sp (s.bus.get s.cpu.regs.pc) = (x, flags))

include h

theorem execute_addSP :
    s.execute .addSP = (16, s.fetch.2.setRegs { s.fetch.2.cpu.regs with sp := x, flags }) := by
  have hfetched : Alu.addOffset s.fetch.2.cpu.regs.sp s.fetch.1 = (x, flags) := h
  simp only [execute, hfetched]

theorem execute_loadHLOffset :
    s.execute .loadHLOffset =
      (12, s.fetch.2.setRegs ({ s.fetch.2.cpu.regs with flags }.setHL x)) := by
  have hfetched : Alu.addOffset s.fetch.2.cpu.regs.sp s.fetch.1 = (x, flags) := h
  simp only [execute, hfetched]

omit h

/-- **Additions of words are additions of bytes.** ADD HL leaves the two bytes of HL and the two
carries as they come out of ADD of the low bytes and ADC of the high ones, wherever and however
these are executed; it clears the subtract flag and keeps the zero flag. ADD SP and LD HL,SP+e come
to the same word, which wraps around, and leave the two carries of ADD of the low byte and the
unsigned displacement; both clear the other two flags. Nothing else changes but the program counter
and the clock. -/
theorem word_addition (s : Board Memory) :
    let r := s.cpu.regs
    let opcode := s.bus.get r.pc
    let e := s.bus.get (r.pc + 1)
    (∀ p : Fin 4, opcode = .ofNat (0x09 + 16 * p) →
      (∃ low high, AddsBytes r.hl (s.operandWords.get p) low high) ∧
      ∀ low high, AddsBytes r.hl (s.operandWords.get p) low high →
        let h := high.executed.cpu.regs.flags.h
        let c := high.executed.cpu.regs.flags.c
        s.executeOne = (.ok 8,
          { s with
            cpu := { s.cpu with
              regs := { r with
                h := high.after, l := low.after
                flags := ((r.flags.set .n false).set .h h).set .c c
                pc := r.pc + 1 }
              clock := s.cpu.clock + 8 } })) ∧
    (∃ low : Board Memory, low.CombinesBytes .add (lowByte r.sp) e) ∧
    ∃ w : UInt16, (w.toNat : Int) = (r.sp.toNat + e.toInt8.toInt) % 65536 ∧
      ∀ low : Board Memory, low.CombinesBytes .add (lowByte r.sp) e →
        let flags : Flags :=
          .of false false low.executed.cpu.regs.flags.h low.executed.cpu.regs.flags.c
        (opcode = 0xE8 → s.executeOne = (.ok 16,
          { s with
            cpu := { s.cpu with
              regs := { r with sp := w, flags, pc := r.pc + 2 }
              clock := s.cpu.clock + 16 } })) ∧
        (opcode = 0xF8 → s.executeOne = (.ok 12,
          { s with
            cpu := { s.cpu with
              regs := { r with h := highByte w, l := lowByte w, flags, pc := r.pc + 2 }
              clock := s.cpu.clock + 12 } })) := by
  intro r opcode e
  have hpc : r.pc + 1 + 1 = r.pc + 2 := UInt16.add_assoc r.pc 1 1
  refine ⟨fun p hopcode ↦ ⟨exists_addsBytes _ _, fun low high hadds ↦ ?_⟩,
    ⟨_, combinesBytes_standingAt 0 _ _ false⟩, ?_⟩
  · have hdecode : Opcode.decode s.fetch.1 = .instruction (.addHL (.ofField p)) :=
      (congrArg Opcode.decode hopcode).trans (Opcode.decode_addHL p)
    have hsum := hadds.addWords_eq r.flags
    rw [← pair_ofField] at hsum
    rw [executeOne_of_instruction s hdecode, execute_addHL (s := s.fetch.2) hsum,
      Registers.setHL, highByte_word, lowByte_word]
    rfl
  · refine ⟨(Alu.addOffset r.sp e).1, (Alu.addOffset_eq r.sp e).1, fun low hadds ↦ ?_⟩
    have hoffset := hadds.addOffset_eq
    rw [← hpc]
    refine ⟨fun hopcode ↦ ?_, fun hopcode ↦ ?_⟩
    · have hdecode : Opcode.decode s.fetch.1 = .instruction .addSP :=
        (congrArg Opcode.decode hopcode).trans (by decide)
      rw [executeOne_of_instruction s hdecode, execute_addSP (s := s.fetch.2) hoffset]
      rfl
    · have hdecode : Opcode.decode s.fetch.1 = .instruction .loadHLOffset :=
        (congrArg Opcode.decode hopcode).trans (by decide)
      rw [executeOne_of_instruction s hdecode, execute_loadHLOffset (s := s.fetch.2) hoffset]
      rfl

/-- HL is added to itself, with a carry out of either byte. -/
def addingHLToItself : Board Memory where
  cpu := { Cpu.powerOn .fatal with
    regs := { Cpu.initialRegisters with h := 0x8F, l := 0xFF, pc := 0xFFFF } }
  bus := (Memory.fill 0).set 0xFFFF 0x29

/-- The stack pointer and the most negative displacement are added, which leaves nothing. -/
def addingMostNegative (opcode : UInt8) : Board Memory where
  cpu := { Cpu.powerOn .fatal with
    regs := { Cpu.initialRegisters with sp := 0x0080, pc := 0xFFFF } }
  bus := (Memory.fill 0x80).set 0xFFFF opcode

theorem word_addition_of_carries :
    (addingHLToItself.executed.cpu.regs.hl = 0x1FFE ∧
      addingHLToItself.executed.cpu.regs.flags = .of true false true true) ∧
    ((addingMostNegative 0xE8).executeOne.1 = .ok 16 ∧
      (addingMostNegative 0xE8).executed.cpu.regs.sp = 0 ∧
      (addingMostNegative 0xE8).executed.cpu.regs.flags = .of false false false true) ∧
    ((addingMostNegative 0xF8).executeOne.1 = .ok 12 ∧
      (addingMostNegative 0xF8).executed.cpu.regs.hl = 0) := by
  have hbytes : AddsBytes 0x8FFF 0x8FFF (standingAt [0xC6, 0xFF] 0xFF true)
      (standingAt [0xCE, 0x8F] 0x8F true) := ⟨⟨.inl rfl, rfl, rfl⟩, ⟨.inl rfl, rfl, rfl⟩, rfl⟩
  have hbyte : (standingAt [0xC6, 0x80] 0x80 false).CombinesBytes .add 0x80 0x80 :=
    ⟨.inl rfl, rfl, rfl⟩
  obtain ⟨-, hdouble⟩ := (word_addition addingHLToItself).1 2 rfl
  obtain ⟨-, w, hw, hoffset⟩ := (word_addition (addingMostNegative 0xE8)).2
  obtain ⟨-, w', hw', hoffset'⟩ := (word_addition (addingMostNegative 0xF8)).2
  have hzero : w = 0 := UInt16.toNat_inj.mp (Int.ofNat.inj hw)
  have hzero' : w' = 0 := UInt16.toNat_inj.mp (Int.ofNat.inj hw')
  have hone := hdouble _ _ hbytes
  have hone' := (hoffset _ hbyte).1 rfl
  have hone'' := (hoffset' _ hbyte).2 rfl
  rw [executed, executed, executed, hone, hone', hone'', hzero, hzero']
  decide

end Board

end GameBoy
