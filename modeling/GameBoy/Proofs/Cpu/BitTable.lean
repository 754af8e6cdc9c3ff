import GameBoy.Proofs.Cpu.ManyBytes
import GameBoy.Proofs.Port.Trace

/-!
# The table behind 0xCB

The byte behind 0xCB selects one of 256 instructions by three fields: what is done, how or to which
bit, and to which operand. Whatever is selected, the operand is read once, and it is written back
once unless a bit of it is only tested. So two questions can be kept apart.

* What becomes of the byte and of the flags is a matter of bytes (`BitInstruction.apply`). A movement
  of bits is told by the number that it leaves and by the bit that it loses (`Alu.shift_eq`); setting
  and clearing a bit are told bit by bit.
* What becomes of the board is the same for all (`Board.executeBit_apply`): the operand and the flags
  are what `BitInstruction.apply` says, and everything else is left alone.

`Board.bit_table` puts the two together for every byte behind 0xCB, and compares the four rotations
of the accumulator in the primary table with those in this one.
-/

namespace GameBoy

/-! ### Movements of bits -/

namespace Shift

/-- The movements, by the three bits of an opcode that select one. -/
def rows : Vector Shift 8 :=
  #v[.rotate .rlc, .rotate .rrc, .rotate .rl, .rotate .rr, .sla, .sra, .swap, .srl]

theorem ofField_eq (y : Fin 8) : ofField y = rows.get y := by
  decide +revert

/-- **The byte that a movement leaves.** -/
def result (op : Shift) (v : UInt8) (carry : Bool) : UInt8 :=
  match op with
  | .rotate .rlc => ⟨v.toBitVec.rotateLeft 1⟩
  | .rotate .rrc => ⟨v.toBitVec.rotateRight 1⟩
  | .rotate .rl => .ofNat (2 * v.toNat + carry.toNat)
  | .rotate .rr => .ofNat (v.toNat / 2 + 128 * carry.toNat)
  | .sla => .ofNat (2 * v.toNat)
  | .sra => ⟨v.toBitVec.sshiftRight 1⟩
  | .swap => .ofNat (16 * (v.toNat % 16) + v.toNat / 16)
  | .srl => .ofNat (v.toNat / 2)

/-- The bit that leaves the byte. Exchanging the halves loses none. -/
def outgoing (op : Shift) (v : UInt8) : Bool :=
  match op with
  | .rotate .rlc | .rotate .rl | .sla => v.toNat.testBit 7
  | .rotate .rrc | .rotate .rr | .sra | .srl => v.toNat.testBit 0
  | .swap => false

end Shift

namespace Alu

/-- **The movements of bits are what they are called.** -/
theorem shift_eq (op : Shift) (v : UInt8) (carry : Bool) :
    shift op v carry = (op.result v carry, op.outgoing v) := by
  revert carry
  refine byte_all (P := fun v ↦ ∀ carry, shift op v carry = (op.result v carry, op.outgoing v))
    ?_ v
  rcases op with (_ | _ | _ | _) | _ | _ | _ | _ <;> decide +kernel

/-! ### Single bits -/

variable (i j : Fin 8)

theorem testBit_bitMask : (bitMask i).toNat.testBit j = decide (j = i) := by
  decide +revert

theorem testBit_not_bitMask : (~~~bitMask i).toNat.testBit j = decide (j ≠ i) := by
  decide +revert

/-- A bit is zero when nothing of it is left under its mask. -/
theorem and_bitMask_beq_zero (v : UInt8) : ((v &&& bitMask i) == 0) = !v.toNat.testBit i := by
  have hbyte := byte_all (P := fun v ↦ ∀ i, ((v &&& bitMask i) == 0) = !v.toNat.testBit i)
    (by decide +kernel) v
  exact hbyte i

theorem testBit_res (v : UInt8) :
    (v &&& ~~~bitMask i).toNat.testBit j = if j = i then false else v.toNat.testBit j := by
  rw [UInt8.toNat_and, Nat.testBit_and, testBit_not_bitMask]
  by_cases h : j = i <;> simp [h]

theorem testBit_set (v : UInt8) :
    (v ||| bitMask i).toNat.testBit j = if j = i then true else v.toNat.testBit j := by
  rw [UInt8.toNat_or, Nat.testBit_or, testBit_bitMask]
  by_cases h : j = i <;> simp [h]

end Alu

/-! ### One instruction for all -/

namespace BitInstruction

/-- The operand that is read. -/
def operand : BitInstruction → Operand
  | shift _ dst | bit _ dst | res _ dst | set _ dst => dst

/-- Whether the operand is written back: a bit that is tested stays where it is. -/
def writesBack : BitInstruction → Bool
  | bit _ _ => false
  | _ => true

/-- **What becomes of the operand and of the flags.** -/
def apply (i : BitInstruction) (v : UInt8) (fs : Flags) : UInt8 × Flags :=
  match i with
  | shift op _ =>
    let (result, c) := Alu.shift op v fs.c
    (result, .of (result == 0) false false c)
  | bit i _ => (v, Alu.testBit i v fs)
  | res i _ => (v &&& ~~~Alu.bitMask i, fs)
  | set i _ => (v ||| Alu.bitMask i, fs)

/-- A test leaves its operand. -/
theorem fst_apply_of_tests {i : BitInstruction} (h : i.writesBack = false) (v : UInt8)
    (fs : Flags) : (i.apply v fs).1 = v := by
  cases i with
  | bit j src => rfl
  | shift | res | set => cases h

/-- What an instruction costs, the opcode 0xCB included. -/
def ticks (i : BitInstruction) : Nat :=
  if i.operand = .atHL then (if i.writesBack then 16 else 12) else 8

/-! ### The three fields -/

variable (k : UInt8)

theorem operand_decode : (decode k).operand = .ofField (Fin.ofNat 8 k.toNat) := by
  unfold decode
  split <;> rfl

theorem writesBack_decode : (decode k).writesBack = decide (k.toNat / 64 ≠ 1) :=
  byte_all (P := fun k ↦ (decode k).writesBack = decide (k.toNat / 64 ≠ 1)) (by decide +kernel) k

theorem ticks_decode :
    (decode k).ticks =
      if Fin.ofNat 8 k.toNat = 6 then (if k.toNat / 64 = 1 then 12 else 16) else 8 := by
  simp [ticks, operand_decode, writesBack_decode, Operand.ofField_eq_atHL_iff]

variable {k} (v : UInt8) (fs : Flags)

theorem apply_decode_shift (h : k.toNat / 64 = 0) :
    let op := Shift.rows.get (Fin.ofNat 8 (k.toNat / 8))
    (decode k).apply v fs =
      (op.result v fs.c, .of (op.result v fs.c == 0) false false (op.outgoing v)) := by
  simp only [decode, h, apply, Shift.ofField_eq, Alu.shift_eq]

theorem apply_decode_bit (h : k.toNat / 64 = 1) :
    let y := Fin.ofNat 8 (k.toNat / 8)
    (decode k).apply v fs =
      (v, ((fs.set .z (!v.toNat.testBit y)).set .n false).set .h true) := by
  simp only [decode, h, apply, Alu.testBit, Alu.and_bitMask_beq_zero]

/-- Clearing and setting a bit leave the others, and the flags. -/
theorem apply_decode_change (h : k.toNat / 64 = 2 ∨ k.toNat / 64 = 3) :
    let y := Fin.ofNat 8 (k.toNat / 8)
    ((decode k).apply v fs).2 = fs ∧ ∀ i : Fin 8,
      ((decode k).apply v fs).1.toNat.testBit i =
        if i = y then decide (k.toNat / 64 = 3) else v.toNat.testBit i := by
  intro y
  rcases h with h | h
  · have hdecode : decode k = .res y (.ofField (Fin.ofNat 8 k.toNat)) := by
      simp only [decode, h, y]
    rw [hdecode, h]
    exact ⟨rfl, fun i ↦ Alu.testBit_res y i v⟩
  · have hdecode : decode k = .set y (.ofField (Fin.ofNat 8 k.toNat)) := by
      simp only [decode, h, y]
    rw [hdecode, h]
    exact ⟨rfl, fun i ↦ Alu.testBit_set y i v⟩

end BitInstruction

/-- The rotations of the accumulator. -/
theorem Opcode.decode_rotateA (row : Fin 4) :
    decode (.ofNat (8 * row + 7)) = .instruction (.rotateA (.ofField row)) := by
  decide +revert

/-- The same byte behind 0xCB. -/
theorem BitInstruction.decode_rotateA (row : Fin 4) :
    decode (.ofNat (8 * row + 7)) = .shift (.rotate (.ofField row)) .a := by
  decide +revert

namespace Board

section Port

variable {M : Type} [Port M]

/-- **Every instruction behind 0xCB reads its operand**, and writes it back unless it is a test. -/
theorem executeBit_apply (s : Board M) (i : BitInstruction) :
    s.executeBit i =
      let read := s.readOperand i.operand
      let changed := i.apply read.1 read.2.cpu.regs.flags
      let flagged := read.2.setFlags changed.2
      (i.ticks, if i.writesBack then flagged.writeOperand i.operand changed.1 else flagged) := by
  cases i <;> rfl

variable (s : Board (Traced M))

theorem accesses_readOperand (src : Operand) :
    (s.readOperand src).2.bus.accesses =
      s.bus.accesses ++
        if src = .atHL then [.read s.cpu.regs.hl (s.readOperand src).1] else [] := by
  cases src with
  | atHL => exact Traced.accesses_read ..
  | _ => exact (List.append_nil _).symm

theorem accesses_writeOperand (dst : Operand) (v : UInt8) :
    (s.writeOperand dst v).bus.accesses =
      s.bus.accesses ++ if dst = .atHL then [.write s.cpu.regs.hl v] else [] := by
  cases dst with
  | atHL => exact Traced.accesses_write ..
  | _ => exact (List.append_nil _).symm

/-- **The accesses of an instruction behind 0xCB.** There are none, unless the operand is in
memory. -/
theorem accesses_executeBit (i : BitInstruction) :
    let hl := s.cpu.regs.hl
    let v := (s.readOperand i.operand).1
    (s.executeBit i).2.bus.accesses = s.bus.accesses ++
      if i.operand = .atHL then
        .read hl v :: if i.writesBack then [.write hl (i.apply v s.cpu.regs.flags).1] else []
      else [] := by
  intro hl v
  have hread : (s.readOperand i.operand).2.bus.accesses =
      s.bus.accesses ++ if i.operand = .atHL then [.read hl v] else [] := accesses_readOperand ..
  simp only [executeBit_apply, cpu_readOperand]
  cases hback : i.writesBack with
  | false =>
    refine hread.trans ?_
    simp
  | true =>
    refine (accesses_writeOperand ..).trans ?_
    simp only [setFlags, setRegs, cpu_readOperand, hread]
    by_cases hoperand : i.operand = .atHL <;> simp [hoperand, hl, v, Registers.hl]

end Port

/-- The operand and the flags are what they are said to become. -/
theorem readOperand_executeBit (s : Board Memory) (i : BitInstruction) :
    let changed := i.apply (s.readOperand i.operand).1 s.cpu.regs.flags
    ((s.executeBit i).2.readOperand i.operand).1 = changed.1 ∧
      (s.executeBit i).2.cpu.regs.flags = changed.2 := by
  intro changed
  simp only [executeBit_apply, snd_readOperand]
  cases hback : i.writesBack with
  | false =>
    refine ⟨?_, rfl⟩
    have hkept : ((s.setFlags changed.2).readOperand i.operand).1 = (s.readOperand i.operand).1 := by
      cases i.operand <;> rfl
    exact hkept.trans (BitInstruction.fst_apply_of_tests hback _ _).symm
  | true => exact ⟨fst_readOperand_writeOperand .., flags_writeOperand ..⟩

section Executed

variable {s : Board Memory} (hopcode : s.bus.get s.cpu.regs.pc = 0xCB)

/-- The instruction that the byte behind the program counter selects. -/
def selected (s : Board Memory) : BitInstruction := .decode (s.bus.get (s.cpu.regs.pc + 1))

include hopcode

theorem executeOne_selected :
    s.executeOne =
      (.ok s.selected.ticks, (s.carryOut (.bit s.selected)).elapse s.selected.ticks) := by
  have hdecode : Opcode.decode s.fetch.1 = .extended :=
    (congrArg Opcode.decode hopcode).trans (by decide)
  have hticks : (s.fetch.2.fetch.2.executeBit s.selected).1 = s.selected.ticks := by
    rw [executeBit_apply]
  calc s.executeOne
      = (s.carryOut (.bit s.selected)).charge (s.fetch.2.fetch.2.executeBit s.selected).1 :=
        executeOne_of_extended s hdecode
    _ = _ := by
      rw [hticks]
      rfl

/-- **What an instruction behind 0xCB does to its operand and to the flags.** -/
theorem executed_selected :
    let changed := s.selected.apply (s.readOperand s.selected.operand).1 s.cpu.regs.flags
    (s.executed.readOperand s.selected.operand).1 = changed.1 ∧
      s.executed.cpu.regs.flags = changed.2 := by
  have hfetched : (s.fetch.2.fetch.2.readOperand s.selected.operand).1 =
      (s.readOperand s.selected.operand).1 := by
    cases s.selected.operand <;> rfl
  have hchanged := readOperand_executeBit s.fetch.2.fetch.2 s.selected
  rw [hfetched] at hchanged
  rw [executed, executeOne_selected hopcode, fst_readOperand_elapse]
  exact hchanged

/-- It leaves everything else alone, goes on behind its two bytes and charges its cost. -/
theorem confined_selected :
    Confined Flag.all [s.selected.operand.place s] s s.executed ∧
      s.executed.cpu.regs.pc = s.cpu.regs.pc + 2 ∧
      s.executed.cpu.clock = s.cpu.clock + s.selected.ticks := by
  have hexecuted : s.executed = (s.carryOut (.bit s.selected)).elapse s.selected.ticks :=
    congrArg Prod.snd (executeOne_selected hopcode)
  have hplaces : s.selected.destinations s ⊆ [s.selected.operand.place s] := by
    cases s.selected with
    | bit => exact List.nil_subset _
    | _ => exact List.Subset.refl _
  have hclock : (s.carryOut (.bit s.selected)).cpu.clock = s.cpu.clock :=
    congrArg Control.clock (control_executeBit s.fetch.2.fetch.2 s.selected)
  rw [hexecuted]
  refine ⟨?_, s.pc_carryOut (m := .bit s.selected) rfl, ?_⟩
  · have hconfined := (s.confined_carryOut (.bit s.selected)).trans
      (confined_elapse s.selected.ticks)
    exact hconfined.mono (fun f _ ↦ f.mem_all) hplaces
  · exact congrArg (· + s.selected.ticks) hclock

/-- The two bytes are fetched first, and then the operand may be reached. -/
theorem accesses_selected :
    let r := s.cpu.regs
    let v := (s.readOperand s.selected.operand).1
    s.traced.executeOne.2.bus.accesses =
      [.read r.pc 0xCB, .read (r.pc + 1) (s.bus.get (r.pc + 1))] ++
        if s.selected.operand = .atHL then
          .read r.hl v ::
            if s.selected.writesBack then [.write r.hl (s.selected.apply v r.flags).1] else []
        else [] := by
  intro r v
  have hdecode : Opcode.decode s.traced.fetch.1 = .extended :=
    (congrArg Opcode.decode hopcode).trans (by decide)
  have hfetched : s.traced.fetch.2.fetch.2.bus.accesses =
      [.read r.pc 0xCB, .read (r.pc + 1) (s.bus.get (r.pc + 1))] := by
    rw [← hopcode]
    rfl
  have hoperand : (s.traced.fetch.2.fetch.2.readOperand s.selected.operand).1 = v := by
    simp only [v]
    cases s.selected.operand <;> rfl
  have haccesses := s.traced.fetch.2.fetch.2.accesses_executeBit s.selected
  rw [hfetched, hoperand] at haccesses
  rw [executeOne_of_extended s.traced hdecode]
  exact haccesses

end Executed

theorem executeOne_rotateA {s : Board Memory} (row : Fin 4)
    (hopcode : s.bus.get s.cpu.regs.pc = .ofNat (8 * row + 7)) :
    s.executeOne = (s.fetch.2.execute (.rotateA (.ofField row))).2.charge 4 := by
  have hdecode : Opcode.decode s.fetch.1 = .instruction (.rotateA (.ofField row)) :=
    (congrArg Opcode.decode hopcode).trans (Opcode.decode_rotateA row)
  rw [executeOne_of_instruction s hdecode]
  rfl

/-- The same rotation of the accumulator, by an opcode of the primary table and behind 0xCB. -/
theorem rotateA_eq {s s' : Board Memory} (row : Fin 4)
    (hopcode : s.bus.get s.cpu.regs.pc = .ofNat (8 * row + 7))
    (hextended : s'.bus.get s'.cpu.regs.pc = 0xCB)
    (hopcode' : s'.bus.get (s'.cpu.regs.pc + 1) = .ofNat (8 * row + 7))
    (ha : s'.cpu.regs.a = s.cpu.regs.a) (hcarry : s'.carry = s.carry) :
    s.executed.cpu.regs.a = s'.executed.cpu.regs.a ∧
      s.executed.cpu.regs.flags = s'.executed.cpu.regs.flags.set .z false := by
  have hselected : s'.selected = .shift (.rotate (.ofField row)) .a :=
    (congrArg BitInstruction.decode hopcode').trans (BitInstruction.decode_rotateA row)
  obtain ⟨hvalue, hflags⟩ := executed_selected hextended
  have hcarry' : s'.cpu.regs.flags.c = s.cpu.regs.flags.c := hcarry
  rw [hselected] at hvalue hflags
  simp only [BitInstruction.apply, BitInstruction.operand, readOperand, Alu.shift, ha, hcarry']
    at hvalue hflags
  rw [hvalue, hflags, executed, executeOne_rotateA row hopcode, Flags.set_z_of]
  exact ⟨rfl, rfl⟩

/-- **The table behind 0xCB.** The three fields of the byte behind it select what is done, how or
to which bit, and the operand. Besides the operand, the flags, the program counter and the clock
nothing changes, wherever the operand is; memory is reached after the two bytes have been fetched,
once to read an operand there and once to write it back, unless a bit of it is tested. The rotations
of the accumulator in the primary table do the same as those in this one, but never set the zero
flag. -/
theorem bit_table (s : Board Memory) :
    let r := s.cpu.regs
    let opcode := s.bus.get r.pc
    let k := s.bus.get (r.pc + 1)
    let x := k.toNat / 64
    let y := Fin.ofNat 8 (k.toNat / 8)
    let z := Fin.ofNat 8 k.toNat
    let v := s.operandBytes.get z
    let v' := s.executed.operandBytes.get z
    let flags := s.executed.cpu.regs.flags
    let ticks := if z = 6 then (if x = 1 then 12 else 16) else 8
    (opcode = 0xCB →
      s.executeOne = (.ok ticks, s.executed) ∧
      Confined Flag.all [s.operandPlaces.get z] s s.executed ∧
      s.executed.cpu.regs.pc = r.pc + 2 ∧
      s.executed.cpu.clock = s.cpu.clock + ticks ∧
      s.traced.executeOne.2.bus.accesses =
        [.read r.pc 0xCB, .read (r.pc + 1) k] ++
          (if z = 6 then .read r.hl v :: (if x = 1 then [] else [.write r.hl v']) else []) ∧
      (x = 0 → v' = (Shift.rows.get y).result v r.flags.c ∧
        flags = .of (v' == 0) false false ((Shift.rows.get y).outgoing v)) ∧
      (x = 1 → v' = v ∧
        flags = ((r.flags.set .z (!v.toNat.testBit y)).set .n false).set .h true) ∧
      (x = 2 ∨ x = 3 → flags = r.flags ∧ ∀ i : Fin 8,
        v'.toNat.testBit i = if i = y then decide (x = 3) else v.toNat.testBit i)) ∧
    ∀ row : Fin 4, opcode = .ofNat (8 * row + 7) →
      s.Succeeds ∧ ∀ s' : Board Memory,
        s'.bus.get s'.cpu.regs.pc = 0xCB →
        s'.bus.get (s'.cpu.regs.pc + 1) = .ofNat (8 * row + 7) →
        s'.cpu.regs.a = r.a → s'.carry = s.carry →
          s.executed.cpu.regs.a = s'.executed.cpu.regs.a ∧
          s.executed.cpu.regs.flags = s'.executed.cpu.regs.flags.set .z false := by
  intro r opcode k x y z v v' flags ticks
  refine ⟨fun hopcode ↦ ?_, fun row hopcode ↦ ⟨⟨4, ?_⟩, fun s' ↦ rotateA_eq row hopcode⟩⟩
  · have hoperand : s.selected.operand = .ofField z := BitInstruction.operand_decode k
    have hticks : s.selected.ticks = ticks := BitInstruction.ticks_decode k
    have hback : s.selected.writesBack = decide (x ≠ 1) := BitInstruction.writesBack_decode k
    have hone := executeOne_selected hopcode
    obtain ⟨hvalue, hflags⟩ := executed_selected hopcode
    obtain ⟨hconfined, hpc, hclock⟩ := confined_selected hopcode
    have haccesses := accesses_selected hopcode
    rw [hoperand, fst_readOperand_ofField] at hvalue hflags haccesses
    rw [fst_readOperand_ofField] at hvalue
    rw [hoperand, place_ofField] at hconfined
    rw [hticks] at hone hclock
    simp only [hback, ← hvalue, Operand.ofField_eq_atHL_iff, decide_eq_true_eq, ite_not]
      at haccesses
    refine ⟨by rw [executed, hone], hconfined, hpc, hclock, haccesses, fun hx ↦ ?_, fun hx ↦ ?_,
      fun hx ↦ ?_⟩
    · have happly := BitInstruction.apply_decode_shift v r.flags hx
      have hresult : v' = _ := hvalue.trans (congrArg Prod.fst happly)
      refine ⟨hresult, ?_⟩
      rw [hresult]
      exact hflags.trans (congrArg Prod.snd happly)
    · have happly := BitInstruction.apply_decode_bit v r.flags hx
      exact ⟨hvalue.trans (congrArg Prod.fst happly), hflags.trans (congrArg Prod.snd happly)⟩
    · obtain ⟨hkept, hbits⟩ := BitInstruction.apply_decode_change v r.flags hx
      have hresult : v' = ((BitInstruction.decode k).apply v r.flags).1 := hvalue
      refine ⟨hflags.trans hkept, ?_⟩
      rw [hresult]
      exact hbits
  · rw [executed, executeOne_rotateA row hopcode]
    rfl

/-- An instruction from the last address of memory on, with HL at its second byte: what is rotated
through the carry is the byte that says so. -/
def rotatingItself : Board Memory where
  cpu := { Cpu.powerOn .fatal with
    regs := { Cpu.initialRegisters with h := 0, l := 0, pc := 0xFFFF } }
  bus := (Memory.fill 0x16).set 0xFFFF 0xCB

/-- A rotation to the left that leaves nothing but a carry, in the primary table and behind 0xCB. -/
theorem bit_table_of_rotatingItself :
    (rotatingItself.executeOne.1 = .ok 16 ∧ rotatingItself.executed.bus.get 0 = 0x2D ∧
      rotatingItself.executed.cpu.regs.flags = .of false false false false) ∧
    ((standingAt [0x17] 0x80 false).executed.cpu.regs.flags = .of false false false true ∧
      (standingAt [0xCB, 0x17] 0x80 false).executed.cpu.regs.flags =
        .of true false false true) := by
  obtain ⟨hone, -, -, -, -, hshift, -, -⟩ := (bit_table rotatingItself).1 rfl
  obtain ⟨hresult, hflags⟩ := hshift rfl
  rw [hresult] at hflags
  obtain ⟨-, -, -, -, -, hshift', -, -⟩ := (bit_table (standingAt [0xCB, 0x17] 0x80 false)).1 rfl
  obtain ⟨hresult', hflags'⟩ := hshift' rfl
  rw [hresult'] at hflags'
  obtain ⟨-, hrotated⟩ := (bit_table (standingAt [0x17] 0x80 false)).2 2 rfl
  obtain ⟨-, hcleared⟩ := hrotated (standingAt [0xCB, 0x17] 0x80 false) rfl rfl rfl rfl
  rw [hflags'] at hcleared
  exact ⟨⟨congrArg Prod.fst hone, hresult, hflags⟩, hcleared, hflags'⟩

end Board

end GameBoy
