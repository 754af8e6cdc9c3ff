import GameBoy.Proofs.Cpu.Footprint
import GameBoy.Proofs.Cpu.Stages

/-!
# What instructions leave alone

For every instruction of both tables, four things are laid down here in advance: how many bytes it
occupies, which flags it may change, in which places it may leave a result, and whether it goes on
elsewhere. `confined_execute` and `confined_executeBit` go through the instructions once and find
that nothing else is changed, and `pc_execute` that an instruction which does not go on elsewhere
goes on with the byte behind it.

An address that an instruction writes to is computed from the registers and the bytes behind the
opcode as they are **before** it. So nothing depends on whether the instruction, its operand or the
stack lie on top of each other, or whether an address wraps around.
-/

namespace GameBoy

/-! ### The instructions, one by one -/

namespace Board

/-- The byte behind the opcode that has been fetched. -/
def operandByte (s : Board Memory) : UInt8 := s.bus.get s.cpu.regs.pc

/-- The word behind the opcode that has been fetched. -/
def operandWord (s : Board Memory) : UInt16 :=
  word (s.bus.get (s.cpu.regs.pc + 1)) (s.bus.get s.cpu.regs.pc)

end Board

namespace Instruction

/-- The bytes that an instruction occupies. -/
def length : Instruction → Nat
  | .nop | .halt | .di | .ei => 1
  | .stop => 2
  | .load _ _ | .storeA _ | .loadA _ | .storeAHighC | .loadAHighC | .loadSP => 1
  | .loadImmediate _ | .storeAHigh | .loadAHigh | .loadHLOffset => 2
  | .loadPair _ | .storeADirect | .loadADirect | .storeSP => 3
  | .inc _ | .dec _ | .incPair _ | .decPair _ | .addHL _ | .alu _ _ => 1
  | .addSP | .aluImmediate _ => 2
  | .rotateA _ | .daa | .cpl | .scf | .ccf => 1
  | .jumpRelative _ => 2
  | .jump _ | .call _ => 3
  | .jumpHL | .ret | .retIf _ | .reti | .rst _ | .push _ | .pop _ => 1

/-- The flags that an instruction may change. -/
def flags : Instruction → List Flag
  -- Loads leave the flags alone, unless they add an offset or pop them.
  | .load _ _ | .loadImmediate _ | .loadPair _ | .storeA _ | .loadA _ | .storeADirect
  | .loadADirect | .storeAHigh | .loadAHigh | .storeAHighC | .loadAHighC | .storeSP | .loadSP => []
  | .loadHLOffset | .addSP => Flag.all
  | .pop dst => dst.flags
  | .push _ => []
  | .inc _ | .dec _ => [.z, .n, .h]
  | .incPair _ | .decPair _ => []
  | .addHL _ => [.n, .h, .c]
  | .alu _ _ | .aluImmediate _ | .rotateA _ => Flag.all
  | .daa => [.z, .h, .c]
  | .cpl => [.n, .h]
  | .scf | .ccf => [.n, .h, .c]
  | .jumpRelative _ | .jump _ | .jumpHL | .call _ | .ret | .retIf _ | .reti | .rst _ => []
  | .nop | .stop | .halt | .di | .ei => []

/-- **The places in which an instruction may leave a result**, its opcode having been fetched. -/
def destinations (s : Board Memory) : Instruction → List Place
  | .nop | .scf | .ccf | .jumpRelative _ | .jump _ | .jumpHL => []
  | .stop | .halt => [.power]
  | .di | .ei => [.imeQueue]
  | .load dst _ | .loadImmediate dst | .inc dst | .dec dst => [dst.place s]
  | .loadPair dst | .incPair dst | .decPair dst => dst.places
  | .storeA p => .cell (p.address s) :: p.places
  | .loadA p => .a :: p.places
  | .storeADirect => [.cell s.operandWord]
  | .storeAHigh => [.cell (Board.highPage s.operandByte)]
  | .storeAHighC => [.cell (Board.highPage s.cpu.regs.c)]
  | .loadADirect | .loadAHigh | .loadAHighC => [.a]
  | .storeSP => [.cell s.operandWord, .cell (s.operandWord + 1)]
  | .loadSP | .addSP => [.sp]
  | .loadHLOffset | .addHL _ => [.h, .l]
  -- A comparison is a subtraction of which only the flags are kept.
  | .alu op _ | .aluImmediate op => if op = .cp then [] else [.a]
  | .rotateA _ | .daa | .cpl => [.a]
  | .call guard => if s.cpu.permits guard then s.pushPlaces else []
  | .ret => [.sp]
  | .retIf guard => if s.cpu.holds guard then [.sp] else []
  | .reti => [.sp, .ime]
  | .rst _ | .push _ => s.pushPlaces
  | .pop dst => .sp :: dst.places

/-- Whether an instruction goes on elsewhere: it is a jump, a call or a return that is taken. -/
def transfers (cpu : Cpu) : Instruction → Bool
  | .jumpRelative guard | .jump guard | .call guard => cpu.permits guard
  | .retIf guard => cpu.holds guard
  | .jumpHL | .ret | .reti | .rst _ => true
  | _ => false

end Instruction

namespace BitInstruction

/-- The flags that an instruction behind 0xCB may change. -/
def flags : BitInstruction → List Flag
  | .shift _ _ => Flag.all
  | .bit _ _ => [.z, .n, .h]
  | .res _ _ | .set _ _ => []

/-- The place in which an instruction behind 0xCB may leave a result. -/
def destinations (s : Board Memory) : BitInstruction → List Place
  | .shift _ dst | .res _ dst | .set _ dst => [dst.place s]
  | .bit _ _ => []

end BitInstruction

/-! ### Every instruction keeps to its places -/

namespace Board

/-- What is left of a comparison: the accumulator is not changed. -/
theorem confined_alu_cp (s : Board Memory) (v : UInt8) :
    Confined Flag.all places s (s.alu .cp v) :=
  confined_setFlags_all _

theorem confined_alu_of_cases (s : Board Memory) (op : AluOp) (v : UInt8) :
    Confined Flag.all (if op = .cp then [] else [.a]) s (s.alu op v) := by
  split
  · next hcp =>
    subst hcp
    exact confined_alu_cp s v
  · exact confined_alu (List.mem_singleton_self _) op v

variable (s : Board Memory)

/-- **An instruction changes nothing but its flags and its places.** -/
theorem confined_execute (i : Instruction) :
    Confined i.flags (i.destinations s) s (s.execute i).2 := by
  cases i with
  | nop => exact confined_refl
  | stop => exact confined_fetch.trans (confined_setPower (List.mem_singleton_self _) _)
  | halt => exact confined_setPower (List.mem_singleton_self _) _
  | di | ei => exact confined_requestIme (List.mem_singleton_self _) _
  | load dst src =>
    simp only [execute, snd_readOperand]
    exact confined_writeOperand (List.mem_singleton_self _) _
  | loadImmediate dst =>
    have hplace : dst.place s.fetch.2 = dst.place s := by
      cases dst <;> rfl
    refine confined_fetch.trans (confined_writeOperand ?_ _)
    rw [hplace]
    exact List.mem_singleton_self _
  | loadPair dst => exact confined_fetchWord.trans (confined_setPair (List.Subset.refl _) _)
  | storeA p =>
    simp only [execute, fst_follow]
    exact (confined_follow (List.subset_cons_self _ _)).trans
      (confined_write List.mem_cons_self _)
  | loadA p =>
    exact (confined_follow (List.subset_cons_self _ _)).trans
      (confined_setA List.mem_cons_self _)
  | storeADirect =>
    exact confined_fetchWord.trans (confined_write (List.mem_singleton_self _) _)
  | loadADirect =>
    exact confined_fetchWord.trans (confined_setA (List.mem_singleton_self _) _)
  | storeAHigh => exact confined_fetch.trans (confined_write (List.mem_singleton_self _) _)
  | loadAHigh => exact confined_fetch.trans (confined_setA (List.mem_singleton_self _) _)
  | storeAHighC => exact confined_write (List.mem_singleton_self _) _
  | loadAHighC => exact confined_setA (List.mem_singleton_self _) _
  | storeSP =>
    exact (confined_fetchWord.trans (confined_write List.mem_cons_self _)).trans
      (confined_write (List.mem_cons_of_mem _ List.mem_cons_self) _)
  | loadSP => exact confined_setSP (List.mem_singleton_self _) _
  | loadHLOffset =>
    exact (confined_fetch.trans (confined_setFlags_all _)).trans
      (confined_setPair (List.Subset.refl Pair.hl.places) _)
  | inc dst =>
    exact confined_modify (fun v fs ↦ (Alu.sets_inc v fs).keeps) (List.mem_singleton_self _)
  | dec dst =>
    exact confined_modify (fun v fs ↦ (Alu.sets_dec v fs).keeps) (List.mem_singleton_self _)
  | incPair dst | decPair dst => exact confined_setPair (List.Subset.refl _) _
  | addHL src =>
    exact (confined_setFlags (Alu.sets_addWords ..).keeps).trans
      (confined_setPair (List.Subset.refl Pair.hl.places) _)
  | addSP =>
    have hsp : Confined Flag.all [.sp] s
        (s.fetch.2.setSP (Alu.addOffset s.cpu.regs.sp s.fetch.1).1) :=
      confined_fetch.trans (confined_setSP (List.mem_singleton_self _) _)
    exact hsp.trans (confined_setFlags_all (Alu.addOffset s.cpu.regs.sp s.fetch.1).2)
  | alu op src =>
    simp only [execute, snd_readOperand]
    exact confined_alu_of_cases s op _
  | aluImmediate op => exact confined_fetch.trans (confined_alu_of_cases s.fetch.2 op _)
  | rotateA r =>
    exact (confined_setA (List.mem_singleton_self _) _).trans (confined_setFlags_all _)
  | daa =>
    exact (confined_setA (List.mem_singleton_self _) _).trans
      (confined_setFlags (Alu.sets_decimalAdjust ..).keeps)
  | cpl =>
    exact (confined_setA (List.mem_singleton_self _) _).trans
      (confined_setFlags (Alu.sets_complement _).keeps)
  | scf | ccf => exact confined_setFlags (Alu.sets_carry ..).keeps
  | jumpRelative guard =>
    simp only [execute, jumpRelative]
    split
    · exact confined_fetch.trans (confined_setPC _)
    · exact confined_fetch
  | jump guard =>
    simp only [execute, jump]
    split
    · exact confined_fetchWord.trans (confined_setPC _)
    · exact confined_fetchWord
  | jumpHL => exact confined_setPC _
  | call guard =>
    simp only [execute, call, Instruction.destinations]
    split
    · exact (confined_fetchWord.trans
        (confined_pushWord (s := s.fetchWord.2) (List.Subset.refl _) _)).trans (confined_setPC _)
    · exact confined_fetchWord
  | ret => exact (confined_popWord (List.mem_singleton_self _)).trans (confined_setPC _)
  | retIf guard =>
    simp only [execute, Instruction.destinations]
    split
    · exact (confined_popWord (List.mem_singleton_self _)).trans (confined_setPC _)
    · exact confined_refl
  | reti =>
    exact ((confined_popWord List.mem_cons_self).trans (confined_setPC _)).trans
      (confined_setIme (List.mem_cons_of_mem _ List.mem_cons_self) _)
  | rst slot => exact (confined_pushWord (List.Subset.refl _) _).trans (confined_setPC _)
  | push src => exact confined_pushWord (List.Subset.refl _) _
  | pop dst =>
    exact (confined_popWord List.mem_cons_self).trans
      (confined_setStackPair (List.subset_cons_self _ _) _)

/-- An instruction behind 0xCB changes nothing but its flags and its place. -/
theorem confined_executeBit (i : BitInstruction) :
    Confined i.flags (i.destinations s) s (s.executeBit i).2 := by
  cases i with
  | shift op dst =>
    simp only [executeBit]
    exact confined_modify (fun _ _ ↦ Flags.keeps_all ..) (List.mem_singleton_self _)
  | bit j src =>
    simp only [executeBit, snd_readOperand]
    exact confined_setFlags (Alu.sets_testBit ..).keeps
  | res j dst | set j dst =>
    simp only [executeBit]
    exact confined_modify (fun _ _ ↦ Flags.keeps_refl) (List.mem_singleton_self _)

/-! ### Where execution goes on -/

theorem pc_setPair (dst : Pair) (w : UInt16) :
    (s.setPair dst w).cpu.regs.pc = s.cpu.regs.pc := by
  cases dst <;> rfl

theorem pc_setStackPair (dst : StackPair) (w : UInt16) :
    (s.setStackPair dst w).cpu.regs.pc = s.cpu.regs.pc := by
  cases dst <;> rfl

theorem pc_follow (p : Pointer) : (s.follow p).2.cpu.regs.pc = s.cpu.regs.pc := by
  cases p <;> rfl

theorem pc_writeOperand (dst : Operand) (v : UInt8) :
    (s.writeOperand dst v).cpu.regs.pc = s.cpu.regs.pc := by
  cases dst <;> rfl

theorem pc_modify (dst : Operand) (f : UInt8 → Flags → UInt8 × Flags) :
    (s.modify dst f).cpu.regs.pc = s.cpu.regs.pc := by
  cases dst <;> rfl

/-- **An instruction that does not go on elsewhere goes on behind itself.** Its opcode has been
fetched already. -/
theorem pc_execute {i : Instruction} (h : i.transfers s.cpu = false) :
    (s.execute i).2.cpu.regs.pc = s.cpu.regs.pc + UInt16.ofNat (i.length - 1) := by
  have hnone : s.cpu.regs.pc = s.cpu.regs.pc + UInt16.ofNat (1 - 1) :=
    (UInt16.add_zero s.cpu.regs.pc).symm
  have hword : s.cpu.regs.pc + 1 + 1 = s.cpu.regs.pc + UInt16.ofNat (3 - 1) :=
    UInt16.add_assoc s.cpu.regs.pc 1 1
  cases i with
  | nop | halt | di | ei | storeAHighC | loadAHighC | loadSP | addHL | rotateA | daa | cpl | scf
  | ccf | push => exact hnone
  | stop | storeAHigh | loadAHigh | loadHLOffset | addSP | aluImmediate => rfl
  | storeADirect | loadADirect | storeSP => exact hword
  | load dst src =>
    simp only [execute, snd_readOperand]
    exact (pc_writeOperand ..).trans hnone
  | loadImmediate dst => exact pc_writeOperand ..
  | loadPair dst => exact (pc_setPair ..).trans hword
  | storeA p | loadA p => exact (s.pc_follow p).trans hnone
  | inc dst | dec dst => exact (pc_modify ..).trans hnone
  | incPair dst | decPair dst => exact (pc_setPair ..).trans hnone
  | alu op src =>
    simp only [execute, snd_readOperand]
    exact hnone
  | jumpRelative guard =>
    have hguard : s.cpu.permits guard = false := h
    simp only [execute, hguard]
    rfl
  | jump guard | call guard =>
    have hguard : s.cpu.permits guard = false := h
    simp only [execute, hguard]
    exact hword
  | retIf guard =>
    have hguard : s.cpu.holds guard = false := h
    simp only [execute, hguard]
    exact hnone
  | pop dst => exact (pc_setStackPair ..).trans hnone
  | jumpHL | ret | reti | rst => cases h

theorem pc_executeBit (i : BitInstruction) :
    (s.executeBit i).2.cpu.regs.pc = s.cpu.regs.pc := by
  cases i with
  | bit j src =>
    simp only [executeBit, snd_readOperand]
    rfl
  | _ => exact pc_modify ..

end Board

/-! ### What stands in memory -/

/-- What the bytes at an address mean to a CPU that executes them. -/
inductive Meaning where
  /-- An instruction of the primary table. -/
  | primary (i : Instruction)
  /-- An instruction behind 0xCB. -/
  | bit (i : BitInstruction)
  /-- Nothing: a byte that may be passed over. -/
  | nothing
deriving DecidableEq, Repr

namespace Meaning

/-- The bytes that are passed over. -/
def length : Meaning → Nat
  | primary i => i.length
  | bit _ => 2
  | nothing => 1

/-- The flags that may be changed. -/
def flags : Meaning → List Flag
  | primary i => i.flags
  | bit i => i.flags
  | nothing => []

/-- The places in which a result may be left, from the board as it is before the opcode is
fetched. -/
def destinations (s : Board Memory) : Meaning → List Place
  | primary i => i.destinations s.fetch.2
  | bit i => i.destinations s
  | nothing => []

/-- Whether execution goes on elsewhere. -/
def transfers (cpu : Cpu) : Meaning → Bool
  | primary i => i.transfers cpu
  | _ => false

end Meaning

/-- What the bytes at an address mean, if 0xFD is not among them. -/
def Memory.meaning (m : Memory) (a : UInt16) : Meaning :=
  match Opcode.decode (m.get a) with
  | .instruction i => .primary i
  | .extended => .bit (.decode (m.get (a + 1)))
  | .again | .hole => .nothing

/-- One byte passes decoding on to the next one. -/
theorem Opcode.decode_eq_again_iff (opcode : UInt8) : decode opcode = .again ↔ opcode = 0xFD :=
  byte_all (P := fun opcode ↦ decode opcode = .again ↔ opcode = 0xFD) (by decide +kernel) opcode

namespace Board

variable (s : Board Memory)

/-- The board once the bytes at the program counter have been executed, before their cost is
charged. -/
def carryOut : Meaning → Board Memory
  | .primary i => (s.fetch.2.execute i).2
  | .bit i => (s.fetch.2.fetch.2.executeBit i).2
  | .nothing => s.fetch.2

/-- **What is executed is what the bytes mean**, and its cost is charged. -/
theorem executeOne_eq_carryOut {s s' : Board Memory} {t : Nat}
    (hplain : s.bus.get s.cpu.regs.pc ≠ 0xFD) (h : s.executeOne = (.ok t, s')) :
    s' = (s.carryOut (s.bus.meaning s.cpu.regs.pc)).elapse t := by
  have hagain : Opcode.decode s.fetch.1 ≠ .again := mt (Opcode.decode_eq_again_iff _).mp hplain
  have hone : s.executeOne = s.fetch.2.executeOpcode 0 s.fetch.1 s.cpu.regs.pc := if_neg hagain
  have hopcode : s.bus.get s.cpu.regs.pc = s.fetch.1 := rfl
  rw [hone] at h
  unfold Memory.meaning
  rw [hopcode]
  cases hdecoded : Opcode.decode s.fetch.1 with
  | instruction i =>
    rw [executeOpcode_instruction _ hdecoded] at h
    obtain ⟨ht, rfl⟩ := Prod.mk.inj h
    rw [← Except.ok.inj ht]
    rfl
  | extended =>
    rw [executeOpcode_extended _ hdecoded] at h
    obtain ⟨ht, rfl⟩ := Prod.mk.inj h
    rw [← Except.ok.inj ht]
    rfl
  | again => exact absurd hdecoded hagain
  | hole =>
    rw [executeOpcode_hole _ (.inr hdecoded), meetHole] at h
    split at h
    · cases h
    · obtain ⟨ht, rfl⟩ := Prod.mk.inj h
      rw [← Except.ok.inj ht]
      rfl

/-- **What the bytes mean changes nothing but its flags and its destinations.** -/
theorem confined_carryOut (m : Meaning) :
    Confined m.flags (m.destinations s) s (s.carryOut m) := by
  cases m with
  | primary i => exact confined_fetch.trans (s.fetch.2.confined_execute i)
  | bit i =>
    -- The operand in memory is where it was before the two opcode bytes were fetched.
    have hplaces : i.destinations s.fetch.2.fetch.2 = i.destinations s := by
      cases i with
      | bit => rfl
      | shift _ dst | res _ dst | set _ dst => cases dst <;> rfl
    have hbit := s.fetch.2.fetch.2.confined_executeBit i
    rw [hplaces] at hbit
    exact (confined_fetch.trans confined_fetch).trans hbit
  | nothing => exact confined_fetch

/-- Execution goes on behind the bytes, unless they transfer it. -/
theorem pc_carryOut {m : Meaning} (h : m.transfers s.cpu = false) :
    (s.carryOut m).cpu.regs.pc = s.cpu.regs.pc + UInt16.ofNat m.length := by
  cases m with
  | primary i =>
    have hlength : 1 + UInt16.ofNat (i.length - 1) = UInt16.ofNat i.length := by
      cases i <;> rfl
    have hsame : i.transfers s.fetch.2.cpu = false := by
      cases i with
      | jumpRelative guard | jump guard | call guard =>
        cases guard with
        | none => exact h
        | some condition => cases condition <;> exact h
      | retIf condition => cases condition <;> exact h
      | _ => exact h
    calc (s.carryOut (.primary i)).cpu.regs.pc
        = s.cpu.regs.pc + 1 + UInt16.ofNat (i.length - 1) := s.fetch.2.pc_execute hsame
      _ = s.cpu.regs.pc + UInt16.ofNat i.length := by rw [UInt16.add_assoc, hlength]
  | bit i =>
    calc (s.carryOut (.bit i)).cpu.regs.pc
        = s.cpu.regs.pc + 1 + 1 := s.fetch.2.fetch.2.pc_executeBit i
      _ = s.cpu.regs.pc + UInt16.ofNat 2 := UInt16.add_assoc s.cpu.regs.pc 1 1
  | nothing => rfl

/-- **What an instruction leaves alone.** Whatever stands at the program counter, if it is executed
without a fault and without the prefix 0xFD: it keeps the flags that it is not said to change, so
that the flags byte stays as it is where there are none; it keeps the registers, the stack pointer,
the master enable and its queue, the state of power and the bytes of memory that are not said to
be its destinations; and unless it is a jump, a call or a return that is taken, it goes on behind
its last byte, from the end of memory to the beginning if need be. -/
theorem instruction_frame {s s' : Board Memory} {t : Nat}
    (hplain : s.bus.get s.cpu.regs.pc ≠ 0xFD) (h : s.executeOne = (.ok t, s')) :
    let m := s.bus.meaning s.cpu.regs.pc
    (∀ f, f ∉ m.flags → s'.cpu.regs.flags.get f = s.cpu.regs.flags.get f) ∧
      (m.flags = [] → s'.cpu.regs.f = s.cpu.regs.f) ∧
      (∀ p, p ∉ m.destinations s → p.Same s s') ∧
      (m.transfers s.cpu = false →
        s'.cpu.regs.pc = s.cpu.regs.pc + UInt16.ofNat m.length) := by
  intro m
  obtain rfl : s' = (s.carryOut m).elapse t := executeOne_eq_carryOut hplain h
  obtain ⟨hkeeps, hplaces⟩ := (s.confined_carryOut m).trans (confined_elapse t)
  exact ⟨hkeeps.get_eq, fun hnone ↦ congrArg Flags.byte (hkeeps.eq_of_nil hnone), hplaces,
    fun htransfers ↦ s.pc_carryOut htransfers⟩

/-- A push at the last address of memory, with the stack so low that the word that is pushed is
stored at both ends of memory, over the push itself. -/
def pushOverItself : Board Memory where
  cpu := { Cpu.powerOn .fatal with regs := { Cpu.initialRegisters with sp := 1, pc := 0xFFFF } }
  bus := (Memory.fill 0x55).set 0xFFFF 0xC5

theorem instruction_frame_of_pushOverItself :
    pushOverItself.executeOne.1 = .ok 16 ∧
      pushOverItself.executeOne.2.cpu.regs.f = pushOverItself.cpu.regs.f ∧
      pushOverItself.executeOne.2.bus.get 0x0001 = pushOverItself.bus.get 0x0001 ∧
      pushOverItself.executeOne.2.cpu.regs.pc = 0x0000 := by
  have hone : pushOverItself.executeOne = (.ok 16, pushOverItself.executeOne.2) := rfl
  obtain ⟨-, hf, hplaces, hpc⟩ := instruction_frame (by decide) hone
  exact ⟨rfl, hf rfl, hplaces (.cell 0x0001) (by decide), hpc rfl⟩

end Board

end GameBoy
