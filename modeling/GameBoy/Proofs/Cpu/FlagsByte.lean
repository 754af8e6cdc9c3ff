import GameBoy.Proofs.Cpu.Flags
import GameBoy.Proofs.Cpu.Timing

/-!
# The lower half of the flags byte

Nothing in the type of the register F says that the lower half of its byte is zero. It is zero when
a CPU comes to be, and everything that is done to a CPU leaves it zero: this module goes through the
instructions of both tables (`Board.clean_execute`, `Board.clean_executeBit`), through the stages of
a step, and through the other ways in which a CPU is used, which `Cpu.Use` lists (`Cpu.clean_use`).
One instruction that wrote the byte in another way, or one access that assigned a byte as it is,
would be the end of it. So nothing that is done leaves anything there, one use after the other
(`Cpu.clean_foldl_use`).

Steps may be made on different ports, and a step that ends with a fault is followed by others like
any step. What PUSH AF stores is read off the accesses that it makes.
-/

namespace GameBoy

/-! ### The operations of the CPU -/

namespace Alu

/-- Every operation of the accumulator clears F before it sets any flag. -/
theorem clean_apply (op : AluOp) (a v : UInt8) (fs : Flags) : (apply op a v fs).2.Clean := by
  cases op <;> exact Flags.clean_of ..

end Alu

namespace Board

variable {M : Type} [Port M] {s : Board M}

/-! ### Instructions -/

/-- An operation on an operand does to F what it says. -/
theorem clean_modify {f : UInt8 → Flags → UInt8 × Flags}
    (hf : ∀ v fs, fs.Clean → (f v fs).2.Clean) (dst : Operand) (h : s.cpu.regs.flags.Clean) :
    (s.modify dst f).cpu.regs.flags.Clean := by
  simp only [modify]
  rw [flags_writeOperand]
  refine hf _ _ ?_
  rwa [cpu_readOperand]

/-- **No instruction of the primary table leaves anything in the lower half of F.** -/
theorem clean_execute (h : s.cpu.regs.flags.Clean) (i : Instruction) :
    (s.execute i).2.cpu.regs.flags.Clean := by
  cases i with
  | nop | stop | halt | di | ei => exact h
  | storeADirect | loadADirect | storeAHigh | loadAHigh | storeAHighC | loadAHighC => exact h
  | storeSP | loadSP | jumpHL | ret | reti | rst | push => exact h
  | load dst src =>
    simp only [execute]
    rwa [flags_writeOperand, cpu_readOperand]
  | loadImmediate dst =>
    simp only [execute]
    rwa [flags_writeOperand]
  | loadPair dst | incPair dst | decPair dst =>
    simp only [execute]
    rwa [flags_setPair]
  | storeA p | loadA p =>
    have hfollowed : (s.follow p).2.cpu.regs.flags.Clean := by
      rwa [flags_follow]
    exact hfollowed
  | loadHLOffset | addSP | rotateA => exact Flags.clean_of ..
  | inc dst => exact clean_modify (fun v fs ↦ (Alu.sets_inc v fs).clean) dst h
  | dec dst => exact clean_modify (fun v fs ↦ (Alu.sets_dec v fs).clean) dst h
  | addHL src => exact (Alu.sets_addWords ..).clean h
  | alu | aluImmediate => exact Alu.clean_apply ..
  | daa => exact (Alu.sets_decimalAdjust ..).clean h
  | cpl => exact (Alu.sets_complement _).clean h
  | scf | ccf => exact (Alu.sets_carry ..).clean h
  | jumpRelative guard =>
    simp only [execute]
    rwa [flags_jumpRelative]
  | jump guard =>
    simp only [execute]
    rwa [flags_jump]
  | call guard =>
    simp only [execute]
    rwa [flags_call]
  | retIf guard =>
    simp only [execute]
    split <;> exact h
  | pop dst =>
    cases dst with
    -- The byte comes from memory and may be any byte.
    | af => exact Flags.clean_ofByte _
    | bc | de | hl => exact h

/-- **Nor does an instruction behind 0xCB.** -/
theorem clean_executeBit (h : s.cpu.regs.flags.Clean) (i : BitInstruction) :
    (s.executeBit i).2.cpu.regs.flags.Clean := by
  cases i with
  | shift op dst => exact clean_modify (fun _ _ _ ↦ Flags.clean_of ..) dst h
  | bit i src =>
    have hread : (s.readOperand src).2.cpu.regs.flags.Clean := by
      rwa [cpu_readOperand]
    exact (Alu.sets_testBit ..).clean hread
  | res i dst | set i dst => exact clean_modify (fun _ _ hfs ↦ hfs) dst h

theorem clean_meetHole (h : s.cpu.regs.flags.Clean) (owed : Nat) (opcode : UInt8) (pc : UInt16) :
    (s.meetHole owed opcode pc).2.cpu.regs.flags.Clean := by
  unfold meetHole
  split <;> exact h

theorem clean_executeOpcode (h : s.cpu.regs.flags.Clean) (owed : Nat) (opcode : UInt8)
    (pc : UInt16) : (s.executeOpcode owed opcode pc).2.cpu.regs.flags.Clean := by
  unfold executeOpcode
  split
  · exact clean_execute h _
  · have hfetched : s.fetch.2.cpu.regs.flags.Clean := h
    exact clean_executeBit hfetched _
  · exact clean_meetHole h ..
  · exact clean_meetHole h ..

/-- Fetching an opcode moves the program counter and nothing else of the CPU. -/
theorem cpu_fetchOpcode (s : Board M) :
    ∃ pc, s.fetchOpcode.2.cpu = { s.cpu with regs := { s.cpu.regs with pc } } := by
  simp only [fetchOpcode]
  split
  · exact ⟨s.cpu.regs.pc + 1 + 1, rfl⟩
  · exact ⟨s.cpu.regs.pc + 1, rfl⟩

/-- **Whatever stands at the program counter**, and whether it is executed or met as a fault. -/
theorem clean_executeOne (h : s.cpu.regs.flags.Clean) :
    s.executeOne.2.cpu.regs.flags.Clean := by
  obtain ⟨pc, hcpu⟩ := cpu_fetchOpcode s
  rw [executeOne_eq]
  refine clean_executeOpcode ?_ ..
  rwa [hcpu]

/-! ### Steps -/

theorem flags_attend (pending : InterruptSet) :
    (s.attend pending).2.cpu.regs.flags = s.cpu.regs.flags := by
  simp only [attend]
  split
  · rfl
  · split
    · rfl
    · split <;> split <;> rfl

/-- Looking at the interrupts leaves the flags alone, also when control passes to a handler. -/
theorem flags_serviceInterrupts : s.serviceInterrupts.2.cpu.regs.flags = s.cpu.regs.flags := by
  simp only [serviceInterrupts]
  split
  · split
    · exact flags_attend _
    · rfl
  · exact flags_attend _

theorem flags_applyDueIme : s.applyDueIme.cpu.regs.flags = s.cpu.regs.flags := by
  unfold applyDueIme
  split <;> rfl

/-- **A step leaves nothing in the lower half of F**, and neither does one that ends with a fault. -/
theorem clean_step (h : s.cpu.regs.flags.Clean) : s.step.2.cpu.regs.flags.Clean := by
  have hserved : s.serviceInterrupts.2.cpu.regs.flags.Clean := by
    rwa [flags_serviceInterrupts]
  have hrun : s.serviceInterrupts.2.executeOrSleep.2.cpu.regs.flags.Clean := by
    unfold executeOrSleep
    split
    · exact clean_executeOne hserved
    · exact hserved
  rw [step_eq_finish, finish]
  rcases hresult : s.serviceInterrupts.2.executeOrSleep with ⟨_ | t, s'⟩
  · rwa [hresult] at hrun
  · rw [hresult] at hrun
    have happlied : s'.applyDueIme.cpu.regs.flags.Clean := by
      rwa [flags_applyDueIme]
    cases s.serviceInterrupts.1 <;> exact happlied

end Board

/-! ### Uses of a CPU -/

namespace Cpu

/-- A use that is made of a CPU. -/
inductive Use : Type 1 where
  /-- A step on a port. -/
  | step {M : Type} [Port M] (bus : M)
  /-- One instruction on a port. -/
  | executeOne {M : Type} [Port M] (bus : M)
  /-- The flags are written as a byte. -/
  | setF (v : UInt8)
  /-- The accumulator and the flags are written as a word. -/
  | setAF (w : UInt16)
  /-- One flag is set or cleared. -/
  | setFlag (f : Flag) (v : Bool)
  /-- All flags are cleared. -/
  | clearFlags
  /-- Anything else is set, in one of the registers or beside them, to what another CPU has. -/
  | setOthers (other : Cpu)
  /-- The CPU is reset. -/
  | reset

/-- The CPU after a use. -/
def use (cpu : Cpu) : Use → Cpu
  | @Use.step _ _ bus => (Board.step ⟨cpu, bus⟩).2.cpu
  | @Use.executeOne _ _ bus => (Board.executeOne ⟨cpu, bus⟩).2.cpu
  | .setF v => { cpu with regs := cpu.regs.setF v }
  | .setAF w => { cpu with regs := cpu.regs.setAF w }
  | .setFlag f v => cpu.setFlag f v
  | .clearFlags => cpu.clearFlags
  | .setOthers other => { other with regs := { other.regs with flags := cpu.regs.flags } }
  | .reset => cpu.reset

/-- What a use makes of the flags byte `before`, unless it executes instructions. -/
def Use.flagsByte (before : UInt8) : Use → Option UInt8
  | @Use.step .. | @Use.executeOne .. => none
  | .setF v => some (v &&& 0xF0)
  | .setAF w => some (lowByte w &&& 0xF0)
  | .setFlag f v => some (if v then before ||| f.mask else before &&& ~~~f.mask)
  | .clearFlags => some 0
  | .setOthers _ => some before
  | .reset => some 0xB0

/-- **The flags byte after a use.** -/
theorem f_use {cpu : Cpu} {use : Use} {after : UInt8} (h : use.flagsByte cpu.regs.f = some after) :
    (cpu.use use).regs.f = after := by
  cases use with
  | step | executeOne => cases h
  | setF | setAF | setFlag | clearFlags | setOthers | reset => exact Option.some.inj h

/-- **No use leaves anything in the lower half of F.** -/
theorem clean_use {cpu : Cpu} (h : cpu.regs.flags.Clean) (use : Use) :
    (cpu.use use).regs.flags.Clean := by
  cases use with
  | step bus => exact Board.clean_step (s := ⟨cpu, bus⟩) h
  | executeOne bus => exact Board.clean_executeOne (s := ⟨cpu, bus⟩) h
  | setF | setAF | clearFlags | reset => exact Flags.clean_ofByte _
  | setFlag f v => exact h.set f v
  | setOthers => exact h

/-! ### The life of a CPU -/

/-- How a CPU comes to be. -/
inductive Origin where
  /-- With zero in all registers. -/
  | blank (policy : IllegalOpcodePolicy)
  /-- As a program finds it when it begins. -/
  | powerOn (policy : IllegalOpcodePolicy)

/-- A CPU that has not been used. -/
def Origin.cpu : Origin → Cpu
  | blank policy => { policy }
  | powerOn policy => .powerOn policy

theorem Origin.clean_cpu (origin : Origin) : origin.cpu.regs.flags.Clean := by
  cases origin with
  | blank => exact UInt8.zero_and
  | powerOn => exact Flags.clean_ofByte 0xB0

/-- The CPU after some uses, one after the other. -/
def Origin.after (origin : Origin) (uses : List Use) : Cpu := uses.foldl use origin.cpu

/-- **Whatever is done to a CPU, one use after the other**, leaves nothing there. -/
theorem clean_foldl_use (uses : List Use) {cpu : Cpu} (h : cpu.regs.flags.Clean) :
    (uses.foldl use cpu).regs.flags.Clean := by
  induction uses generalizing cpu with
  | nil => exact h
  | cons first rest ih => exact ih (clean_use h first)

theorem Origin.clean_after (origin : Origin) (uses : List Use) :
    (origin.after uses).regs.flags.Clean :=
  clean_foldl_use uses origin.clean_cpu

end Cpu

/-! ### The stack -/

namespace Board

variable {M : Type} [Port M]

/-- A word is pushed by two writes, the high byte first. -/
theorem accesses_pushWord (s : Board (Traced M)) (w : UInt16) :
    (s.pushWord w).bus.accesses = s.bus.accesses ++
      [.write (s.cpu.regs.sp - 1) (highByte w), .write (s.cpu.regs.sp - 2) (lowByte w)] := by
  have hlow : s.cpu.regs.sp - 1 - 1 = s.cpu.regs.sp - 2 := by grind
  have hwrites : (s.pushWord w).bus.accesses = (s.bus.accesses ++
      [.write (s.cpu.regs.sp - 1) (highByte w)]) ++
      [.write (s.cpu.regs.sp - 1 - 1) (lowByte w)] := by
    rw [← Traced.accesses_write, ← Traced.accesses_write]
    rfl
  rw [hwrites, hlow, List.append_assoc]
  rfl

/-- What follows the instruction of a step touches no memory. -/
theorem accesses_finish (s : Board (Traced M)) (attention : Attention) (start : Cpu) :
    (s.finish attention start).2.bus.accesses = s.executeOrSleep.2.bus.accesses := by
  simp only [finish]
  rcases s.executeOrSleep with ⟨_ | t, s'⟩
  · rfl
  · simp only [applyDueIme]
    cases attention <;> split <;> rfl

/-- The accesses of a step that comes to an opcode are those made about the interrupts and those of
executing. -/
theorem accesses_step_of_running {s : Board M} (h : s.serviceInterrupts.2.cpu.power = .running) :
    s.traced.step.2.bus.accesses =
      s.traced.serviceInterrupts.2.bus.accesses ++
        s.serviceInterrupts.2.traced.executeOne.2.bus.accesses := by
  have hone : s.serviceInterrupts.2.traced.executeOrSleep =
      s.serviceInterrupts.2.traced.executeOne := if_pos h
  rw [accesses_step, accesses_finish, hone]

variable (s : Board M)

/-- **PUSH AF stores the accumulator and, below it, the flags byte.** -/
theorem accesses_executeOne_pushAF
    (h : s.fetchOpcode.1.decoded = .instruction (.push .af)) :
    s.traced.executeOne.2.bus.accesses = s.traced.fetchOpcode.2.bus.accesses ++
      [.write (s.cpu.regs.sp - 1) s.cpu.regs.a, .write (s.cpu.regs.sp - 2) s.cpu.regs.f] := by
  obtain ⟨pc, hcpu⟩ := cpu_fetchOpcode s.traced
  have hdecoded : Opcode.decode s.traced.fetchOpcode.1.opcode = .instruction (.push .af) := by
    rw [fetchOpcode_traced]
    exact h
  rw [executeOne_eq, executeOpcode_instruction _ hdecoded]
  refine (accesses_pushWord _ _).trans ?_
  rw [stackPair, hcpu, Registers.af, highByte_word, lowByte_word]
  rfl

/-- The same, when PUSH AF is what a step comes to. -/
theorem accesses_step_pushAF
    (h : s.upcoming.map Fetched.decoded = some (.instruction (.push .af))) :
    let s₁ := s.serviceInterrupts.2
    let r := s₁.cpu.regs
    s.traced.step.2.bus.accesses =
      s.traced.serviceInterrupts.2.bus.accesses ++ (s₁.traced.fetchOpcode.2.bus.accesses ++
        [.write (r.sp - 1) r.a, .write (r.sp - 2) r.f]) := by
  intro s₁ r
  obtain ⟨f, hf, hdecoded⟩ := Option.map_eq_some_iff.mp h
  have hawake : s₁.cpu.power = .running := s.upcoming_isSome_iff.mp (by rw [hf]; rfl)
  obtain rfl : s₁.fetchOpcode.1 = f := by
    rw [upcoming, next?, if_pos hawake] at hf
    exact Option.some.inj hf
  rw [accesses_step_of_running hawake, accesses_executeOne_pushAF s₁ hdecoded]

/-- **POP AF cuts the byte that becomes the flags.** -/
theorem regs_executeOne_popAF (h : s.fetchOpcode.1.decoded = .instruction (.pop .af)) :
    let w := s.fetchOpcode.2.popWord.1
    s.executeOne.2.cpu.regs.a = highByte w ∧ s.executeOne.2.cpu.regs.f = lowByte w &&& 0xF0 := by
  intro w
  rw [executeOne_eq, executeOpcode_instruction _ h]
  exact ⟨rfl, rfl⟩

end Board

namespace Cpu

/-- **The lower half of the flags byte.** However a CPU has been used since it came to be, on
whatever ports: the lower half of F is zero, AF is A and F, and each flag is its bit of F. A use
that writes F leaves there the byte that it should (`Use.flagsByte`), and POP AF leaves the upper
half of the byte it reads. PUSH AF, executed by itself or in a step, stores A and below it F, of
which the lower half is zero. -/
theorem flags_byte_low_half {M : Type} [Port M] (origin : Origin) (uses : List Use) (bus : M) :
    let cpu := origin.after uses
    let s : Board M := ⟨cpu, bus⟩
    (cpu.regs.f &&& 0x0F = 0 ∧
        cpu.regs.af.toNat = 256 * cpu.regs.a.toNat + cpu.regs.f.toNat ∧
        ∀ f, cpu.regs.flags.get f = (cpu.regs.f &&& f.mask != 0)) ∧
      (∀ use : Use, ∀ after ∈ use.flagsByte cpu.regs.f, (cpu.use use).regs.f = after) ∧
      (s.fetchOpcode.1.decoded = .instruction (.pop .af) →
        let w := s.fetchOpcode.2.popWord.1
        s.executeOne.2.cpu.regs.a = highByte w ∧
          s.executeOne.2.cpu.regs.f = lowByte w &&& 0xF0) ∧
      (s.fetchOpcode.1.decoded = .instruction (.push .af) →
        s.traced.executeOne.2.bus.accesses = s.traced.fetchOpcode.2.bus.accesses ++
          [.write (cpu.regs.sp - 1) cpu.regs.a, .write (cpu.regs.sp - 2) cpu.regs.f]) ∧
      (s.upcoming.map Fetched.decoded = some (.instruction (.push .af)) →
        let s₁ := s.serviceInterrupts.2
        let r := s₁.cpu.regs
        r.f &&& 0x0F = 0 ∧
          s.traced.step.2.bus.accesses = s.traced.serviceInterrupts.2.bus.accesses ++
            (s₁.traced.fetchOpcode.2.bus.accesses ++
              [.write (r.sp - 1) r.a, .write (r.sp - 2) r.f])) := by
  intro cpu s
  refine ⟨⟨?_, ?_, ?_⟩, ?_, s.regs_executeOne_popAF, s.accesses_executeOne_pushAF, fun hpush ↦ ?_⟩
  · exact origin.clean_after uses
  · exact toNat_word cpu.regs.a cpu.regs.f
  · exact fun f ↦ rfl
  · intro use after hafter
    exact f_use hafter
  · have hserved : s.serviceInterrupts.2.cpu.regs.flags.Clean := by
      rw [Board.flags_serviceInterrupts]
      exact origin.clean_after uses
    exact ⟨hserved, s.accesses_step_pushAF hpush⟩

/-- PUSH AF at address 0. -/
def pushing : Memory := (Memory.fill 0).set 0 0xF5

/-- POP AF at address 0, and 0x5A behind it. -/
def popping : Memory := ((Memory.fill 0).set 0 0xF1).set 1 0x5A

/-- A blank CPU with a word in AF. -/
def filled : Cpu := (Origin.blank .ignore).after [.setAF 0x12FF]

theorem flags_byte_low_half_of_filled :
    filled.regs.af = 0x12F0 ∧ (filled.use (.setFlag .z false)).regs.f = 0x70 ∧
      (Board.mk filled popping).executeOne.2.cpu.regs.f = 0xF0 ∧
      (Board.mk filled pushing).traced.executeOne.2.bus.accesses =
        [.read 0 0xF5, .write 0xFFFF 0x12, .write 0xFFFE 0xF0] ∧
      (Board.mk filled pushing).traced.step.2.bus.accesses =
        [.read requestAddress 0, .read 0 0xF5, .write 0xFFFF 0x12, .write 0xFFFE 0xF0] := by
  obtain ⟨-, huse, hpop, -, -⟩ := flags_byte_low_half (.blank .ignore) [.setAF 0x12FF] popping
  obtain ⟨-, -, -, hpush, hstep⟩ := flags_byte_low_half (.blank .ignore) [.setAF 0x12FF] pushing
  have hfetch : (Board.mk filled pushing).upcoming.map Fetched.decoded =
      some (.instruction (.push .af)) := rfl
  refine ⟨by decide, huse (.setFlag .z false) 0x70 rfl, (hpop rfl).2.trans ?_, (hpush rfl).trans ?_,
    (hstep hfetch).2.trans ?_⟩
  · decide
  · decide
  · decide

end Cpu

end GameBoy
