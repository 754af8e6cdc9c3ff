import GameBoy.Proofs.Cpu.ImeQueue
import GameBoy.Proofs.Cpu.Stages
import GameBoy.Proofs.Interrupt
import GameBoy.Proofs.Machine.Session

/-!
# One instruction at a time

A program is followed step by step if each step is known to do one instruction. For that, two things
have to be known when it begins: what looking at the interrupts leads to, and which opcode comes
then.

On the bus, looking at the interrupts has no side effects of its own. It leads nowhere if nothing
that is enabled is pending (`Board.serviceInterrupts_of_quiet`), and to the handler of the one
source that is (`Board.serviceInterrupts_of_only`). From there the instruction is performed
(`Board.perform`), a deferred change of the master enable may be applied, and the devices catch up:
`Machine.step_of_instruction`.
-/

namespace GameBoy

namespace InterruptSet

theorem highest?_eq_none {s : InterruptSet} (h : ∀ i, i ∉ s) : s.highest? = none :=
  highest?_eq_none_iff.mpr (toByte_eq_zero_iff.mpr h)

theorem highest?_singleton (i : Interrupt) : highest? {i} = some i := by
  cases i <;> rfl

end InterruptSet

namespace Board

variable (s : Board Bus)

/-! ### Looking at the interrupts -/

/-- The request register shows what is pending. -/
theorem ofByte_read_request :
    InterruptSet.ofByte (s.bus.read requestAddress) = s.bus.requests :=
  InterruptSet.ofByte_toByte_or s.bus.requests

theorem serviceInterrupts_of_ne_stopped (hpower : s.cpu.power ≠ .stopped) :
    s.serviceInterrupts = s.attend s.bus.requests := by
  have hread : s.read requestAddress = (s.bus.read requestAddress, s) := rfl
  simp only [serviceInterrupts, hread, if_neg hpower, ofByte_read_request]

/-- **Nothing that is enabled is pending**, so nothing happens. -/
theorem serviceInterrupts_of_quiet (hpower : s.cpu.power ≠ .stopped)
    (hquiet : ∀ i ∈ InterruptSet.ofByte s.bus.enabled, i ∉ s.bus.requests) :
    s.serviceInterrupts = (.idle, s) := by
  have hnone : s.urgent? s.bus.requests = none := by
    refine InterruptSet.highest?_eq_none fun i hi ↦ ?_
    obtain ⟨henabled, hpending⟩ := InterruptSet.mem_inter.mp hi
    exact hquiet i henabled hpending
  rw [serviceInterrupts_of_ne_stopped s hpower]
  by_cases hlook : s.cpu.ime = true ∨ s.cpu.power = .halted
  · exact attend_of_none s _ hlook hnone
  · obtain ⟨hime, hhalted⟩ := not_or.mp hlook
    exact attend_of_unheeded s _ (by simpa using hime) hhalted

/-- In STOP nothing but a request of the joypad is looked for. -/
theorem serviceInterrupts_of_stopped (hpower : s.cpu.power = .stopped)
    (hquiet : .joypad ∉ s.bus.requests) : s.serviceInterrupts = (.idle, s) := by
  have hread : s.read requestAddress = (s.bus.read requestAddress, s) := rfl
  simp only [serviceInterrupts, hread, if_pos hpower, ofByte_read_request, if_neg hquiet]

/-- **The only source that is enabled is pending**, so a CPU in HALT goes to its handler. -/
theorem serviceInterrupts_of_only {source : Interrupt} (hpower : s.cpu.power = .halted)
    (hime : s.cpu.ime = true) (henabled : InterruptSet.ofByte s.bus.enabled = {source})
    (hpending : source ∈ s.bus.requests) :
    s.serviceInterrupts =
      (.dispatched source, (s.setPower .running).dispatch source s.bus.requests {source}) := by
  have hurgent : s.urgent? s.bus.requests = some source := by
    have honly : InterruptSet.ofByte s.bus.enabled ∩ s.bus.requests = {source} := by
      apply InterruptSet.ext
      simp only [henabled, InterruptSet.mem_inter, InterruptSet.mem_singleton]
      rintro i
      exact ⟨fun h ↦ h.1, fun h ↦ ⟨h, h ▸ hpending⟩⟩
    show (InterruptSet.ofByte s.bus.enabled ∩ s.bus.requests).highest? = some source
    rw [honly, InterruptSet.highest?_singleton]
  have hstopped : s.cpu.power ≠ .stopped := by
    rw [hpower]
    decide
  have hawake : (s.read enableAddress).2.endHalt = s.setPower .running := if_pos hpower
  have hbyte : InterruptSet.ofByte (s.read enableAddress).1 = {source} := henabled
  rw [serviceInterrupts_of_ne_stopped s hstopped, attend_of_dispatched s _ hime hurgent, hawake,
    hbyte]

/-- What going to a handler does: the request is taken back, and the return address is pushed. -/
theorem dispatch_bus (source : Interrupt) (pending enabled : InterruptSet) :
    s.dispatch source pending enabled =
      { cpu := { s.cpu with
          regs := { s.cpu.regs with sp := s.cpu.regs.sp - 1 - 1, pc := source.vector }
          ime := false
          clock := s.cpu.clock + dispatchTicks }
        bus := ((s.bus.write requestAddress (pending.erase source).toByte).write
          (s.cpu.regs.sp - 1) (highByte s.cpu.regs.pc)).write
            (s.cpu.regs.sp - 1 - 1) (lowByte s.cpu.regs.pc) } := by
  simp only [dispatch]
  rfl

/-! ### Performing an instruction -/

/-- The board once the instruction at the program counter, whose opcode means `i`, has been executed
and charged. -/
def perform (i : Instruction) : Board Bus :=
  let r := (s.setPC (s.cpu.regs.pc + 1)).execute i
  r.2.elapse r.1

theorem executeOrSleep_of_instruction {i : Instruction} (hpower : s.cpu.power = .running)
    (hopcode : Opcode.decode (s.bus.read s.cpu.regs.pc) = .instruction i) :
    ∃ cost, s.executeOrSleep = (.ok cost, s.perform i) := by
  rw [executeOrSleep, if_pos hpower, executeOne_of_instruction s hopcode]
  exact ⟨_, rfl⟩

theorem fetchWord_bus :
    s.fetchWord =
      (word (s.bus.read (s.cpu.regs.pc + 1)) (s.bus.read s.cpu.regs.pc),
        s.setPC (s.cpu.regs.pc + 1 + 1)) := rfl

/-- A word is loaded into HL. -/
theorem perform_loadHL :
    s.perform (.loadPair .hl) =
      { cpu := { s.cpu with
          regs := { s.cpu.regs.setHL (word (s.bus.read (s.cpu.regs.pc + 1 + 1))
              (s.bus.read (s.cpu.regs.pc + 1))) with
            pc := s.cpu.regs.pc + 1 + 1 + 1 }
          clock := s.cpu.clock + 12 }
        bus := s.bus } := by
  simp only [perform, execute, fetchWord_bus]
  rfl

/-- A byte is loaded into the accumulator. -/
theorem perform_loadA :
    s.perform (.loadImmediate .a) =
      { cpu := { s.cpu with
          regs := { s.cpu.regs with
            a := s.bus.read (s.cpu.regs.pc + 1), pc := s.cpu.regs.pc + 1 + 1 }
          clock := s.cpu.clock + 8 }
        bus := s.bus } := by
  simp only [perform, execute]
  rfl

/-- A byte is loaded into register C. -/
theorem perform_loadC :
    s.perform (.loadImmediate .c) =
      { cpu := { s.cpu with
          regs := { s.cpu.regs with
            c := s.bus.read (s.cpu.regs.pc + 1), pc := s.cpu.regs.pc + 1 + 1 }
          clock := s.cpu.clock + 8 }
        bus := s.bus } := by
  simp only [perform, execute]
  rfl

/-- The accumulator is stored in the high page. -/
theorem perform_storeHigh :
    s.perform .storeAHigh =
      { cpu := { s.cpu with
          regs := { s.cpu.regs with pc := s.cpu.regs.pc + 1 + 1 }
          clock := s.cpu.clock + 12 }
        bus := s.bus.write (highPage (s.bus.read (s.cpu.regs.pc + 1))) s.cpu.regs.a } := by
  simp only [perform, execute]
  rfl

/-- A jump that is always made. -/
theorem perform_jump :
    s.perform (.jumpRelative none) =
      { cpu := { s.cpu with
          regs := { s.cpu.regs with
            pc := s.cpu.regs.pc + 1 + 1 + signExtend (s.bus.read (s.cpu.regs.pc + 1)) }
          clock := s.cpu.clock + 12 }
        bus := s.bus } := by
  simp only [perform, execute]
  rfl

/-- The accumulator is combined with itself. -/
theorem perform_alu (op : AluOp) :
    s.perform (.alu op .a) =
      { cpu := { s.cpu with
          regs := { s.cpu.regs with
            a := (Alu.apply op s.cpu.regs.a s.cpu.regs.a s.cpu.regs.flags).1
            flags := (Alu.apply op s.cpu.regs.a s.cpu.regs.a s.cpu.regs.flags).2
            pc := s.cpu.regs.pc + 1 }
          clock := s.cpu.clock + 4 }
        bus := s.bus } := by
  simp only [perform, execute]
  rfl

/-- Register C is incremented. -/
theorem perform_incC :
    s.perform (.inc .c) =
      { cpu := { s.cpu with
          regs := { s.cpu.regs with
            c := s.cpu.regs.c + 1
            flags := (Alu.inc s.cpu.regs.c s.cpu.regs.flags).2
            pc := s.cpu.regs.pc + 1 }
          clock := s.cpu.clock + 4 }
        bus := s.bus } := by
  simp only [perform, execute]
  rfl

/-- A jump that is made if the zero flag is set. -/
theorem perform_jumpIfZero :
    s.perform (.jumpRelative (some .z)) =
      if s.cpu.regs.flags.z = true then
        { cpu := { s.cpu with
            regs := { s.cpu.regs with
              pc := s.cpu.regs.pc + 1 + 1 + signExtend (s.bus.read (s.cpu.regs.pc + 1)) }
            clock := s.cpu.clock + 12 }
          bus := s.bus }
      else
        { cpu := { s.cpu with
            regs := { s.cpu.regs with pc := s.cpu.regs.pc + 1 + 1 }
            clock := s.cpu.clock + 8 }
          bus := s.bus } := by
  have hpermits : (s.setPC (s.cpu.regs.pc + 1)).cpu.permits (some .z) = s.cpu.regs.flags.z := rfl
  simp only [perform, execute, hpermits]
  cases s.cpu.regs.flags.z <;> rfl

/-- The accumulator is loaded from where HL points, and HL moves on. -/
theorem perform_loadNext :
    s.perform (.loadA .hlUp) =
      { cpu := { s.cpu with
          regs := { s.cpu.regs.setHL (s.cpu.regs.hl + 1) with
            a := s.bus.read s.cpu.regs.hl, pc := s.cpu.regs.pc + 1 }
          clock := s.cpu.clock + 8 }
        bus := s.bus } := by
  simp only [perform, execute]
  rfl

/-- A handler returns, and interrupts are enabled. -/
theorem perform_reti :
    s.perform .reti =
      { cpu := { s.cpu with
          regs := { s.cpu.regs with
            sp := s.cpu.regs.sp + 2
            pc := word (s.bus.read (s.cpu.regs.sp + 1)) (s.bus.read s.cpu.regs.sp) }
          ime := true
          clock := s.cpu.clock + 16 }
        bus := s.bus } := by
  simp only [perform, execute]
  rfl

end Board

namespace Machine

/-- The machine at the end of a step: a deferred change is applied, and the devices catch up. -/
def settle (s : Board Bus) : Machine where
  cpu := s.applyDueIme.cpu
  bus := s.bus.catchUp s.cpu.clock

/-- After an instruction the devices catch up, and nothing else happens if nothing is deferred. -/
theorem settle_of_nil {s : Board Bus} (h : s.cpu.imeQueue.toList = []) :
    settle s = { s with bus := s.bus.catchUp s.cpu.clock } := by
  simp only [settle, Board.applyDueIme, ImeQueue.popDue_of_nil h]

/-- Nor if the oldest request is not due yet. -/
theorem settle_of_le {s : Board Bus} {oldest : ImeChange} {rest : List ImeChange}
    (h : s.cpu.imeQueue.toList = oldest :: rest) (hdue : s.cpu.clock ≤ oldest.due) :
    settle s = { s with bus := s.bus.catchUp s.cpu.clock } := by
  simp only [settle, Board.applyDueIme, ImeQueue.popDue_of_le h hdue]

/-- A request that is due is applied. -/
theorem settle_of_lt {s : Board Bus} {oldest : ImeChange} {rest : List ImeChange}
    (h : s.cpu.imeQueue.toList = oldest :: rest) (hdue : oldest.due < s.cpu.clock) :
    settle s =
      { cpu := { s.cpu with ime := oldest.enable, imeQueue := s.cpu.imeQueue.drop }
        bus := s.bus.catchUp s.cpu.clock } := by
  simp only [settle, Board.applyDueIme, ImeQueue.popDue_of_lt h hdue]
  rfl

theorem step_of_executeOrSleep {m : Machine} {s s' : Board Bus} {attention : Board.Attention}
    {cost : Nat} (hserved : Board.serviceInterrupts m = (attention, s))
    (hstays : ∀ source, attention ≠ .haltEnded source)
    (hrun : s.executeOrSleep = (.ok cost, s')) :
    step m = (.ok (s'.cpu.clock - m.cpu.clock), settle s') := by
  have hback : s'.applyDueIme.rollBack attention m.cpu.regs.pc = s'.applyDueIme := by
    cases attention with
    | haltEnded source => exact absurd rfl (hstays source)
    | idle | dispatched => rfl
  have hclock := s'.clock_applyDueIme
  have hbus : s'.applyDueIme.bus = s'.bus := by
    simp only [Board.applyDueIme]
    split <;> rfl
  have hstep : Board.step m =
      (.ok (s'.applyDueIme.cpu.clock - m.cpu.clock), s'.applyDueIme) := by
    simp only [Board.step, hserved, hrun, hback]
  simp only [step, hstep, settle, hclock, hbus]

/-- **A step that performs an instruction**, once the interrupts have been looked at. -/
theorem step_of_instruction {m : Machine} {s : Board Bus} {attention : Board.Attention}
    {i : Instruction} (hserved : Board.serviceInterrupts m = (attention, s))
    (hstays : ∀ source, attention ≠ .haltEnded source) (hpower : s.cpu.power = .running)
    (hopcode : Opcode.decode (s.bus.read s.cpu.regs.pc) = .instruction i) :
    ∃ t, step m = (.ok t, settle (s.perform i)) := by
  obtain ⟨cost, hrun⟩ := s.executeOrSleep_of_instruction hpower hopcode
  exact ⟨_, step_of_executeOrSleep hserved hstays hrun⟩

/-- **A step asleep** takes four ticks, when looking at the interrupts leads nowhere. -/
theorem step_asleep {m : Machine} (hasleep : m.cpu.power ≠ .running)
    (hserved : Board.serviceInterrupts m = (.idle, m)) :
    step m = (.ok Board.idleTicks, settle (Board.elapse m Board.idleTicks)) := by
  have hrun : Board.executeOrSleep m = (.ok Board.idleTicks, Board.elapse m Board.idleTicks) := by
    rw [Board.executeOrSleep, if_neg hasleep]
    rfl
  have hclock : (Board.elapse m Board.idleTicks).cpu.clock - m.cpu.clock = Board.idleTicks :=
    Nat.add_sub_cancel_left ..
  rw [step_of_executeOrSleep hserved (fun _ ↦ by simp) hrun, hclock]

/-- A machine in HALT sleeps while no source is both enabled and requested. -/
theorem step_of_halted {m : Machine} (hpower : m.cpu.power = .halted)
    (hquiet : ∀ i ∈ InterruptSet.ofByte m.bus.enabled, i ∉ m.bus.requests) :
    step m = (.ok Board.idleTicks, settle (Board.elapse m Board.idleTicks)) := by
  refine step_asleep ?_ (Board.serviceInterrupts_of_quiet m ?_ hquiet) <;>
  · rw [hpower]
    decide

/-- A machine in STOP sleeps while no button is requested. -/
theorem step_of_stopped {m : Machine} (hpower : m.cpu.power = .stopped)
    (hquiet : .joypad ∉ m.bus.requests) :
    step m = (.ok Board.idleTicks, settle (Board.elapse m Board.idleTicks)) := by
  refine step_asleep ?_ (Board.serviceInterrupts_of_stopped m hpower hquiet)
  rw [hpower]
  decide

end Machine

end GameBoy
