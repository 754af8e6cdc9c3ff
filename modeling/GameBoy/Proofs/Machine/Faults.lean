import GameBoy.Proofs.Bus.Time
import GameBoy.Proofs.Cpu.Faults
import GameBoy.Proofs.Machine.Session

/-!
# The machine after a fault

A fault leaves a step in the middle. The interrupts have been looked at by then: the CPU may have
been woken, and a handler may have been called, which has taken its ticks and its place on the
stack. What an instruction would have changed is unchanged, the devices have not moved, and the
program counter stands on the byte that is at fault.

`step_fault` says when that happens and what is left. The step may be repeated: at a byte that means
nothing wherever it stands, it comes to the same fault and changes nothing any more. Only the fault
of a second 0xFD is different, because the repeated step takes it for a first one.
-/

namespace GameBoy.Machine

variable {m m' : Machine}

/-- **What a fault leaves behind**, in a step that has called a handler or has not. -/
structure LeftByFault (m : Machine) (called : Bool) (e : Fault) (m' : Machine) : Prop where
  /-- The program counter stands on the byte that is at fault. -/
  pc_eq : m'.cpu.regs.pc = e.pc
  /-- The byte stands there. -/
  read_eq : m'.bus.read e.pc = e.opcode
  /-- The devices have not moved. -/
  device_clock_eq : ∀ d, m'.bus.clock d = m.bus.clock d
  /-- Nothing has been charged but the call. -/
  clock_eq : m'.cpu.clock = m.cpu.clock + if called then 20 else 0
  /-- The other registers are unchanged, the stack pointer too if no handler has been called. -/
  regs_eq : m'.cpu.regs =
    { m.cpu.regs with pc := e.pc, sp := m.cpu.regs.sp - if called then 2 else 0 }
  /-- The requests of EI and DI are as they were. -/
  imeQueue_eq : m'.cpu.imeQueue = m.cpu.imeQueue

/-- The devices wait until a step has succeeded. -/
theorem clock_board_step (m : Machine) (d : Device) :
    (Board.step m).2.bus.clock d = m.bus.clock d :=
  Board.step_induction m (motive := fun bus _ ↦ bus.clock d = m.bus.clock d)
    (fun _ _ _ h ↦ h) (fun bus _ a v h ↦ (bus.clock_write a v d).trans h) (fun _ _ _ h ↦ h) rfl

theorem step_error_iff {e : Fault} :
    step m = (.error e, m') ↔ Board.step m = (.error e, m') := by
  refine ⟨step_error, fun h ↦ ?_⟩
  simp only [step, h]

theorem LeftByFault.of_step {e : Fault} (h : step m = (.error e, m')) :
    m.LeftByFault (Board.serviceInterrupts m).1.dispatches e m' := by
  have hstep := step_error_iff.mp h
  obtain ⟨pc, power, ime, hcpu⟩ := Board.cpu_serviceInterrupts m
  obtain ⟨-, hfailed⟩ := Board.step_error_iff.mp hstep
  obtain ⟨-, hfault, rfl⟩ := Board.executeOne_error_iff.mp hfailed
  have hdevices (d : Device) := clock_board_step m d
  rw [hstep] at hdevices
  have hclock := congrArg Cpu.clock hcpu
  have hregs := congrArg (fun cpu ↦ { cpu.regs with pc := e.pc }) hcpu
  have hqueue := congrArg Cpu.imeQueue hcpu
  exact ⟨rfl, hfault.peek_eq, hdevices, hclock, hregs, hqueue⟩

/-- **When a step fails.** Under the strict policy a step fails exactly if the CPU does not idle and
execution, from where it starts once the interrupts have been looked at, comes to a byte that means
nothing there. The fault names that byte and its address, and what it leaves behind is
`LeftByFault`. Unless the byte is 0xFD, repeating the step gives the same fault and changes
nothing. -/
theorem step_fault (m : Machine) (hpolicy : m.cpu.policy = .fatal) :
    let served := Board.serviceInterrupts m
    let start := served.2.cpu.regs.pc
    ((∀ source, served.1 = .dispatched source → start = source.vector) ∧
      (served.1.dispatches = false → start = m.cpu.regs.pc ∧ served.2.bus = m.bus)) ∧
    (∀ e, (step m).1 = .error e ↔ ¬ Board.Idles m ∧ served.2.FaultAt start e) ∧
    ∀ e m', step m = (.error e, m') →
      m.LeftByFault served.1.dispatches e m' ∧
        (e.opcode ≠ 0xFD → step m' = (.error e, m')) := by
  intro served start
  have hserved : served.2.cpu.policy = .fatal := by
    obtain ⟨pc, power, ime, hcpu⟩ := Board.cpu_serviceInterrupts m
    exact (congrArg Cpu.policy hcpu).trans hpolicy
  refine ⟨Board.pc_serviceInterrupts m, fun e ↦ ⟨fun h ↦ ?_, ?_⟩, fun e m' h ↦
    ⟨.of_step h, fun hopcode ↦ ?_⟩⟩
  · have hstep := step_error_iff.mp (Prod.ext h rfl : step m = (.error e, (step m).2))
    obtain ⟨hpower, hfailed⟩ := Board.step_error_iff.mp hstep
    obtain ⟨-, hfault, -⟩ := Board.executeOne_error_iff.mp hfailed
    exact ⟨(Board.power_serviceInterrupts_iff m).mp hpower, hfault⟩
  · rintro ⟨hawake, hfault⟩
    have hpower := (Board.power_serviceInterrupts_iff m).mpr hawake
    have hfailed := Board.executeOne_error_iff.mpr ⟨hserved, hfault, rfl⟩
    exact congrArg Prod.fst (step_error_iff.mpr (Board.step_error_iff.mpr ⟨hpower, hfailed⟩))
  · exact step_error_iff.mpr (Board.step_again (step_error_iff.mp h) hopcode)

/-- In HALT, with the vertical blank requested and enabled, the stack at the bottom of memory, and
0xFD in front of one of the ten bytes at the vector. -/
def calledToFault : Machine :=
  let m := powerOn {}
  { cpu := { m.cpu with regs := { m.cpu.regs with sp := 0x0001 }, power := .halted }
    bus := { m.bus with
      enabled := 0x01
      memory := (m.bus.memory.set 0x0040 0xFD).set 0x0041 0xD3 } }

/-- The handler is called, which takes 20 ticks, and then the second byte at the vector is at
fault, now and in the next step. -/
theorem step_fault_of_calledToFault :
    (step calledToFault).1 = .error ⟨0xD3, .primary, 0x0041⟩ ∧
      (step calledToFault).2.cpu.clock = 20 ∧
      (step calledToFault).2.cpu.regs =
        { Cpu.initialRegisters with sp := 0xFFFF, pc := 0x0041 } ∧
      step (step calledToFault).2 = (.error ⟨0xD3, .primary, 0x0041⟩, (step calledToFault).2) := by
  obtain ⟨-, hfails, hleft⟩ := step_fault calledToFault rfl
  have hfault : (Board.serviceInterrupts calledToFault).2.FaultAt 0x0040 ⟨0xD3, .primary, 0x0041⟩ :=
    .second (by decide) (by decide)
  have hstep := (hfails _).mpr ⟨by decide, hfault⟩
  obtain ⟨hafter, hagain⟩ := hleft _ _ (Prod.ext hstep rfl)
  exact ⟨hstep, hafter.clock_eq, hafter.regs_eq, hagain (by decide)⟩

end GameBoy.Machine
