import GameBoy.Proofs.Bus.Kept
import GameBoy.Proofs.Cpu.Alike
import GameBoy.Proofs.Machine.Session

/-!
# Everything that can be called

A session consists of the calls that keep the parts of a machine together. A `Call` is any of these,
or one that reaches a single part: the CPU moves alone or is changed from outside, the devices catch
up to whatever tick, one half of the machine is reset. Calls have answers, and whatever can be
looked at between two calls is in `Machine.view`.

Two kinds of statements about all calls are prepared here.

* What everything done to a bus keeps, all calls keep (`Machine.after_induction`), and it holds at
  every moment on the way (`Machine.passed_induction`); mapping a program image apart, which need be
  looked at only where it occurs.
* Machines that are alike give the same answers to all calls and look the same after them
  (`Alike.answers_eq`, `Alike.view_eq`).
-/

namespace GameBoy

/-- A change to the CPU from outside. -/
inductive CpuSetting where
  /-- All registers. -/
  | regs (r : Registers)
  /-- One condition flag. -/
  | flag (f : Flag) (v : Bool)
  /-- No condition flag. -/
  | clearFlags
  /-- The clock. -/
  | clock (ticks : Nat)
  /-- The state of power. -/
  | power (p : Power)
  /-- Into HALT or out of it. -/
  | halted (v : Bool)
  /-- Into STOP or out of it. -/
  | stopped (v : Bool)
  /-- The interrupt master enable, at once. -/
  | ime (v : Bool)
  /-- What to do at an opcode without a meaning. -/
  | policy (p : IllegalOpcodePolicy)

/-- The CPU after a change from outside. -/
def Cpu.set (cpu : Cpu) : CpuSetting → Cpu
  | .regs regs => { cpu with regs }
  | .flag f v => cpu.setFlag f v
  | .clearFlags => cpu.clearFlags
  | .clock clock => { cpu with clock }
  | .power power => { cpu with power }
  | .halted v => cpu.setHalted v
  | .stopped v => cpu.setStopped v
  | .ime ime => { cpu with ime }
  | .policy policy => { cpu with policy }

theorem Cpu.setHalted_eq (cpu : Cpu) (v : Bool) :
    cpu.setHalted v = { cpu with
      power := if v then .halted else if cpu.power = .halted then .running else cpu.power } := by
  unfold setHalted
  split
  · rfl
  · split <;> rfl

theorem Cpu.setStopped_eq (cpu : Cpu) (v : Bool) :
    cpu.setStopped v = { cpu with
      power := if v then .stopped else if cpu.power = .stopped then .running else cpu.power } := by
  unfold setStopped
  split
  · rfl
  · split <;> rfl

/-- Anything that can be called from outside. -/
inductive Call where
  /-- A call of the kind that sessions consist of. -/
  | op (op : Operation)
  /-- The bytes sent over the serial port are taken. -/
  | takeSerialOutput
  /-- A word is read over the bus. -/
  | readWord (a : UInt16)
  /-- A word is written over the bus. -/
  | writeWord (a w : UInt16)
  /-- The devices catch up to a tick. -/
  | catchUp (target : Nat)
  /-- The bus is reset, and the CPU is not. -/
  | resetBus
  /-- The CPU is reset, and the bus is not. -/
  | resetCpu
  /-- One step of the CPU, after which the devices do not catch up. -/
  | stepCpu
  /-- One instruction, without a look at the interrupts. -/
  | executeOne
  /-- The CPU is changed. -/
  | set (setting : CpuSetting)

/-- What a call returns. -/
inductive Answer where
  /-- Nothing. -/
  | done
  /-- The ticks that have passed, or a fault. -/
  | ticks (result : Except Fault Nat)
  /-- A byte. -/
  | byte (v : UInt8)
  /-- A word. -/
  | word (w : UInt16)
  /-- Bytes. -/
  | bytes (bytes : Array UInt8)

namespace Call

/-- The machine after a call. -/
def apply (m : Machine) : Call → Machine
  | .op o => o.apply m
  | .takeSerialOutput => { m with bus := m.bus.takeSerialOutput.2 }
  | .readWord a => { m with bus := (Port.readWord m.bus a).2 }
  | .writeWord a w => { m with bus := Port.writeWord m.bus a w }
  | .catchUp target => { m with bus := m.bus.catchUp target }
  | .resetBus => { m with bus := m.bus.reset }
  | .resetCpu => { m with cpu := m.cpu.reset }
  | .stepCpu => (Board.step m).2
  | .executeOne => (Board.executeOne m).2
  | .set setting => { m with cpu := m.cpu.set setting }

/-- What a call returns. -/
def answer (m : Machine) : Call → Answer
  | .op .step => .ticks (Machine.step m).1
  | .op (.runForTicks ticks) => .ticks (Machine.runForTicks m ticks).1
  | .op (.read a) => .byte (Port.read m.bus a).1
  | .takeSerialOutput => .bytes m.bus.takeSerialOutput.1
  | .readWord a => .word (Port.readWord m.bus a).1
  | .stepCpu => .ticks (Board.step m).1
  | .executeOne => .ticks (Board.executeOne m).1
  | _ => .done

/-- The machines that a call passes through. A run passes through one after each of its steps, and
any other call through the one that it leads to. -/
def passes (m : Machine) : Call → List Machine
  | .op (.runForTicks ticks) =>
    (Session.steps { machine := m, writes := [] } (.runForTicks ticks)).map fun r ↦ r.2.machine
  | call => [call.apply m]

/-- Any call but a run passes through no state but its last one. -/
theorem passes_of_ne_run (m : Machine) (call : Call)
    (hrun : ∀ ticks, call ≠ .op (.runForTicks ticks)) : call.passes m = [call.apply m] := by
  cases call with
  | op o =>
    cases o with
    | runForTicks ticks => exact absurd rfl (hrun ticks)
    | _ => rfl
  | _ => rfl

end Call

/-- What can be seen of a machine without changing it. -/
structure View where
  /-- The registers. -/
  regs : Registers
  /-- The clock. -/
  clock : Nat
  /-- The state of power. -/
  power : Power
  /-- The interrupt master enable. -/
  ime : Bool
  /-- The number of changes of the master enable that wait. -/
  waiting : Nat
  /-- What is done at an opcode without a meaning. -/
  policy : IllegalOpcodePolicy
  /-- The bytes at all addresses, those of the registers of the devices included. -/
  memory : UInt16 → UInt8
  /-- Pending interrupt requests. -/
  requests : InterruptSet
  /-- Which buttons are held. -/
  held : Button → Bool
  /-- Whether a byte is being sent. -/
  sending : Bool
  /-- The bytes sent and not taken yet. -/
  output : Array UInt8
  /-- Whether a copy to object memory is in progress. -/
  copying : Bool

namespace Machine

/-- What can be seen of the machine. -/
def view (m : Machine) : View where
  regs := m.cpu.regs
  clock := m.cpu.clock
  power := m.cpu.power
  ime := m.cpu.ime
  waiting := m.cpu.imeQueue.length
  policy := m.cpu.policy
  memory := m.bus.read
  requests := m.bus.requests
  held := m.bus.joypad.isHeld
  sending := m.bus.serial.active
  output := m.bus.serial.output
  copying := m.bus.objectCopy.active

/-- The machine after some calls. -/
def after (m : Machine) (calls : List Call) : Machine := calls.foldl Call.apply m

/-- The machines that some calls pass through, made one after the other. -/
def passed (m : Machine) : List Call → List Machine
  | [] => []
  | call :: calls => call.passes m ++ passed (call.apply m) calls

/-- The answers to some calls, made one after the other. -/
def answers (m : Machine) : List Call → List Answer
  | [] => []
  | call :: calls => call.answer m :: answers (call.apply m) calls

end Machine

/-! ### What all calls keep -/

section Kept

variable {P : Bus → Prop} (h : Bus.Kept P)
include h

theorem Bus.Kept.invariant : Port.Invariant P where
  read _ _ hP := hP
  write := h.write
  note _ _ hP := hP

/-- What all uses of the bus keep is kept by a step. -/
theorem Machine.step_kept (m : Machine) (hP : P m.bus) : P (step m).2.bus := by
  have hrun : P (Board.step m).2.bus := h.invariant.step m hP
  rcases hstep : step m with ⟨_ | t, m'⟩
  · rwa [step_error hstep] at hrun
  · obtain ⟨s, hok, rfl⟩ := step_ok hstep
    rw [hok] at hrun
    exact h.catchUp _ _ hrun

theorem Machine.runUntil_kept (target fuel : Nat) (m : Machine) (hP : P m.bus) :
    P (runUntil target fuel m).2.bus := by
  induction fuel generalizing m with
  | zero => exact hP
  | succ fuel ih =>
    rw [runUntil]
    split
    · have hstep := step_kept h m hP
      rcases hrun : step m with ⟨_ | t, m'⟩
      · rwa [hrun] at hstep
      · rw [hrun] at hstep
        exact ih m' hstep
    · exact hP

theorem Machine.runForTicks_kept (m : Machine) (ticks : Nat) (hP : P m.bus) :
    P (runForTicks m ticks).2.bus := by
  have hrun := runUntil_kept h (min (m.cpu.clock + ticks) lastTick)
    (min (m.cpu.clock + ticks) lastTick - m.cpu.clock) m hP
  simp only [runForTicks]
  split <;> simp_all

/-- It is kept by any call, if a program image that is loaded keeps it. -/
theorem Call.apply_kept (m : Machine) (call : Call)
    (hload : ∀ rom, call = .op (.loadRom rom) → P (m.bus.loadRom rom)) (hP : P m.bus) :
    P (call.apply m).bus := by
  cases call with
  | op o =>
    cases o with
    | step => exact Machine.step_kept h m hP
    | runForTicks ticks => exact Machine.runForTicks_kept h m ticks hP
    | setButton button held => exact h.setButton _ _ _ hP
    | loadRom rom => exact hload rom rfl
    | reset => exact h.reset _ hP
    | read => exact hP
    | write a v => exact h.write _ _ _ hP
    | request sources => exact h.request _ _ hP
  | takeSerialOutput => exact h.takeSerialOutput _ hP
  | readWord => exact hP
  | writeWord a w => exact h.write _ _ _ (h.write _ _ _ hP)
  | catchUp target => exact h.catchUp _ _ hP
  | resetBus => exact h.reset _ hP
  | resetCpu | set => exact hP
  | stepCpu => exact h.invariant.step m hP
  | executeOne => exact h.invariant.of_map Board.executeOne Board.map_executeOne m hP

/-- **What everything done to a bus keeps, all calls keep.** -/
theorem Machine.after_induction (m : Machine) (calls : List Call)
    (hload : ∀ rom, .op (.loadRom rom) ∈ calls → ∀ bus, P bus → P (bus.loadRom rom))
    (hP : P m.bus) : P (m.after calls).bus := by
  induction calls generalizing m with
  | nil => exact hP
  | cons call calls ih =>
    refine ih (call.apply m) (fun rom hrom ↦ hload rom (List.mem_cons_of_mem _ hrom)) ?_
    exact Call.apply_kept h m call
      (fun rom hcall ↦ hload rom (hcall ▸ List.mem_cons_self) m.bus hP) hP

theorem Call.passes_kept (m : Machine) (call : Call)
    (hload : ∀ rom, call = .op (.loadRom rom) → P (m.bus.loadRom rom)) (hP : P m.bus) :
    ∀ s ∈ call.passes m, P s.bus := by
  by_cases hrun : ∃ ticks, call = .op (.runForTicks ticks)
  · obtain ⟨ticks, rfl⟩ := hrun
    have hstep : ∀ s : Session, P s.machine.bus → P s.step.2.machine.bus :=
      fun s ↦ Machine.step_kept h s.machine
    intro s hs
    obtain ⟨r, hr, rfl⟩ := List.mem_map.mp hs
    obtain ⟨s', hs', rfl⟩ :=
      (Session.steps_induction (P := fun s ↦ P s.machine.bus) hstep ⟨m, []⟩ _ hP).2 r hr
    exact hstep s' hs'
  · rw [call.passes_of_ne_run m fun ticks hcall ↦ hrun ⟨ticks, hcall⟩]
    intro s hs
    rw [List.mem_singleton.mp hs]
    exact call.apply_kept h m hload hP

/-- **What everything done to a bus keeps holds at every moment.** -/
theorem Machine.passed_induction (m : Machine) (calls : List Call)
    (hload : ∀ rom, .op (.loadRom rom) ∈ calls → ∀ bus, P bus → P (bus.loadRom rom))
    (hP : P m.bus) : ∀ s ∈ m.passed calls, P s.bus := by
  induction calls generalizing m with
  | nil => exact fun s hs ↦ absurd hs List.not_mem_nil
  | cons call calls ih =>
    have hcall : ∀ rom, call = .op (.loadRom rom) → P (m.bus.loadRom rom) :=
      fun rom heq ↦ hload rom (heq ▸ List.mem_cons_self) m.bus hP
    intro s hs
    rcases List.mem_append.mp hs with hs | hs
    · exact call.passes_kept h m hcall hP s hs
    · exact ih (call.apply m) (fun rom hrom ↦ hload rom (List.mem_cons_of_mem _ hrom))
        (call.apply_kept h m hcall hP) s hs

end Kept

/-! ### Machines that are alike -/

namespace Board.Alike

variable {m m' : Machine} (h : Board.Alike m m')
include h

theorem bus_eq : m.bus = m'.bus := by
  obtain ⟨d, -, rfl⟩ := h
  rfl

/-- The same change to both buses. -/
theorem setBus (f : Bus → Bus) :
    Board.Alike { m with bus := f m.bus } { m' with bus := f m'.bus } := by
  obtain ⟨d, hd, rfl⟩ := h
  exact ⟨d, hd, rfl⟩

theorem resetCpu : Board.Alike { m with cpu := m.cpu.reset } { m' with cpu := m'.cpu.reset } := by
  obtain ⟨d, ⟨-, -, -, hpolicy, -⟩, rfl⟩ := h
  exact ⟨(m.withControl d).cpu.reset.control,
    ⟨rfl, rfl, rfl, hpolicy, ImeQueue.alike_clear ..⟩, rfl⟩

theorem setPower (power : Power) :
    Board.Alike { m with cpu := { m.cpu with power } } { m' with cpu := { m'.cpu with power } } := by
  obtain ⟨d, ⟨hclock, -, hime, hpolicy, hqueue⟩, rfl⟩ := h
  exact ⟨{ d with power }, ⟨hclock, rfl, hime, hpolicy, hqueue⟩, rfl⟩

/-- The same change to both CPUs. -/
theorem set (setting : CpuSetting) :
    Board.Alike { m with cpu := m.cpu.set setting } { m' with cpu := m'.cpu.set setting } := by
  have hpower := h.power_eq
  cases setting with
  | power p => exact h.setPower p
  | halted v =>
    rw [Cpu.set, Cpu.set, Cpu.setHalted_eq, Cpu.setHalted_eq, ← hpower]
    exact h.setPower _
  | stopped v =>
    rw [Cpu.set, Cpu.set, Cpu.setStopped_eq, Cpu.setStopped_eq, ← hpower]
    exact h.setPower _
  | regs | flag | clearFlags =>
    obtain ⟨d, hd, rfl⟩ := h
    exact ⟨d, hd, rfl⟩
  | clock ticks =>
    obtain ⟨d, ⟨-, hpower, hime, hpolicy, hqueue⟩, rfl⟩ := h
    exact ⟨{ d with clock := ticks }, ⟨rfl, hpower, hime, hpolicy, hqueue⟩, rfl⟩
  | ime v =>
    obtain ⟨d, ⟨hclock, hpower, -, hpolicy, hqueue⟩, rfl⟩ := h
    exact ⟨{ d with ime := v }, ⟨hclock, hpower, rfl, hpolicy, hqueue⟩, rfl⟩
  | policy p =>
    obtain ⟨d, ⟨hclock, hpower, hime, -, hqueue⟩, rfl⟩ := h
    exact ⟨{ d with policy := p }, ⟨hclock, hpower, hime, rfl, hqueue⟩, rfl⟩

theorem machineStep : AlikeResults (Machine.step m) (Machine.step m') := by
  rcases hrun : Board.step m with ⟨r, s⟩
  rcases hrun' : Board.step m' with ⟨r', s'⟩
  obtain ⟨hresult, hran⟩ := h.step
  rw [hrun, hrun'] at hresult hran
  obtain rfl : r = r' := hresult
  have hclock : s'.cpu.clock = s.cpu.clock := hran.clock_eq.symm
  cases r with
  | error e =>
    simp only [Machine.step, hrun, hrun']
    exact ⟨rfl, hran⟩
  | ok t =>
    simp only [Machine.step, hrun, hrun', hclock]
    exact ⟨rfl, hran.setBus fun bus ↦ bus.catchUp s.cpu.clock⟩

omit h in
theorem runUntil (target fuel : Nat) {m m' : Machine} (h : Board.Alike m m') :
    AlikeResults (Machine.runUntil target fuel m) (Machine.runUntil target fuel m') := by
  induction fuel generalizing m m' with
  | zero => exact ⟨rfl, h⟩
  | succ fuel ih =>
    rw [Machine.runUntil, Machine.runUntil, ← h.clock_eq]
    split
    · rcases hrun : Machine.step m with ⟨r, s⟩
      rcases hrun' : Machine.step m' with ⟨r', s'⟩
      obtain ⟨hresult, hran⟩ := h.machineStep
      rw [hrun, hrun'] at hresult hran
      obtain rfl : r = r' := hresult
      cases r with
      | error e => exact ⟨rfl, hran⟩
      | ok t => exact ih hran
    · exact ⟨rfl, h⟩

theorem runForTicks (ticks : Nat) :
    AlikeResults (Machine.runForTicks m ticks) (Machine.runForTicks m' ticks) := by
  have hclock : m'.cpu.clock = m.cpu.clock := h.clock_eq.symm
  simp only [Machine.runForTicks, hclock]
  rcases hrun : Machine.runUntil (min (m.cpu.clock + ticks) lastTick)
    (min (m.cpu.clock + ticks) lastTick - m.cpu.clock) m with ⟨r, s⟩
  rcases hrun' : Machine.runUntil (min (m.cpu.clock + ticks) lastTick)
    (min (m.cpu.clock + ticks) lastTick - m.cpu.clock) m' with ⟨r', s'⟩
  obtain ⟨hresult, hran⟩ := runUntil (min (m.cpu.clock + ticks) lastTick)
    (min (m.cpu.clock + ticks) lastTick - m.cpu.clock) h
  rw [hrun, hrun'] at hresult hran
  obtain rfl : r = r' := hresult
  cases r with
  | error e => exact ⟨rfl, hran⟩
  | ok u => exact ⟨congrArg (fun now : Nat ↦ Except.ok (now - m.cpu.clock)) hran.clock_eq, hran⟩

/-- **A call does the same to machines that are alike**, and they stay alike. -/
theorem call (call : Call) :
    call.answer m = call.answer m' ∧ Board.Alike (call.apply m) (call.apply m') := by
  have hbus := h.bus_eq
  cases call with
  | op o =>
    cases o with
    | step => exact ⟨congrArg Answer.ticks h.machineStep.1, h.machineStep.2⟩
    | runForTicks ticks =>
      exact ⟨congrArg Answer.ticks (h.runForTicks ticks).1, (h.runForTicks ticks).2⟩
    | setButton button held => exact ⟨rfl, h.setBus (·.setButton button held)⟩
    | loadRom rom => exact ⟨rfl, h.setBus (·.loadRom rom)⟩
    | reset => exact ⟨rfl, h.resetCpu.setBus Bus.reset⟩
    | read a => exact ⟨by rw [Call.answer, Call.answer, hbus], h⟩
    | write a v => exact ⟨rfl, h.setBus (·.write a v)⟩
    | request sources => exact ⟨rfl, h.setBus (·.request sources)⟩
  | takeSerialOutput =>
    exact ⟨by rw [Call.answer, Call.answer, hbus], h.setBus (·.takeSerialOutput.2)⟩
  | readWord a => exact ⟨by rw [Call.answer, Call.answer, hbus], h⟩
  | writeWord a w => exact ⟨rfl, h.setBus (Port.writeWord · a w)⟩
  | catchUp target => exact ⟨rfl, h.setBus (·.catchUp target)⟩
  | resetBus => exact ⟨rfl, h.setBus Bus.reset⟩
  | resetCpu => exact ⟨rfl, h.resetCpu⟩
  | stepCpu => exact ⟨congrArg Answer.ticks h.step.1, h.step.2⟩
  | executeOne => exact ⟨congrArg Answer.ticks h.executeOne.1, h.executeOne.2⟩
  | set setting => exact ⟨rfl, h.set setting⟩

/-- Nothing that can be seen tells machines apart that are alike. -/
theorem view_eq : m.view = m'.view := by
  obtain ⟨d, ⟨hclock, hpower, hime, hpolicy, hqueue⟩, rfl⟩ := h
  have hview : Machine.view (m.withControl d) = { m.view with
    clock := d.clock, power := d.power, ime := d.ime, waiting := d.imeQueue.length,
    policy := d.policy } := rfl
  rw [hview, ← hclock, ← hpower, ← hime, ← hpolicy, ← hqueue.length_eq]
  rfl

omit h in
/-- **Machines that are alike give the same answers** to all calls, and look the same afterwards. -/
theorem answers_eq (calls : List Call) {m m' : Machine} (h : Board.Alike m m') :
    m.answers calls = m'.answers calls ∧ (m.after calls).view = (m'.after calls).view := by
  induction calls generalizing m m' with
  | nil => exact ⟨rfl, h.view_eq⟩
  | cons call calls ih =>
    obtain ⟨hanswer, hafter⟩ := h.call call
    obtain ⟨hanswers, hview⟩ := ih hafter
    exact ⟨by rw [Machine.answers, Machine.answers, hanswer, hanswers], hview⟩

end Board.Alike

end GameBoy
