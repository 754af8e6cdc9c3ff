import GameBoy.Machine
import GameBoy.Proofs.Port.Log

/-!
# Sessions

What can happen to a machine from outside, as data: an `Operation` is one call, and a session is
what a list of them leads to from power-on. Besides the machine a session has the writes that have
been made since power-on or the last reset, by the CPU or from outside. The machine does not depend
on them: `machine_run` says that it is the machine to which the operations have been applied one
after the other, and nothing else.

Some operations make steps, one or many. `Session.steps` lists them, each with its result and the
session as it is then, so that a statement about **every step of every session** can be made; and
`runForTicks_eq` says that the steps listed for a run are those that the run makes.

Left out are the operations that set a clock, or bring up or reset a part of the machine without the
rest.
-/

namespace GameBoy

/-- A call from outside. -/
inductive Operation where
  /-- One step. -/
  | step
  /-- Steps until so many ticks have passed. -/
  | runForTicks (ticks : Nat)
  /-- A button is pressed or released. -/
  | setButton (button : Button) (held : Bool)
  /-- A program image is mapped. -/
  | loadRom (rom : Array UInt8)
  /-- A reset. -/
  | reset
  /-- A byte is read over the bus. -/
  | read (a : UInt16)
  /-- A byte is written over the bus. -/
  | write (a : UInt16) (v : UInt8)
  /-- Interrupts are requested. -/
  | request (sources : InterruptSet)

/-- The calls that let time pass. -/
def Operation.makesSteps : Operation → Bool
  | .step | .runForTicks _ => true
  | _ => false

/-- The machine after a call. -/
def Operation.apply (m : Machine) : Operation → Machine
  | .step => (Machine.step m).2
  | .runForTicks ticks => (Machine.runForTicks m ticks).2
  | .setButton button held => { m with bus := m.bus.setButton button held }
  | .loadRom rom => Machine.loadRom m rom
  | .reset => Machine.reset m
  | .read a => { m with bus := (Port.read m.bus a).2 }
  | .write a v => { m with bus := Port.write m.bus a v }
  | .request sources => { m with bus := m.bus.request sources }

namespace Machine

variable {m m' : Machine}

/-- A step that succeeds: the CPU moves, and the devices catch up with it. -/
theorem step_ok {t : Nat} (h : step m = (.ok t, m')) :
    ∃ s, Board.step m = (.ok t, s) ∧ m' = { s with bus := s.bus.catchUp s.cpu.clock } := by
  rcases hrun : Board.step m with ⟨_ | t', s⟩
  · simp [step, hrun] at h
  · simp only [step, hrun] at h
    obtain ⟨ht, rfl⟩ := Prod.mk.inj h
    exact ⟨s, by rw [ht], rfl⟩

/-- A step that fails: the CPU moves as far as it gets, and the devices do not. -/
theorem step_error {e : Fault} (h : step m = (.error e, m')) : Board.step m = (.error e, m') := by
  rcases hrun : Board.step m with ⟨_ | t, s⟩
  · simp only [step, hrun] at h
    exact h
  · simp [step, hrun] at h

end Machine

/-- A machine, and what has been written to it. -/
structure Session where
  /-- The machine. -/
  machine : Machine
  /-- The writes since power-on or the last reset, the earliest one first. -/
  writes : List Write

namespace Session

/-- A session begins at power-on. -/
def powerOn (config : Config) : Session where
  machine := .powerOn config
  writes := []

/-- One step. -/
def step (s : Session) : Except Fault Nat × Session :=
  ((Machine.step s.machine).1,
    { machine := (Machine.step s.machine).2, writes := s.writes ++ Board.writes s.machine })

/-- A step that succeeds: the CPU moves, and the devices catch up with it. -/
theorem step_ok {s s' : Session} {t : Nat} (h : s.step = (.ok t, s')) :
    ∃ m, Board.step s.machine = (.ok t, m) ∧
      s'.machine = { m with bus := m.bus.catchUp m.cpu.clock } ∧
      s'.writes = s.writes ++ Board.writes s.machine := by
  obtain ⟨hresult, rfl⟩ := Prod.mk.inj h
  obtain ⟨m, hrun, hmachine⟩ := Machine.step_ok (Prod.ext hresult rfl)
  exact ⟨m, hrun, hmachine, rfl⟩

/-- A step that fails: the CPU moves as far as it gets, and the devices do not. -/
theorem step_error {s s' : Session} {e : Fault} (h : s.step = (.error e, s')) :
    Board.step s.machine = (.error e, s'.machine) ∧
      s'.writes = s.writes ++ Board.writes s.machine := by
  obtain ⟨hresult, rfl⟩ := Prod.mk.inj h
  exact ⟨Machine.step_error (Prod.ext hresult rfl), rfl⟩

/-- The steps made until the clock has reached `target`, and at most `fuel` of them. A fault is the
last one. -/
def stepsUntil (target : Nat) : (fuel : Nat) → Session → List (Except Fault Nat × Session)
  | 0, _ => []
  | fuel + 1, s =>
    if s.machine.cpu.clock < target then
      match s.step with
      | (.error e, s') => [(.error e, s')]
      | (.ok t, s') => (.ok t, s') :: stepsUntil target fuel s'
    else []

/-- The steps that a call makes, each with its result and the session that it leads to. -/
def steps (s : Session) : Operation → List (Except Fault Nat × Session)
  | .step => [s.step]
  | .runForTicks ticks =>
    let start := s.machine.cpu.clock
    let target := min (start + ticks) lastTick
    stepsUntil target (target - start) s
  | _ => []

/-- Where some steps lead to, the last of which counts. -/
def last (s : Session) : List (Except Fault Nat × Session) → Session
  | [] => s
  | r :: rest => r.2.last rest

/-- The session after a call. -/
def apply (s : Session) (op : Operation) : Session where
  machine := op.apply s.machine
  writes :=
    match op with
    | .reset => []
    | .write a v => s.writes ++ [Logged.entry s.machine.bus a v]
    | op => (s.last (s.steps op)).writes

/-- The session after a list of calls. -/
def run (s : Session) (ops : List Operation) : Session := ops.foldl apply s

/-- **The record has no effect.** The calls do to the machine what they would do without it. -/
theorem machine_run (s : Session) (ops : List Operation) :
    (s.run ops).machine = ops.foldl Operation.apply s.machine := by
  induction ops generalizing s with
  | nil => rfl
  | cons op ops ih => exact ih (s.apply op)

/-! ### The steps of a run -/

theorem machine_last_stepsUntil (target fuel : Nat) (s : Session) :
    (s.last (stepsUntil target fuel s)).machine =
      (Machine.runUntil target fuel s.machine).2 := by
  induction fuel generalizing s with
  | zero => rfl
  | succ fuel ih =>
    rw [stepsUntil, Machine.runUntil, step]
    split
    · rcases hstep : Machine.step s.machine with ⟨_ | t, m⟩
      · rfl
      · exact ih _
    · rfl

/-- **The steps listed for a run are those that the run makes.** -/
theorem apply_runForTicks (s : Session) (ticks : Nat) :
    s.apply (.runForTicks ticks) = s.last (s.steps (.runForTicks ticks)) := by
  have hmachine := machine_last_stepsUntil (min (s.machine.cpu.clock + ticks) lastTick)
    (min (s.machine.cpu.clock + ticks) lastTick - s.machine.cpu.clock) s
  have hrun : (Machine.runForTicks s.machine ticks).2 =
      (Machine.runUntil (min (s.machine.cpu.clock + ticks) lastTick)
        (min (s.machine.cpu.clock + ticks) lastTick - s.machine.cpu.clock) s.machine).2 := by
    simp only [Machine.runForTicks]
    split <;> simp_all
  exact congrArg (fun m ↦ Session.mk m _) (hrun.trans hmachine.symm)

/-- An operation that makes steps ends where the last of them ends. -/
theorem apply_of_makesSteps (s : Session) {op : Operation} (hop : op.makesSteps) :
    s.apply op = s.last (s.steps op) := by
  cases op with
  | step => rfl
  | runForTicks ticks => exact apply_runForTicks s ticks
  | _ => simp [Operation.makesSteps] at hop

/-! ### Induction over a session -/

section Induction

variable {P : Session → Prop} (hstep : ∀ s : Session, P s → P s.step.2)
include hstep

theorem stepsUntil_induction (target fuel : Nat) (s : Session) (h : P s) :
    P (s.last (stepsUntil target fuel s)) ∧
      ∀ r ∈ stepsUntil target fuel s, ∃ s' : Session, P s' ∧ r = s'.step := by
  induction fuel generalizing s with
  | zero => exact ⟨h, fun r hr ↦ absurd hr List.not_mem_nil⟩
  | succ fuel ih =>
    rw [stepsUntil]
    split
    · have hnext := hstep s h
      rcases hs : s.step with ⟨_ | t, s'⟩
      · rw [hs] at hnext
        refine ⟨hnext, fun r hr ↦ ⟨s, h, ?_⟩⟩
        rw [List.mem_singleton.mp hr, hs]
      · rw [hs] at hnext
        obtain ⟨hlast, hrest⟩ := ih s' hnext
        refine ⟨hlast, fun r hr ↦ ?_⟩
        rcases List.mem_cons.mp hr with rfl | hr
        · exact ⟨s, h, hs.symm⟩
        · exact hrest r hr
    · exact ⟨h, fun r hr ↦ absurd hr List.not_mem_nil⟩

/-- A call passes through sessions with a property that steps keep. -/
theorem steps_induction (s : Session) (op : Operation) (h : P s) :
    P (s.last (s.steps op)) ∧ ∀ r ∈ s.steps op, ∃ s' : Session, P s' ∧ r = s'.step := by
  cases op with
  | step => exact ⟨hstep s h, fun r hr ↦ ⟨s, h, List.mem_singleton.mp hr⟩⟩
  | runForTicks ticks => exact stepsUntil_induction hstep _ _ s h
  | _ => exact ⟨h, fun r hr ↦ absurd hr List.not_mem_nil⟩

/-- **A property of every session**: steps keep it, and so do the calls that make none. -/
theorem run_induction
    (hcall : ∀ (s : Session) (op : Operation), op.makesSteps = false → P s → P (s.apply op))
    (s : Session) (ops : List Operation) (h : P s) : P (s.run ops) := by
  induction ops generalizing s with
  | nil => exact h
  | cons op ops ih =>
    refine ih (s.apply op) ?_
    cases hop : op.makesSteps with
    | false => exact hcall s op hop h
    | true =>
      rw [apply_of_makesSteps s hop]
      exact (steps_induction hstep s op h).1

end Induction

end Session

end GameBoy
