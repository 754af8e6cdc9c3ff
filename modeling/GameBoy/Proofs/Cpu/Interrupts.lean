import GameBoy.Cpu.Step

/-!
# Looking at the interrupts

`Board.attend` comes to one of four ends, and which one depends on three things: the interrupt
master enable, whether the CPU is halted, and the source, if any, that is enabled and pending. One
equation for each end; nothing after this module opens `attend`.

A step looks at the interrupts first. What it does from there on is `Board.finish`, which knows of
the beginning only what the interrupts have led to and the CPU as it was.
-/

namespace GameBoy.Board

variable {M : Type} [Port M] (s : Board M) (pending : InterruptSet)

/-- The most urgent source that is both pending and enabled, as the enable register reads now. -/
def urgent? : Option Interrupt :=
  (InterruptSet.ofByte (s.read enableAddress).1 ∩ pending).highest?

omit [Port M] in
/-- The board with HALT ended, if it was in HALT. -/
def endHalt : Board M := if s.cpu.power = .halted then s.setPower .running else s

/-- With interrupts disabled, a CPU that is not halted does not look. -/
theorem attend_of_unheeded (hime : s.cpu.ime = false) (hpower : s.cpu.power ≠ .halted) :
    s.attend pending = (.idle, s) := by
  simp [attend, hime, hpower]

/-- Nothing is both enabled and pending. -/
theorem attend_of_none (hlook : s.cpu.ime = true ∨ s.cpu.power = .halted)
    (hsource : s.urgent? pending = none) :
    s.attend pending = (.idle, (s.read enableAddress).2) := by
  unfold urgent? at hsource
  rcases hlook with h | h <;> simp [attend, h, hsource]

/-- A source ends HALT with interrupts disabled, and no handler is called. -/
theorem attend_of_haltEnded {source : Interrupt} (hime : s.cpu.ime = false)
    (hpower : s.cpu.power = .halted) (hsource : s.urgent? pending = some source) :
    s.attend pending = (.haltEnded source,
      ((s.read enableAddress).2.setPower .running).note (.haltEnded source s.cpu.regs.pc)) := by
  unfold urgent? at hsource
  have hcpu : (s.read enableAddress).2.cpu = s.cpu := rfl
  simp [attend, hime, hpower, hsource, hcpu, setPower]

/-- A source is dispatched, and ends HALT on the way. -/
theorem attend_of_dispatched {source : Interrupt} (hime : s.cpu.ime = true)
    (hsource : s.urgent? pending = some source) :
    s.attend pending = (.dispatched source, (s.read enableAddress).2.endHalt.dispatch source pending
      (.ofByte (s.read enableAddress).1)) := by
  unfold urgent? at hsource
  have hcpu : (s.read enableAddress).2.cpu = s.cpu := rfl
  by_cases hpower : s.cpu.power = .halted <;>
    simp [attend, hime, hpower, hsource, hcpu, endHalt, setPower]

/-- What is left of a step once the interrupts have been looked at, for a step that began with the
CPU `start`. -/
def finish (attention : Attention) (start : Cpu) : Except Fault Nat × Board M :=
  match s.executeOrSleep with
  | (.error e, s) => (.error e, s)
  | (.ok _, s) =>
    let s := s.applyDueIme.rollBack attention start.regs.pc
    (.ok (s.cpu.clock - start.clock), s)

/-- A step looks at the interrupts and then finishes. -/
theorem step_eq_finish : s.step = s.serviceInterrupts.2.finish s.serviceInterrupts.1 s.cpu :=
  rfl

end GameBoy.Board
