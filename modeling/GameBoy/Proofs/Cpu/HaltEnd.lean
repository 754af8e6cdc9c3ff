import GameBoy.Proofs.Cpu.FlagsByte
import GameBoy.Proofs.Cpu.Passive

/-!
# HALT that ends with interrupts disabled

With interrupts disabled, a source that is requested and enabled ends HALT and calls no handler. The
step goes on with the instruction behind HALT and then puts the program counter back, so that the
instruction is executed again by the next step.

Only the program counter goes back. `step_of_haltEnded` compares such a step with executing the same
instruction on a CPU that is awake, for any instruction and under either policy: a fault is the same
fault; otherwise registers, stack, memory and all the rest are what the instruction leaves, be it a
jump or a call, and then a deferred change of the master enable is applied as in any step.
-/

namespace GameBoy.Board

variable {M : Type} [Port M] [Port.Passive M]

/-- **HALT that ends with interrupts disabled.** Let `awake` be the board with HALT ended and no more
than that. No handler is called, and this is the board that executes.

* If executing fails, so does the step, with the same fault and the same board.
* If executing succeeds, so does the step, in the same ticks; it leaves the board that executing
  leaves, with a deferred change of the master enable applied if one is due, and with the program
  counter as it was when the step began.

The step reads the two interrupt registers and then makes the accesses of executing. So no request
is withdrawn, unless the instruction itself writes to the request register. -/
theorem step_of_haltEnded (s : Board M) (hpower : s.cpu.power = .halted)
    (hime : s.cpu.ime = false)
    (hcalling : s.peek enableAddress &&& s.peek requestAddress &&& 0x1F ≠ 0) :
    let awake := s.setPower .running
    (∃ source, s.serviceInterrupts = (.haltEnded source, awake)) ∧
    (∀ e s', awake.executeOne = (.error e, s') → s.step = (.error e, s')) ∧
    (∀ t s', awake.executeOne = (.ok t, s') →
      s.step = (.ok t, s'.applyDueIme.setPC s.cpu.regs.pc)) ∧
    s.traced.step.2.bus.accesses =
      [.read requestAddress (s.peek requestAddress), .read enableAddress (s.peek enableAddress)] ++
        awake.traced.executeOne.2.bus.accesses := by
  intro awake
  obtain ⟨source, hsource⟩ := Option.ne_none_iff_exists'.mp
    (mt s.highest?_calling_eq_none_iff.mp hcalling)
  have hserved := serviceInterrupts_of_haltEnded s hpower hime hsource
  have hfinish : s.step = awake.finish (.haltEnded source) s.cpu := by
    rw [step_eq_finish, hserved]
  have hrunning : awake.executeOrSleep = awake.executeOne := if_pos rfl
  refine ⟨⟨source, hserved⟩, fun e s' h ↦ ?_, fun t s' h ↦ ?_, ?_⟩
  · rw [hfinish, finish, hrunning, h]
  · have hclock : s'.cpu.clock = s.cpu.clock + t := (ticks_executeOne_ok h).2
    have hkept : (s'.applyDueIme.setPC s.cpu.regs.pc).cpu.clock = s'.cpu.clock :=
      clock_applyDueIme s'
    have hticks : (s'.applyDueIme.setPC s.cpu.regs.pc).cpu.clock - s.cpu.clock = t := by
      omega
    rw [hfinish, finish, hrunning, h]
    simp only [rollBack, hticks]
  · have hawake := not_sleepsOn s (by simp [hpower])
    have henabled : s.enableByte = s.peek enableAddress := s.peek_woken enableAddress
    have hphase := interruptPhase_of_haltEnded hawake hime hpower
      ((urgent?_woken s).trans hsource)
    have haccesses : s.traced.serviceInterrupts.2.bus.accesses = s.interruptPhase.2.2 := rfl
    have hpower' : s.serviceInterrupts.2.cpu.power = .running := by
      rw [hserved]
      rfl
    rw [accesses_step_of_running hpower', haccesses, hphase, hserved, henabled]
    rfl

/-- In HALT with interrupts disabled, in front of RST with the stack on the interrupt registers. A
request to enable interrupts is waiting, and it is due. -/
def haltedAtRst : Board Memory where
  cpu :=
    { regs := { Cpu.initialRegisters with sp := 0xFF11, pc := 0xC0FE }, power := .halted
      imeQueue := ({} : ImeQueue).push { enable := true, due := 5 } }
  bus := ((Memory.fill 0).set requestAddress 0xE4).set enableAddress 0xFF |>.set 0xC0FE 0xFF

/-- The return address is stored and the master enable is set, and the program counter stays. -/
theorem step_of_haltEnded_at_rst :
    haltedAtRst.step.1 = .ok 16 ∧
      haltedAtRst.step.2.cpu.regs = { haltedAtRst.cpu.regs with sp := 0xFF0F } ∧
      haltedAtRst.step.2.cpu.ime = true ∧
      haltedAtRst.traced.step.2.bus.accesses =
        [.read 0xFF0F 0xE4, .read 0xFFFF 0xFF, .read 0xC0FE 0xFF, .write 0xFF10 0xC0,
          .write 0xFF0F 0xFF] := by
  obtain ⟨-, -, hstep, haccesses⟩ := step_of_haltEnded haltedAtRst rfl rfl (by decide)
  have hrun : (haltedAtRst.setPower .running).executeOne =
      (.ok 16, (haltedAtRst.setPower .running).executeOne.2) := rfl
  rw [haccesses, hstep _ _ hrun]
  decide

end GameBoy.Board
