import GameBoy.Proofs.Cpu.Control

/-!
# The stages of a step

A step looks at the interrupts, executes an opcode or sleeps, applies a deferred change of the
master enable, and may move the program counter back. This module says, stage by stage, what becomes
of the control part of the CPU, and puts the stages together once (`step_ok`, `step_error`). Later
modules take a step apart through those two and open no stage again.

The opcode that a step comes to is not part of the state from which it starts: a dispatch may come
first, and reading it may change the port. `Board.upcoming` is that opcode, read where the step
reads it.
-/

namespace GameBoy

/-! ### Opcodes that have been fetched -/

/-- An opcode that has been fetched. -/
structure Fetched where
  /-- The byte that is decoded. -/
  opcode : UInt8
  /-- The address from which it was read. -/
  pc : UInt16
  /-- Whether 0xFD has been passed over on the way to it. -/
  prefixed : Bool
deriving DecidableEq, Repr

namespace Fetched

/-- What the byte announces. -/
def decoded (f : Fetched) : Opcode := Opcode.decode f.opcode

/-- The ticks still to be charged for what was passed over. -/
def owed (f : Fetched) : Nat := if f.prefixed then 4 else 0

/-- The change of the master enable that the opcode requests: EI and DI request one. -/
def request? (f : Fetched) : Option Bool :=
  match f.decoded with
  | .instruction .ei => some true
  | .instruction .di => some false
  | _ => none

/-- EI requests that interrupts be enabled and DI that they be disabled, and nothing else does. -/
theorem request?_eq_some_iff {f : Fetched} {enable : Bool} :
    f.request? = some enable ↔
      f.decoded = .instruction (if enable then .ei else .di) := by
  unfold request?
  cases enable <;> split <;> simp_all

end Fetched

/-- What an opcode does to the control part before its cost is charged. -/
def Control.executeOpcode (c : Control) : Opcode → Control
  | .instruction i => c.execute i
  | _ => c

/-- What the opcode of a step, if it comes to one, does to the control part before time is
charged. -/
def Control.executeNext (c : Control) : Option Fetched → Control
  | none => c
  | some f => c.executeOpcode f.decoded

/-- The control part after a deferred change of the master enable has been applied, if one is
due. -/
def Control.applyDue (c : Control) : Control :=
  match c.imeQueue.popDue c.clock with
  | none => c
  | some (change, imeQueue) => { c with ime := change.enable, imeQueue }

/-- The control part after an opcode, or sleep, that takes so many ticks. -/
def Control.pass (c : Control) (next : Option Fetched) (ticks : Nat) : Control :=
  applyDue { c.executeNext next with clock := c.clock + ticks }

/-- The clock shows the ticks that have passed. -/
theorem Control.clock_pass (c : Control) (next : Option Fetched) (ticks : Nat) :
    (c.pass next ticks).clock = c.clock + ticks := by
  unfold pass applyDue
  split <;> rfl

namespace Board

variable {M : Type} [Port M] (s : Board M)

/-- Fetches the opcode at the program counter, or the one after it if that is 0xFD. -/
def fetchOpcode : Fetched × Board M :=
  let pc := s.cpu.regs.pc
  let (opcode, s) := s.fetch
  if Opcode.decode opcode = .again then
    let s := s.note (.opcodePassed pc)
    let pc := s.cpu.regs.pc
    let (opcode, s) := s.fetch
    ({ opcode, pc, prefixed := true }, s)
  else ({ opcode, pc, prefixed := false }, s)

/-- The opcode that is executed next, if the CPU is awake. -/
def next? : Option Fetched := if s.cpu.power = .running then some s.fetchOpcode.1 else none

/-- **The opcode that a step comes to**, if the CPU is awake by then. -/
def upcoming : Option Fetched := s.serviceInterrupts.2.next?

/-- A step comes to an opcode if the CPU is awake once the interrupts have been looked at. -/
theorem upcoming_isSome_iff : s.upcoming.isSome ↔ s.serviceInterrupts.2.cpu.power = .running := by
  unfold upcoming next?
  split <;> simp_all

/-- An instruction is executed once its opcode has been fetched. -/
theorem executeOne_eq : s.executeOne =
    s.fetchOpcode.2.executeOpcode s.fetchOpcode.1.owed s.fetchOpcode.1.opcode
      s.fetchOpcode.1.pc := by
  simp only [executeOne, fetchOpcode]
  split <;> rfl

/-- Fetching an opcode leaves the control part alone. -/
theorem control_fetchOpcode : s.fetchOpcode.2.cpu.control = s.cpu.control := by
  simp only [fetchOpcode]
  split <;> rfl

/-! ### Executing an opcode -/

/-- What the cost of an opcode can be, what was passed over before it included. A request of EI or
DI costs four ticks of its own. -/
def IsOpcodeCost (f : Fetched) (ticks : Nat) : Prop :=
  ∃ cost, IsCost cost ∧ ticks = f.owed + cost ∧ (f.request?.isSome → cost = 4)

/-- An opcode of the primary table. -/
theorem executeOpcode_instruction {opcode : UInt8} {i : Instruction}
    (h : Opcode.decode opcode = .instruction i) (owed : Nat) (pc : UInt16) :
    s.executeOpcode owed opcode pc = (s.execute i).2.charge (owed + (s.execute i).1) := by
  simp only [executeOpcode, h]

/-- An opcode behind 0xCB, which is fetched first. -/
theorem executeOpcode_extended {opcode : UInt8} (h : Opcode.decode opcode = .extended)
    (owed : Nat) (pc : UInt16) :
    s.executeOpcode owed opcode pc =
      (s.fetch.2.executeBit (.decode s.fetch.1)).2.charge
        (owed + (s.fetch.2.executeBit (.decode s.fetch.1)).1) := by
  simp only [executeOpcode, h]

/-- A byte without a meaning. -/
theorem executeOpcode_hole {opcode : UInt8}
    (h : Opcode.decode opcode = .again ∨ Opcode.decode opcode = .hole) (owed : Nat) (pc : UInt16) :
    s.executeOpcode owed opcode pc = s.meetHole owed opcode pc := by
  rcases h with h | h <;> simp only [executeOpcode, h]

/-- **An instruction of the primary table that stands at the program counter** is executed, and its
cost is charged. -/
theorem executeOne_of_instruction {i : Instruction}
    (h : Opcode.decode s.fetch.1 = .instruction i) :
    s.executeOne = (s.fetch.2.execute i).2.charge (s.fetch.2.execute i).1 := by
  have hagain : Opcode.decode s.fetch.1 ≠ .again := by simp [h]
  have hone : s.executeOne = s.fetch.2.executeOpcode 0 s.fetch.1 s.cpu.regs.pc := if_neg hagain
  rw [hone, executeOpcode_instruction _ h, Nat.zero_add]

/-- So is one behind 0xCB. -/
theorem executeOne_of_extended (h : Opcode.decode s.fetch.1 = .extended) :
    s.executeOne =
      (s.fetch.2.fetch.2.executeBit (.decode s.fetch.2.fetch.1)).2.charge
        (s.fetch.2.fetch.2.executeBit (.decode s.fetch.2.fetch.1)).1 := by
  have hagain : Opcode.decode s.fetch.1 ≠ .again := by simp [h]
  have hone : s.executeOne = s.fetch.2.executeOpcode 0 s.fetch.1 s.cpu.regs.pc := if_neg hagain
  rw [hone, executeOpcode_extended _ h, Nat.zero_add]

omit [Port M] in
/-- What has been executed is charged, and nothing else happens. -/
theorem charge_ok {s s' : Board M} {ticks t : Nat} (h : s.charge ticks = (.ok t, s')) :
    t = ticks ∧ s'.cpu.control = { s.cpu.control with clock := s.cpu.control.clock + t } := by
  obtain ⟨ht, rfl⟩ := Prod.mk.inj h
  obtain rfl := Except.ok.inj ht
  exact ⟨rfl, rfl⟩

theorem meetHole_ok {s s' : Board M} {owed t : Nat} {opcode : UInt8} {pc : UInt16}
    (h : s.meetHole owed opcode pc = (.ok t, s')) :
    t = owed + 4 ∧ s'.cpu.control = { s.cpu.control with clock := s.cpu.control.clock + t } := by
  unfold meetHole at h
  split at h
  · simp at h
  · have hnote := control_note s (.opcodeIgnored opcode pc)
    rw [← hnote]
    exact charge_ok h

theorem meetHole_error {s s' : Board M} {owed : Nat} {opcode : UInt8} {pc : UInt16} {e : Fault}
    (h : s.meetHole owed opcode pc = (.error e, s')) : s'.cpu.control = s.cpu.control := by
  unfold meetHole at h
  split at h
  · obtain ⟨-, rfl⟩ := Prod.mk.inj h
    rfl
  · simp [charge] at h

/-- An opcode that is executed: its cost, and what it does to the control part. -/
theorem executeOpcode_ok {s s' : Board M} {f : Fetched} {t : Nat}
    (h : s.executeOpcode f.owed f.opcode f.pc = (.ok t, s')) :
    IsOpcodeCost f t ∧
      s'.cpu.control =
        { s.cpu.control.executeOpcode f.decoded with clock := s.cpu.control.clock + t } := by
  cases hdecoded : f.decoded with
  | instruction i =>
    rw [executeOpcode_instruction s hdecoded] at h
    obtain ⟨rfl, hcontrol⟩ := charge_ok h
    refine ⟨⟨_, s.execute_isCost i, rfl, fun hreq ↦ ?_⟩, ?_⟩
    · -- Only EI and DI request anything, and both cost four ticks.
      obtain ⟨enable, henable⟩ := Option.isSome_iff_exists.mp hreq
      obtain rfl : i = if enable then .ei else .di := by
        simpa [hdecoded] using Fetched.request?_eq_some_iff.mp henable
      cases enable <;> rfl
    · rw [hcontrol, control_execute, Control.clock_execute]
      rfl
  | extended =>
    rw [executeOpcode_extended s hdecoded] at h
    obtain ⟨rfl, hcontrol⟩ := charge_ok h
    refine ⟨⟨_, executeBit_isCost _ _, rfl, fun hreq ↦ ?_⟩, ?_⟩
    · simp [Fetched.request?, hdecoded] at hreq
    · rw [hcontrol, control_executeBit]
      rfl
  | again =>
    rw [executeOpcode_hole s (.inl hdecoded)] at h
    obtain ⟨rfl, hcontrol⟩ := meetHole_ok h
    exact ⟨⟨4, by decide, rfl, fun _ ↦ rfl⟩, hcontrol⟩
  | hole =>
    rw [executeOpcode_hole s (.inr hdecoded)] at h
    obtain ⟨rfl, hcontrol⟩ := meetHole_ok h
    exact ⟨⟨4, by decide, rfl, fun _ ↦ rfl⟩, hcontrol⟩

/-- Only a byte without a meaning can be at fault, and it leaves the control part alone. -/
theorem executeOpcode_error {s s' : Board M} {f : Fetched} {e : Fault}
    (h : s.executeOpcode f.owed f.opcode f.pc = (.error e, s')) :
    f.request? = none ∧ s'.cpu.control = s.cpu.control := by
  cases hdecoded : f.decoded with
  | instruction i =>
    rw [executeOpcode_instruction s hdecoded] at h
    simp [charge] at h
  | extended =>
    rw [executeOpcode_extended s hdecoded] at h
    simp [charge] at h
  | again =>
    rw [executeOpcode_hole s (.inl hdecoded)] at h
    exact ⟨by simp [Fetched.request?, hdecoded], meetHole_error h⟩
  | hole =>
    rw [executeOpcode_hole s (.inr hdecoded)] at h
    exact ⟨by simp [Fetched.request?, hdecoded], meetHole_error h⟩

/-- The ticks spent on the opcode of a step, or asleep if it comes to none. -/
def IsDuration : Option Fetched → Nat → Prop
  | none, ticks => ticks = idleTicks
  | some f, ticks => IsOpcodeCost f ticks

/-- What a step spends on its opcode, or asleep. -/
theorem isDuration_bounds {next : Option Fetched} {d : Nat} (h : IsDuration next d) :
    4 ∣ d ∧ 4 ≤ d ∧ d ≤ 28 := by
  cases next with
  | none =>
    obtain rfl : d = idleTicks := h
    decide
  | some f =>
    obtain ⟨cost, ⟨hdvd, hle, hge⟩, rfl, -⟩ := h
    unfold Fetched.owed
    split <;> omega

/-- **What is executed, or slept away**, and what it does to the control part. -/
theorem executeOrSleep_ok {s s' : Board M} {t : Nat} (h : s.executeOrSleep = (.ok t, s')) :
    IsDuration s.next? t ∧
      s'.cpu.control =
        { s.cpu.control.executeNext s.next? with clock := s.cpu.control.clock + t } := by
  by_cases hpower : s.cpu.power = .running
  · rw [executeOrSleep, if_pos hpower, executeOne_eq] at h
    rw [next?, if_pos hpower, ← control_fetchOpcode s]
    exact executeOpcode_ok h
  · rw [executeOrSleep, if_neg hpower] at h
    rw [next?, if_neg hpower]
    exact charge_ok h

/-- Only an opcode can be at fault, one that requests nothing, and it leaves the control part
alone. -/
theorem executeOrSleep_error {s s' : Board M} {e : Fault}
    (h : s.executeOrSleep = (.error e, s')) :
    s.cpu.power = .running ∧ s.next?.bind Fetched.request? = none ∧
      s'.cpu.control = s.cpu.control := by
  by_cases hpower : s.cpu.power = .running
  · rw [executeOrSleep, if_pos hpower, executeOne_eq] at h
    obtain ⟨hrequest, hcontrol⟩ := executeOpcode_error h
    rw [next?, if_pos hpower]
    exact ⟨hpower, hrequest, hcontrol.trans (control_fetchOpcode s)⟩
  · rw [executeOrSleep, if_neg hpower] at h
    simp [charge] at h

/-! ### Looking at the interrupts -/

/-- **What looking at the interrupts can do to the control part.** -/
inductive Attends : Attention → Control → Control → Prop
  /-- Nothing is heeded. -/
  | idle (c : Control) : Attends .idle c c
  /-- A button ends STOP, and nothing else is heeded. -/
  | stopEnded {c : Control} : c.power = .stopped → Attends .idle c { c with power := .running }
  /-- A source ends HALT with interrupts disabled. -/
  | haltEnded {c : Control} (source : Interrupt) : c.power = .halted → c.ime = false →
      Attends (.haltEnded source) c { c with power := .running }
  /-- Control passes to a handler. -/
  | dispatched {c : Control} (source : Interrupt) : c.ime = true →
      Attends (.dispatched source) c
        { c with power := .running, ime := false, clock := c.clock + dispatchTicks }

omit [Port M] in
theorem control_endHalt_of_ne_stopped (hpower : s.cpu.power ≠ .stopped) :
    s.endHalt.cpu.control = { s.cpu.control with power := .running } := by
  unfold endHalt
  split
  · rfl
  · have hrunning : s.cpu.control.power = .running := by
      change s.cpu.power = .running
      cases h : s.cpu.power <;> simp_all
    rw [← hrunning]

theorem attend_attends (pending : InterruptSet) (hpower : s.cpu.power ≠ .stopped) :
    Attends (s.attend pending).1 s.cpu.control (s.attend pending).2.cpu.control := by
  cases hsource : s.urgent? pending with
  | none =>
    by_cases hlook : s.cpu.ime = true ∨ s.cpu.power = .halted
    · rw [attend_of_none s pending hlook hsource]
      exact .idle _
    · obtain ⟨hime, hhalted⟩ := not_or.mp hlook
      rw [attend_of_unheeded s pending (by simpa using hime) hhalted]
      exact .idle _
  | some source =>
    cases hime : s.cpu.ime with
    | true =>
      rw [attend_of_dispatched s pending hime hsource]
      have hawake := control_endHalt_of_ne_stopped (s.read enableAddress).2 hpower
      have hdispatch : ∀ b : Board M, ∀ p e,
          (b.dispatch source p e).cpu.control =
            { b.cpu.control with ime := false, clock := b.cpu.control.clock + dispatchTicks } :=
        fun _ _ _ ↦ rfl
      rw [hdispatch, hawake]
      exact .dispatched source hime
    | false =>
      by_cases hhalted : s.cpu.power = .halted
      · rw [attend_of_haltEnded s pending hime hhalted hsource]
        exact .haltEnded source hhalted hime
      · rw [attend_of_unheeded s pending hime hhalted]
        exact .idle _

omit [Port M] in
/-- A CPU that has been in STOP attends as one that has been awake. -/
theorem Attends.of_stopEnded {a : Attention} {c c' : Control} (hpower : c.power = .stopped)
    (h : Attends a { c with power := .running } c') : Attends a c c' := by
  cases h with
  | idle => exact .stopEnded hpower
  | stopEnded h => exact .stopEnded hpower
  | haltEnded source h _ => simp at h
  | dispatched source hime => exact .dispatched source hime

/-- **Looking at the interrupts does one of these things.** -/
theorem serviceInterrupts_attends :
    Attends s.serviceInterrupts.1 s.cpu.control s.serviceInterrupts.2.cpu.control := by
  simp only [serviceInterrupts]
  split
  · next hpower =>
    split
    · exact .of_stopEnded hpower (attend_attends _ _ (by simp [setPower]))
    · exact .idle _
  · next hpower => exact attend_attends _ _ hpower

theorem Attends.clock {a : Attention} {c c' : Control} (h : Attends a c c') :
    c'.clock = c.clock ∨ c'.clock = c.clock + dispatchTicks := by
  cases h with
  | dispatched => exact .inr rfl
  | _ => exact .inl rfl

/-- The requests of the master enable are left alone. -/
theorem Attends.imeQueue_eq {a : Attention} {c c' : Control} (h : Attends a c c') :
    c'.imeQueue = c.imeQueue := by
  cases h <;> rfl

/-- So is the policy. -/
theorem Attends.policy_eq {a : Attention} {c c' : Control} (h : Attends a c c') :
    c'.policy = c.policy := by
  cases h <;> rfl

/-! ### Whole steps -/

theorem control_applyDueIme : s.applyDueIme.cpu.control = s.cpu.control.applyDue := by
  have hpop : s.cpu.control.imeQueue.popDue s.cpu.control.clock =
      s.cpu.imeQueue.popDue s.cpu.clock := rfl
  cases h : s.cpu.imeQueue.popDue s.cpu.clock with
  | none => simp only [applyDueIme, Control.applyDue, hpop, h]
  | some r =>
    simp only [applyDueIme, Control.applyDue, hpop, h]
    rfl

/-- A deferred change of the master enable takes no time. -/
theorem clock_applyDueIme : s.applyDueIme.cpu.clock = s.cpu.clock := by
  unfold applyDueIme
  split <;> rfl

/-- **A step that succeeds.** Once the interrupts have been looked at, an opcode is executed or time
is slept away; the time is charged, and then a deferred change is applied if one is due. -/
theorem step_ok {s s' : Board M} {t : Nat} (h : s.step = (.ok t, s')) :
    ∃ d, IsDuration s.upcoming d ∧ t = s'.cpu.clock - s.cpu.clock ∧
      s'.cpu.control = s.serviceInterrupts.2.cpu.control.pass s.upcoming d := by
  rcases hrun : s.serviceInterrupts.2.executeOrSleep with ⟨_ | d, s₂⟩
  · simp [step, hrun] at h
  · obtain ⟨hd, hcontrol⟩ := executeOrSleep_ok hrun
    simp only [step, hrun] at h
    obtain ⟨ht, rfl⟩ := Prod.mk.inj h
    refine ⟨d, hd, (Except.ok.inj ht).symm, ?_⟩
    rw [control_rollBack, control_applyDueIme, hcontrol]
    rfl

/-- **A step that fails.** It fails at an opcode, after the interrupts have been looked at, and
nothing is charged for the opcode. -/
theorem step_error {s s' : Board M} {e : Fault} (h : s.step = (.error e, s')) :
    s'.cpu.control = s.serviceInterrupts.2.cpu.control ∧ s'.cpu.power = .running := by
  rcases hrun : s.serviceInterrupts.2.executeOrSleep with ⟨_ | d, s₂⟩
  · obtain ⟨hpower, -, hcontrol⟩ := executeOrSleep_error hrun
    obtain rfl : s₂ = s' := by
      simp only [step, hrun] at h
      exact (Prod.mk.inj h).2
    exact ⟨hcontrol, (congrArg Control.power hcontrol).trans hpower⟩
  · simp [step, hrun] at h

/-- **The ticks of a step that succeeds** are those of the opcode, or of sleep, and those of the
dispatch if one has come first. The clock goes forward by as much. -/
theorem ticks_step_ok {s s' : Board M} {t : Nat} (h : s.step = (.ok t, s')) :
    ∃ served d, (served = 0 ∨ served = dispatchTicks) ∧ IsDuration s.upcoming d ∧
      t = served + d ∧ s'.cpu.clock = s.cpu.clock + t := by
  obtain ⟨d, hd, hspent, hcontrol⟩ := step_ok h
  have hclock : s'.cpu.clock = s.serviceInterrupts.2.cpu.control.clock + d :=
    (congrArg Control.clock hcontrol).trans (Control.clock_pass ..)
  have hbefore : s.cpu.control.clock = s.cpu.clock := rfl
  rcases s.serviceInterrupts_attends.clock with hserved | hserved
  · exact ⟨0, d, .inl rfl, hd, by omega, by omega⟩
  · exact ⟨dispatchTicks, d, .inr rfl, hd, by omega, by omega⟩

/-- **The clock moves forward by a multiple of four ticks**, whether a step succeeds or not. -/
theorem clock_step : ∃ d, 4 ∣ d ∧ s.step.2.cpu.clock = s.cpu.clock + d := by
  rcases hstep : s.step with ⟨_ | t, s'⟩
  · have hclock := congrArg Control.clock (step_error hstep).1
    rcases s.serviceInterrupts_attends.clock with hserved | hserved
    · exact ⟨0, Nat.dvd_zero 4, hclock.trans hserved⟩
    · exact ⟨dispatchTicks, by decide, hclock.trans hserved⟩
  · obtain ⟨served, d, hserved, hd, rfl, hclock⟩ := ticks_step_ok hstep
    have hserved : 4 ∣ served := by
      rcases hserved with rfl | rfl <;> decide
    exact ⟨served + d, Nat.dvd_add hserved (isDuration_bounds hd).1, hclock⟩

end Board

end GameBoy
