import GameBoy.Proofs.Machine.Perform
import GameBoy.Proofs.Machine.ReadOnly

/-!
# Sleep that nothing can end

A CPU in HALT that has no source enabled, and a CPU in STOP while no group of buttons is selected,
sleep for ever. The devices go on meanwhile: they count, they request interrupts that nobody heeds,
and a copy that is in progress comes to its end. A change of the master enable that is still waiting
is applied.

`Machine.SleptFrom` is what stays as it was, and `Machine.SleptFrom.doze` is one step of sleep. In
HALT nothing can wake the CPU because nothing reaches the enable register. In STOP only a request of
the joypad could: none is pending, and none comes, for without a selected group no line of the
joypad ever falls (`Joypad.Deselected`).
-/

namespace GameBoy

/-- Letting time pass, and using the buttons. -/
def Operation.plays : Operation → Bool
  | .step | .runForTicks _ | .setButton _ _ => true
  | _ => false

/-- What has been copied when a bus has caught up was still to be copied, or had been copied. -/
theorem Bus.copies_catchUp {c : ObjectCopy.Channel} {bus : Bus} (h : c.Copies bus.channel)
    (hrange : bus.objectCopy.InRange) (target : Nat) : c.Copies (bus.catchUp target).channel :=
  (Peripheral.catchUp_induction (P := ObjectCopy.Channel)
    (motive := fun c' _ ↦ c.Copies c' ∧ c'.engine.InRange)
    (fun _ requests _ hc ↦ ⟨hc.1.advance hc.2 requests, hc.2.advance requests⟩)
    (p := bus.channel) ⟨h, hrange⟩).1

namespace Machine

/-! ### The steps of a list of calls -/

/-- **The steps made in some calls**, one call after the other, each with its result and the machine
that it leads to. -/
def made (m : Machine) : List Operation → List (Except Fault Nat × Machine)
  | [] => []
  | op :: ops =>
    ((Session.steps { machine := m, writes := [] } op).map fun r ↦ (r.1, r.2.machine)) ++
      made (op.apply m) ops

section Induction

variable {Q : Machine → Prop} {ticks : Nat}
  (hstep : ∀ m, Q m → (step m).1 = .ok ticks ∧ Q (step m).2)
include hstep

theorem apply_induction {m : Machine} {op : Operation} (hop : op.makesSteps) (h : Q m) :
    Q (op.apply m) ∧
      ∀ r ∈ Session.steps { machine := m, writes := [] } op,
        r.1 = .ok ticks ∧ Q r.2.machine := by
  obtain ⟨hlast, hsteps⟩ := Session.steps_induction (P := fun s ↦ Q s.machine)
    (fun s hs ↦ (hstep s.machine hs).2) { machine := m, writes := [] } op h
  rw [← Session.apply_of_makesSteps _ hop] at hlast
  refine ⟨hlast, fun r hr ↦ ?_⟩
  obtain ⟨s, hs, rfl⟩ := hsteps r hr
  exact hstep s.machine hs

/-- **All steps are of one kind** if a step keeps what makes it so, and the calls that make no steps
do. -/
theorem made_induction {m : Machine} {ops : List Operation}
    (hcall : ∀ op ∈ ops, op.makesSteps = false → ∀ m, Q m → Q (op.apply m)) (h : Q m) :
    Q (ops.foldl Operation.apply m) ∧ ∀ r ∈ m.made ops, r.1 = .ok ticks ∧ Q r.2 := by
  induction ops generalizing m with
  | nil => exact ⟨h, fun r hr ↦ absurd hr List.not_mem_nil⟩
  | cons op ops ih =>
    have hop : Q (op.apply m) ∧ ∀ r ∈ Session.steps { machine := m, writes := [] } op,
        r.1 = .ok ticks ∧ Q r.2.machine := by
      cases hsteps : op.makesSteps with
      | true => exact apply_induction hstep hsteps h
      | false =>
        refine ⟨hcall op List.mem_cons_self hsteps m h, fun r hr ↦ ?_⟩
        cases op <;> contradiction
    obtain ⟨hlast, hrest⟩ := ih (fun op' hop' ↦ hcall op' (List.mem_cons_of_mem _ hop')) hop.1
    refine ⟨hlast, fun r hr ↦ ?_⟩
    rcases List.mem_append.mp hr with hr | hr
    · obtain ⟨r', hr', rfl⟩ := List.mem_map.mp hr
      exact hop.2 r' hr'
    · exact hrest r hr

end Induction

/-! ### What sleep leaves alone -/

/-- What has not changed while a machine slept. -/
structure SleptFrom (m s : Machine) : Prop where
  /-- The CPU is in the same state of power. -/
  power_eq : s.cpu.power = m.cpu.power
  /-- It has the same registers, the program counter and the flags among them. -/
  regs_eq : s.cpu.regs = m.cpu.regs
  /-- The enable register holds the same byte. -/
  enabled_eq : s.bus.enabled = m.bus.enabled
  /-- Memory is the same but for the bytes of object memory that were still to be copied. -/
  copies : m.bus.channel.Copies s.bus.channel

/-- **The machine sleeps through some calls**: after each step and at the end it is as it was but
for what goes on during sleep, and all steps take four ticks. -/
def SleepsThrough (m : Machine) (ops : List Operation) : Prop :=
  SleptFrom m (ops.foldl Operation.apply m) ∧
    ∀ r ∈ m.made ops, r.1 = .ok 4 ∧ SleptFrom m r.2

variable {m s : Machine}

theorem SleptFrom.refl (m : Machine) : SleptFrom m m := ⟨rfl, rfl, rfl, .refl _⟩

/-- The end of a step changes the master enable at most, and lets the devices catch up. -/
theorem settle_elapse (s : Machine) (ticks : Nat) :
    (settle (Board.elapse s ticks)).cpu.power = s.cpu.power ∧
      (settle (Board.elapse s ticks)).cpu.regs = s.cpu.regs ∧
      (settle (Board.elapse s ticks)).bus = s.bus.catchUp (s.cpu.clock + ticks) := by
  simp only [settle, Board.applyDueIme]
  split <;> exact ⟨rfl, rfl, rfl⟩

/-- **One step of sleep.** -/
theorem SleptFrom.doze (h : SleptFrom m s) (hrange : s.bus.objectCopy.InRange) (ticks : Nat) :
    SleptFrom m (settle (Board.elapse s ticks)) := by
  obtain ⟨hpower, hregs, hbus⟩ := settle_elapse s ticks
  refine ⟨hpower.trans h.power_eq, hregs.trans h.regs_eq, ?_, ?_⟩
  · rw [hbus]
    exact h.enabled_eq
  · rw [hbus]
    exact Bus.copies_catchUp h.copies hrange _

/-- **What makes a machine sleep through some calls**: a step of four ticks keeps it, buttons keep
it, and so do the other calls among them. -/
theorem sleepsThrough_of_kept {Q : Machine → Prop} (hslept : ∀ s, Q s → SleptFrom m s)
    (hstep : ∀ s, Q s → (step s).1 = .ok 4 ∧ Q (step s).2)
    (hbutton : ∀ s button held, Q s → Q (Operation.apply s (.setButton button held)))
    {ops : List Operation} (hops : ∀ op ∈ ops, op.plays ∨ ∀ s, Q s → Q (op.apply s)) (h : Q m) :
    m.SleepsThrough ops := by
  have hcall : ∀ op ∈ ops, op.makesSteps = false → ∀ s, Q s → Q (op.apply s) := by
    intro op hop hsteps s hs
    rcases hops op hop with hplays | hkept
    · cases op with
      | setButton button held => exact hbutton s button held hs
      | _ => contradiction
    · exact hkept s hs
  obtain ⟨hlast, hmade⟩ := made_induction hstep hcall h
  exact ⟨hslept _ hlast, fun r hr ↦ ⟨(hmade r hr).1, hslept _ (hmade r hr).2⟩⟩

/-! ### HALT with nothing enabled -/

/-- A CPU in HALT, as it was at first, with no source enabled. -/
structure HaltsFrom (m s : Machine) : Prop extends SleptFrom m s where
  /-- The CPU is in HALT. -/
  halted : s.cpu.power = .halted
  /-- No source is enabled. -/
  disabled : ∀ i, i ∉ InterruptSet.ofByte s.bus.enabled
  /-- The copying engine is in range. -/
  inRange : s.bus.objectCopy.InRange

theorem HaltsFrom.step (h : HaltsFrom m s) :
    (step s).1 = .ok 4 ∧ HaltsFrom m (step s).2 := by
  have hquiet : ∀ i ∈ InterruptSet.ofByte s.bus.enabled, i ∉ s.bus.requests :=
    fun i hi ↦ absurd hi (h.disabled i)
  obtain ⟨hpower, -, hbus⟩ := settle_elapse s Board.idleTicks
  rw [step_of_halted h.halted hquiet]
  refine ⟨rfl, h.doze h.inRange _, hpower.trans h.halted, ?_, ?_⟩
  · rw [hbus]
    exact h.disabled
  · rw [hbus]
    exact Bus.kept_inRange.catchUp _ _ h.inRange

/-- What is done to the joypad or to the requests keeps a CPU in HALT. -/
theorem HaltsFrom.of_joypad_requests (h : HaltsFrom m s) (joypad : Joypad)
    (requests : InterruptSet) :
    HaltsFrom m { s with bus := { s.bus with joypad, requests } } :=
  ⟨⟨h.power_eq, h.regs_eq, h.enabled_eq, h.copies⟩, h.halted, h.disabled, h.inRange⟩

theorem HaltsFrom.sleepsThrough (h : HaltsFrom m m) {ops : List Operation}
    (hops : ∀ op ∈ ops, op.plays ∨ ∃ sources, op = .request sources) : m.SleepsThrough ops := by
  refine sleepsThrough_of_kept (fun _ ↦ HaltsFrom.toSleptFrom) (fun _ ↦ HaltsFrom.step)
    (fun s button held hs ↦
      hs.of_joypad_requests (s.bus.joypad.setButton button held) s.bus.requests)
    (fun op hop ↦ ?_) h
  rcases hops op hop with hplays | ⟨sources, rfl⟩
  · exact .inl hplays
  · exact .inr fun s hs ↦ hs.of_joypad_requests s.bus.joypad (s.bus.requests ∪ sources)

/-! ### STOP with no group selected -/

/-- A CPU in STOP, as it was at first, with no button to wake it. -/
structure StopsFrom (m s : Machine) : Prop extends SleptFrom m s where
  /-- The CPU is in STOP. -/
  stopped : s.cpu.power = .stopped
  /-- No request of the joypad is pending. -/
  quiet : .joypad ∉ s.bus.requests
  /-- No button is seen. -/
  deselected : s.bus.joypad.Deselected
  /-- The copying engine is in range. -/
  inRange : s.bus.objectCopy.InRange

theorem StopsFrom.step (h : StopsFrom m s) :
    (step s).1 = .ok 4 ∧ StopsFrom m (step s).2 := by
  obtain ⟨hpower, -, hbus⟩ := settle_elapse s Board.idleTicks
  rw [step_of_stopped h.stopped h.quiet]
  refine ⟨rfl, h.doze h.inRange _, hpower.trans h.stopped, ?_, ?_, ?_⟩
  · rw [hbus, Bus.catchUp_eq_advanced]
    intro hpending
    rcases InterruptSet.mem_union.mp hpending with hbefore | hnew
    · exact h.quiet hbefore
    · exact s.bus.joypad_not_mem_requested h.deselected.fallen_eq_zero _ hnew
  · rw [hbus]
    exact h.deselected.catchUp _ _
  · rw [hbus]
    exact Bus.kept_inRange.catchUp _ _ h.inRange

theorem StopsFrom.setButton (h : StopsFrom m s) (button : Button) (held : Bool) :
    StopsFrom m (Operation.apply s (.setButton button held)) :=
  ⟨⟨h.power_eq, h.regs_eq, h.enabled_eq, h.copies⟩, h.stopped, h.quiet,
    h.deselected.setButton button held, h.inRange⟩

theorem StopsFrom.sleepsThrough (h : StopsFrom m m) {ops : List Operation}
    (hops : ∀ op ∈ ops, op.plays) : m.SleepsThrough ops :=
  sleepsThrough_of_kept (fun _ ↦ StopsFrom.toSleptFrom) (fun _ ↦ StopsFrom.step)
    (fun _ button held hs ↦ hs.setButton button held) (fun op hop ↦ .inl (hops op hop)) h

/-! ### Sleep for ever -/

/-- **Sleep that nothing can end.** Whatever has been done to a machine, if its CPU is in HALT and
the enable register names no source, it sleeps through any steps and runs, whichever buttons are
used and whichever interrupts are requested. If it is in STOP, no request of the joypad is pending
and the joypad register selects no group, it sleeps through any steps and runs, whichever buttons
are used. -/
theorem sleep_lasts (config : Config) (before : List Call) :
    let m := (powerOn config).after before
    (m.cpu.power = .halted → m.bus.read 0xFFFF &&& 0x1F = 0 →
      ∀ ops : List Operation, (∀ op ∈ ops, op.plays ∨ ∃ sources, op = .request sources) →
        m.SleepsThrough ops) ∧
    (m.cpu.power = .stopped → .joypad ∉ m.bus.requests → m.bus.read 0xFF00 &&& 0x30 = 0x30 →
      ∀ ops : List Operation, (∀ op ∈ ops, op.plays) → m.SleepsThrough ops) := by
  intro m
  have hrange : m.bus.objectCopy.InRange := inRange_after config before
  refine ⟨fun hpower henabled ops ↦ ?_, fun hpower hquiet hgroups ops ↦ ?_⟩
  · have hread : m.bus.read 0xFFFF = m.bus.enabled := m.bus.read_address .enabled
    rw [hread, ← InterruptSet.toByte_ofByte] at henabled
    exact HaltsFrom.sleepsThrough
      ⟨.refl m, hpower, InterruptSet.toByte_eq_zero_iff.mp henabled, hrange⟩
  · have hread : m.bus.read 0xFF00 = m.bus.joypad.control := m.bus.read_address .joypad
    rw [hread] at hgroups
    exact StopsFrom.sleepsThrough
      ⟨.refl m, hpower, hquiet, Joypad.deselected_of_control hgroups, hrange⟩

/-- A copy is in progress, EI has been executed, and the CPU is put into HALT. -/
def halting : List Call :=
  [.op (.write 0xFF46 0xC0), .op (.write 0xC000 0xFB), .set (.regs { pc := 0xC000 }), .op .step,
    .set (.halted true)]

/-- No group is selected, START is held, and the CPU is put into STOP. -/
def stopping : List Call :=
  [.op (.write 0xFF00 0x30), .op (.setButton .start true), .set (.stopped true)]

theorem sleep_lasts_halted_and_stopped :
    ((powerOn {}).after halting).SleepsThrough
        [.request {.timer}, .step, .setButton .a true, .runForTicks 1000] ∧
      ((powerOn {}).after stopping).SleepsThrough
        [.setButton .start false, .step, .setButton .start true, .runForTicks 1000] := by
  obtain ⟨hhalted, -⟩ := sleep_lasts {} halting
  obtain ⟨-, hstopped⟩ := sleep_lasts {} stopping
  exact ⟨hhalted (by decide) (by decide) _ (by simp [Operation.plays]),
    hstopped (by decide) (by decide) (by decide) _ (by simp [Operation.plays])⟩

end Machine

end GameBoy
