import GameBoy.Proofs.Bus.Time
import GameBoy.Proofs.Cpu.Stages
import GameBoy.Proofs.Machine.Session

/-!
# Lockstep

The CPU moves first and the devices follow. After every step that succeeds they have caught up:
`lockstep` says that the clocks of the timer, the joypad, the display and the copying engine show
what the clock of the CPU shows, and that the serial port, which moves in strides of 512 ticks,
shows the first multiple of 512 that is not behind.

Between two steps less is true, because a step that fails moves the CPU by the ticks of a dispatch
and leaves the devices where they were. What every session keeps (`Session.InStep`) is that the
clock of the CPU is a multiple of four, which every step preserves (`Board.clock_step`), and that no
device is a whole stride ahead of it. From there the next step that succeeds brings all of them
along, however far they have fallen behind.

Two registers show time. The divider shows the hidden counter of the timer, and the line register
the position of the display; both are functions of the clock until a write disturbs them. The
invariant carries this as two implications, whose premises are about the writes since power-on or
the last reset.
-/

namespace GameBoy

/-- Nothing has been written to the divider. -/
def DividerUntouched (writes : List Write) : Prop := ∀ w ∈ writes, w.address ≠ 0xFF04

/-- No write to the display control register has changed its top bit. -/
def DisplayUnswitched (writes : List Write) : Prop :=
  ∀ w ∈ writes, w.address = 0xFF40 → Video.switchesOn w.value = Video.switchesOn w.before

instance (writes : List Write) : Decidable (DividerUntouched writes) :=
  inferInstanceAs (Decidable (∀ w ∈ writes, _))

instance (writes : List Write) : Decidable (DisplayUnswitched writes) :=
  inferInstanceAs (Decidable (∀ w ∈ writes, _ → _))

/-! ### What the writes say about the devices -/

namespace Bus

/-- The two registers that show time are undisturbed as far as the writes go. -/
structure KeepsTime (bus : Bus) (writes : List Write) : Prop where
  /-- The hidden counter is on time unless the divider has been written. -/
  divider : DividerUntouched writes → bus.timer.Undisturbed
  /-- The display is on time unless it has been switched. -/
  display : DisplayUnswitched writes → bus.video.Undisturbed

/-- The two registers at the beginning show the beginning. -/
theorem keepsTime_nil {bus : Bus} (htimer : bus.timer = {}) (hvideo : bus.video = {}) :
    bus.KeepsTime [] where
  divider _ := by
    rw [htimer]
    exact Timer.undisturbed_powerOn
  display _ := by
    rw [hvideo]
    exact Video.undisturbed_powerOn

variable {bus : Bus} {writes : List Write}

/-- What a write disturbs is in the record afterwards. -/
theorem KeepsTime.write (h : bus.KeepsTime writes) (a : UInt16) (v : UInt8) :
    (bus.write a v).KeepsTime (writes ++ [Logged.entry bus a v]) := by
  refine ⟨fun hwrites ↦ ?_, fun hwrites ↦ ?_⟩
  · obtain ⟨hbefore, hnow⟩ := List.forall_mem_append.mp hwrites
    have ha : a ≠ 0xFF04 := hnow (Logged.entry bus a v) (List.mem_singleton_self _)
    exact undisturbed_timer_write (h.divider hbefore) ha v
  · obtain ⟨hbefore, hnow⟩ := List.forall_mem_append.mp hwrites
    refine undisturbed_video_write (h.display hbefore) fun ha ↦ ?_
    have hread : bus.read a = bus.video.control := by
      rw [ha, read_address]
      rfl
    rw [← hread]
    exact hnow (Logged.entry bus a v) (List.mem_singleton_self _) ha

theorem KeepsTime.catchUp (h : bus.KeepsTime writes) (now : Nat) :
    (bus.catchUp now).KeepsTime writes where
  divider hwrites := undisturbed_timer_catchUp (h.divider hwrites) now
  display hwrites := undisturbed_video_catchUp (h.display hwrites) now

end Bus

/-! ### The invariant -/

/-- **What every session keeps.** -/
structure Session.InStep (s : Session) : Prop where
  /-- The clock of the CPU is a multiple of four. -/
  four_dvd : 4 ∣ s.machine.cpu.clock
  /-- No device is a whole stride ahead of the CPU. -/
  notAhead : ∀ d : Device, NotAhead d.stride s.machine.cpu.clock (s.machine.bus.clock d)
  /-- The registers that show time show it unless they have been disturbed. -/
  keepsTime : s.machine.bus.KeepsTime s.writes

/-- What a step of the CPU does to the bus: it takes no time there, and it disturbs a register only
by a write. -/
theorem Board.bus_step (m : Machine) (writes : List Write) (h : m.bus.KeepsTime writes) :
    (∀ d, (Board.step m).2.bus.clock d = m.bus.clock d) ∧
      (Board.step m).2.bus.KeepsTime (writes ++ Board.writes m) := by
  refine Board.step_induction m
    (motive := fun bus now ↦ (∀ d, bus.clock d = m.bus.clock d) ∧ bus.KeepsTime (writes ++ now))
    (fun _ _ _ h ↦ h) (fun bus now a v h ↦ ?_) (fun _ _ _ h ↦ h) ⟨fun _ ↦ rfl, ?_⟩
  · obtain ⟨hclock, hkeeps⟩ := h
    refine ⟨fun d ↦ (bus.clock_write a v d).trans (hclock d), ?_⟩
    rw [← List.append_assoc]
    exact hkeeps.write a v
  · rw [List.append_nil]
    exact h

namespace Session

variable {s s' : Session}

/-- A machine that begins is in step. -/
theorem inStep_of_zero {m : Machine} (hcpu : m.cpu.clock = 0) (hclock : ∀ d, m.bus.clock d = 0)
    (htimer : m.bus.timer = {}) (hvideo : m.bus.video = {}) : InStep ⟨m, []⟩ where
  four_dvd := by
    rw [hcpu]
    exact Nat.dvd_zero 4
  notAhead d := by
    rw [hclock d]
    exact ⟨Nat.dvd_zero _, Nat.add_pos_right _ d.stride_pos⟩
  keepsTime := Bus.keepsTime_nil htimer hvideo

/-- A session begins in step. -/
theorem inStep_powerOn (config : Config) : (powerOn config).InStep :=
  inStep_of_zero rfl (Bus.clock_powerOn config.capture) rfl rfl

theorem inStep_reset (s : Session) : (s.apply .reset).InStep :=
  inStep_of_zero rfl s.machine.bus.clock_reset rfl rfl

/-- A step that succeeds makes every device arrive. -/
theorem InStep.step_ok (h : s.InStep) {t : Nat} (hstep : s.step = (.ok t, s')) :
    s'.InStep ∧
      ∀ d : Device, Arrived d.stride s'.machine.cpu.clock (s'.machine.bus.clock d) := by
  obtain ⟨hclock, hkeeps⟩ := Board.bus_step s.machine s.writes h.keepsTime
  obtain ⟨k, hk, hcpu⟩ := Board.clock_step s.machine
  obtain ⟨m, hrun, hmachine, hwrites⟩ := Session.step_ok hstep
  rw [hrun] at hclock hkeeps hcpu
  have harrived (d : Device) :
      Arrived d.stride s'.machine.cpu.clock (s'.machine.bus.clock d) := by
    rw [hmachine]
    refine m.bus.arrived_catchUp ?_
    rw [hclock d, hcpu]
    exact (h.notAhead d).mono (Nat.le_add_right _ k)
  refine ⟨⟨?_, fun d ↦ (harrived d).notAhead d.stride_pos, ?_⟩, harrived⟩
  · rw [hmachine, hcpu]
    exact Nat.dvd_add h.four_dvd hk
  · rw [hmachine, hwrites]
    exact hkeeps.catchUp m.cpu.clock

/-- A step that fails leaves the devices where they were. -/
theorem InStep.step_error (h : s.InStep) {e : Fault} (hstep : s.step = (.error e, s')) :
    s'.InStep := by
  obtain ⟨hclock, hkeeps⟩ := Board.bus_step s.machine s.writes h.keepsTime
  obtain ⟨k, hk, hcpu⟩ := Board.clock_step s.machine
  obtain ⟨hrun, hwrites⟩ := Session.step_error hstep
  rw [hrun] at hclock hkeeps hcpu
  refine ⟨?_, fun d ↦ ?_, ?_⟩
  · rw [hcpu]
    exact Nat.dvd_add h.four_dvd hk
  · rw [hclock d, hcpu]
    exact (h.notAhead d).mono (Nat.le_add_right _ k)
  · rw [hwrites]
    exact hkeeps

/-- A step of the machine leaves a session in step. -/
theorem InStep.step (h : s.InStep) : s.step.2.InStep := by
  rcases hstep : s.step with ⟨_ | t, s'⟩
  · exact h.step_error hstep
  · exact (h.step_ok hstep).1

/-- A change to the bus that takes no time and keeps the registers that show it keeps the
invariant. -/
theorem InStep.setBus (h : s.InStep) {bus : Bus} {writes : List Write}
    (hclock : ∀ d, bus.clock d = s.machine.bus.clock d) (hkeeps : bus.KeepsTime writes) :
    InStep ⟨{ s.machine with bus }, writes⟩ where
  four_dvd := h.four_dvd
  notAhead d := by
    change NotAhead d.stride s.machine.cpu.clock (bus.clock d)
    rw [hclock d]
    exact h.notAhead d
  keepsTime := hkeeps

/-- Calls that make no step keep the invariant. -/
theorem InStep.apply (h : s.InStep) (op : Operation) (hop : op.makesSteps = false) :
    (s.apply op).InStep := by
  obtain ⟨hdivider, hdisplay⟩ := h.keepsTime
  cases op with
  | step | runForTicks => simp [Operation.makesSteps] at hop
  | setButton button held =>
    exact h.setBus (s.machine.bus.clock_setButton button held) ⟨hdivider, hdisplay⟩
  | loadRom rom => exact h.setBus (s.machine.bus.clock_loadRom rom) ⟨hdivider, hdisplay⟩
  | reset => exact inStep_reset s
  | read a => exact h
  | write a v => exact h.setBus (s.machine.bus.clock_write a v) (h.keepsTime.write a v)
  | request sources => exact h.setBus (s.machine.bus.clock_request sources) ⟨hdivider, hdisplay⟩

/-- **Every session is in step.** -/
theorem inStep_run (config : Config) (ops : List Operation) :
    ((powerOn config).run ops).InStep :=
  run_induction (P := InStep) (fun _ h ↦ h.step) (fun _ op hop h ↦ h.apply op hop) _ ops
    (inStep_powerOn config)

end Session

/-! ### The clocks after a step -/

/-- **Lockstep.** After every step that succeeds, of every session, the clocks of the timer, the
joypad, the display and the copying engine show what the clock of the CPU shows, and the clock of
the serial port shows the first multiple of 512 that is not before it. So the divider and the line
register show the clock, as long as nothing has disturbed them since power-on or the last reset. -/
theorem lockstep {config : Config} {ops : List Operation} {op : Operation} {t : Nat} {s : Session}
    (h : (.ok t, s) ∈ ((Session.powerOn config).run ops).steps op) :
    (s.machine.bus.timer.clock = s.machine.cpu.clock ∧
      s.machine.bus.joypad.clock = s.machine.cpu.clock ∧
      s.machine.bus.video.clock = s.machine.cpu.clock ∧
      s.machine.bus.objectCopy.clock = s.machine.cpu.clock) ∧
    IsLeast { n | 512 ∣ n ∧ s.machine.cpu.clock ≤ n } s.machine.bus.serial.clock ∧
    (DividerUntouched s.writes →
      (s.machine.bus.read 0xFF04).toNat = (0x2AC0 + s.machine.cpu.clock / 4) / 64 % 256) ∧
    (DisplayUnswitched s.writes →
      (s.machine.bus.read 0xFF44).toNat = s.machine.cpu.clock / 456 % 154) := by
  obtain ⟨s₀, h₀, hstep⟩ := (Session.steps_induction (P := Session.InStep) (fun _ h ↦ h.step) _ op
    (Session.inStep_run config ops)).2 _ h
  obtain ⟨hin, harrived⟩ := h₀.step_ok hstep.symm
  have hequal {d : Device} (hd : d ≠ .serial) :
      s.machine.bus.clock d = s.machine.cpu.clock := by
    refine (harrived d).eq_of_dvd ?_
    rw [d.stride_of_ne_serial hd]
    exact hin.four_dvd
  have htimer : s.machine.bus.timer.clock = s.machine.cpu.clock :=
    hequal (d := .timer) (by decide)
  have hvideo : s.machine.bus.video.clock = s.machine.cpu.clock :=
    hequal (d := .video) (by decide)
  have hjoypad : s.machine.bus.joypad.clock = s.machine.cpu.clock :=
    hequal (d := .joypad) (by decide)
  have hcopy : s.machine.bus.objectCopy.clock = s.machine.cpu.clock :=
    hequal (d := .objectCopy) (by decide)
  refine ⟨⟨htimer, hjoypad, hvideo, hcopy⟩, harrived .serial, fun hwrites ↦ ?_, fun hwrites ↦ ?_⟩
  · calc (s.machine.bus.read 0xFF04).toNat
        = s.machine.bus.timer.divider.toNat := congrArg _ (s.machine.bus.read_address .divider)
      _ = (0x2AC0 + s.machine.bus.timer.clock / 4) / 64 % 256 :=
        (hin.keepsTime.divider hwrites).divider
      _ = (0x2AC0 + s.machine.cpu.clock / 4) / 64 % 256 := by rw [htimer]
  · calc (s.machine.bus.read 0xFF44).toNat
        = s.machine.bus.video.lineRegister.toNat := congrArg _ (s.machine.bus.read_address .line)
      _ = s.machine.bus.video.clock / 456 % 154 := (hin.keepsTime.display hwrites).lineRegister
      _ = s.machine.cpu.clock / 456 % 154 := by rw [hvideo]

/-- A session in which an empty program image has been mapped, which reads as 0xFF everywhere. -/
def emptyRom : Session := (Session.powerOn {}).run [.loadRom #[]]

/-- The first byte of the empty image is a call, which writes to the stack. -/
theorem lockstep_of_emptyRom :
    emptyRom.step.1 = .ok 16 ∧ emptyRom.step.2.writes.length = 2 ∧
      emptyRom.step.2.machine.bus.serial.clock = 512 ∧
      (emptyRom.step.2.machine.bus.read 0xFF04).toNat = 0xAB ∧
      (emptyRom.step.2.machine.bus.read 0xFF44).toNat = 0 := by
  have hmem : (.ok 16, emptyRom.step.2) ∈ emptyRom.steps .step := List.mem_singleton_self _
  have hclock : emptyRom.step.2.machine.cpu.clock = 16 := rfl
  obtain ⟨-, hserial, hdivider, hline⟩ := lockstep hmem
  rw [hclock] at hserial hdivider hline
  have hfirst : IsLeast { n | 512 ∣ n ∧ 16 ≤ n } 512 := by
    refine ⟨⟨Nat.dvd_refl 512, by decide⟩, fun n hn ↦ ?_⟩
    obtain ⟨hdvd, hle⟩ := hn
    exact Nat.le_of_dvd (Nat.lt_of_lt_of_le (by decide) hle) hdvd
  exact ⟨rfl, rfl, hserial.unique hfirst, hdivider (by decide), hline (by decide)⟩

end GameBoy
