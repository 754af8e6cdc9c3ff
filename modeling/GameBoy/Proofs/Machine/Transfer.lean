import GameBoy.Proofs.Bus.MemoryMap
import GameBoy.Proofs.Device.Shifting
import GameBoy.Proofs.Machine.Between

/-!
# How long a transfer takes

The serial port shifts a bit at every multiple of 512 ticks, counted from the last reset, and a
write that begins a transfer does not change that. A transfer that begins in a step from tick `t` on
waits for the first multiple that is not before `t`, and its eight bits go from there on.

After the write the port is left to itself. A step that succeeds catches it up (`ran_step`); a step
that fails, and whatever else may be called, leaves it alone unless it writes one of the two
registers of the port or resets it (`ran_run`). So the port is caught up to the ends of the steps
that succeed and to nothing else, and the last of these ticks tells how many bits have gone:
`serial_transfer` says what can be seen of that.
-/

namespace GameBoy

/-- Neither register of the serial port has been written. -/
def SerialUntouched (writes : List Write) : Prop :=
  ∀ w ∈ writes, w.address ≠ 0xFF01 ∧ w.address ≠ 0xFF02

instance (writes : List Write) : Decidable (SerialUntouched writes) :=
  inferInstanceAs (Decidable (∀ w ∈ writes, _ ∧ _))

/-! ### Writes -/

namespace Bus

theorem serial_write {a : UInt16} (h : a ≠ 0xFF01 ∧ a ≠ 0xFF02) (bus : Bus) (v : UInt8) :
    (bus.write a v).serial = bus.serial := by
  refine bus.write_induction (motive := fun b ↦ b.serial = bus.serial) (fun _ _ ↦ rfl)
    (fun r hr ↦ ?_) rfl
  cases r with
  | serialData => exact absurd hr h.1
  | serialControl => exact absurd hr h.2
  | _ => rfl

theorem serial_written {writes : List Write} (h : SerialUntouched writes) (bus : Bus) :
    (bus.written writes).serial = bus.serial := by
  induction writes generalizing bus with
  | nil => rfl
  | cons w writes ih =>
    obtain ⟨hw, hwrites⟩ := List.forall_mem_cons.mp h
    exact (ih hwrites _).trans (bus.serial_write hw w.value)

end Bus

/-! ### Steps and other calls -/

namespace Session

variable {start : Serial} {ticks : List Nat} {n : Nat} {s s' : Session}

theorem serial_boardStep (h : SerialUntouched (Board.writes s.machine)) :
    (Board.step s.machine).2.bus.serial = s.machine.bus.serial := by
  rw [Board.bus_step_eq_written]
  exact Bus.serial_written h _

theorem serial_step_ok {t : Nat} (hstep : s.step = (.ok t, s')) :
    let bus := (Board.step s.machine).2.bus
    s'.machine.bus.serial = bus.serial.after (bus.advances s'.machine.cpu.clock .serial) := by
  intro bus
  rw [bus_step_ok hstep, Bus.catchUp_eq_advanced]
  exact (bus.serial.advanced_eq _).1

/-- The port as the CPU leaves it is caught up at the end of a step that succeeds. -/
theorem ran_step_ok {t : Nat} (hin : s.InStep) (hstep : s.step = (.ok t, s'))
    (h : start.Ran ticks n (Board.step s.machine).2.bus.serial) :
    ∃ m, start.Ran (ticks ++ [s'.machine.cpu.clock]) m s'.machine.bus.serial := by
  have harrived := (hin.step_ok hstep).2 .serial
  rw [Bus.clock, serial_step_ok hstep] at harrived
  rw [serial_step_ok hstep]
  exact ⟨_, h.catchUp harrived⟩

/-- **A step that does not write to the port.** If it fails, the port is not caught up. -/
theorem ran_step (hin : s.InStep) (hwrites : SerialUntouched (Board.writes s.machine))
    (h : start.Ran ticks n s.machine.bus.serial) :
    ∃ m, start.Ran (ticks ++ s.ends [.step]) m (s.run [.step]).machine.bus.serial := by
  rw [← serial_boardStep hwrites] at h
  rcases hstep : s.step with ⟨e | t, s'⟩
  · have hrun : (s.run [.step]).machine = (Board.step s.machine).2 := by
      rw [(step_error hstep).1]
      exact congrArg (fun r ↦ r.2.machine) hstep
    have hends : s.ends [.step] = [] := by
      rw [ends, steps, hstep]
      rfl
    rw [hends, hrun, List.append_nil]
    exact ⟨n, h⟩
  · rw [ends_step_cons hstep, run_step_cons hstep]
    exact ran_step_ok hin hstep h

/-- A call that makes one step at most and leaves the registers of the port alone. -/
theorem ran_call {op : Operation} {now : List Write} (hin : s.InStep) (hreset : op ≠ .reset)
    (hrun : ∀ k, op ≠ .runForTicks k) (hwrites : (s.run [op]).writes = s.writes ++ now)
    (hnow : SerialUntouched now) (h : start.Ran ticks n s.machine.bus.serial) :
    ∃ m, start.Ran (ticks ++ s.ends [op]) m (s.run [op]).machine.bus.serial := by
  have hkept (hends : s.ends [op] = [])
      (hserial : (s.run [op]).machine.bus.serial = s.machine.bus.serial) :
      ∃ m, start.Ran (ticks ++ s.ends [op]) m (s.run [op]).machine.bus.serial := by
    rw [hends, hserial, List.append_nil]
    exact ⟨n, h⟩
  cases op with
  | step =>
    refine ran_step hin ?_ h
    rwa [List.append_cancel_left hwrites]
  | runForTicks k => exact absurd rfl (hrun k)
  | reset => exact absurd rfl hreset
  | write a v =>
    refine hkept rfl (Bus.serial_write ?_ s.machine.bus v)
    rw [← List.append_cancel_left hwrites] at hnow
    exact hnow _ (List.mem_singleton_self _)
  | setButton | loadRom | read | request => exact hkept rfl rfl

/-- **A port that is left to itself over some calls.** -/
theorem ran_run {ops : List Operation} {late : List Write} (hin : s.InStep)
    (hreset : .reset ∉ ops) (hrun : ∀ k, .runForTicks k ∉ ops)
    (hwrites : (s.run ops).writes = s.writes ++ late) (hlate : SerialUntouched late)
    (h : start.Ran ticks n s.machine.bus.serial) :
    ∃ m, start.Ran (ticks ++ s.ends ops) m (s.run ops).machine.bus.serial := by
  induction ops generalizing s ticks n late with
  | nil => exact ⟨n, (List.append_nil ticks).symm ▸ h⟩
  | cons op ops ih =>
    obtain ⟨now, rest, rfl, hnow, hrest⟩ := writes_run_cons hreset hwrites
    obtain ⟨hop, hops⟩ := not_or.mp (mt List.mem_cons.mpr hreset)
    obtain ⟨hnow', hrest'⟩ := List.forall_mem_append.mp hlate
    obtain ⟨m, hm⟩ := ran_call hin (Ne.symm hop)
      (fun k hk ↦ hrun k (hk ▸ List.mem_cons_self)) hnow hnow' h
    obtain ⟨m', hm'⟩ := ih (hin.run [op]) hops (fun k hk ↦ hrun k (List.mem_cons_of_mem _ hk))
      hrest hrest' hm
    refine ⟨m', ?_⟩
    rw [← List.singleton_append, ends_append, ← List.append_assoc]
    exact hm'

/-! ### Before the transfer -/

theorem Settled.arrived {past : List Operation} (h : s.Settled past) (hin : s.InStep)
    (hrun : ∀ k, .runForTicks k ∉ past) :
    Arrived Serial.stride (s.run past).machine.cpu.clock
      (s.run past).machine.bus.serial.clock :=
  h.arrived_clock hin hrun .serial

/-! ### The transfer -/

/-- **A transfer begins in a step**: the step succeeds and leads to `s₁`, and after the writes
`early` the CPU makes the write `w`, which begins the transfer. -/
structure BeginsTransfer (s s₁ : Session) (early : List Write) (w : Write) : Prop where
  /-- The step succeeds. -/
  step_eq : ∃ t, s.step = (.ok t, s₁)
  /-- The write is the last one of the step to a register of the port. -/
  writes_eq : ∃ late, Board.writes s.machine = (early ++ [w]) ++ late ∧ SerialUntouched late
  /-- It goes to the control register. -/
  address_eq : w.address = 0xFF02
  /-- It asks for a transfer under the port's own clock. -/
  begins : Serial.begins w.value = true

namespace BeginsTransfer

variable {s₁ : Session} {early : List Write} {w : Write} (h : s.BeginsTransfer s₁ early w)
include h

/-- The port when the transfer has just begun. -/
theorem serial_written :
    let p := (s.machine.bus.written (early ++ [w])).serial
    p.bitsLeft = 8 ∧ p.requested = true ∧ p.internalClock = true ∧
      p.clock = s.machine.bus.serial.clock := by
  have hwritten : s.machine.bus.written (early ++ [w]) =
      (s.machine.bus.written early).writeRegister .serialControl w.value := by
    rw [Bus.written_append, ← Bus.write_address]
    show (s.machine.bus.written early).write w.address w.value = _
    rw [h.address_eq]
    rfl
  have hport : (s.machine.bus.written (early ++ [w])).serial =
      (s.machine.bus.written early).serial.setControl w.value := by
    rw [hwritten]
    rfl
  have hclock := s.machine.bus.clock_written (early ++ [w]) .serial
  obtain ⟨hstart, hinternal⟩ := Bool.and_eq_true_iff.mp h.begins
  refine ⟨?_, ?_, ?_, hclock⟩
  all_goals rw [hport, Serial.setControl, if_pos h.begins]
  · exact hstart
  · exact hinternal

/-- What is left of the step does not touch the port. -/
theorem serial_boardStep :
    (Board.step s.machine).2.bus.serial = (s.machine.bus.written (early ++ [w])).serial := by
  obtain ⟨late, hwrites, hlate⟩ := h.writes_eq
  rw [Board.bus_step_eq_written, hwrites, Bus.written_append]
  exact Bus.serial_written hlate _

/-- **Up to a later step**, or to the same, the port is left to itself but for being caught up. -/
theorem ran {rest earlier : List Operation} {later : List Write} {t : Nat} (hin : s.InStep)
    (hcalls : .step :: rest = earlier ++ [.step]) (hreset : .reset ∉ rest)
    (hrun : ∀ k, .runForTicks k ∉ rest) (hstep : (s.run earlier).step = (.ok t, s'))
    (hwrites : s'.writes = s₁.writes ++ later) (hlater : SerialUntouched later) :
    ∃ n, (s.machine.bus.written (early ++ [w])).serial.Ran (s.ends earlier) n
      (Board.step (s.run earlier).machine).2.bus.serial := by
  rcases List.cons_eq_append_iff.mp hcalls with ⟨rfl, -⟩ | ⟨others, rfl, rfl⟩
  · refine ⟨0, ?_⟩
    rw [run, List.foldl_nil, h.serial_boardStep]
    exact Serial.ran_refl _
  · obtain ⟨t₁, hstep₁⟩ := h.step_eq
    rw [run_step_cons hstep₁] at hstep ⊢
    rw [ends_step_cons hstep₁]
    obtain ⟨hothers, -⟩ := not_or.mp (mt List.mem_append.mpr hreset)
    -- The writes are those of the calls between the two steps and then those of the last one.
    obtain ⟨mid, hmid⟩ := s₁.writes_prefix_run hothers
    have hlast : s'.writes = (s₁.run others).writes ++ Board.writes (s₁.run others).machine :=
      (congrArg (fun r ↦ r.2.writes) hstep).symm
    have hlist : s₁.writes ++ (mid ++ Board.writes (s₁.run others).machine) =
        s₁.writes ++ later := by
      rw [← hwrites, ← List.append_assoc, hmid, hlast]
    obtain rfl := List.append_cancel_left hlist
    obtain ⟨hquiet, hquiet'⟩ := List.forall_mem_append.mp hlater
    obtain ⟨_, hfirst⟩ := ran_step_ok hin hstep₁ (Serial.ran_refl _)
    rw [h.serial_boardStep] at hfirst
    rw [Session.serial_boardStep hquiet']
    exact ran_run (hin.step_ok hstep₁).1 hothers
      (fun k hk ↦ hrun k (List.mem_append_left _ hk)) hmid.symm hquiet hfirst

end BeginsTransfer

/-- **How long a transfer takes.** Take a session, its runs step by step, and in it two steps that
succeed, or the same one twice. The first one begins at tick `t`, the step before it having
succeeded unless `t` is 0, and begins a transfer; the last one ends at tick `u`. Meanwhile neither
register of the port is written again and the machine is not reset. Let `S` be the first multiple of
512 that is not before `t`, and `v` the byte in the data register when the transfer begins.

Then no bit has gone up to tick `S`, and from there on one goes every 512 ticks, the first one at
once: there are `n` by tick `u`, and the data register shows `v` with so many ones shifted in. The
port is busy up to tick `S + 3584`, which the control register shows as well; and the devices
request the serial interrupt in the step that is the first to end later than that, and in no other. -/
theorem serial_transfer {config : Config} {ops past rest earlier : List Operation}
    {s₀ s₁ s s' : Session} {early later : List Write} {w : Write} {t S : Nat}
    (hops : past ++ .step :: rest <+: (powerOn config).unrolled ops)
    (hcalls : .step :: rest = earlier ++ [.step])
    (hs₀ : s₀ = (powerOn config).run past) (hsettled : (powerOn config).Settled past)
    (hbegins : s₀.BeginsTransfer s₁ early w)
    (hs : s = s₀.run earlier) (hstep : s.step = (.ok t, s'))
    (hreset : .reset ∉ rest) (hwrites : s'.writes = s₁.writes ++ later)
    (hlater : SerialUntouched later)
    (hS : IsLeast { n | 512 ∣ n ∧ s₀.machine.cpu.clock ≤ n } S) :
    let v := (s₀.machine.bus.written (early ++ [w])).read 0xFF01
    let u := s'.machine.cpu.clock
    let n := if u ≤ S then 0 else min 8 ((u - S + 511) / 512)
    let bus := (Board.step s.machine).2.bus
    let raised := bus.requested (bus.advances u)
    s'.machine.bus.serial.bitsLeft = 8 - n ∧
      (s'.machine.bus.read 0xFF01).toNat = v.toNat * 2 ^ n % 256 + 2 ^ n - 1 ∧
      (s'.machine.bus.serial.active = true ↔ u ≤ S + 3584) ∧
      s'.machine.bus.read 0xFF02 = (if u ≤ S + 3584 then 0xFF else 0x7F) ∧
      s'.machine.bus.requests = bus.requests ∪ raised ∧
      (.serial ∈ raised ↔ S + 3584 < u ∧ ∀ u' ∈ s₀.ends earlier, u' ≤ S + 3584) := by
  intro v u n bus raised
  subst hs₀ hs
  have hno (k : Nat) : .runForTicks k ∉ past ++ .step :: rest :=
    fun hk ↦ (powerOn config).not_mem_unrolled ops k (hops.subset hk)
  have hin := inStep_run config past
  have hclock : ((powerOn config).run past).machine.bus.serial.clock = S :=
    (hsettled.arrived (inStep_powerOn config)
      fun k hk ↦ hno k (List.mem_append_left _ hk)).unique hS
  obtain ⟨hbits, hrequested, hinternal, hstart⟩ := hbegins.serial_written
  obtain ⟨k, hran⟩ := hbegins.ran hin hcalls hreset
    (fun k hk ↦ hno k (List.mem_append_right _ (List.mem_cons_of_mem _ hk))) hstep hwrites hlater
  have harrived := ((hin.run earlier).step_ok hstep).2 .serial
  rw [Bus.clock, serial_step_ok hstep] at harrived
  obtain ⟨hleft, hdata, hactive, hcontrol, hraised⟩ :=
    hran.transfer hbits hrequested hinternal harrived
  rw [← serial_step_ok hstep, hstart, hclock] at hleft hdata hactive hcontrol
  rw [hstart, hclock] at hraised
  have hv : v = _ := Bus.read_address _ .serialData
  refine ⟨hleft, ?_, hactive, ?_, ?_, ?_⟩
  · rw [hv]
    exact (congrArg _ (Bus.read_address _ .serialData)).trans hdata
  · exact (Bus.read_address _ .serialControl).trans hcontrol
  · rw [bus_step_ok hstep, Bus.catchUp_eq_advanced]
    rfl
  · rw [bus.mem_requested_iff_of_source (d := .serial) (by decide)]
    exact hraised

/-- A program that stores the stack pointer, 0xFFFE, in the two registers of the serial port. The
high byte begins the transfer of the low byte, in the first step. -/
def lowByteSender : Array UInt8 := Array.replicate 0x100 0x00 ++ #[0x08, 0x01, 0xFF, 0x00]

/-- A session in which the program has been mapped. -/
def sendingLowByte : Session := (powerOn {}).run [.loadRom lowByteSender]

set_option maxRecDepth 4000 in
theorem serial_transfer_of_sendingLowByte :
    let s := sendingLowByte.step.2.step.2
    s.machine.cpu.clock = 24 ∧ s.machine.bus.serial.bitsLeft = 7 ∧
      (s.machine.bus.read 0xFF01).toNat = 0xFD ∧ s.machine.bus.serial.active = true ∧
      s.machine.bus.read 0xFF02 = 0xFF := by
  intro s
  have hops : [.loadRom lowByteSender] ++ .step :: [.step] <+:
      (powerOn {}).unrolled [.loadRom lowByteSender, .step, .step] := ⟨[], rfl⟩
  have hcalls : .step :: [.step] = [.step] ++ [Operation.step] := rfl
  have hbegins : sendingLowByte.BeginsTransfer sendingLowByte.step.2 [⟨0xFF01, 0x00, 0xFE⟩]
      ⟨0xFF02, 0x7E, 0xFF⟩ :=
    ⟨⟨20, rfl⟩, ⟨[], rfl, by decide⟩, rfl, rfl⟩
  have hwrites : s.writes = sendingLowByte.step.2.writes ++ [] := rfl
  have hstep : sendingLowByte.step.2.step = (.ok 4, s) := rfl
  have hstart : IsLeast { n | 512 ∣ n ∧ sendingLowByte.machine.cpu.clock ≤ n } 0 :=
    ⟨⟨Nat.dvd_zero 512, Nat.le_refl 0⟩, fun n _ ↦ Nat.zero_le n⟩
  have hclock : s.machine.cpu.clock = 24 := rfl
  obtain ⟨hleft, hdata, hactive, hcontrol, -, -⟩ :=
    serial_transfer hops hcalls rfl (.inl rfl) hbegins rfl hstep (by simp) hwrites (by decide)
      hstart
  rw [hclock] at hleft hdata hactive hcontrol
  exact ⟨hclock, hleft, hdata, hactive.mpr (by decide), hcontrol⟩

end Session

end GameBoy
