import GameBoy.Proofs.Machine.Lockstep
import GameBoy.Proofs.Machine.Unrolled

/-!
# Between two steps

A device that a program has begun to use is followed from one step to a later one. What the CPU does
to the bus in a step are its writes (`Board.bus_step_eq_written`), and if the step succeeds the bus
catches up afterwards (`Session.bus_step_ok`). Between steps there are the other calls, which write
a byte, take no time or begin anew. So what is left alone by all writes but those to one address is
left alone over any calls that do not write there and are no reset (`Bus.KeptUnless.run`).

Before its first use a device has arrived at the tick that the clock shows, if the step before has
succeeded (`Session.Settled`).
-/

namespace GameBoy

/-! ### Writes one after the other -/

namespace Bus

/-- The bus after some writes. -/
def written (bus : Bus) (writes : List Write) : Bus :=
  writes.foldl (fun bus w ↦ bus.write w.address w.value) bus

/-- Writes are made one after the other. -/
theorem written_append (bus : Bus) (writes later : List Write) :
    bus.written (writes ++ later) = (bus.written writes).written later :=
  List.foldl_append

/-- Writes take no time. -/
theorem clock_written (bus : Bus) (writes : List Write) (d : Device) :
    (bus.written writes).clock d = bus.clock d := by
  induction writes generalizing bus with
  | nil => rfl
  | cons w writes ih => exact (ih _).trans (bus.clock_write ..)

end Bus

/-- **All that a step of the CPU does to the bus are its writes.** -/
theorem Board.bus_step_eq_written (m : Machine) :
    (Board.step m).2.bus = m.bus.written (Board.writes m) := by
  refine Board.step_induction m (motive := fun bus writes ↦ bus = m.bus.written writes)
    (fun _ _ _ h ↦ h) (fun bus writes a v h ↦ ?_) (fun _ _ _ h ↦ h) rfl
  rw [Bus.written_append, ← h]
  rfl

namespace Session

variable {s s' : Session}

/-- **A session stays in step**, whatever is done. -/
theorem InStep.run (h : s.InStep) (ops : List Operation) : (s.run ops).InStep :=
  run_induction (P := InStep) (fun _ h ↦ h.step) (fun _ op hop h ↦ h.apply op hop) _ ops h

/-- What the CPU leaves on the bus is caught up. -/
theorem bus_step_ok {t : Nat} (hstep : s.step = (.ok t, s')) :
    s'.machine.bus = (Board.step s.machine).2.bus.catchUp s'.machine.cpu.clock := by
  obtain ⟨m, hrun, hmachine, -⟩ := step_ok hstep
  rw [hrun, hmachine]

end Session

/-! ### What is kept unless an address is written -/

/-- A property of the bus that everything keeps but a reset and a write to one address. -/
structure Bus.KeptUnless (a : UInt16) (P : Bus → Prop) : Prop where
  /-- A write to another address keeps it. -/
  write : ∀ bus b v, b ≠ a → P bus → P (bus.write b v)
  /-- Catching up keeps it. -/
  catchUp : ∀ bus target, P bus → P (bus.catchUp target)
  /-- A button that is pressed or released keeps it. -/
  setButton : ∀ bus button held, P bus → P (bus.setButton button held)
  /-- A program image that is mapped keeps it. -/
  loadRom : ∀ bus rom, P bus → P (bus.loadRom rom)
  /-- A request from outside keeps it. -/
  request : ∀ bus sources, P bus → P (bus.request sources)

namespace Bus.KeptUnless

variable {a : UInt16} {P : Bus → Prop} (h : KeptUnless a P)
include h

/-- What a write elsewhere keeps is kept by all writes elsewhere. -/
theorem written {writes : List Write} (hwrites : ∀ w ∈ writes, w.address ≠ a) {bus : Bus}
    (hbus : P bus) : P (bus.written writes) := by
  induction writes generalizing bus with
  | nil => exact hbus
  | cons w writes ih =>
    obtain ⟨hw, hwrites⟩ := List.forall_mem_cons.mp hwrites
    exact ih hwrites (h.write bus w.address w.value hw hbus)

/-- A step keeps it, whether it succeeds or fails. -/
theorem step {s : Session} (hwrites : ∀ w ∈ Board.writes s.machine, w.address ≠ a)
    (hbus : P s.machine.bus) : P s.step.2.machine.bus := by
  have hboard : P (Board.step s.machine).2.bus := by
    rw [Board.bus_step_eq_written]
    exact h.written hwrites hbus
  rcases hstep : s.step with ⟨e | t, s'⟩
  · obtain ⟨hrun, -⟩ := Session.step_error hstep
    rw [hrun] at hboard
    exact hboard
  · show P s'.machine.bus
    rw [Session.bus_step_ok hstep]
    exact h.catchUp _ _ hboard

theorem call {s : Session} {op : Operation} {now : List Write} (hreset : op ≠ .reset)
    (hrun : ∀ k, op ≠ .runForTicks k) (hwrites : (s.apply op).writes = s.writes ++ now)
    (hnow : ∀ w ∈ now, w.address ≠ a) (hbus : P s.machine.bus) : P (s.apply op).machine.bus := by
  cases op with
  | step =>
    obtain rfl := List.append_cancel_left hwrites
    exact h.step hnow hbus
  | runForTicks k => exact absurd rfl (hrun k)
  | reset => exact absurd rfl hreset
  | write b v =>
    obtain rfl := List.append_cancel_left hwrites
    exact h.write _ b v (hnow _ (List.mem_singleton_self _)) hbus
  | setButton button held => exact h.setButton _ button held hbus
  | loadRom rom => exact h.loadRom _ rom hbus
  | request sources => exact h.request _ sources hbus
  | read b => exact hbus

/-- **Some calls keep it** that do not write to the address. -/
theorem run {s : Session} {ops : List Operation} {late : List Write} (hreset : .reset ∉ ops)
    (hrun : ∀ k, .runForTicks k ∉ ops) (hwrites : (s.run ops).writes = s.writes ++ late)
    (hlate : ∀ w ∈ late, w.address ≠ a) (hbus : P s.machine.bus) : P (s.run ops).machine.bus := by
  induction ops generalizing s late with
  | nil => exact hbus
  | cons op ops ih =>
    obtain ⟨now, rest, rfl, hnow, hrest⟩ := Session.writes_run_cons hreset hwrites
    obtain ⟨hop, hops⟩ := not_or.mp (mt List.mem_cons.mpr hreset)
    obtain ⟨hnow', hrest'⟩ := List.forall_mem_append.mp hlate
    refine ih hops (fun k hk ↦ hrun k (List.mem_cons_of_mem op hk)) hrest hrest' ?_
    exact h.call (Ne.symm hop) (fun k hk ↦ hrun k (hk ▸ List.mem_cons_self)) hnow hnow' hbus

end Bus.KeptUnless

/-! ### After a step that succeeds -/

namespace Session

variable {s : Session}

/-- The calls `past` lead to a moment at which the clock shows 0 or the last step has succeeded. -/
def Settled (s : Session) (past : List Operation) : Prop :=
  (s.run past).machine.cpu.clock = 0 ∨
    ∃ before after t s', past = before ++ .step :: after ∧ .step ∉ after ∧
      (s.run before).step = (.ok t, s')

/-- What makes no step and mostly takes no time leaves a device where it is, or begins anew. -/
theorem arrived_run {ops : List Operation} {d : Device} (hstep : .step ∉ ops)
    (hrun : ∀ k, .runForTicks k ∉ ops)
    (h : Arrived d.stride s.machine.cpu.clock (s.machine.bus.clock d)) :
    Arrived d.stride (s.run ops).machine.cpu.clock ((s.run ops).machine.bus.clock d) := by
  induction ops generalizing s with
  | nil => exact h
  | cons op ops ih =>
    obtain ⟨hop, hops⟩ := not_or.mp (mt List.mem_cons.mpr hstep)
    refine ih hops (fun k hk ↦ hrun k (List.mem_cons_of_mem _ hk)) ?_
    have hkept {bus : Bus} (hclock : bus.clock d = s.machine.bus.clock d) :
        Arrived d.stride s.machine.cpu.clock (bus.clock d) := by
      rw [hclock]
      exact h
    cases op with
    | step => exact absurd rfl hop
    | runForTicks k => exact absurd List.mem_cons_self (hrun k)
    | reset =>
      show Arrived d.stride 0 (s.machine.bus.reset.clock d)
      rw [Bus.clock_reset]
      exact ⟨⟨Nat.dvd_zero _, Nat.le_refl 0⟩, fun _ _ ↦ Nat.zero_le _⟩
    | write a v => exact hkept (s.machine.bus.clock_write a v d)
    | setButton button held => exact hkept (s.machine.bus.clock_setButton button held d)
    | loadRom rom => exact hkept (s.machine.bus.clock_loadRom rom d)
    | request sources => exact hkept (s.machine.bus.clock_request sources d)
    | read a => exact h

/-- **A device has arrived** at such a moment. -/
theorem Settled.arrived_clock {past : List Operation} (h : s.Settled past) (hin : s.InStep)
    (hrun : ∀ k, .runForTicks k ∉ past) (d : Device) :
    Arrived d.stride (s.run past).machine.cpu.clock ((s.run past).machine.bus.clock d) := by
  rcases h with hzero | ⟨before, after, t, s', rfl, hafter, hstep⟩
  · have hahead := (hin.run past).notAhead d
    rw [hzero] at hahead ⊢
    exact hahead.arrived (Nat.zero_le _)
  · have harrived := ((hin.run before).step_ok hstep).2 d
    rw [run_append, run_step_cons hstep]
    refine arrived_run hafter (fun k hk ↦ hrun k ?_) harrived
    exact List.mem_append_right _ (List.mem_cons_of_mem _ hk)

end Session

end GameBoy
