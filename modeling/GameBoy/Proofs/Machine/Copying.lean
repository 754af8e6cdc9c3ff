import GameBoy.Proofs.Bus.Copying
import GameBoy.Proofs.Machine.Between

/-!
# How long a copy takes

The copying engine advances every four ticks, and after a step that succeeds it shows the tick that
the CPU shows. So a copy that begins in a step from tick `t` on has come as far as the ticks since
then say, and its 160 bytes take 640 ticks.

The engine is left to itself after the write. Whatever is called but a reset, and whatever is
written but the copy register, the number of its advances is all that changes
(`Bus.keptUnless_begun`).
-/

namespace GameBoy

/-- **A copy goes on** unless the copy register is written again. -/
theorem Bus.keptUnless_begun (v : UInt8) (start : Nat) :
    KeptUnless 0xFF46 fun bus ↦ ∃ i, ObjectCopy.Begun v start i bus.objectCopy where
  write bus b byte hb := by
    rintro ⟨i, hbegun⟩
    exact ⟨i, by rwa [bus.objectCopy_write hb]⟩
  catchUp bus target := by
    rintro ⟨i, hbegun⟩
    have hleaves : (Use.catchUp target).LeavesCopy := trivial
    exact ⟨_, begun_use hbegun hleaves⟩
  setButton _ _ _ h := h
  loadRom _ _ h := h
  request _ _ h := h

/-! ### A copy in a session -/

namespace Session

variable {s s₁ : Session}

/-- The copy register has not been written. -/
def CopyUntouched (writes : List Write) : Prop := ∀ w ∈ writes, w.address ≠ 0xFF46

instance (writes : List Write) : Decidable (CopyUntouched writes) :=
  inferInstanceAs (Decidable (∀ w ∈ writes, _))

/-- **A copy begins in a step**: the step succeeds and leads to `s₁`, and the write `w` is the last
one that the CPU makes in it to the copy register. -/
structure BeginsCopy (s s₁ : Session) (w : Write) : Prop where
  /-- The step succeeds. -/
  step_eq : ∃ t, s.step = (.ok t, s₁)
  /-- After the write there are others at most. -/
  writes_eq : ∃ early late, Board.writes s.machine = early ++ w :: late ∧ CopyUntouched late
  /-- It goes to the copy register. -/
  address_eq : w.address = 0xFF46

/-- At the end of the step in which it begins a copy is on its way. -/
theorem BeginsCopy.begun {w : Write} (h : s.BeginsCopy s₁ w) :
    ∃ i, ObjectCopy.Begun w.value (s.machine.bus.clock .objectCopy) i
      s₁.machine.bus.objectCopy := by
  obtain ⟨t, hstep⟩ := h.step_eq
  obtain ⟨early, late, hwrites, hlate⟩ := h.writes_eq
  have hkept := Bus.keptUnless_begun w.value (s.machine.bus.clock .objectCopy)
  rw [bus_step_ok hstep, Board.bus_step_eq_written, hwrites, Bus.written_append]
  refine hkept.catchUp _ _ (hkept.written hlate ⟨0, ?_⟩)
  have hbegun := (s.machine.bus.written early).begun_write w.value
  rw [Bus.clock_written, ← h.address_eq] at hbegun
  exact hbegun

/-- It stays so over some calls. -/
theorem BeginsCopy.begun_run {w : Write} {rest : List Operation} {later : List Write}
    (h : s.BeginsCopy s₁ w) (hreset : .reset ∉ rest) (hrun : ∀ k, .runForTicks k ∉ rest)
    (hwrites : (s₁.run rest).writes = s₁.writes ++ later) (hlater : CopyUntouched later) :
    ∃ i, ObjectCopy.Begun w.value (s.machine.bus.clock .objectCopy) i
      (s₁.run rest).machine.bus.objectCopy :=
  (Bus.keptUnless_begun w.value _).run hreset hrun hwrites hlater h.begun

/-- **What a copy copies, and how long it takes.** When a byte `v` is written to the copy register
of any bus, and the bus is then read, written at other addresses and caught up in whatever way, the
next advance of the engine is at every moment the one that belongs to the number of advances that it
has made since (`Bus.Copying`); and these moments include those in the middle of a catch-up, which
only makes so many advances of each device.

Now take a session, its runs step by step, and in it two steps that succeed, or the same one twice.
The first one begins at tick `t`, the step before it having succeeded unless `t` is 0, and writes
the copy register; the last one ends at tick `u`; and meanwhile the register is not written again
and the machine is not reset. Then a copy is in progress if and only if `u` is before `t + 640`. -/
theorem object_copy :
    (∀ (bus : Bus) (v : UInt8) (later : List Bus.Use), (∀ use ∈ later, use.LeavesCopy) →
      let begun := bus.write 0xFF46 v
      let bus' := begun.after later
      (∀ n : Device → Nat,
        Bus.Copying v (begun.advancesIn .objectCopy later + n .objectCopy) (bus'.advanced n)) ∧
      ∀ target, bus'.catchUp target = bus'.advanced (bus'.advances target)) ∧
    ∀ (config : Config) (ops past rest earlier : List Operation) (s₀ s₁ s s' : Session) (w : Write)
      (later : List Write) (ticks : Nat),
      past ++ .step :: rest <+: (powerOn config).unrolled ops →
      .step :: rest = earlier ++ [.step] →
      s₀ = (powerOn config).run past → (powerOn config).Settled past →
      s₀.BeginsCopy s₁ w →
      s = s₀.run earlier → s.step = (.ok ticks, s') →
      .reset ∉ rest → s'.writes = s₁.writes ++ later → CopyUntouched later →
      (s'.machine.bus.objectCopy.active = true ↔
        s'.machine.cpu.clock < s₀.machine.cpu.clock + 640) := by
  refine ⟨?_, ?_⟩
  · intro bus v later hlater begun bus'
    exact ⟨bus.copying_after_write v hlater, bus'.catchUp_eq_advanced⟩
  · intro config ops past rest earlier s₀ s₁ s s' w later ticks hops hcalls hs₀ hsettled hbegins hs
      hstep hreset hwrites hlater
    subst hs₀ hs
    have hno (k : Nat) : .runForTicks k ∉ past ++ .step :: rest :=
      fun hk ↦ (powerOn config).not_mem_unrolled ops k (hops.subset hk)
    have hin := inStep_run config past
    -- The engine shows the tick at which the first step begins, and the one at which the last ends.
    have hstart : ((powerOn config).run past).machine.bus.clock .objectCopy =
        ((powerOn config).run past).machine.cpu.clock :=
      (hsettled.arrived_clock (inStep_powerOn config)
        (fun k hk ↦ hno k (List.mem_append_left _ hk)) .objectCopy).eq_of_dvd hin.four_dvd
    obtain ⟨hin', harrived⟩ := (hin.run earlier).step_ok hstep
    have hend : s'.machine.bus.objectCopy.clock = s'.machine.cpu.clock :=
      (harrived .objectCopy).eq_of_dvd hin'.four_dvd
    have hrun : s₁.run rest = s' := by
      obtain ⟨t, hfirst⟩ := hbegins.step_eq
      rw [← run_step_cons hfirst, hcalls, run_append]
      exact run_step_cons hstep []
    rw [← hrun] at hwrites
    obtain ⟨i, hbegun⟩ := hbegins.begun_run hreset
      (fun k hk ↦ hno k (List.mem_append_right _ (List.mem_cons_of_mem _ hk))) hwrites hlater
    rw [hrun, hstart] at hbegun
    have hclock := hbegun.clock_eq
    rw [hend, ObjectCopy.stride] at hclock
    rw [hbegun.active_iff, ObjectCopy.length]
    omega

/-- A program that stores the stack pointer, 0xFFFE, in the line to compare with and in the copy
register. The high byte begins a copy of the uppermost page of work memory, in the first step. -/
def pageCopier : Array UInt8 := Array.replicate 0x100 0x00 ++ #[0x08, 0x45, 0xFF, 0x00]

/-- A session in which the program has been mapped. -/
def copyingPage : Session := (powerOn {}).run [.loadRom pageCopier]

/-- A byte that is stored in the source before its turn comes is copied. -/
def storedMeanwhile : List Bus.Use := [.write 0xC002 0x5A, .catchUp 8]

set_option maxRecDepth 4000 in
theorem object_copy_of_copyingPage :
    let bus' := ((Bus.powerOn false).write 0xFF46 0xC0).after storedMeanwhile
    let s := copyingPage.step.2.step.2
    (bus'.advance .objectCopy).read 0xFE02 = 0x5A ∧
      s.machine.cpu.clock = 24 ∧ s.machine.bus.objectCopy.active = true := by
  intro bus' s
  obtain ⟨hbus, hsession⟩ := object_copy
  refine ⟨?_, ?_⟩
  · have hleaves : ∀ use ∈ storedMeanwhile, use.LeavesCopy := by
      simp [storedMeanwhile, Bus.Use.LeavesCopy]
    obtain ⟨hcopying, -⟩ := hbus (Bus.powerOn false) 0xC0 storedMeanwhile hleaves
    have hsecond := hcopying fun _ ↦ 0
    rw [Bus.advanced_zero] at hsecond
    exact (hsecond.read_eq (by decide) 0xFE02).trans rfl
  · have hops : [.loadRom pageCopier] ++ .step :: [.step] <+:
        (powerOn {}).unrolled [.loadRom pageCopier, .step, .step] := ⟨[], rfl⟩
    have hcalls : .step :: [.step] = [.step] ++ [Operation.step] := rfl
    have hbegins : copyingPage.BeginsCopy copyingPage.step.2 ⟨0xFF46, 0xFF, 0xFF⟩ :=
      ⟨⟨20, rfl⟩, ⟨[⟨0xFF45, 0x00, 0xFE⟩], [], rfl, by decide⟩, rfl⟩
    have hwrites : s.writes = copyingPage.step.2.writes ++ [] := rfl
    have hstep : copyingPage.step.2.step = (.ok 4, s) := rfl
    have hclock : s.machine.cpu.clock = 24 := rfl
    refine ⟨hclock, ?_⟩
    have hactive := hsession {} _ _ _ _ copyingPage copyingPage.step.2 _ s _ [] 4 hops hcalls rfl
      (.inl rfl) hbegins rfl hstep (by simp) hwrites (by decide)
    exact hactive.mpr (by decide)

end Session

end GameBoy
