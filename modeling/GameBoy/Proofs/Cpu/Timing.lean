import GameBoy.Proofs.Port.Counts

/-!
# How long steps take

Time passes in three places: an opcode charges its cost, with the four ticks of a prefix 0xFD added
to it, sleeping takes four ticks, and passing control to a handler takes twenty. `Board.timing`
says what follows for whole steps and for single instructions, over any port: the clock goes forward
by what is reported, which is a multiple of four and lies between fixed bounds.

An instruction also needs four ticks at least for every access that it makes, except for STOP. The
accesses are counted on the board that records them (`Board.traced`), which fetches the same opcode
and returns the same ticks.
-/

namespace GameBoy

namespace Board

variable {M : Type} [Port M]

theorem map_fetchOpcode {N : Type} [Port N] {f : M → N} (hf : Port.Hom f) (s : Board M) :
    (s.map f).fetchOpcode = mapResult f s.fetchOpcode := by
  simp only [fetchOpcode, map_cpu, map_fetch hf, mapResult, map_note hf]
  split <;> rfl

variable {s s' : Board M} {t : Nat}

/-- Recording is not noticed by what fetches the opcode. -/
theorem fetchOpcode_traced (s : Board M) : s.traced.fetchOpcode.1 = s.fetchOpcode.1 :=
  (congrArg Prod.fst (map_fetchOpcode Traced.hom_inner s.traced)).symm

/-- Nor by what executes it. -/
theorem executeOne_traced (h : s.executeOne = (.ok t, s')) :
    s.traced.executeOne = (.ok t, s.traced.executeOne.2) := by
  have hmap := congrArg Prod.fst (map_executeOne Traced.hom_inner s.traced)
  have hresult : (s.executeOne).1 = s.traced.executeOne.1 := hmap
  rw [h] at hresult
  exact Prod.ext hresult.symm rfl

/-- The ticks of a single instruction. -/
theorem ticks_executeOne_ok (h : s.executeOne = (.ok t, s')) :
    IsDuration (some s.fetchOpcode.1) t ∧ s'.cpu.clock = s.cpu.clock + t := by
  rw [executeOne_eq] at h
  obtain ⟨hcost, hcontrol⟩ := executeOpcode_ok h
  have hclock : s'.cpu.clock = s.fetchOpcode.2.cpu.control.clock + t :=
    congrArg Control.clock hcontrol
  rw [control_fetchOpcode] at hclock
  exact ⟨hcost, hclock⟩

/-- What four ticks pay for, when nothing has been recorded yet. -/
theorem accesses_executeOne_le (hstop : s.fetchOpcode.1.decoded ≠ .instruction .stop)
    (h : s.executeOne = (.ok t, s')) :
    s.traced.executeOne.2.bus.accesses.length ≤ t / 4 := by
  have hpaid := s.traced.four_mul_accesses_executeOne_le
    (by rwa [fetchOpcode_traced]) (executeOne_traced h)
  have hempty : s.traced.bus.accesses.length = 0 := rfl
  omega

/-- **How long steps take.** The clock goes forward by exactly the ticks that a step returns, a
multiple of four between 4 and 48; and by exactly those that a single instruction returns, a
multiple of four between 4 and 28. Unless it is STOP, an instruction makes one access at most for
every four ticks that it takes. -/
theorem timing (s : Board M) :
    (∀ t s', s.step = (.ok t, s') →
      s'.cpu.clock = s.cpu.clock + t ∧ 4 ∣ t ∧ 4 ≤ t ∧ t ≤ 48) ∧
    (∀ t s', s.executeOne = (.ok t, s') →
      s'.cpu.clock = s.cpu.clock + t ∧ 4 ∣ t ∧ 4 ≤ t ∧ t ≤ 28 ∧
        (s.fetchOpcode.1.decoded ≠ .instruction .stop →
          s.traced.executeOne.2.bus.accesses.length ≤ t / 4)) := by
  refine ⟨fun t s' h ↦ ?_, fun t s' h ↦ ?_⟩
  · obtain ⟨served, d, hserved, hd, rfl, hclock⟩ := ticks_step_ok h
    have hserved : served = 0 ∨ served = 20 := hserved
    have hbounds := isDuration_bounds hd
    exact ⟨hclock, by omega⟩
  · obtain ⟨hd, hclock⟩ := ticks_executeOne_ok h
    obtain ⟨hdvd, hlow, hhigh⟩ := isDuration_bounds hd
    exact ⟨hclock, hdvd, hlow, hhigh, fun hstop ↦ accesses_executeOne_le hstop h⟩

/-- A board about to dispatch the source of the video's frame to a handler that begins with a
prefixed call. -/
def dispatchThenCall : Board Memory where
  cpu := { Cpu.powerOn .fatal with ime := true }
  bus := (((Memory.fill 0).set requestAddress 1).set enableAddress 1).overwrite 0x0040 [0xFD, 0xCD]

/-- The bounds are reached: by a step, and by the instruction in it. -/
theorem timing_of_dispatchThenCall :
    (dispatchThenCall.step.1 = .ok 48 ∧
      dispatchThenCall.step.2.cpu.clock = dispatchThenCall.cpu.clock + 48) ∧
    (dispatchThenCall.setPC 0x0040).executeOne.1 = .ok 28 ∧
      (dispatchThenCall.setPC 0x0040).traced.executeOne.2.bus.accesses.length ≤ 7 := by
  have hstep : dispatchThenCall.step = (.ok 48, dispatchThenCall.step.2) := rfl
  have hcall : (dispatchThenCall.setPC 0x0040).executeOne =
      (.ok 28, (dispatchThenCall.setPC 0x0040).executeOne.2) := rfl
  obtain ⟨hclock, -⟩ := (timing dispatchThenCall).1 48 _ hstep
  obtain ⟨-, -, -, -, haccesses⟩ := (timing (dispatchThenCall.setPC 0x0040)).2 28 _ hcall
  exact ⟨⟨rfl, hclock⟩, rfl, haccesses (by decide)⟩

end Board

end GameBoy
