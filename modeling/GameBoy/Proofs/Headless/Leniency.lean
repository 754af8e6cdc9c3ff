import GameBoy.Headless
import GameBoy.Proofs.Cpu.Policy
import GameBoy.Proofs.Machine.Steps

/-!
# Leniency makes no difference to a program that needs none

A machine that succeeds under the strict policy succeeds under any, with the same ticks and the same
states, the policy apart (`Machine.stepped_setPolicy`). A run asks nothing about the policy but by
making steps, so a run that no fault ends comes to the same report if opcodes without a meaning are
skipped.

The other way round nothing of the kind holds: a lenient run may go on where a strict one ends.
-/

namespace GameBoy

namespace Machine

/-- The machine under another policy. -/
abbrev setPolicy (m : Machine) (p : IllegalOpcodePolicy) : Machine := Board.setPolicy m p

variable {m m' : Machine} (p : IllegalOpcodePolicy)

/-! ### Steps -/

theorem policy_step (m : Machine) : (step m).2.cpu.policy = m.cpu.policy := by
  have hran := Board.policy_step m
  rcases hstep : step m with ⟨_ | t, m'⟩
  · rwa [step_error hstep] at hran
  · obtain ⟨s, hok, rfl⟩ := step_ok hstep
    rwa [hok] at hran

theorem policy_stepped (m : Machine) (n : Nat) : (m.stepped n).cpu.policy = m.cpu.policy := by
  induction n with
  | zero => rfl
  | succ n ih =>
    rw [stepped_succ]
    exact (policy_step _).trans ih

theorem step_setPolicy {t : Nat} (hfatal : m.cpu.policy = .fatal) (h : step m = (.ok t, m')) :
    step (m.setPolicy p) = (.ok t, m'.setPolicy p) := by
  obtain ⟨s, hok, rfl⟩ := step_ok h
  simp only [step, Board.step_setPolicy p hfatal hok]
  rfl

/-- **Steps that succeed under the strict policy lead to the same states under any**, the policy
apart. -/
theorem stepped_setPolicy (hfatal : m.cpu.policy = .fatal) {n : Nat} (h : m.Makes n) :
    (m.setPolicy p).stepped n = (m.stepped n).setPolicy p := by
  induction n with
  | zero => rfl
  | succ n ih =>
    obtain ⟨t, ht⟩ := h.step_eq (Nat.lt_succ_self n)
    have hstep := step_setPolicy p ((policy_stepped m n).trans hfatal) ht
    rw [stepped_succ, ih (h.mono (Nat.le_succ n)), hstep]

theorem step_stepped_setPolicy (hfatal : m.cpu.policy = .fatal) {k n : Nat} (h : m.Makes n)
    (hk : k < n) : (step ((m.setPolicy p).stepped k)).1 = (step (m.stepped k)).1 := by
  obtain ⟨t, ht⟩ := h.step_eq hk
  have hstep := step_setPolicy p ((policy_stepped m k).trans hfatal) ht
  rw [stepped_setPolicy p hfatal (h.mono (Nat.le_of_lt hk)), hstep, ht]

end Machine

/-! ### Runs -/

theorem runLoop_setPolicy (p : IllegalOpcodePolicy) {verdict : Verdict} {made : Nat} {m' : Machine}
    (budget steps scanned : Nat) {m : Machine} (hfatal : m.cpu.policy = .fatal)
    (h : runLoop budget steps scanned m = .ok (verdict, made, m')) :
    runLoop budget steps scanned (m.setPolicy p) = .ok (verdict, made, m'.setPolicy p) := by
  induction budget generalizing steps scanned m with
  | zero =>
    rw [runLoop] at h
    obtain ⟨rfl, rfl, rfl⟩ : Verdict.stepLimit = verdict ∧ steps = made ∧ m = m' := by simpa using h
    rfl
  | succ budget ih =>
    have hkept := Machine.policy_step m
    rw [runLoop] at h
    rcases hstep : Machine.step m with ⟨_ | t, next⟩
    · simp [hstep] at h
    · have hnext : next.cpu.policy = .fatal := by
        rw [hstep] at hkept
        exact hkept.trans hfatal
      have hserial : (next.setPolicy p).bus.serial = next.bus.serial := rfl
      simp only [hstep] at h
      simp only [runLoop, Machine.step_setPolicy p hfatal hstep, hserial]
      split at h
      · next hsilent =>
        rw [if_pos hsilent]
        exact ih _ _ hnext h
      · next hsilent =>
        rw [if_neg hsilent]
        cases hverdict : scanVerdict next.bus.serial.output.toList with
        | some reached =>
          simp only [hverdict] at h ⊢
          obtain ⟨rfl, rfl, rfl⟩ : reached = verdict ∧ steps + 1 = made ∧ next = m' := by
            simpa using h
          rfl
        | none =>
          simp only [hverdict] at h ⊢
          exact ih _ _ hnext h

/-- **Lenient and strict execution agree where strict execution succeeds.** Steps that all succeed
under the strict policy also do under the lenient one, with the same ticks and through the same
states, the policy apart; and a strict run that reports anything reports the same if it is made
leniently. -/
theorem lenient_of_strict :
    (∀ (m : Machine) (n : Nat), (m.setPolicy .fatal).Makes n →
      (∀ k < n, ∃ t, (Machine.step ((m.setPolicy .fatal).stepped k)).1 = .ok t ∧
        (Machine.step ((m.setPolicy .ignore).stepped k)).1 = .ok t) ∧
      ∀ k ≤ n, (m.setPolicy .ignore).stepped k =
        ((m.setPolicy .fatal).stepped k).setPolicy .ignore) ∧
    ∀ (rom : Array UInt8) (maxSteps : Nat) (report : RunReport),
      run rom { maxSteps, lenient := false } = .ok report →
        run rom { maxSteps, lenient := true } = .ok report := by
  refine ⟨fun m n h ↦ ⟨fun k hk ↦ ?_, fun k hk ↦ ?_⟩, fun rom maxSteps report h ↦ ?_⟩
  · obtain ⟨t, ht⟩ := h k hk
    have hagree := Machine.step_stepped_setPolicy .ignore rfl h hk
    exact ⟨t, ht, hagree.trans ht⟩
  · exact Machine.stepped_setPolicy .ignore rfl (h.mono hk)
  · have hstart : runStart rom { maxSteps, lenient := true } =
        (runStart rom { maxSteps, lenient := false }).setPolicy .ignore := rfl
    rw [run] at h
    rcases hloop : runLoop maxSteps 0 0 (runStart rom { maxSteps, lenient := false }) with
      _ | ⟨verdict, made, m'⟩
    · simp [hloop] at h
    · have hlenient := runLoop_setPolicy .ignore maxSteps 0 0 rfl hloop
      simp only [hloop] at h
      rw [run, hstart]
      simp only [hlenient]
      exact h

/-- Memory is empty at power-on, so the program is a row of bytes that do nothing; an image of no
bytes reads as calls. -/
theorem lenient_of_strict_of_idlers :
    (Machine.step (((Machine.powerOn {}).setPolicy .ignore).stepped 1)).1 = .ok 4 ∧
      ((Machine.powerOn {}).setPolicy .ignore).stepped 2 =
        (((Machine.powerOn {}).setPolicy .fatal).stepped 2).setPolicy .ignore ∧
      run #[] { maxSteps := 2, lenient := true } =
        .ok { verdict := .stepLimit, steps := 2, ticks := 32, serial := #[] } := by
  have hmakes : ((Machine.powerOn {}).setPolicy .fatal).Makes 2 := by
    intro k hk
    match k, hk with
    | 0, _ => exact ⟨4, rfl⟩
    | 1, _ => exact ⟨4, rfl⟩
  obtain ⟨hsteps, hruns⟩ := lenient_of_strict
  obtain ⟨hticks, hstates⟩ := hsteps (Machine.powerOn {}) 2 hmakes
  obtain ⟨t, hstrict, hlenient⟩ := hticks 1 (by decide)
  obtain rfl : 4 = t := Except.ok.inj hstrict
  exact ⟨hlenient, hstates 2 (Nat.le_refl 2), hruns #[] 2 _ rfl⟩

end GameBoy
