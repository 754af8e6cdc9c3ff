import GameBoy.Proofs.Cpu.Stages
import GameBoy.Proofs.Machine.Session
import Mathlib.Logic.Function.Iterate

/-!
# Steps one after the other

`Machine.stepped m n` is the machine after `n` steps, and `Machine.Makes m n` says that all of these
steps succeed. A fault does not end the count: the next step goes on from where the fault has left
the machine. So what is said about a machine after so many steps comes with `Makes`, unless it holds
of failing steps too.

A step that succeeds takes four ticks at least. So stepping towards a tick comes to an end, and there
is only one at which it can (`Machine.Stops`): the steps that a run for some time makes are enough to
get there (`runUntil_stops`). A machine that makes all its steps gets past any tick, and a run for
some time ends behind its target (`runForTicks_of_makes`).
-/

namespace GameBoy

/-- A step that succeeds takes four ticks at least. -/
theorem Board.clock_step_ok {M : Type} [Port M] {s s' : Board M} {t : Nat}
    (h : s.step = (.ok t, s')) : s.cpu.clock + 4 ≤ s'.cpu.clock := by
  obtain ⟨served, d, -, hd, rfl, hclock⟩ := ticks_step_ok h
  have hlong := (isDuration_bounds hd).2.1
  omega

namespace Machine

/-- The machine after `n` steps, whether they succeed or fail. -/
def stepped (m : Machine) (n : Nat) : Machine := (fun m : Machine ↦ (step m).2)^[n] m

/-- The next `n` steps succeed. -/
def Makes (m : Machine) (n : Nat) : Prop := ∀ k < n, ∃ t, (step (m.stepped k)).1 = .ok t

variable (m : Machine)

/-! ### Counting steps -/

/-- One step more is made at the end. -/
theorem stepped_succ (n : Nat) : m.stepped (n + 1) = (step (m.stepped n)).2 :=
  Function.iterate_succ_apply' ..

/-- Steps may be made in two parts. -/
theorem stepped_add (j k : Nat) : m.stepped (j + k) = (m.stepped j).stepped k := by
  rw [Nat.add_comm]
  exact Function.iterate_add_apply ..

/-- No step is always made. -/
theorem makes_zero : m.Makes 0 := fun _ hk ↦ absurd hk (Nat.not_lt_zero _)

variable {m}

/-- A machine that makes so many steps makes fewer. -/
theorem Makes.mono {j k : Nat} (h : m.Makes k) (hle : j ≤ k) : m.Makes j :=
  fun i hi ↦ h i (Nat.lt_of_lt_of_le hi hle)

/-- A step that is made leads to the machine after it. -/
theorem Makes.step_eq {k n : Nat} (h : m.Makes n) (hk : k < n) :
    ∃ t, step (m.stepped k) = (.ok t, m.stepped (k + 1)) := by
  obtain ⟨t, ht⟩ := h k hk
  exact ⟨t, Prod.ext ht (m.stepped_succ k).symm⟩

/-- None of the steps that are made fails. -/
theorem Makes.step_ne_error {k n : Nat} (h : m.Makes n) (hk : k < n) {cause : Fault}
    {m' : Machine} : step (m.stepped k) ≠ (.error cause, m') := by
  intro herror
  obtain ⟨t, ht⟩ := h k hk
  rw [herror] at ht
  cases ht

/-- One step more is made if the last one does not fail. -/
theorem makes_succ {n : Nat} :
    m.Makes (n + 1) ↔ m.Makes n ∧ ∃ t, (step (m.stepped n)).1 = .ok t := by
  refine ⟨fun h ↦ ⟨h.mono (Nat.le_succ n), h n (Nat.lt_succ_self n)⟩, ?_⟩
  rintro ⟨hbefore, hlast⟩ k hk
  rcases Nat.lt_succ_iff_lt_or_eq.mp hk with hk | rfl
  · exact hbefore k hk
  · exact hlast

/-- Steps can be made in two parts. -/
theorem makes_add {j k : Nat} : m.Makes (j + k) ↔ m.Makes j ∧ (m.stepped j).Makes k := by
  induction k with
  | zero => exact ⟨fun h ↦ ⟨h, makes_zero _⟩, fun h ↦ h.1⟩
  | succ k ih =>
    rw [← Nat.add_assoc, makes_succ, makes_succ, ih, stepped_add]
    exact and_assoc

/-- A step that succeeds is made. -/
theorem makes_one {m' : Machine} {t : Nat} (h : step m = (.ok t, m')) :
    m.Makes 1 ∧ m.stepped 1 = m' := by
  refine ⟨makes_succ.mpr ⟨makes_zero m, t, ?_⟩, congrArg Prod.snd h⟩
  exact congrArg Prod.fst h

/-! ### The clock -/

theorem clock_step_ok {m' : Machine} {t : Nat} (h : step m = (.ok t, m')) :
    m.cpu.clock + 4 ≤ m'.cpu.clock := by
  obtain ⟨s, hrun, rfl⟩ := step_ok h
  have hclock := Board.clock_step_ok hrun
  exact hclock

/-- Every step takes four ticks at least. -/
theorem Makes.clock_le {n : Nat} (h : m.Makes n) :
    m.cpu.clock + 4 * n ≤ (m.stepped n).cpu.clock := by
  induction n with
  | zero => exact Nat.le_refl _
  | succ n ih =>
    obtain ⟨t, ht⟩ := h.step_eq (Nat.lt_succ_self n)
    have hlast := clock_step_ok ht
    have hbefore := ih (h.mono (Nat.le_succ n))
    omega

/-- So the clock goes forward with every step. -/
theorem Makes.clock_lt {j n : Nat} (h : m.Makes n) (hlt : j < n) :
    (m.stepped j).cpu.clock < (m.stepped n).cpu.clock := by
  obtain ⟨k, rfl⟩ := Nat.exists_eq_add_of_lt hlt
  rw [Nat.add_assoc] at h ⊢
  have hclock := (makes_add.mp h).2.clock_le
  rw [← stepped_add] at hclock
  omega

/-! ### Runs for some time -/

/-- **How stepping towards a tick ends**: at the first machine whose clock has reached it, or at the
first step that fails, whichever comes first. -/
inductive Stops (m : Machine) (target : Nat) : Except Fault Unit × Machine → Prop
  /-- The clock has reached the tick. -/
  | reached {k : Nat} : m.Makes k → (∀ j < k, (m.stepped j).cpu.clock < target) →
      target ≤ (m.stepped k).cpu.clock → Stops m target (.ok (), m.stepped k)
  /-- A step fails. -/
  | faulted {k : Nat} {cause : Fault} {m' : Machine} : m.Makes k →
      (∀ j ≤ k, (m.stepped j).cpu.clock < target) → step (m.stepped k) = (.error cause, m') →
      Stops m target (.error cause, m')

variable {target : Nat} {r r' : Except Fault Unit × Machine}

/-- There is one end only. -/
theorem Stops.unique (h : Stops m target r) (h' : Stops m target r') : r = r' := by
  cases h with
  | @reached k hmakes hbefore hreached =>
    cases h' with
    | @reached k' hmakes' hbefore' hreached' =>
      obtain rfl : k = k' := by
        rcases Nat.lt_trichotomy k k' with hlt | heq | hlt
        · exact absurd (hbefore' k hlt) (Nat.not_lt_of_le hreached)
        · exact heq
        · exact absurd (hbefore k' hlt) (Nat.not_lt_of_le hreached')
      rfl
    | @faulted k' cause m' hmakes' hbefore' hstep =>
      by_cases hle : k ≤ k'
      · exact absurd (hbefore' k hle) (Nat.not_lt_of_le hreached)
      · exact absurd hstep (hmakes.step_ne_error (Nat.lt_of_not_le hle))
  | @faulted k cause m' hmakes hbefore hstep =>
    cases h' with
    | @reached k' hmakes' hbefore' hreached' =>
      by_cases hle : k' ≤ k
      · exact absurd (hbefore k' hle) (Nat.not_lt_of_le hreached')
      · exact absurd hstep (hmakes'.step_ne_error (Nat.lt_of_not_le hle))
    | @faulted k' cause' m'' hmakes' hbefore' hstep' =>
      obtain rfl : k = k' := by
        rcases Nat.lt_trichotomy k k' with hlt | heq | hlt
        · exact absurd hstep (hmakes'.step_ne_error hlt)
        · exact heq
        · exact absurd hstep' (hmakes.step_ne_error hlt)
      obtain ⟨hcause, rfl⟩ := Prod.mk.inj (hstep.symm.trans hstep')
      rw [Except.error.inj hcause]

/-- Steps that end before the tick has been reached may be made first. -/
theorem Stops.of_makes {j : Nat} (hmakes : m.Makes j)
    (hbefore : ∀ i < j, (m.stepped i).cpu.clock < target) (h : Stops (m.stepped j) target r) :
    Stops m target r := by
  -- An earlier machine is on the way to the first one, or on the way on from there.
  have hall {k : Nat} (hlater : ∀ i < k, ((m.stepped j).stepped i).cpu.clock < target) :
      ∀ i < j + k, (m.stepped i).cpu.clock < target := by
    intro i hi
    rcases Nat.lt_or_ge i j with hlt | hge
    · exact hbefore i hlt
    · obtain ⟨i', rfl⟩ := Nat.exists_eq_add_of_le hge
      rw [stepped_add]
      exact hlater i' (by omega)
  cases h with
  | @reached k hmakes' hbefore' hreached =>
    rw [← stepped_add] at hreached ⊢
    exact .reached (makes_add.mpr ⟨hmakes, hmakes'⟩) (hall hbefore') hreached
  | @faulted k cause m' hmakes' hbefore' hstep =>
    rw [← stepped_add] at hstep
    refine .faulted (makes_add.mpr ⟨hmakes, hmakes'⟩) (fun i hi ↦ ?_) hstep
    refine hall (k := k + 1) (fun i hi ↦ hbefore' i (Nat.le_of_lt_succ hi)) i ?_
    omega

/-- **Steps are made until the first end**, and there are enough of them. -/
theorem runUntil_stops (target fuel : Nat) (hfuel : target ≤ m.cpu.clock + fuel) :
    Stops m target (runUntil target fuel m) := by
  have hnone : ∀ j < 0, (m.stepped j).cpu.clock < target := fun j hj ↦ absurd hj (Nat.not_lt_zero j)
  induction fuel generalizing m with
  | zero => exact .reached (makes_zero m) hnone hfuel
  | succ fuel ih =>
    rw [runUntil]
    split
    · next hbehind =>
      have hfirst : ∀ j ≤ 0, (m.stepped j).cpu.clock < target := by
        intro j hj
        obtain rfl := Nat.le_zero.mp hj
        exact hbehind
      rcases hstep : step m with ⟨cause | t, m'⟩
      · exact .faulted (makes_zero m) hfirst hstep
      · obtain ⟨hmakes, rfl⟩ := makes_one hstep
        have hclock := clock_step_ok hstep
        refine .of_makes hmakes (fun j hj ↦ hfirst j (Nat.le_of_lt_succ hj)) (ih (by omega) ?_)
        exact fun j hj ↦ absurd hj (Nat.not_lt_zero j)
    · next hreached => exact .reached (makes_zero m) hnone (Nat.le_of_not_lt hreached)

/-- A run for some time steps towards a tick, and tells how long that took if it gets there. -/
theorem runForTicks_eq (m : Machine) (ticks : Nat) :
    ∃ r, Stops m (min (m.cpu.clock + ticks) lastTick) r ∧
      runForTicks m ticks = (r.1.map fun _ ↦ r.2.cpu.clock - m.cpu.clock, r.2) := by
  refine ⟨_, runUntil_stops _ (min (m.cpu.clock + ticks) lastTick - m.cpu.clock) (by omega), ?_⟩
  simp only [runForTicks]
  rcases runUntil _ _ m with ⟨_ | _, m'⟩ <;> rfl

/-- **A run for some time reaches its target** if no step fails. -/
theorem runForTicks_of_makes (h : ∀ n, m.Makes n) (ticks : Nat) :
    ∃ n, runForTicks m ticks = (.ok ((m.stepped n).cpu.clock - m.cpu.clock), m.stepped n) ∧
      min (m.cpu.clock + ticks) lastTick ≤ (m.stepped n).cpu.clock := by
  obtain ⟨r, hstops, hrun⟩ := runForTicks_eq m ticks
  cases hstops with
  | @reached n hmakes hbefore hreached => exact ⟨n, hrun, hreached⟩
  | @faulted n cause m' hmakes hbefore hstep =>
    exact absurd hstep ((h (n + 1)).step_ne_error (Nat.lt_succ_self n))

end Machine

end GameBoy
