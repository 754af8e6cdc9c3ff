import GameBoy.Proofs.Machine.Steps
import Mathlib.Order.Bounds.Basic

/-!
# A run stops at the first boundary

Between two steps is a boundary, and a run for some time can stop at boundaries only. It stops at
the first one that is far enough (`runForTicks_of_total`), and how far a boundary is, is the sum of
what the steps before it have returned (`Makes.clock_eq`). The last step begins before the budget is
used up and takes 48 ticks at most, which bounds what a run overshoots.

A run that goes on from a boundary makes the steps that a longer run would make anyway
(`Stops.extend`). So two runs in succession are one run, for what the first one took and what the
second one was given.
-/

namespace GameBoy.Machine

variable {m m' m'' : Machine}

/-! ### Where the boundaries are -/

/-- The ticks that a step returns. A step that fails returns none. -/
def returned : Except Fault Nat → Nat
  | .ok t => t
  | .error _ => 0

/-- The ticks that the first `n` steps return in all. -/
def total (m : Machine) : Nat → Nat
  | 0 => 0
  | n + 1 => m.total n + returned (step (m.stepped n)).1

/-- The clock goes forward by what a step returns, which is at most what passing control to a
handler and the longest instruction take together. -/
theorem ticks_step_ok {t : Nat} (h : step m = (.ok t, m')) :
    m'.cpu.clock = m.cpu.clock + t ∧ t ≤ 48 := by
  obtain ⟨s, hrun, rfl⟩ := step_ok h
  obtain ⟨served, d, hserved, hd, rfl, hclock⟩ := Board.ticks_step_ok hrun
  have hserved : served = 0 ∨ served = 20 := hserved
  have hlong := (Board.isDuration_bounds hd).2.2
  exact ⟨hclock, by omega⟩

/-- A step that is made adds what it returns. -/
theorem Makes.total_succ {n : Nat} (h : m.Makes (n + 1)) :
    ∃ t ≤ 48, m.total (n + 1) = m.total n + t ∧
      (m.stepped (n + 1)).cpu.clock = (m.stepped n).cpu.clock + t := by
  obtain ⟨t, ht⟩ := h.step_eq (Nat.lt_succ_self n)
  obtain ⟨hclock, hlong⟩ := ticks_step_ok ht
  refine ⟨t, hlong, ?_, hclock⟩
  rw [total, ht, returned]

/-- **The clock counts what the steps have returned.** -/
theorem Makes.clock_eq {n : Nat} (h : m.Makes n) :
    (m.stepped n).cpu.clock = m.cpu.clock + m.total n := by
  induction n with
  | zero => rfl
  | succ n ih =>
    obtain ⟨t, -, htotal, hclock⟩ := h.total_succ
    rw [hclock, htotal, ih (h.mono (Nat.le_succ n)), Nat.add_assoc]

/-! ### The first boundary that is far enough -/

section Budget

variable {a k : Nat}

/-- A tick that is `a` ticks ahead is still ahead as long as `a` ticks have not been returned. -/
theorem Makes.clock_lt_iff (h : m.Makes k) :
    (m.stepped k).cpu.clock < m.cpu.clock + a ↔ m.total k < a := by
  rw [h.clock_eq]
  exact Nat.add_lt_add_iff_left

/-- The boundary at which `a` ticks have passed for the first time. -/
theorem isLeast_of_reached (hmakes : m.Makes k)
    (hbefore : ∀ j < k, (m.stepped j).cpu.clock < m.cpu.clock + a)
    (hreached : m.cpu.clock + a ≤ (m.stepped k).cpu.clock) :
    IsLeast { n | a ≤ m.total n } k := by
  constructor
  · exact Nat.le_of_not_lt fun hlt ↦ Nat.not_lt_of_le hreached (hmakes.clock_lt_iff.mpr hlt)
  · intro n (hn : a ≤ m.total n)
    by_contra hlt
    have hlt := Nat.lt_of_not_le hlt
    have hshort := (hmakes.mono (Nat.le_of_lt hlt)).clock_lt_iff.mp (hbefore n hlt)
    omega

/-- The first boundary that is far enough is not much too far. -/
theorem total_lt_of_isLeast (hmakes : m.Makes k) (h : IsLeast { n | a ≤ m.total n } k) :
    m.total k < a + 48 ∧ (a = 0 → m.total k = 0) := by
  cases k with
  | zero =>
    have hnone : m.total 0 = 0 := rfl
    exact ⟨by omega, fun _ ↦ hnone⟩
  | succ k =>
    obtain ⟨t, hlong, htotal, -⟩ := hmakes.total_succ
    -- The boundary before it is not far enough.
    have hshort : m.total k < a :=
      Nat.lt_of_not_le fun hle ↦ Nat.not_succ_le_self k (h.2 hle)
    exact ⟨by omega, by omega⟩

/-- Steps before the budget is used up take four ticks each of it. -/
theorem Makes.four_mul_lt (hmakes : m.Makes k) (hbefore : ∀ j < k, m.total j < a) :
    4 * k < a + 4 := by
  cases k with
  | zero => omega
  | succ k =>
    have hmakes := hmakes.mono (Nat.le_succ k)
    have hclock := hmakes.clock_eq
    have hsteps := hmakes.clock_le
    have hshort := hbefore k (Nat.lt_succ_self k)
    omega

end Budget

/-! ### Going on from a boundary -/

/-- Steps towards a tick that have got there are the first steps towards any later one. -/
theorem Stops.extend {first target : Nat} {r : Except Fault Unit × Machine}
    (h : Stops m first (.ok (), m')) (hle : first ≤ target) (h' : Stops m' target r) :
    Stops m target r := by
  cases h with
  | reached hmakes hbefore hreached =>
    exact h'.of_makes hmakes fun i hi ↦ Nat.lt_of_lt_of_le (hbefore i hi) hle

theorem Stops.clock_le {target : Nat} (h : Stops m target (.ok (), m')) :
    target ≤ m'.cpu.clock ∧ m.cpu.clock ≤ m'.cpu.clock := by
  cases h with
  | reached hmakes hbefore hreached =>
    have hclock := hmakes.clock_le
    exact ⟨hreached, by omega⟩

/-- A run that returns has stepped towards its tick and got there. -/
theorem stops_of_runForTicks {ticks passed : Nat} (h : runForTicks m ticks = (.ok passed, m')) :
    Stops m (min (m.cpu.clock + ticks) lastTick) (.ok (), m') ∧
      m'.cpu.clock = m.cpu.clock + passed := by
  obtain ⟨⟨_ | _, last⟩, hstops, hrun⟩ := runForTicks_eq m ticks
  · rw [hrun] at h
    cases h
  · obtain ⟨hpassed, rfl⟩ := Prod.mk.inj (h.symm.trans hrun)
    have hclock := hstops.clock_le.2
    have hpassed : passed = m'.cpu.clock - m.cpu.clock := Except.ok.inj hpassed
    exact ⟨hstops, by omega⟩

/-- **Two runs are one.** -/
theorem runForTicks_add {a b passed passed' : Nat} (h : runForTicks m a = (.ok passed, m'))
    (h' : runForTicks m' b = (.ok passed', m'')) :
    runForTicks m (passed + b) = (.ok (passed + passed'), m'') := by
  obtain ⟨hfirst, hclock⟩ := stops_of_runForTicks h
  obtain ⟨hsecond, hclock'⟩ := stops_of_runForTicks h'
  obtain ⟨r, hstops, hrun⟩ := runForTicks_eq m (passed + b)
  have htarget : min (m.cpu.clock + (passed + b)) lastTick = min (m'.cpu.clock + b) lastTick := by
    rw [hclock, Nat.add_assoc]
  have hle : min (m.cpu.clock + a) lastTick ≤ min (m'.cpu.clock + b) lastTick := by
    have hreached := hfirst.clock_le.1
    omega
  rw [htarget] at hstops
  obtain rfl := hstops.unique (hfirst.extend hle hsecond)
  have hpassed : m''.cpu.clock - m.cpu.clock = passed + passed' := by omega
  rw [hrun, ← hpassed]
  rfl

/-- **A run for some time stops at the first boundary.** If the clock has room for the budget, a run
comes to an end. Either all of its steps succeed, and it stops at the first boundary at which the
budget is used up, returns what its steps have taken, and overshoots by less than 48 ticks, and not
at all if there is nothing to do; or a step fails while there is some of the budget left, and the
run is left as that step has left it. Two runs in succession that return are one run, for what the
first one took and what the second one was given. -/
theorem runForTicks_first_boundary (m : Machine) (a : Nat) (hclock : m.cpu.clock + a ≤ lastTick) :
    (∃ k, m.Makes k ∧ 4 * k < a + 4 ∧
      (IsLeast { n | a ≤ m.total n } k ∧ m.total k < a + 48 ∧ (a = 0 → m.total k = 0) ∧
          runForTicks m a = (.ok (m.total k), m.stepped k) ∨
        m.total k < a ∧ ∃ cause m', step (m.stepped k) = (.error cause, m') ∧
          runForTicks m a = (.error cause, m'))) ∧
    ∀ b ra rb m' m'', runForTicks m a = (.ok ra, m') → runForTicks m' b = (.ok rb, m'') →
      runForTicks m (ra + b) = (.ok (ra + rb), m'') := by
  refine ⟨?_, fun b ra rb m' m'' h h' ↦ runForTicks_add h h'⟩
  obtain ⟨r, hstops, hrun⟩ := runForTicks_eq m a
  rw [Nat.min_eq_left hclock] at hstops
  cases hstops with
  | @reached k hmakes hbefore hreached =>
    have hleast := isLeast_of_reached hmakes hbefore hreached
    have hshort (j : Nat) (hj : j < k) : m.total j < a :=
      (hmakes.mono (Nat.le_of_lt hj)).clock_lt_iff.mp (hbefore j hj)
    obtain ⟨hover, hnone⟩ := total_lt_of_isLeast hmakes hleast
    refine ⟨k, hmakes, hmakes.four_mul_lt hshort, .inl ⟨hleast, hover, hnone, ?_⟩⟩
    have hpassed : (m.stepped k).cpu.clock - m.cpu.clock = m.total k := by
      rw [hmakes.clock_eq, Nat.add_sub_cancel_left]
    rw [hrun, ← hpassed]
    rfl
  | @faulted k cause m' hmakes hbefore hstep =>
    have hshort (j : Nat) (hj : j ≤ k) : m.total j < a :=
      (hmakes.mono hj).clock_lt_iff.mp (hbefore j hj)
    have hfew := hmakes.four_mul_lt fun j hj ↦ hshort j (Nat.le_of_lt hj)
    exact ⟨k, hmakes, hfew, .inr ⟨hshort k (Nat.le_refl k), cause, m', hstep, hrun⟩⟩

/-- A program that jumps to itself, in 12 ticks. -/
def looping : Machine := (powerOn {}).loadRom (Array.replicate 0x100 0 ++ #[0x18, 0xFE])

theorem runForTicks_first_boundary_of_looping :
    looping.cpu.clock + 100 ≤ lastTick ∧
      (∃ k, looping.Makes k ∧ looping.total k = 108 ∧
        IsLeast { n | 100 ≤ looping.total n } k) ∧
      (runForTicks looping (108 + 50)).1 = .ok (108 + 60) := by
  have hclock : looping.cpu.clock + 100 ≤ lastTick := by
    have hstart : looping.cpu.clock = 0 := rfl
    rw [hstart]
    decide
  obtain ⟨⟨k, hmakes, -, hends⟩, hadd⟩ := runForTicks_first_boundary looping 100 hclock
  have hfirst : (runForTicks looping 100).1 = .ok 108 := by decide +kernel
  have hsecond : (runForTicks (runForTicks looping 100).2 50).1 = .ok 60 := by decide +kernel
  generalize hm : (runForTicks looping 100).2 = m at hsecond
  have hboth := hadd 50 108 60 m _ (Prod.ext hfirst hm) (Prod.ext hsecond rfl)
  refine ⟨hclock, ⟨k, hmakes, ?_⟩, congrArg Prod.fst hboth⟩
  rcases hends with ⟨hleast, -, -, hrun⟩ | ⟨-, cause, m', -, hrun⟩
  · rw [hrun] at hfirst
    exact ⟨Except.ok.inj hfirst, hleast⟩
  · rw [hrun] at hfirst
    cases hfirst

end GameBoy.Machine
