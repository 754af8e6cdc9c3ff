import GameBoy.Proofs.Clock
import GameBoy.Proofs.Interrupt
import Mathlib.Algebra.Order.Floor.Div
import Mathlib.Logic.Function.Iterate
import Mathlib.Order.Lattice

/-!
# Catching up, advance by advance

Catching up is advancing again and again (`caughtUp_eq_iterate`), and it stops at the first
opportunity: the number of advances is the least after which the device is not behind
(`MovesOn.isLeast_advances`). So it does not matter how time is cut. Catching up to one tick and
then to another is catching up to the later of the two, and the numbers of advances add up
(`MovesOn.caughtUp_caughtUp`, `MovesOn.advances_add`).

None of this needs a lawful device. It is enough that the clock is moved forward by those advances
that are made on the way to the target (`MovesOn`), so a clock that has an end is as good as one
that goes on for ever. `catchUp_eq_least_iterate` says for such a device all that there is to say
about the loop, and how many advances it makes if they all take the same time.

A device **latches** if it looks at no request that is pending and withdraws none: what it adds to
the requests, and what becomes of itself, are the same whatever is pending. Catching up may then be
looked at with nothing pending (`catchUp_eq_advanced`).
-/

namespace GameBoy

/-- A device that adds to the pending requests without looking at them. -/
class LatchingPeripheral (P : Type) [Peripheral P] : Prop where
  /-- What is pending has no part in an advance, and stays pending. -/
  advance_eq_union : ∀ (p : P) (requests : InterruptSet),
    Peripheral.advance p requests =
      ((Peripheral.advance p ∅).1, requests ∪ (Peripheral.advance p ∅).2)

namespace Peripheral

variable {P : Type} [Peripheral P]

/-- One advance, as a change of the device and the pending requests together. -/
def turn (r : P × InterruptSet) : P × InterruptSet := advance r.1 r.2

/-- The number of advances that catching up takes. -/
def advances (target : Nat) (r : P × InterruptSet) : Nat := (catchUp target r.1 r.2).1

/-- The device and the pending requests after catching up. -/
def caughtUp (target : Nat) (r : P × InterruptSet) : P × InterruptSet := (catchUp target r.1 r.2).2

/-! ### The number of advances -/

/-- The loop makes advances for as long as the device is behind. -/
theorem go_eq_iterate (target fuel count : Nat) (r : P × InterruptSet) :
    ∃ n, catchUp.go target fuel count r.1 r.2 = (count + n, turn^[n] r) ∧
      ∀ k < n, clock (turn^[k] r).1 < target := by
  induction fuel generalizing count r with
  | zero => exact ⟨0, rfl, fun k hk ↦ absurd hk (Nat.not_lt_zero k)⟩
  | succ fuel ih =>
    by_cases hbehind : clock r.1 < target
    · obtain ⟨n, hgo, hbefore⟩ := ih (count + 1) (turn r)
      refine ⟨n + 1, ?_, fun k hk ↦ ?_⟩
      · rw [catchUp.go, if_pos hbehind, Function.iterate_succ_apply, Nat.add_comm n 1,
          ← Nat.add_assoc]
        exact hgo
      · cases k with
        | zero => exact hbehind
        | succ k =>
          rw [Function.iterate_succ_apply]
          exact hbefore k (Nat.lt_of_succ_lt_succ hk)
    · refine ⟨0, ?_, fun k hk ↦ absurd hk (Nat.not_lt_zero k)⟩
      rw [catchUp.go, if_neg hbehind]
      rfl

theorem catchUp_eq (target : Nat) (r : P × InterruptSet) :
    caughtUp target r = turn^[advances target r] r ∧
      ∀ k < advances target r, clock (turn^[k] r).1 < target := by
  obtain ⟨n, hgo, hbefore⟩ := go_eq_iterate target (target - clock r.1) 0 r
  have hcatchUp : catchUp target r.1 r.2 = (n, turn^[n] r) := by
    rw [catchUp, hgo, Nat.zero_add]
  have hcount : advances target r = n := congrArg Prod.fst hcatchUp
  rw [hcount]
  exact ⟨congrArg Prod.snd hcatchUp, hbefore⟩

/-- **Catching up is advancing as often as it says.** -/
theorem caughtUp_eq_iterate (target : Nat) (r : P × InterruptSet) :
    caughtUp target r = turn^[advances target r] r :=
  (catchUp_eq target r).1

/-- Every advance that the device makes while it is behind `target` moves its clock forward. What
its clock does later is left open. -/
def MovesOn (target : Nat) (r : P × InterruptSet) : Prop :=
  ∀ n, clock (turn^[n] r).1 < target → clock (turn^[n] r).1 < clock (turn^[n + 1] r).1

theorem movesOn_of_lawful [LawfulPeripheral P] (target : Nat) (r : P × InterruptSet) :
    MovesOn target r := by
  intro n _
  rw [Function.iterate_succ_apply']
  exact LawfulPeripheral.clock_lt_advance ..

section MovesOn

variable {target : Nat} {r : P × InterruptSet}

theorem MovesOn.mono {earlier : Nat} (h : MovesOn target r) (hle : earlier ≤ target) :
    MovesOn earlier r :=
  fun n hbehind ↦ h n (Nat.lt_of_lt_of_le hbehind hle)

theorem MovesOn.iterate (h : MovesOn target r) (n : Nat) : MovesOn target (turn^[n] r) := by
  intro k hbehind
  rw [← Function.iterate_add_apply] at hbehind ⊢
  rw [← Function.iterate_add_apply, Nat.add_right_comm]
  exact h (k + n) hbehind

theorem MovesOn.le_clock_caughtUp (h : MovesOn target r) :
    target ≤ clock (caughtUp target r).1 :=
  le_clock_catchUp_of_advance (motive := fun p requests ↦ MovesOn target (p, requests))
    (fun _ _ hbehind h ↦ ⟨h.iterate 1, h 0 hbehind⟩) h

/-- A number of advances is the least that will do if the device is behind before each of them and
not behind after them. -/
theorem isLeast_of_behind {n : Nat} (hbehind : ∀ k < n, clock (turn^[k] r).1 < target)
    (hreached : target ≤ clock (turn^[n] r).1) :
    IsLeast { n | target ≤ clock (turn^[n] r).1 } n := by
  refine ⟨hreached, fun k hk ↦ ?_⟩
  by_contra hlt
  exact Nat.not_le_of_lt (hbehind k (Nat.lt_of_not_le hlt)) hk

/-- **No advance is made in vain**: the number of advances is the least that will do. -/
theorem MovesOn.isLeast_advances (h : MovesOn target r) :
    IsLeast { n | target ≤ clock (turn^[n] r).1 } (advances target r) := by
  obtain ⟨hcaughtUp, hbehind⟩ := catchUp_eq target r
  refine isLeast_of_behind hbehind ?_
  rw [← hcaughtUp]
  exact h.le_clock_caughtUp

section Twice

variable {first second : Nat} (h : MovesOn (max first second) r)
include h

theorem MovesOn.of_caughtUp : MovesOn second (caughtUp first r) := by
  rw [caughtUp_eq_iterate]
  exact (h.iterate _).mono (Nat.le_max_right ..)

/-- A device that has caught up to one tick may be past another one by then, and makes no more
advances. Otherwise it goes on from a clock that is not behind the first tick. -/
theorem MovesOn.max_le_clock :
    max first second ≤ clock (caughtUp second (caughtUp first r)).1 := by
  have hfirst : first ≤ clock (caughtUp first r).1 :=
    (h.mono (Nat.le_max_left ..)).le_clock_caughtUp
  have hsecond := h.of_caughtUp.le_clock_caughtUp
  obtain ⟨hcaughtUp, hbehind⟩ := catchUp_eq second (caughtUp first r)
  refine Nat.max_le.mpr ⟨?_, hsecond⟩
  rcases Nat.eq_zero_or_pos (advances second (caughtUp first r)) with hnone | hsome
  · rwa [hcaughtUp, hnone]
  · have hgap : clock (caughtUp first r).1 < second := hbehind 0 hsome
    omega

/-- The advances up to the later of two ticks can be counted in two parts. -/
theorem MovesOn.advances_add :
    advances first r + advances second (caughtUp first r) = advances (max first second) r := by
  obtain ⟨hearly, hbehind⟩ := catchUp_eq first r
  obtain ⟨hlate, hbehind'⟩ := catchUp_eq second (caughtUp first r)
  refine (isLeast_of_behind (fun k hk ↦ ?_) ?_).unique h.isLeast_advances
  · rcases Nat.lt_or_ge k (advances first r) with hlt | hge
    · exact Nat.lt_of_lt_of_le (hbehind k hlt) (Nat.le_max_left ..)
    · have hlater := hbehind' (k - advances first r) (by omega)
      rw [hearly, ← Function.iterate_add_apply, Nat.sub_add_cancel hge] at hlater
      exact Nat.lt_of_lt_of_le hlater (Nat.le_max_right ..)
  · rw [Nat.add_comm, Function.iterate_add_apply, ← hearly, ← hlate]
    exact h.max_le_clock

/-- **Time can be cut anywhere**: catching up to two ticks one after the other is catching up to the
later of them. -/
theorem MovesOn.caughtUp_caughtUp :
    caughtUp second (caughtUp first r) = caughtUp (max first second) r := by
  rw [caughtUp_eq_iterate second, caughtUp_eq_iterate first, ← Function.iterate_add_apply,
    caughtUp_eq_iterate (max first second), ← h.advances_add, Nat.add_comm,
    caughtUp_eq_iterate first]

end Twice

end MovesOn

/-! ### Constant strides -/

section Strides

variable {target stride : Nat} {r : P × InterruptSet}

/-- Every advance that the device makes while it is behind `target` takes `stride` ticks. -/
def Strides (stride target : Nat) (r : P × InterruptSet) : Prop :=
  ∀ n, clock (turn^[n] r).1 < target → clock (turn^[n + 1] r).1 = clock (turn^[n] r).1 + stride

theorem Strides.movesOn (h : Strides stride target r) (hstride : 0 < stride) :
    MovesOn target r := by
  intro n hbehind
  rw [h n hbehind]
  exact Nat.lt_add_of_pos_right hstride

theorem Strides.clock_iterate (h : Strides stride target r) {n : Nat}
    (hbehind : ∀ k < n, clock (turn^[k] r).1 < target) :
    clock (turn^[n] r).1 = clock r.1 + stride * n := by
  induction n with
  | zero => rfl
  | succ n ih =>
    rw [h n (hbehind n (Nat.lt_succ_self n)), ih fun k hk ↦ hbehind k (Nat.lt_succ_of_lt hk),
      Nat.mul_succ, Nat.add_assoc]

/-- The distance is divided by the stride, and the result is rounded up. -/
theorem Strides.advances_eq (h : Strides stride target r) (hstride : 0 < stride) :
    advances target r = (target - clock r.1) ⌈/⌉ stride := by
  have hleast := (h.movesOn hstride).isLeast_advances
  obtain ⟨-, hbehind⟩ := catchUp_eq target r
  refine eq_of_forall_ge_iff fun n ↦ ?_
  rw [ceilDiv_le_iff_le_mul hstride, Nat.sub_le_iff_le_add']
  constructor
  · intro hle
    calc target ≤ clock (turn^[advances target r] r).1 := hleast.1
      _ = clock r.1 + stride * advances target r := h.clock_iterate hbehind
      _ ≤ clock r.1 + stride * n := Nat.add_le_add_left (Nat.mul_le_mul_left _ hle) _
  · intro hreached
    by_contra hlt
    have hearlier := hbehind n (Nat.lt_of_not_le hlt)
    rw [h.clock_iterate fun k hk ↦ hbehind k (Nat.lt_trans hk (Nat.lt_of_not_le hlt))] at hearlier
    omega

/-- The last advance begins behind the target. -/
theorem Strides.clock_caughtUp_lt (h : Strides stride target r) (hsome : 0 < advances target r) :
    clock (caughtUp target r).1 < target + stride := by
  obtain ⟨hcaughtUp, hbehind⟩ := catchUp_eq target r
  obtain ⟨n, hn⟩ := Nat.exists_eq_succ_of_ne_zero hsome.ne'
  have hlast : clock (turn^[n] r).1 < target := hbehind n (by omega)
  rw [hcaughtUp, hn, h n hlast]
  exact Nat.add_lt_add_right hlast stride

end Strides

/-- **Catching up, whatever the device is.** All that is asked of it is that its clock is moved
forward by every advance that it makes while it is behind; an advance may do anything else, to the
device and to the pending requests, and the clock need not go on for ever. The loop ends after the
least number of advances that bring the clock to the target, none if it is there already, and what
it leaves is what these advances make of the device and of the requests. If they all take the same
time, their number is the distance divided by it and rounded up, and the last one does not go a
whole stride too far. A target may be divided in two: the advances up to the one tick and up to the
other add up, in either order, and nothing else is different. -/
theorem catchUp_eq_least_iterate {target : Nat} {p : P} {requests : InterruptSet}
    (h : MovesOn target (p, requests)) :
    ∃ k, IsLeast { n | target ≤ clock (turn^[n] (p, requests)).1 } k ∧
      catchUp target p requests = (k, turn^[k] (p, requests)) ∧
      (k = 0 ↔ target ≤ clock p) ∧
      (∀ stride, 0 < stride → Strides stride target (p, requests) →
        k = (target - clock p) ⌈/⌉ stride ∧
          (0 < k → clock (turn^[k] (p, requests)).1 < target + stride)) ∧
      ∀ first second, max first second = target →
        let early := catchUp first p requests
        let late := catchUp second early.2.1 early.2.2
        late.2 = turn^[k] (p, requests) ∧ early.1 + late.1 = k := by
  have hleast := h.isLeast_advances
  have hcaughtUp := caughtUp_eq_iterate target (p, requests)
  refine ⟨advances target (p, requests), hleast, Prod.ext rfl hcaughtUp, ⟨fun hnone ↦ ?_,
    fun hreached ↦ ?_⟩, fun stride hstride hstrides ↦ ⟨hstrides.advances_eq hstride, ?_⟩, ?_⟩
  · have hreached := hleast.1
    rwa [hnone] at hreached
  · exact Nat.le_zero.mp (hleast.2 hreached)
  · rw [← hcaughtUp]
    exact hstrides.clock_caughtUp_lt
  · rintro first second rfl
    exact ⟨h.caughtUp_caughtUp.trans hcaughtUp, h.advances_add⟩

/-- A device with a stride of four ticks that requests the timer interrupt from tick 12 on. -/
def fourTicks : Metronome := { period := 4, requests := {.timer}, after := 12 }

theorem strides_fourTicks (target : Nat) : Strides 4 target (fourTicks, ∅) := by
  have hdevice (n : Nat) : (turn^[n] (fourTicks, ∅)).1 = { fourTicks with clock := 4 * n } := by
    induction n with
    | zero => rfl
    | succ n ih =>
      rw [Function.iterate_succ_apply', turn, ih]
      rfl
  intro n _
  rw [hdevice, hdevice]
  exact Nat.mul_succ 4 n

/-- On the way to tick 10 the device has passed tick 12. -/
theorem catchUp_eq_least_iterate_of_fourTicks :
    MovesOn 12 (fourTicks, ∅) ∧
      let early := catchUp 10 fourTicks ∅
      let late := catchUp 12 early.2.1 early.2.2
      late.2 = ({ fourTicks with clock := 12 }, {.timer}) ∧ early.1 + late.1 = 3 := by
  have hstrides := strides_fourTicks 12
  have hmoves := hstrides.movesOn (by decide)
  obtain ⟨k, -, -, -, hceil, htwice⟩ := catchUp_eq_least_iterate hmoves
  obtain ⟨rfl, -⟩ := hceil 4 (by decide) hstrides
  exact ⟨hmoves, htwice 10 12 rfl⟩

/-! ### Requests -/

section Latching

variable [LatchingPeripheral P] (p : P) (requests : InterruptSet)

/-- Any number of advances may be looked at with nothing pending. -/
theorem iterate_turn_eq_union (n : Nat) :
    turn^[n] (p, requests) = ((turn^[n] (p, ∅)).1, requests ∪ (turn^[n] (p, ∅)).2) := by
  induction n with
  | zero =>
    change (p, requests) = (p, requests ∪ ∅)
    rw [InterruptSet.union_empty]
  | succ n ih =>
    have hturn (r : P × InterruptSet) :
        turn r = ((advance r.1 ∅).1, r.2 ∪ (advance r.1 ∅).2) :=
      LatchingPeripheral.advance_eq_union r.1 r.2
    rw [Function.iterate_succ_apply', Function.iterate_succ_apply', ih, hturn, hturn,
      InterruptSet.union_assoc]

/-- What a device has become after so many advances, and what it has requested meanwhile. -/
def advanced (n : Nat) (p : P) : P × InterruptSet := turn^[n] (p, ∅)

/-- Advances can be made in two parts, and the requests of both parts add up. -/
theorem advanced_add (n m : Nat) (p : P) :
    advanced (n + m) p =
      ((advanced m (advanced n p).1).1, (advanced n p).2 ∪ (advanced m (advanced n p).1).2) := by
  rw [advanced, Nat.add_comm, Function.iterate_add_apply]
  exact iterate_turn_eq_union ..

omit [LatchingPeripheral P] in
/-- What every advance keeps, any number of advances keeps. -/
theorem advanced_induction {motive : P → InterruptSet → Prop}
    (hadvance : ∀ p requests, motive p requests →
      motive (advance p requests).1 (advance p requests).2)
    {p : P} (h : motive p ∅) (n : Nat) : motive (advanced n p).1 (advanced n p).2 := by
  induction n with
  | zero => exact h
  | succ n ih =>
    rw [advanced, Function.iterate_succ_apply']
    exact hadvance _ _ ih

omit [LatchingPeripheral P] in
/-- What every advance keeps that is counted, any number of advances keeps. -/
theorem advanced_counting {motive : Nat → P → Prop}
    (hadvance : ∀ n p requests, motive n p → motive (n + 1) (advance p requests).1)
    {n : Nat} {p : P} (h : motive n p) (k : Nat) : motive (n + k) (advanced k p).1 := by
  induction k with
  | zero => exact h
  | succ k ih =>
    rw [advanced, Function.iterate_succ_apply']
    exact hadvance (n + k) _ _ ih

/-- What a device can request in one advance is all that it can request in several. -/
theorem of_mem_advanced {Q : Interrupt → Prop} (hQ : ∀ (p : P) i, i ∈ (advance p ∅).2 → Q i)
    {p : P} {n : Nat} {i : Interrupt} (h : i ∈ (advanced n p).2) : Q i := by
  refine advanced_induction (P := P) (motive := fun _ requests ↦ ∀ i ∈ requests, Q i)
    (fun p requests hrequests i hi ↦ ?_) (fun i hi ↦ absurd hi InterruptSet.not_mem_empty) n i h
  rw [LatchingPeripheral.advance_eq_union, InterruptSet.mem_union] at hi
  exact hi.elim (hrequests i) (hQ p i)

/-- What is pending has no part in how long catching up takes. -/
theorem advances_eq [LawfulPeripheral P] (target : Nat) :
    advances target (p, requests) = advances target (p, ∅) := by
  refine (movesOn_of_lawful target (p, requests)).isLeast_advances.unique ?_
  have hclock (n : Nat) : (turn^[n] (p, requests)).1 = (turn^[n] (p, ∅)).1 := by
    rw [iterate_turn_eq_union]
  simp only [hclock]
  exact (movesOn_of_lawful target (p, ∅)).isLeast_advances

/-- The advances up to the later of two ticks, counted in two parts with nothing pending. -/
theorem advances_advanced [LawfulPeripheral P] (first second : Nat) :
    advances first (p, ∅) + advances second ((advanced (advances first (p, ∅)) p).1, ∅) =
      advances (max first second) (p, ∅) := by
  have hcaughtUp : advanced (advances first (p, ∅)) p = caughtUp first (p, ∅) :=
    (caughtUp_eq_iterate first (p, ∅)).symm
  have hpending : advances second (caughtUp first (p, ∅)) =
      advances second ((caughtUp first (p, ∅)).1, ∅) :=
    advances_eq (caughtUp first (p, ∅)).1 (caughtUp first (p, ∅)).2 second
  rw [hcaughtUp, ← hpending]
  exact (movesOn_of_lawful _ (p, ∅)).advances_add

/-- **Catching up may be looked at with nothing pending.** -/
theorem catchUp_eq_advanced [LawfulPeripheral P] (target : Nat) :
    catchUp target p requests =
      (advances target (p, ∅), (advanced (advances target (p, ∅)) p).1,
        requests ∪ (advanced (advances target (p, ∅)) p).2) := by
  have hadvances : (catchUp target p requests).1 = advances target (p, ∅) :=
    advances_eq p requests target
  refine Prod.ext hadvances ?_
  calc (catchUp target p requests).2
      = turn^[advances target (p, requests)] (p, requests) :=
        caughtUp_eq_iterate target (p, requests)
    _ = turn^[advances target (p, ∅)] (p, requests) := by rw [advances_eq p requests target]
    _ = _ := iterate_turn_eq_union ..

end Latching

end Peripheral

end GameBoy
