import GameBoy.Clock
import Mathlib.Order.Bounds.Basic

/-!
# Catching up

`Peripheral.catchUp` advances a device while it is behind a target. Two facts say what to expect of
it without looking at the loop again.

* What every advance keeps, catching up keeps (`catchUp_induction`), and an advance may be assumed
  to begin behind the target.
* A lawful device is not behind afterwards (`le_clock_catchUp`). The loop is given one turn for each
  tick of the distance, and every turn uses up one tick at least.

A device is **steady** if all its advances take the same number of ticks. The clock of a steady
device stays on the multiples of its stride, so it cannot always follow another clock exactly. What
can be said is that it is never a whole stride ahead (`NotAhead`), and that after catching up it
shows the first multiple that is not behind (`Arrived`): the target itself, if that is a multiple.
-/

namespace GameBoy

/-- A device whose advances all take the same number of ticks. -/
class SteadyPeripheral (P : Type) [Peripheral P] (stride : outParam Nat) : Prop where
  /-- An advance takes time. -/
  stride_pos : 0 < stride
  /-- The ticks of one advance. -/
  clock_advance : ∀ (p : P) (requests : InterruptSet),
    Peripheral.clock (Peripheral.advance p requests).1 = Peripheral.clock p + stride

instance {P : Type} [Peripheral P] {stride : Nat} [SteadyPeripheral P stride] :
    LawfulPeripheral P where
  clock_lt_advance p requests := by
    rw [SteadyPeripheral.clock_advance p requests]
    exact Nat.lt_add_of_pos_right (SteadyPeripheral.stride_pos P)

/-! ### Clocks that move in strides -/

/-- A clock that moves in strides, and is not a whole stride ahead of `now`. -/
def NotAhead (stride now clock : Nat) : Prop := stride ∣ clock ∧ clock < now + stride

/-- A clock that shows the first multiple of its stride that is not before `now`. -/
def Arrived (stride now clock : Nat) : Prop := IsLeast { n | stride ∣ n ∧ now ≤ n } clock

section Clocks

variable {stride now clock : Nat}

/-- A clock that is not ahead of one time is not ahead of a later one. -/
theorem NotAhead.mono (h : NotAhead stride now clock) {later : Nat} (hle : now ≤ later) :
    NotAhead stride later clock :=
  ⟨h.1, Nat.lt_of_lt_of_le h.2 (Nat.add_le_add_right hle stride)⟩

/-- Two multiples of a stride that differ are a stride apart, so a clock that has reached `now` and
is not a whole stride ahead has arrived. -/
theorem NotAhead.arrived (h : NotAhead stride now clock) (hreached : now ≤ clock) :
    Arrived stride now clock := by
  refine ⟨⟨h.1, hreached⟩, fun n hn ↦ ?_⟩
  obtain ⟨hn, hnow⟩ := hn
  by_contra hlt
  have hlt := Nat.not_le.mp hlt
  have hgap := Nat.le_of_dvd (Nat.sub_pos_of_lt hlt) (Nat.dvd_sub h.1 hn)
  have hclose := h.2
  omega

/-- A clock that has arrived is not ahead. -/
theorem Arrived.notAhead (h : Arrived stride now clock) (hpos : 0 < stride) :
    NotAhead stride now clock := by
  obtain ⟨⟨hdvd, -⟩, hleast⟩ := h
  refine ⟨hdvd, Nat.lt_of_not_le fun hfar ↦ ?_⟩
  -- A whole stride ahead, the multiple before would have done.
  have hbefore : clock ≤ clock - stride :=
    hleast ⟨Nat.dvd_sub hdvd (Nat.dvd_refl stride), Nat.le_sub_of_add_le hfar⟩
  omega

/-- A time that is a multiple of the stride is reached exactly. -/
theorem Arrived.eq_of_dvd (h : Arrived stride now clock) (hnow : stride ∣ now) : clock = now :=
  h.unique ⟨⟨hnow, Nat.le_refl now⟩, fun _ hn ↦ hn.2⟩

end Clocks

namespace Peripheral

variable {P : Type} [Peripheral P] {target : Nat}

/-! ### The loop -/

theorem go_induction {motive : P → InterruptSet → Prop}
    (hadvance : ∀ p requests, clock p < target → motive p requests →
      motive (advance p requests).1 (advance p requests).2)
    (fuel count : Nat) (p : P) (requests : InterruptSet) (h : motive p requests) :
    motive (catchUp.go target fuel count p requests).2.1
      (catchUp.go target fuel count p requests).2.2 := by
  induction fuel generalizing count p requests with
  | zero => exact h
  | succ fuel ih =>
    rw [catchUp.go]
    split
    · next hbehind => exact ih _ _ _ (hadvance p requests hbehind h)
    · exact h

/-- **What every advance keeps, catching up keeps.** -/
theorem catchUp_induction {motive : P → InterruptSet → Prop}
    (hadvance : ∀ p requests, clock p < target → motive p requests →
      motive (advance p requests).1 (advance p requests).2)
    {p : P} {requests : InterruptSet} (h : motive p requests) :
    motive (catchUp target p requests).2.1 (catchUp target p requests).2.2 :=
  go_induction hadvance _ _ _ _ h

section Map

variable {Q : Type} [Peripheral Q] {f : P → Q} (hclock : ∀ p, clock (f p) = clock p)
  (hadvance : ∀ p requests,
    advance (f p) requests = (f (advance p requests).1, (advance p requests).2))
include hclock hadvance

theorem go_map (fuel count : Nat) (p : P) (requests : InterruptSet) :
    catchUp.go target fuel count (f p) requests =
      ((catchUp.go target fuel count p requests).1,
        f (catchUp.go target fuel count p requests).2.1,
        (catchUp.go target fuel count p requests).2.2) := by
  induction fuel generalizing count p requests with
  | zero => rfl
  | succ fuel ih =>
    rw [catchUp.go, catchUp.go, hclock]
    split
    · rw [hadvance]
      exact ih ..
    · rfl

/-- **A map that respects clocks and advances respects catching up.** -/
theorem catchUp_map (target : Nat) (p : P) (requests : InterruptSet) :
    catchUp target (f p) requests =
      ((catchUp target p requests).1, f (catchUp target p requests).2.1,
        (catchUp target p requests).2.2) := by
  rw [catchUp, catchUp, hclock]
  exact go_map hclock hadvance ..

end Map

section Reached

variable {motive : P → InterruptSet → Prop}
  (hadvance : ∀ p requests, clock p < target → motive p requests →
    motive (advance p requests).1 (advance p requests).2 ∧
      clock p < clock (advance p requests).1)
include hadvance

theorem le_clock_go (fuel count : Nat) (p : P) (requests : InterruptSet)
    (h : motive p requests) (hfuel : target ≤ clock p + fuel) :
    target ≤ clock (catchUp.go target fuel count p requests).2.1 := by
  induction fuel generalizing count p requests with
  | zero => exact hfuel
  | succ fuel ih =>
    rw [catchUp.go]
    split
    · next hbehind =>
      obtain ⟨hnext, hforward⟩ := hadvance p requests hbehind h
      have hfuel : target ≤ clock (advance p requests).1 + fuel := by omega
      exact ih _ _ _ hnext hfuel
    · next hreached => exact Nat.le_of_not_lt hreached

/-- **The target is reached** if every advance made on the way moves the clock forward. Why it does
may rest on anything that the advances keep. -/
theorem le_clock_catchUp_of_advance {p : P} {requests : InterruptSet} (h : motive p requests) :
    target ≤ clock (catchUp target p requests).2.1 :=
  le_clock_go hadvance _ _ _ _ h (by omega)

end Reached

/-- **Nothing is behind after catching up.** -/
theorem le_clock_catchUp [LawfulPeripheral P] (target : Nat) (p : P) (requests : InterruptSet) :
    target ≤ clock (catchUp target p requests).2.1 :=
  le_clock_catchUp_of_advance (motive := fun _ _ ↦ True)
    (fun p requests _ _ ↦ ⟨trivial, LawfulPeripheral.clock_lt_advance p requests⟩) trivial

/-! ### Constant strides -/

section Steady

variable {stride : Nat} [SteadyPeripheral P stride] {p : P} {requests : InterruptSet}

/-- Catching up never takes a steady device a whole stride ahead. -/
theorem notAhead_catchUp (h : NotAhead stride target (clock p)) :
    NotAhead stride target (clock (catchUp target p requests).2.1) := by
  refine catchUp_induction (motive := fun p _ ↦ NotAhead stride target (clock p))
    (fun p requests hbehind h ↦ ?_) h
  rw [SteadyPeripheral.clock_advance]
  exact ⟨Nat.dvd_add h.1 (Nat.dvd_refl stride), Nat.add_lt_add_right hbehind stride⟩

/-- **A steady device that catches up arrives.** -/
theorem arrived_catchUp (h : NotAhead stride target (clock p)) :
    Arrived stride target (clock (catchUp target p requests).2.1) :=
  (notAhead_catchUp h).arrived (le_clock_catchUp target p requests)

end Steady

end Peripheral

end GameBoy
