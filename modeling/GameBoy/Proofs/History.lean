import GameBoy.Proofs.CatchUp
import Mathlib.Data.List.Induction
import Mathlib.Data.Nat.Count

/-!
# Histories and requests

The laws of a device that is written to between its advances speak of its past: something has
happened, and nothing has undone it since. `Since` says so of a history, the list of everything
that was done with the device in the order in which it was done. Such a law is proved from the end
of the history, and `since_append_singleton` says what one more operation makes of it.

`Peripheral.Requests` says that a device requests an interrupt in its next advance, and
`Peripheral.requestCount` in how many of its next advances it does so. A device that latches
requests the same whatever is pending (`Peripheral.mem_advance_iff`), so nothing is said about that.
-/

namespace GameBoy

/-! ### Histories -/

/-- Something has happened, and everything done since leaves it as it was. `happened before x` says
that it happened in the operation `x`, where `before` is the history up to there. -/
def Since {Op : Type} (happened : List Op → Op → Prop) (leaves : Op → Prop) (history : List Op) :
    Prop :=
  ∃ before x later, history = before ++ x :: later ∧ happened before x ∧ ∀ y ∈ later, leaves y

section Since

variable {Op : Type} {happened : List Op → Op → Prop} {leaves : Op → Prop}

/-- Nothing has happened yet. -/
theorem not_since_nil : ¬ Since happened leaves [] := by
  rintro ⟨before, x, later, hnil, -⟩
  exact absurd hnil.symm (List.append_ne_nil_of_right_ne_nil before (List.cons_ne_nil x later))

/-- **One more operation**: either it happens now, or it has happened before and is left. -/
theorem since_append_singleton {history : List Op} {x : Op} :
    Since happened leaves (history ++ [x]) ↔
      happened history x ∨ leaves x ∧ Since happened leaves history := by
  constructor
  · rintro ⟨before, y, later, hhistory, hy, hlater⟩
    rcases later.eq_nil_or_concat' with rfl | ⟨middle, z, rfl⟩
    · obtain ⟨rfl, hx⟩ := List.append_inj' hhistory rfl
      obtain rfl : x = y := List.singleton_inj.mp hx
      exact .inl hy
    · have hsplit : history ++ [x] = (before ++ y :: middle) ++ [z] := by
        rw [hhistory, List.append_assoc, List.cons_append]
      obtain ⟨rfl, hx⟩ := List.append_inj' hsplit rfl
      obtain rfl : x = z := List.singleton_inj.mp hx
      refine .inr ⟨hlater x (List.mem_append_right _ (List.mem_singleton_self x)), ?_⟩
      exact ⟨before, y, middle, rfl, hy, fun w hw ↦ hlater w (List.mem_append_left _ hw)⟩
  · rintro (hx | ⟨hleaves, before, y, later, rfl, hy, hlater⟩)
    · exact ⟨history, x, [], rfl, hx, fun w hw ↦ absurd hw List.not_mem_nil⟩
    · refine ⟨before, y, later ++ [x], by rw [List.append_assoc, List.cons_append], hy, ?_⟩
      intro w hw
      rcases List.mem_append.mp hw with hw | hw
      · exact hlater w hw
      · rw [List.mem_singleton.mp hw]
        exact hleaves

end Since

/-! ### Requests -/

namespace Peripheral

variable {P : Type} [Peripheral P]

/-- The device requests the interrupt in its next advance. -/
def Requests (i : Interrupt) (p : P) : Prop := i ∈ (advance p ∅).2

instance (i : Interrupt) (p : P) : Decidable (Requests i p) :=
  inferInstanceAs (Decidable (i ∈ (advance p ∅).2))

/-- In how many of its next `n` advances the device requests the interrupt. -/
def requestCount (i : Interrupt) (n : Nat) (p : P) : Nat :=
  Nat.count (fun k ↦ Requests i (advanced k p).1) n

/-- The requests of one more advance. -/
theorem requestCount_succ (i : Interrupt) (n : Nat) (p : P) :
    requestCount i (n + 1) p =
      requestCount i n p + if Requests i (advanced n p).1 then 1 else 0 :=
  Nat.count_succ ..

/-- A device that requests nothing has requested nothing. -/
theorem requestCount_eq_zero {i : Interrupt} {p : P}
    (h : ∀ k, ¬ Requests i (advanced k p).1) (n : Nat) : requestCount i n p = 0 :=
  Nat.count_iff_forall_not.mpr fun k _ ↦ h k

section Latching

variable [LatchingPeripheral P]

/-- What is pending stays pending, and what the device requests is added. -/
theorem mem_advance_iff (i : Interrupt) (p : P) (pending : InterruptSet) :
    i ∈ (advance p pending).2 ↔ i ∈ pending ∨ Requests i p := by
  rw [LatchingPeripheral.advance_eq_union, InterruptSet.mem_union]
  exact Iff.rfl

/-- One more advance. -/
theorem fst_advanced_succ (n : Nat) (p : P) :
    (advanced (n + 1) p).1 = (advance (advanced n p).1 ∅).1 := by
  rw [advanced, Function.iterate_succ_apply']
  show (advance (advanced n p).1 (advanced n p).2).1 = _
  rw [LatchingPeripheral.advance_eq_union]

/-- Advances in two parts. -/
theorem fst_advanced_add (n m : Nat) (p : P) :
    (advanced (n + m) p).1 = (advanced m (advanced n p).1).1 := by
  rw [advanced_add]

end Latching

end Peripheral

end GameBoy
