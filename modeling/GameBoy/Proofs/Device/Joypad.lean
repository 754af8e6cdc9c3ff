import GameBoy.Proofs.Device.Latching

/-!
# What the joypad remembers

The joypad compares its lines with those it sampled last. An advance samples them, and changes
nothing else but the clock, so of several advances only the first can find that a line has fallen
(`advanced_of_fallen_eq_zero`). The lines depend on the buttons that are held and on the groups that
are selected, and not on the sample.
-/

namespace GameBoy.Joypad

open Peripheral

/-- The lines that have gone low since the last sample. -/
def fallen (j : Joypad) : BitVec 4 := j.sampled &&& ~~~ j.lines

/-- No line has fallen when the lines have just been sampled. -/
theorem fallen_advance (j : Joypad) (requests : InterruptSet) :
    (j.advance requests).1.fallen = 0 :=
  BitVec.and_not_self j.lines

/-- **Unless a line has fallen, nothing is requested**, however often the lines are sampled. -/
theorem advanced_of_fallen_eq_zero {j : Joypad} (h : j.fallen = 0) (n : Nat) :
    (advanced n j).2 = ∅ := by
  refine (advanced_induction (motive := fun j requests ↦ j.fallen = 0 ∧ requests = ∅)
    (fun j requests hj ↦ ⟨j.fallen_advance requests, ?_⟩) ⟨h, rfl⟩ n).2
  obtain ⟨hfallen, rfl⟩ := hj
  exact if_pos hfallen

/-- Catching up leaves the lines alone, and at most it samples them. -/
theorem sampled_catchUp (j : Joypad) (target : Nat) (requests : InterruptSet) :
    (catchUp target j requests).2.1.lines = j.lines ∧
      ((catchUp target j requests).2.1.sampled = j.sampled ∨
        (catchUp target j requests).2.1.sampled = j.lines) := by
  refine catchUp_induction (P := Joypad) (motive := fun j' _ ↦ j'.lines = j.lines ∧
    (j'.sampled = j.sampled ∨ j'.sampled = j.lines)) (fun j' requests _ hj ↦ ?_) ⟨rfl, .inl rfl⟩
  exact ⟨hj.1, .inr hj.1⟩

/-! ### No group selected -/

/-- Neither group is selected. -/
structure Deselected (j : Joypad) : Prop where
  /-- The directions are not. -/
  directions_eq : j.directionsSelected = false
  /-- The actions are not. -/
  actions_eq : j.actionsSelected = false

/-- The register shows whether a group is selected. -/
theorem deselected_of_control {j : Joypad} (h : j.control &&& 0x30 = 0x30) : j.Deselected := by
  have hbits : ∀ (noActions noDirections : Bool), ∀ n < 16,
      UInt8.ofNat (0xC0 + 32 * noActions.toNat + 16 * noDirections.toNat + n) &&& 0x30 = 0x30 →
        noActions = true ∧ noDirections = true := by
    decide +kernel
  obtain ⟨hactions, hdirections⟩ := hbits _ _ _ j.lines.isLt h
  exact ⟨by simpa using hdirections, by simpa using hactions⟩

/-- No line is low then, whatever is held, so none has fallen. -/
theorem Deselected.fallen_eq_zero {j : Joypad} (h : j.Deselected) : j.fallen = 0 := by
  have hlines : j.lines = ~~~ 0 := by
    simp [lines, h.directions_eq, h.actions_eq]
  rw [fallen, hlines, BitVec.not_not]
  exact BitVec.and_zero

/-- A button does not select anything. -/
theorem Deselected.setButton {j : Joypad} (h : j.Deselected) (button : Button) (held : Bool) :
    (j.setButton button held).Deselected := by
  unfold Joypad.setButton
  split <;> exact ⟨h.directions_eq, h.actions_eq⟩

/-- Nor does time. -/
theorem Deselected.catchUp {j : Joypad} (h : j.Deselected) (target : Nat)
    (requests : InterruptSet) : (Peripheral.catchUp target j requests).2.1.Deselected :=
  catchUp_induction (P := Joypad) (motive := fun j _ ↦ j.Deselected)
    (fun _ _ _ hj ↦ ⟨hj.directions_eq, hj.actions_eq⟩) h

end GameBoy.Joypad
