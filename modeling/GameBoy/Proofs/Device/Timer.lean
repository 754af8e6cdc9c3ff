import GameBoy.Device.Timer
import GameBoy.Proofs.Clock

/-!
# The hidden counter of the timer

Whatever else an advance does, it moves the hidden counter on by one and the clock by four ticks; no
register but the divider reaches the counter, and none reaches the clock. So while the divider is
not written, the counter is a function of the clock (`Timer.Undisturbed`), and the divider register
shows it divided by 64. -/

namespace GameBoy.Timer

variable (t : Timer)

/-! ### Counting on a falling edge -/

/-- Counting on a falling edge changes nothing but what counting changes. -/
theorem whileCounting_apply {α : Type} (field : Timer → α)
    (hfield : ∀ t : Timer, field t.tick = field t) (change : Timer → Timer) :
    field (t.whileCounting change) = field (change t) := by
  simp only [whileCounting]
  split
  · exact hfield _
  · rfl

@[simp] theorem clock_whileCounting (change : Timer → Timer) :
    (t.whileCounting change).clock = (change t).clock :=
  t.whileCounting_apply clock (fun _ ↦ rfl) change

@[simp] theorem counter_whileCounting (change : Timer → Timer) :
    (t.whileCounting change).counter = (change t).counter :=
  t.whileCounting_apply counter (fun _ ↦ rfl) change

/-- Looking for a falling edge does not touch the divider. -/
@[simp] theorem divider_whileCounting (change : Timer → Timer) :
    (t.whileCounting change).divider = (change t).divider :=
  t.whileCounting_apply divider (fun _ ↦ rfl) change

/-- Nor the modulo. -/
@[simp] theorem modulo_whileCounting (change : Timer → Timer) :
    (t.whileCounting change).modulo = (change t).modulo :=
  t.whileCounting_apply modulo (fun _ ↦ rfl) change

/-- Nor the control register. -/
@[simp] theorem control_whileCounting (change : Timer → Timer) :
    (t.whileCounting change).control = (change t).control :=
  t.whileCounting_apply control (fun _ ↦ rfl) change

/-! ### Advances -/

theorem clock_advance (requests : InterruptSet) :
    (t.advance requests).1.clock = t.clock + stride := by
  simp only [advance]
  split
  · rfl
  · exact clock_whileCounting ..

/-- **An advance moves the counter on by one.** -/
theorem counter_advance (requests : InterruptSet) :
    (t.advance requests).1.counter = t.counter + 1 := by
  simp only [advance]
  split
  · rfl
  · exact counter_whileCounting ..

instance : SteadyPeripheral Timer stride where
  stride_pos := by decide
  clock_advance := clock_advance

/-! ### Register writes -/

@[simp] theorem clock_clearDivider : t.clearDivider.clock = t.clock := clock_whileCounting ..

/-- A write to the control register takes no time. -/
@[simp] theorem clock_setControl (v : UInt8) : (t.setControl v).clock = t.clock :=
  clock_whileCounting ..

@[simp] theorem counter_setControl (v : UInt8) : (t.setControl v).counter = t.counter :=
  counter_whileCounting ..

/-! ### The counter as a function of the clock -/

/-- The counter is where it has to be if it has never been cleared. -/
def Undisturbed : Prop := t.counter.toNat = (0x2AC0 + t.clock / stride) % UInt16.size

/-- A timer begins undisturbed. -/
theorem undisturbed_powerOn : Undisturbed {} := rfl

theorem Undisturbed.advance {t : Timer} (h : t.Undisturbed) (requests : InterruptSet) :
    (t.advance requests).1.Undisturbed := by
  unfold Undisturbed at h ⊢
  rw [counter_advance, clock_advance, UInt16.toNat_add, h]
  have hnext : (t.clock + stride) / stride = t.clock / stride + 1 :=
    Nat.add_div_right _ (by decide)
  rw [hnext]
  exact (Nat.mod_add_mod ..).trans rfl

/-- Writing the control register does not disturb the counter. -/
theorem Undisturbed.setControl {t : Timer} (h : t.Undisturbed) (v : UInt8) :
    (t.setControl v).Undisturbed := by
  unfold Undisturbed at h ⊢
  rw [counter_setControl, clock_setControl, h]

/-- Catching up does not disturb the counter. -/
theorem Undisturbed.catchUp {t : Timer} (h : t.Undisturbed) (target : Nat)
    (requests : InterruptSet) : (Peripheral.catchUp target t requests).2.1.Undisturbed :=
  Peripheral.catchUp_induction (motive := fun t _ ↦ Undisturbed t)
    (fun _ requests _ h ↦ h.advance requests) h

/-- What the divider register shows if it has never been written. -/
theorem Undisturbed.divider {t : Timer} (h : t.Undisturbed) :
    t.divider.toNat = (0x2AC0 + t.clock / stride) / 64 % 256 := by
  unfold Undisturbed at h
  simp only [Timer.divider, h, UInt8.toNat_ofNat', UInt16.size]
  omega

end GameBoy.Timer
