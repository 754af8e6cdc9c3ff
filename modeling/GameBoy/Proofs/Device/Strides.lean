import GameBoy.Device.Joypad
import GameBoy.Device.ObjectCopy
import GameBoy.Device.Serial
import GameBoy.Proofs.Clock

/-!
# The strides of the serial port, the joypad and the copying engine

What an advance does to the clock of a device does not depend on what else the device has to do. The
serial port is the one device that moves in long strides.
-/

namespace GameBoy

namespace Serial

theorem clock_advance (p : Serial) (requests : InterruptSet) :
    (p.advance requests).1.clock = p.clock + stride := by
  simp only [advance]
  split
  · rfl
  · split <;> rfl

instance : SteadyPeripheral Serial stride where
  stride_pos := by decide
  clock_advance := clock_advance

/-- A write to the control register takes no time. -/
@[simp] theorem clock_setControl (p : Serial) (v : UInt8) : (p.setControl v).clock = p.clock := by
  simp only [setControl]
  split <;> rfl

end Serial

instance : SteadyPeripheral Joypad Joypad.stride where
  stride_pos := by decide
  clock_advance _ _ := rfl

/-- Nor does a button. -/
@[simp] theorem Joypad.clock_setButton (j : Joypad) (button : Button) (held : Bool) :
    (j.setButton button held).clock = j.clock := by
  simp only [setButton]
  split <;> rfl

namespace ObjectCopy.Channel

/-- An advance takes as long as one byte. -/
theorem clock_advance (c : Channel) (requests : InterruptSet) :
    (c.advance requests).1.engine.clock = c.engine.clock + stride := by
  simp only [advance]
  split <;> rfl

instance : SteadyPeripheral Channel stride where
  stride_pos := by decide
  clock_advance := clock_advance

end ObjectCopy.Channel

end GameBoy
