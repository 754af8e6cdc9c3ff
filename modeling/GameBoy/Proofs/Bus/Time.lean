import GameBoy.Bus
import GameBoy.Proofs.Bus.Location
import GameBoy.Proofs.Device.Strides
import GameBoy.Proofs.Device.Timer
import GameBoy.Proofs.Device.Video

/-!
# Time on the bus

Each device has a clock, and the five of them move in one place only: when the bus catches up.
Reads, writes, buttons, requests and program images leave them alone (`clock_write` and its
neighbours).

Catching up to a tick makes every device arrive there, whatever the devices do on the way
(`arrived_catchUp`): a request that one of them makes changes no clock.

A write disturbs the counter of the timer only if it reaches the divider, and the position of the
display only if it reaches the control register and switches the display.
-/

namespace GameBoy

/-- A device with a clock of its own. -/
inductive Device where
  /-- The timer. -/
  | timer
  /-- The serial port. -/
  | serial
  /-- The joypad. -/
  | joypad
  /-- The display. -/
  | video
  /-- The copying engine of object memory. -/
  | objectCopy
deriving DecidableEq, Repr

/-- The ticks of one advance of a device. -/
def Device.stride : Device → Nat
  | .timer => Timer.stride
  | .serial => Serial.stride
  | .joypad => Joypad.stride
  | .video => Video.stride
  | .objectCopy => ObjectCopy.stride

/-- Every device moves on when it advances. -/
theorem Device.stride_pos (d : Device) : 0 < d.stride := by
  cases d <;> decide

/-- The serial port is the one device that moves in long strides. -/
theorem Device.stride_of_ne_serial {d : Device} (h : d ≠ .serial) : d.stride = 4 := by
  cases d <;> first | rfl | contradiction

namespace Bus

/-- The ticks that a device on the bus has lived through. -/
def clock (bus : Bus) : Device → Nat
  | .timer => bus.timer.clock
  | .serial => bus.serial.clock
  | .joypad => bus.joypad.clock
  | .video => bus.video.clock
  | .objectCopy => bus.objectCopy.clock

variable (bus : Bus)

/-- All clocks begin at zero. -/
theorem clock_powerOn (capture : Bool) (d : Device) : (powerOn capture).clock d = 0 := by
  cases d <;> rfl

/-- A reset brings all clocks back to zero. -/
theorem clock_reset (d : Device) : bus.reset.clock d = 0 := by
  cases d <;> rfl

/-- What a register shows is read at its address. -/
theorem read_address (r : Register) : bus.read r.address = bus.readRegister r := by
  have hr : Location.ofAddress r.address = .register r :=
    Location.ofAddress_eq_register_iff.mpr rfl
  simp only [read, hr]

/-! ### What leaves the clocks alone -/

theorem clock_writeRegister (r : Register) (v : UInt8) (d : Device) :
    (bus.writeRegister r v).clock d = bus.clock d := by
  cases d <;> cases r <;> simp [writeRegister, clock, Timer.setCount, Timer.setModulo,
    Serial.setData, Joypad.setControl, Video.setStatus, Video.setCompare, ObjectCopy.start]

/-- **A write takes no time.** -/
theorem clock_write (a : UInt16) (v : UInt8) (d : Device) :
    (bus.write a v).clock d = bus.clock d := by
  refine bus.write_induction (motive := fun b ↦ b.clock d = bus.clock d) (fun _ _ ↦ ?_)
    (fun r _ ↦ bus.clock_writeRegister r v d) rfl
  cases d <;> rfl

/-- A button takes no time. -/
theorem clock_setButton (button : Button) (held : Bool) (d : Device) :
    (bus.setButton button held).clock d = bus.clock d := by
  cases d <;> simp [setButton, clock]

/-- Nor does loading a program image. -/
theorem clock_loadRom (rom : Array UInt8) (d : Device) :
    (bus.loadRom rom).clock d = bus.clock d := by
  cases d <;> rfl

/-- Nor does a request. -/
theorem clock_request (sources : InterruptSet) (d : Device) :
    (bus.request sources).clock d = bus.clock d := by
  cases d <;> rfl

/-! ### What a write disturbs -/

section Undisturbed

variable {bus} {a : UInt16}

/-- A write disturbs the counter of the timer only if it is a write to the divider. -/
theorem undisturbed_timer_write (h : bus.timer.Undisturbed) (ha : a ≠ Register.divider.address)
    (v : UInt8) : (bus.write a v).timer.Undisturbed := by
  refine bus.write_induction (motive := fun b ↦ b.timer.Undisturbed) (fun _ _ ↦ h)
    (fun r hr ↦ ?_) h
  cases r with
  | divider => exact absurd hr ha
  | timerControl => exact h.setControl v
  | _ => exact h

/-- A write disturbs the display only if it is a write to its control register and switches it. -/
theorem undisturbed_video_write (h : bus.video.Undisturbed) {v : UInt8}
    (hkept : a = Register.displayControl.address →
      Video.switchesOn v = Video.switchesOn bus.video.control) :
    (bus.write a v).video.Undisturbed := by
  refine bus.write_induction (motive := fun b ↦ b.video.Undisturbed) (fun _ _ ↦ h)
    (fun r hr ↦ ?_) h
  cases r with
  | displayControl => exact h.setControl (hkept hr)
  | displayStatus | lineCompare =>
    exact ⟨h.on, ⟨h.inFrame.line_lt, h.inFrame.dot_lt⟩, h.position_eq⟩
  | _ => exact h

end Undisturbed

/-! ### Catching up -/

/-- A timer that has not been disturbed is not disturbed by time. -/
theorem undisturbed_timer_catchUp {bus : Bus} (h : bus.timer.Undisturbed) (now : Nat) :
    (bus.catchUp now).timer.Undisturbed :=
  h.catchUp now bus.requests

/-- Nor is a display. -/
theorem undisturbed_video_catchUp {bus : Bus} (h : bus.video.Undisturbed) (now : Nat) :
    (bus.catchUp now).video.Undisturbed :=
  h.catchUp _ now

/-- **Catching up makes a device arrive** that is not ahead, whichever it is. -/
theorem arrived_catchUp {now : Nat} {d : Device} (h : NotAhead d.stride now (bus.clock d)) :
    Arrived d.stride now ((bus.catchUp now).clock d) := by
  cases d with
  | timer => exact Peripheral.arrived_catchUp (p := bus.timer) h
  | serial => exact Peripheral.arrived_catchUp (p := bus.serial) h
  | joypad => exact Peripheral.arrived_catchUp (p := bus.joypad) h
  | video => exact Peripheral.arrived_catchUp (p := bus.video) h
  | objectCopy =>
    exact Peripheral.arrived_catchUp (P := ObjectCopy.Channel) (p := ⟨bus.objectCopy, bus.memory⟩) h

end Bus

end GameBoy
