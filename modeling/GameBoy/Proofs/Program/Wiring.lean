import GameBoy.Proofs.Bus.Sent
import GameBoy.Proofs.Device.SerialLine

/-!
# What a sending program relies on

A program that sends bytes over the serial port, and is interrupted when they are gone, does not
depend on all there is on the bus. A `Wiring` is the part that it does depend on: whether it listens
to the serial port, and to nothing else; whether the port has requested its interrupt; what the port
is doing; the return address, if it is in the handler; and the bytes sent so far.

The devices may do what they like besides. What catching up does to a wiring is said once
(`Wiring.Shows.catchUp`, `Wiring.Shows.catchUp_sent`), and so is each of the writes that such a
program makes.
-/

namespace GameBoy

namespace Bus

variable (bus : Bus) (target : Nat)

/-- The serial port catches up by itself. -/
theorem serial_catchUp :
    (bus.catchUp target).serial = (Peripheral.catchUp target bus.serial ∅).2.1 := by
  rw [catchUp_eq_advanced, Peripheral.catchUp_eq_advanced]
  rfl

/-- Nobody but the serial port requests the interrupt of the serial port. -/
theorem serial_mem_catchUp :
    .serial ∈ (bus.catchUp target).requests ↔
      .serial ∈ bus.requests ∨ .serial ∈ (Peripheral.catchUp target bus.serial ∅).2.2 := by
  have hown : (Peripheral.catchUp target bus.serial ∅).2.2 =
      bus.requestedBy (bus.advances target .serial) .serial := by
    rw [Peripheral.catchUp_eq_advanced, InterruptSet.empty_union]
    rfl
  rw [hown]
  exact bus.mem_requests_catchUp target (d := .serial) (by decide)

/-- While nothing is being copied, memory stays as it is. -/
theorem memory_catchUp (hstill : bus.objectCopy.next = none) :
    (bus.catchUp target).memory = bus.memory ∧ (bus.catchUp target).objectCopy.next = none := by
  refine Peripheral.catchUp_induction (P := ObjectCopy.Channel) (p := bus.channel)
    (motive := fun c _ ↦ c.memory = bus.memory ∧ c.engine.next = none) ?_ ⟨rfl, hstill⟩
  rintro c requests - ⟨hmemory, hnext⟩
  show (c.advance requests).1.memory = bus.memory ∧ (c.advance requests).1.engine.next = none
  simp only [ObjectCopy.Channel.advance, hnext, and_true]
  exact hmemory

/-- A return address that is pushed on an empty stack stands there. -/
theorem get_saved (back : UInt16) :
    let bus' := (bus.write 0xFFFD (highByte back)).write 0xFFFC (lowByte back)
    bus'.memory.get 0xFFFC = lowByte back ∧ bus'.memory.get 0xFFFD = highByte back := by
  show ((bus.memory.set 0xFFFD (highByte back)).set 0xFFFC (lowByte back)).get 0xFFFC = _ ∧
    ((bus.memory.set 0xFFFD (highByte back)).set 0xFFFC (lowByte back)).get 0xFFFD = _
  refine ⟨Memory.get_set_self .., ?_⟩
  rw [Memory.get_set_of_ne _ _ (by decide), Memory.get_set_self]

end Bus

/-- What a sending program relies on. -/
structure Wiring where
  /-- The interrupt of the serial port is enabled. No other is. -/
  listening : Bool
  /-- The serial port has requested its interrupt. -/
  pending : Bool
  /-- What the serial port is doing. -/
  line : Line
  /-- The return address on the stack, inside the handler. -/
  saved : Option UInt16
  /-- The bytes sent so far. -/
  sent : List UInt8

namespace Wiring

/-- The sources that are enabled. -/
def heeded (w : Wiring) : InterruptSet := if w.listening then {.serial} else ∅

/-- **What is said of the bus is true** at the tick `now`. -/
structure Shows (code : UInt16 → UInt8) (w : Wiring) (now : Nat) (bus : Bus) : Prop where
  /-- The program is mapped. -/
  rom : bus.HoldsRom code
  /-- Nothing is being copied. -/
  still : bus.objectCopy.next = none
  /-- The enable register is as said. -/
  enabled_eq : InterruptSet.ofByte bus.enabled = w.heeded
  /-- The request of the serial port is as said. -/
  pending_iff : .serial ∈ bus.requests ↔ w.pending = true
  /-- The serial port has caught up. -/
  arrived : Arrived Serial.stride now bus.serial.clock
  /-- The serial port does as said. -/
  line : w.line.Shows bus.serial
  /-- The return address is on top of the stack. -/
  saved : ∀ back, w.saved = some back →
    bus.memory.get 0xFFFC = lowByte back ∧ bus.memory.get 0xFFFD = highByte back
  /-- What is sent is recorded. -/
  capture : bus.serial.capture = true
  /-- What has been sent is as said. -/
  output_eq : bus.serial.output.toList = w.sent

variable {code : UInt16 → UInt8} {w : Wiring} {now target : Nat} {bus : Bus}

/-- A byte of the program is read at its address. -/
theorem Shows.read_code (h : w.Shows code now bus) {a : UInt16} (ha : a.toNat < Location.romSize) :
    bus.read a = code a :=
  (Bus.read_eq_get ha).trans (h.rom.get_eq a ha)

/-- Without a request of the serial port there is nothing to attend to. -/
theorem Shows.quiet (h : w.Shows code now bus) (hpending : w.pending = false) :
    ∀ i ∈ InterruptSet.ofByte bus.enabled, i ∉ bus.requests := by
  intro i hi hrequested
  rw [h.enabled_eq, heeded] at hi
  split at hi
  · obtain rfl := InterruptSet.mem_singleton.mp hi
    simp [h.pending_iff.mp hrequested] at hpending
  · exact InterruptSet.not_mem_empty hi

/-! ### Catching up -/

/-- What catching up leaves alone, whatever becomes of the line. -/
theorem Shows.catchUp_of (h : w.Shows code now bus) (hle : now ≤ target) {line : Line}
    {pending : Bool} (hline : line.Shows (bus.catchUp target).serial)
    (hpending : .serial ∈ (bus.catchUp target).requests ↔ pending = true) :
    ({ w with line, pending } : Wiring).Shows code target (bus.catchUp target) where
  rom := h.rom.catchUp target
  still := (bus.memory_catchUp target h.still).2
  enabled_eq := h.enabled_eq
  pending_iff := hpending
  arrived := by
    have hnotAhead := (h.arrived.notAhead (by decide)).mono hle
    exact Bus.arrived_catchUp bus (d := .serial) hnotAhead
  line := hline
  saved := by
    rw [(bus.memory_catchUp target h.still).1]
    exact h.saved
  capture := (Bus.kept_capture true).catchUp bus target h.capture
  output_eq := (congrArg Array.toList (bus.output_catchUp target)).trans h.output_eq

/-- **Time passes**, and a byte that is being sent is not gone yet. -/
theorem Shows.catchUp (h : w.Shows code now bus) (hle : now ≤ target)
    (huntil : w.line.Until target) : w.Shows code target (bus.catchUp target) := by
  obtain ⟨hkept, hrequests⟩ := h.line.catchUp_kept huntil ∅
  have hline : w.line.Shows (bus.catchUp target).serial := by
    rw [Bus.serial_catchUp]
    exact hkept
  have hpending : .serial ∈ (bus.catchUp target).requests ↔ w.pending = true := by
    rw [Bus.serial_mem_catchUp, hrequests, ← h.pending_iff]
    exact or_iff_left InterruptSet.not_mem_empty
  exact h.catchUp_of hle hline hpending

/-- **Time passes, and the byte is gone.** -/
theorem Shows.catchUp_sent (h : w.Shows code now bus) (hle : now ≤ target) {due : Nat}
    (hdue : w.line = .sending due) (hpast : due < target)
    (htarget : target ≤ due + Serial.stride) :
    ({ w with line := .idle, pending := true } : Wiring).Shows code target
      (bus.catchUp target) := by
  have hsending := h.line
  rw [hdue] at hsending
  obtain ⟨hline, hrequests⟩ := hsending.catchUp_sent hpast htarget ∅
  refine h.catchUp_of hle ?_ ?_
  · rw [Bus.serial_catchUp]
    exact hline
  · rw [Bus.serial_mem_catchUp, hrequests]
    simp

/-! ### Writes -/

/-- A write to the enable register decides what is listened to. -/
theorem Shows.write_enabled (h : w.Shows code now bus) {v : UInt8} {listening : Bool}
    (hv : InterruptSet.ofByte v = ({ w with listening } : Wiring).heeded) :
    ({ w with listening } : Wiring).Shows code now (bus.write 0xFFFF v) :=
  { h with rom := h.rom.write 0xFFFF v, enabled_eq := hv }

/-- A write to the request register decides what is pending. -/
theorem Shows.write_requests (h : w.Shows code now bus) {v : UInt8} {pending : Bool}
    (hv : .serial ∈ InterruptSet.ofByte v ↔ pending = true) :
    ({ w with pending } : Wiring).Shows code now (bus.write requestAddress v) :=
  { h with rom := h.rom.write requestAddress v, pending_iff := hv }

/-- A byte is put into the data register while none is being sent. -/
theorem Shows.write_data (h : w.Shows code now bus) (hidle : w.line = .idle) (v : UInt8) :
    ({ w with line := .loaded v } : Wiring).Shows code now (bus.write 0xFF01 v) := by
  have hline := h.line
  rw [hidle] at hline
  exact { h with rom := h.rom.write 0xFF01 v, line := ⟨hline, rfl⟩ }

/-- The byte in the data register is sent. -/
theorem Shows.write_control (h : w.Shows code now bus) {v byte : UInt8}
    (hloaded : w.line = .loaded byte) (hbegins : Serial.begins v = true) {clock : Nat}
    (hclock : Arrived Serial.stride now clock) :
    ({ w with
        line := .sending (clock + 7 * Serial.stride), sent := w.sent ++ [byte] } : Wiring).Shows
      code now (bus.write 0xFF02 v) := by
  have hline := h.line
  rw [hloaded] at hline
  have hdata : bus.read 0xFF01 = byte := hline.2
  have hnow : bus.serial.clock = clock := h.arrived.unique hclock
  have hcontrol : (bus.write 0xFF02 v).serial = bus.serial.setControl v := rfl
  exact { h with
    rom := h.rom.write 0xFF02 v
    arrived := by
      rw [hcontrol, Serial.clock_setControl]
      exact h.arrived
    line := Line.shows_setControl hbegins (congrArg (· + 7 * Serial.stride) hnow.symm)
    capture := (Bus.kept_capture true).write bus 0xFF02 v h.capture
    output_eq := by
      rw [bus.output_write h.capture, h.output_eq, if_pos ⟨rfl, hbegins⟩, hdata] }

/-- The return address goes to the top of the stack. -/
theorem Shows.write_stack (h : w.Shows code now bus) (back : UInt16) :
    ({ w with saved := some back } : Wiring).Shows code now
      ((bus.write 0xFFFD (highByte back)).write 0xFFFC (lowByte back)) where
  rom := (h.rom.write 0xFFFD _).write 0xFFFC _
  still := h.still
  enabled_eq := h.enabled_eq
  pending_iff := h.pending_iff
  arrived := h.arrived
  line := h.line
  saved := by
    rintro _ ⟨⟩
    exact bus.get_saved back
  capture := h.capture
  output_eq := h.output_eq

/-- Whether a return address is known. -/
theorem Shows.forget_saved (h : w.Shows code now bus) :
    ({ w with saved := none } : Wiring).Shows code now bus :=
  { h with saved := nofun }

end Wiring

end GameBoy
