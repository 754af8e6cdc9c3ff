import GameBoy.Proofs.Bus.Kept
import GameBoy.Proofs.Port.Trace

/-!
# What is sent, and what is recorded of it

A byte is sent when a transfer begins, and it is the byte in the data register at that moment.
`Bus.sent` reads the bytes off the accesses that are made through a bus. A port that records has
recorded these, behind what it had before (`output_foldl_apply`), and it records nothing while it
catches up.

Recording has no influence on anything: leaving the record away, and the setting as well, is a port
homomorphism (`Bus.hom_muted`), and catching up respects it (`Bus.catchUp_muted`).
-/

namespace GameBoy

namespace Serial

variable (p : Serial)

/-- The port without a record, and keeping none. -/
def muted : Serial := { p with capture := false, output := #[] }

theorem advance_muted (requests : InterruptSet) :
    p.muted.advance requests = ((p.advance requests).1.muted, (p.advance requests).2) := by
  have hbits : p.muted.bitsLeft = p.bitsLeft := rfl
  simp only [advance, hbits]
  split
  · rfl
  · split <;> rfl

theorem setControl_muted (v : UInt8) : p.muted.setControl v = (p.setControl v).muted := by
  simp only [setControl]
  split <;> rfl

/-- Time sends nothing: a byte is recorded when its transfer begins. -/
theorem output_advance (requests : InterruptSet) :
    (p.advance requests).1.output = p.output := by
  simp only [advance]
  split
  · rfl
  · split <;> rfl

/-- A port that records keeps the byte of a transfer that begins. -/
theorem output_setControl (hcapture : p.capture = true) (v : UInt8) :
    (p.setControl v).output.toList = p.output.toList ++ if begins v then [p.data] else [] := by
  simp only [setControl]
  rw [hcapture]
  split <;> simp

end Serial

namespace Bus

/-! ### Leaving the record away -/

/-- The bus without a record of the bytes sent, and keeping none. -/
def muted (bus : Bus) : Bus := { bus with serial := bus.serial.muted }

/-- Whether bytes are recorded cannot be read. -/
theorem read_muted (bus : Bus) (a : UInt16) : bus.muted.read a = bus.read a := by
  simp only [read]
  split
  · rfl
  · rfl
  · rfl
  · next r _ => cases r <;> rfl

/-- A write does the same whether bytes are recorded or not. -/
theorem write_muted (bus : Bus) (a : UInt16) (v : UInt8) :
    bus.muted.write a v = (bus.write a v).muted := by
  simp only [write]
  split
  · rfl
  · rfl
  · rfl
  · next r _ =>
    cases r with
    | serialControl =>
      exact congrArg (fun serial ↦ { bus with serial }) (bus.serial.setControl_muted v)
    | _ => rfl

/-- **Nobody notices that the bytes sent are recorded.** -/
theorem hom_muted : Port.Hom muted where
  map_read bus a := congrArg (·, bus.muted) (bus.read_muted a)
  map_write := write_muted
  map_note _ _ := rfl

/-- So does the passing of time. -/
theorem catchUp_muted (bus : Bus) (target : Nat) :
    bus.muted.catchUp target = (bus.catchUp target).muted := by
  have hserial (requests : InterruptSet) :=
    Peripheral.catchUp_map (f := Serial.muted) (fun _ ↦ rfl) Serial.advance_muted target bus.serial
      requests
  simp only [catchUp]
  have hmuted : bus.muted.serial = bus.serial.muted := rfl
  rw [hmuted]
  simp only [hserial]
  rfl

/-! ### The bytes sent -/

/-- The bytes that are sent by some accesses: what the data register shows at each write to the
control register that begins a transfer. -/
def sent (bus : Bus) : List Access → List UInt8
  | [] => []
  | .read _ _ :: rest => bus.sent rest
  | .write a v :: rest =>
    (if a = 0xFF02 ∧ Serial.begins v then [bus.read 0xFF01] else []) ++ (bus.write a v).sent rest

/-- **What a write adds to the output**: the byte to be sent, if it begins a transfer. -/
theorem output_write (bus : Bus) (hcapture : bus.serial.capture = true) (a : UInt16) (v : UInt8) :
    (bus.write a v).serial.output.toList = bus.serial.output.toList ++
      if a = 0xFF02 ∧ Serial.begins v then [bus.read 0xFF01] else [] := by
  by_cases ha : a = 0xFF02
  · subst ha
    have hdata : bus.read 0xFF01 = bus.serial.data := rfl
    simp only [true_and, hdata]
    exact bus.serial.output_setControl hcapture v
  · have hkept : (bus.write a v).serial.output = bus.serial.output := by
      refine bus.write_induction (motive := fun b ↦ b.serial.output = bus.serial.output)
        (fun _ _ ↦ rfl) (fun r hr ↦ ?_) rfl
      cases r with
      | serialControl => exact absurd hr ha
      | _ => rfl
    simp [ha, hkept]

/-- **A port that records has recorded what was sent**, behind what it had recorded before. -/
theorem output_foldl_apply (bus : Bus) (hcapture : bus.serial.capture = true)
    (accesses : List Access) :
    (accesses.foldl Access.apply bus).serial.output.toList =
      bus.serial.output.toList ++ bus.sent accesses := by
  induction accesses generalizing bus with
  | nil => simp [sent]
  | cons access rest ih =>
    cases access with
    | read a v => exact ih bus hcapture
    | write a v =>
      have hrest := ih (bus.write a v) ((kept_capture true).write bus a v hcapture)
      rw [List.foldl_cons, sent, ← List.append_assoc, ← bus.output_write hcapture]
      exact hrest

/-- The passing of time adds nothing to the output. -/
theorem output_catchUp (bus : Bus) (target : Nat) :
    (bus.catchUp target).serial.output = bus.serial.output :=
  Peripheral.catchUp_induction (P := Serial)
    (motive := fun p _ ↦ p.output = bus.serial.output)
    (fun p requests _ hp ↦ (p.output_advance requests).trans hp) (p := bus.serial) rfl

end Bus

end GameBoy
