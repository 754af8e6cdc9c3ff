import GameBoy.Device.Joypad
import GameBoy.Device.Serial
import GameBoy.Device.Video
import GameBoy.Proofs.Device.Timer
import GameBoy.Word

/-!
# Registers that are read back

What a register shows after a write to it, for the registers that do not simply keep the byte. Bits
that are not used read as one, bits that belong to the device keep their values, and the divider
shows zero whatever is written.
-/

namespace GameBoy

/-! ### The serial port -/

namespace Serial

/-- A write to the control register leaves the data register alone. -/
theorem data_setControl (p : Serial) (v : UInt8) : (p.setControl v).data = p.data := by
  simp only [setControl]
  split <;> rfl

/-- Of a byte that is written, two bits are kept, and the others read as set. -/
theorem control_setControl (p : Serial) (v : UInt8) :
    (p.setControl v).control = (v &&& 0x81) ||| 0x7E := by
  have hcontrol : (p.setControl v).control =
      UInt8.ofNat (0x7E + 128 * (v.toNat.testBit 7).toNat + (v.toNat.testBit 0).toNat) := by
    simp only [setControl]
    split <;> rfl
  rw [hcontrol]
  exact byte_all (P := fun v ↦ UInt8.ofNat
    (0x7E + 128 * (v.toNat.testBit 7).toNat + (v.toNat.testBit 0).toNat) = (v &&& 0x81) ||| 0x7E)
    (by decide +kernel) v

end Serial

/-! ### The timer -/

namespace Timer

/-- The divider reads zero when it has been cleared. -/
theorem divider_clearDivider (t : Timer) : t.clearDivider.divider = 0 := by
  have hcleared : UInt8.ofNat ((0 : UInt16).toNat / 64) = 0 := by decide
  exact (t.divider_whileCounting _).trans hcleared

/-- The five upper bits read as set. -/
theorem control_setControl (t : Timer) (v : UInt8) : (t.setControl v).control = v ||| 0xF8 := by
  refine (t.control_whileCounting _).trans ?_
  exact byte_all (P := fun v ↦ UInt8.ofNat
    (0xF8 + 4 * (v.toNat.testBit 2).toNat + v.toNat % 4) = v ||| 0xF8) (by decide +kernel) v

end Timer

/-! ### The display -/

namespace Video

/-- A write to the control register leaves the line compared with alone. -/
theorem compare_setControl (v : Video) (byte : UInt8) :
    (v.setControl byte).compare = v.compare := by
  simp only [setControl]
  split <;> rfl

/-- The control register of the display reads as it was written. -/
theorem control_setControl (v : Video) (byte : UInt8) : (v.setControl byte).control = byte := by
  simp only [setControl]
  split <;> rfl

/-- The parts of the status register do not overlap. -/
theorem status_parts : ∀ coincidence objectScan vblank hblank : Bool, ∀ low < 8,
    let sources : StatSources := { coincidence, objectScan, vblank, hblank }
    UInt8.ofNat (0x80 + sources.toNat + low) =
        0x80 ||| UInt8.ofNat sources.toNat ||| UInt8.ofNat low ∧
      UInt8.ofNat (0x80 + sources.toNat + low) &&& 0x07 = UInt8.ofNat low := by
  decide +kernel

theorem ofNat_toNat_ofByte (byte : UInt8) :
    UInt8.ofNat (StatSources.ofByte byte).toNat = byte &&& 0x78 :=
  byte_all (P := fun byte ↦ UInt8.ofNat (StatSources.ofByte byte).toNat = byte &&& 0x78)
    (by decide +kernel) byte

/-- The sources are written, and the three bits below them are left. -/
theorem status_setStatus (v : Video) (byte : UInt8) :
    (v.setStatus byte).status = 0x80 ||| (byte &&& 0x78) ||| (v.status &&& 0x07) := by
  have hlow : 4 * v.coincides.toNat + v.mode.number < 8 := by
    cases v.coincides <;> cases v.mode <;> decide
  have hkept : v.status &&& 0x07 = UInt8.ofNat (4 * v.coincides.toNat + v.mode.number) := by
    rw [status, Nat.add_assoc]
    exact (status_parts _ _ _ _ _ hlow).2
  rw [hkept, ← ofNat_toNat_ofByte, ← (status_parts _ _ _ _ _ hlow).1, ← Nat.add_assoc]
  rfl

end Video

/-! ### The joypad -/

/-- Whether a byte, written to the joypad register, selects the group of the button. -/
def Button.selectedBy (button : Button) (v : UInt8) : Bool :=
  !v.toNat.testBit (if button.isDirection then 4 else 5)

namespace Joypad

/-- **The lines of the groups that a byte selects.** All of them are high, except those pulled low
by a button that is held and whose group is selected. -/
def inputLines (j : Joypad) (v : UInt8) : UInt8 :=
  Button.all.foldl (fun lines button ↦
    if j.isHeld button && button.selectedBy v then lines &&& ~~~(1 <<< UInt8.ofNat button.line)
    else lines) 0x0F

/-- The lines that the joypad has sampled, after a write to its register. -/
theorem ofNat_lines_setControl (j : Joypad) (v : UInt8) :
    UInt8.ofNat (j.setControl v).lines.toNat = j.inputLines v := by
  -- The buttons whose group is not selected may as well not be held.
  have hlines : ∀ directions actions : BitVec 4,
      UInt8.ofNat (~~~(directions ||| actions)).toNat =
        Button.all.foldl (fun lines button ↦
          if (if button.isDirection then directions else actions).getLsbD button.line
          then lines &&& ~~~(1 <<< UInt8.ofNat button.line) else lines) 0x0F := by
    decide +kernel
  have hpulled : ∀ button, (j.isHeld button && button.selectedBy v) =
      (if button.isDirection then if !v.toNat.testBit 4 then j.directions else 0
        else if !v.toNat.testBit 5 then j.actions else 0).getLsbD button.line := by
    intro button
    unfold isHeld Button.selectedBy
    cases button.isDirection with
    | false => cases hbit : v.toNat.testBit 5 <;> simp [hbit]
    | true => cases hbit : v.toNat.testBit 4 <;> simp [hbit]
  simp only [inputLines, hpulled]
  exact hlines _ _

/-- The register reads as the rows that are selected and the lines. -/
theorem control_setControl (j : Joypad) (v : UInt8) :
    (j.setControl v).control = 0xC0 ||| (v &&& 0x30) ||| j.inputLines v := by
  have hgroups : v &&& 0x30 =
      UInt8.ofNat (32 * (v.toNat.testBit 5).toNat + 16 * (v.toNat.testBit 4).toNat) :=
    byte_all (P := fun v ↦ v &&& 0x30 =
      UInt8.ofNat (32 * (v.toNat.testBit 5).toNat + 16 * (v.toNat.testBit 4).toNat))
      (by decide +kernel) v
  have hparts : ∀ (noActions noDirections : Bool), ∀ n < 16,
      UInt8.ofNat (0xC0 + 32 * (!!noActions).toNat + 16 * (!!noDirections).toNat + n) =
        0xC0 ||| UInt8.ofNat (32 * noActions.toNat + 16 * noDirections.toNat) |||
          UInt8.ofNat n := by
    decide +kernel
  rw [hgroups, ← ofNat_lines_setControl]
  exact hparts _ _ _ (j.setControl v).lines.isLt

end Joypad

end GameBoy
