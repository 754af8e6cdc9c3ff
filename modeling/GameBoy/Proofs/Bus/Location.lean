import GameBoy.Bus

/-!
# What stands where

`Location.Behind` is the memory map as a list of its parts, and every address belongs to one of them
(`Location.behind_ofAddress`). Two things follow at once. Every register answers at one address, and
at that address nothing else does (`Location.ofAddress_eq_register_iff`); and no cell that can be
written is part of the program image (`Location.romSize_le_of_cell`). So a write changes nothing, or
a cell outside the image, or the register at its address, which is how `Bus.write_induction` takes
it apart.
-/

namespace GameBoy

/-- The address of a register. -/
def Register.address : Register → UInt16
  | .joypad => 0xFF00
  | .serialData => 0xFF01
  | .serialControl => 0xFF02
  | .divider => 0xFF04
  | .timer => 0xFF05
  | .timerModulo => 0xFF06
  | .timerControl => 0xFF07
  | .requests => 0xFF0F
  | .displayControl => 0xFF40
  | .displayStatus => 0xFF41
  | .line => 0xFF44
  | .lineCompare => 0xFF45
  | .objectCopy => 0xFF46
  | .enabled => 0xFFFF

theorem Register.ofAddress?_eq_some_iff {a : UInt16} {r : Register} :
    ofAddress? a = some r ↔ a = r.address := by
  constructor
  · unfold ofAddress?
    split <;> rintro ⟨⟩ <;> rfl
  · rintro rfl
    cases r <;> rfl

/-- All registers lie in the uppermost page. -/
theorem Register.ne_address_of_lt {a : UInt16} (h : a < 0xFF00) (r : Register) : a ≠ r.address := by
  have hpage : 0xFF00 ≤ r.address := by
    cases r <;> decide
  rintro rfl
  exact absurd hpage (UInt16.not_le.mpr h)

/-- **The map, part by part.** -/
inductive Location.Behind : UInt16 → Location → Prop
  /-- The program image. -/
  | rom {a : UInt16} : a < 0x8000 → Behind a (rom a)
  /-- Work memory, seen for the second time. -/
  | echo {a : UInt16} : 0xE000 ≤ a → a < 0xFE00 → Behind a (cell (a - 0x2000))
  /-- The addresses behind which nothing stands. -/
  | unused {a : UInt16} : 0xFEA0 ≤ a → a < 0xFF00 → Behind a unused
  /-- A register. -/
  | register (r : Register) : Behind r.address (register r)
  /-- The memory that is left. -/
  | cell {a : UInt16} : 0x8000 ≤ a → a < 0xE000 ∨ 0xFE00 ≤ a → a < 0xFEA0 ∨ 0xFF00 ≤ a →
      (∀ r : Register, a ≠ r.address) → Behind a (cell a)

namespace Location

/-- What is behind an address is what it is decoded to. -/
theorem behind_ofAddress (a : UInt16) : Behind a (ofAddress a) := by
  have hupper {b : UInt16} (h : ¬ a < b) : b ≤ a := UInt16.not_lt.mp h
  unfold ofAddress
  split
  · next hrom => exact .rom hrom
  next hrom =>
    split
    · next hwork =>
      have hlow : a < 0xFEA0 := UInt16.lt_trans hwork (by decide)
      exact .cell (hupper hrom) (.inl hwork) (.inl hlow)
        (Register.ne_address_of_lt (UInt16.lt_trans hlow (by decide)))
    next hwork =>
      split
      · next hecho => exact .echo (hupper hwork) hecho
      next hecho =>
        split
        · next hobjects =>
          exact .cell (hupper hrom) (.inr (hupper hecho)) (.inl hobjects)
            (Register.ne_address_of_lt (UInt16.lt_trans hobjects (by decide)))
        next hobjects =>
          split
          · next hunused => exact .unused (hupper hobjects) hunused
          next hunused =>
            split
            · next r hr =>
              rw [Register.ofAddress?_eq_some_iff.mp hr]
              exact .register r
            · next hnone =>
              refine .cell (hupper hrom) (.inr (hupper hecho)) (.inr (hupper hunused)) fun r hr ↦ ?_
              rw [Register.ofAddress?_eq_some_iff.mpr hr] at hnone
              contradiction

/-- **A register answers at its address, and nowhere else.** -/
theorem ofAddress_eq_register_iff {a : UInt16} {r : Register} :
    ofAddress a = .register r ↔ a = r.address := by
  constructor
  · intro h
    have hbehind := behind_ofAddress a
    rw [h] at hbehind
    cases hbehind
    rfl
  · rintro rfl
    cases r <;> rfl

/-- An address of the echo stands for the cell 0x2000 below it. -/
theorem ofAddress_of_echo {a : UInt16} (hlow : 0xE000 ≤ a) (hhigh : a < 0xFE00) :
    ofAddress a = cell (a - 0x2000) := by
  have hrom : ¬ a < 0x8000 := UInt16.not_lt.mpr (UInt16.le_trans (by decide) hlow)
  rw [ofAddress, if_neg hrom, if_neg (UInt16.not_lt.mpr hlow), if_pos hhigh]

/-- Nothing is behind the addresses above the objects. -/
theorem ofAddress_of_unused {a : UInt16} (hlow : 0xFEA0 ≤ a) (hhigh : a < 0xFF00) :
    ofAddress a = unused := by
  have hge {b : UInt16} (h : b ≤ 0xFEA0) : ¬ a < b := UInt16.not_lt.mpr (UInt16.le_trans h hlow)
  rw [ofAddress, if_neg (hge (by decide)), if_neg (hge (by decide)), if_neg (hge (by decide)),
    if_neg (hge (by decide)), if_pos hhigh]

/-- The bytes of the program image lie in the image. -/
theorem lt_romSize_of_rom {a b : UInt16} (h : ofAddress a = rom b) : b.toNat < romSize := by
  have hbehind := behind_ofAddress a
  rw [h] at hbehind
  cases hbehind with
  | rom hrom => exact UInt16.lt_iff_toNat_lt.mp hrom

/-- A cell that a write can reach lies outside the program image. -/
theorem romSize_le_of_cell {a b : UInt16} (h : ofAddress a = cell b) : romSize ≤ b.toNat := by
  have hbehind := behind_ofAddress a
  rw [h] at hbehind
  cases hbehind with
  | echo hlow _ =>
    -- The cells that are seen twice lie above the image in both places.
    have hle : (0x2000 : UInt16) ≤ a := UInt16.le_trans (by decide) hlow
    have hlow : 0xE000 ≤ a.toNat := UInt16.le_iff_toNat_le.mp hlow
    have hback : (a - 0x2000).toNat = a.toNat - 0x2000 := UInt16.toNat_sub_of_le _ _ hle
    rw [hback, romSize]
    omega
  | cell hlow => exact UInt16.le_iff_toNat_le.mp hlow

end Location

/-- **What a write can do.** -/
theorem Bus.write_induction {motive : Bus → Prop} (bus : Bus) {a : UInt16} {v : UInt8}
    (cell : ∀ b : UInt16, Location.romSize ≤ b.toNat →
      motive { bus with memory := bus.memory.set b v })
    (register : ∀ r : Register, a = r.address → motive (bus.writeRegister r v))
    (h : motive bus) : motive (bus.write a v) := by
  unfold write
  split
  · exact h
  · next b hb => exact cell b (Location.romSize_le_of_cell hb)
  · exact h
  · next r hr => exact register r (Location.ofAddress_eq_register_iff.mp hr)

end GameBoy
