import GameBoy.Proofs.Bus.Kept
import GameBoy.Proofs.Device.Registers
import GameBoy.Proofs.Interrupt

/-!
# Reading after writing

A write reaches one location, so what is read elsewhere stays as it is: `Bus.read_after_write` is
this law for all pairs of addresses, and it names every exception. There are two kinds of them. The
addresses of work memory come in pairs (`EchoPair`), and a write to one of a pair is read at both.
And five times a write to one register is seen in another one, because both belong to the same
device (`sideEffects`).

What is read at the address itself is a table (`Bus.readBack`): memory keeps the byte, the program
image and unused addresses keep what they have shown, and registers have bits of their own.

Nothing is assumed of the state of the devices.
-/

namespace GameBoy

/-! ### Addresses that share a location -/

/-- The two addresses of a byte of work memory that is visible twice. -/
def EchoPair (a b : UInt16) : Prop :=
  (0xE000 ≤ a ∧ a < 0xFE00 ∧ b = a - 0x2000) ∨ (0xE000 ≤ b ∧ b < 0xFE00 ∧ a = b - 0x2000)

instance (a b : UInt16) : Decidable (EchoPair a b) := inferInstanceAs (Decidable (_ ∨ _))

namespace Location

/-- The cell that is seen for the second time is seen for the first time lower down. -/
theorem ofAddress_sub_of_echo {a : UInt16} (hlow : 0xE000 ≤ a) (hhigh : a < 0xFE00) :
    ofAddress (a - 0x2000) = cell (a - 0x2000) := by
  have hle : (0x2000 : UInt16) ≤ a := UInt16.le_trans (by decide) hlow
  have hback : (a - 0x2000).toNat = a.toNat - 0x2000 := UInt16.toNat_sub_of_le _ _ hle
  have hlow : 0xE000 ≤ a.toNat := UInt16.le_iff_toNat_le.mp hlow
  have hhigh : a.toNat < 0xFE00 := UInt16.lt_iff_toNat_lt.mp hhigh
  have hrom : ¬ a - 0x2000 < 0x8000 := by
    simp only [UInt16.lt_iff_toNat_lt, UInt16.reduceToNat, hback]
    omega
  have hwork : a - 0x2000 < 0xE000 := by
    simp only [UInt16.lt_iff_toNat_lt, UInt16.reduceToNat, hback]
    omega
  rw [ofAddress, if_neg hrom, if_pos hwork]

/-- The addresses of a pair share a cell. -/
theorem ofAddress_of_echoPair {a b : UInt16} (h : EchoPair a b) :
    ∃ c, ofAddress a = cell c ∧ ofAddress b = cell c := by
  rcases h with ⟨hlow, hhigh, rfl⟩ | ⟨hlow, hhigh, rfl⟩
  · exact ⟨_, ofAddress_of_echo hlow hhigh, ofAddress_sub_of_echo hlow hhigh⟩
  · exact ⟨_, ofAddress_sub_of_echo hlow hhigh, ofAddress_of_echo hlow hhigh⟩

theorem eq_or_echo_of_cell {a c : UInt16} (h : ofAddress a = cell c) :
    c = a ∨ (0xE000 ≤ a ∧ a < 0xFE00 ∧ c = a - 0x2000) := by
  have hbehind := behind_ofAddress a
  rw [h] at hbehind
  cases hbehind with
  | echo hlow hhigh => exact .inr ⟨hlow, hhigh, rfl⟩
  | cell => exact .inl rfl

/-- **Other addresses do not share a cell.** -/
theorem eq_or_echoPair {a b c : UInt16} (ha : ofAddress a = cell c) (hb : ofAddress b = cell c) :
    b = a ∨ EchoPair a b := by
  rcases eq_or_echo_of_cell ha with rfl | ⟨hlow, hhigh, rfl⟩
  · rcases eq_or_echo_of_cell hb with h | ⟨hlow, hhigh, h⟩
    · exact .inl h.symm
    · exact .inr (.inr ⟨hlow, hhigh, h⟩)
  · rcases eq_or_echo_of_cell hb with h | ⟨-, -, h⟩
    · exact .inr (.inl ⟨hlow, hhigh, h.symm⟩)
    · exact .inl ((UInt16.sub_left_inj 0x2000).mp h.symm)

end Location

/-! ### Registers -/

/-- The other registers in which a write to a register is seen. -/
def Register.affected : Register → List Register
  | .divider | .timerControl => [.timer]
  | .displayControl => [.displayStatus, .line]
  | .lineCompare => [.displayStatus]
  | _ => []

/-- The pairs of addresses of which a write to the first one is seen at the second one, although
another register answers there. -/
def sideEffects : List (UInt16 × UInt16) :=
  [(0xFF04, 0xFF05), (0xFF07, 0xFF05), (0xFF40, 0xFF41), (0xFF40, 0xFF44), (0xFF45, 0xFF41)]

theorem Register.mem_sideEffects {r r' : Register} (h : r' ∈ r.affected) :
    (r.address, r'.address) ∈ sideEffects := by
  cases r with
  | divider | timerControl | lineCompare =>
    obtain rfl := List.mem_singleton.mp h
    decide
  | displayControl =>
    have h : r' = .displayStatus ∨ r' = .line := by simpa [affected] using h
    rcases h with rfl | rfl <;> decide
  | _ => exact absurd h List.not_mem_nil

namespace Bus

variable (bus : Bus)

/-- **A write to a register leaves the other ones alone**, except for those it affects. -/
theorem readRegister_writeRegister_of_ne {r r' : Register} (hne : r' ≠ r) (h : r' ∉ r.affected)
    (v : UInt8) : (bus.writeRegister r v).readRegister r' = bus.readRegister r' := by
  cases r with
  | serialControl =>
    cases r' with
    | serialData => exact bus.serial.data_setControl v
    | _ => first | rfl | contradiction
  | divider =>
    cases r' with
    | timerModulo => exact bus.timer.modulo_whileCounting _
    | timerControl => exact bus.timer.control_whileCounting _
    | _ => first | rfl | contradiction
  | timerControl =>
    cases r' with
    | divider => exact bus.timer.divider_whileCounting _
    | timerModulo => exact bus.timer.modulo_whileCounting _
    | _ => first | rfl | contradiction
  | displayControl =>
    cases r' with
    | lineCompare => exact bus.video.compare_setControl v
    | _ => first | rfl | contradiction
  | _ => cases r' <;> first | rfl | contradiction

/-- **What is read at an address to which a byte has just been written.** -/
def readBack (bus : Bus) (a : UInt16) (v : UInt8) : UInt8 :=
  if a < 0x8000 ∨ (0xFEA0 ≤ a ∧ a < 0xFF00) then bus.read a
  else
    match a with
    | 0xFF00 => 0xC0 ||| (v &&& 0x30) ||| bus.joypad.inputLines v
    | 0xFF02 => (v &&& 0x81) ||| 0x7E
    | 0xFF04 => 0
    | 0xFF07 => v ||| 0xF8
    | 0xFF0F => (v &&& 0x1F) ||| 0xE0
    | 0xFF41 => 0x80 ||| (v &&& 0x78) ||| (bus.read 0xFF41 &&& 0x07)
    | 0xFF44 => bus.read 0xFF44
    | _ => v

/-- Registers are read back as the table says. -/
theorem readRegister_writeRegister (r : Register) (v : UInt8) :
    (bus.writeRegister r v).readRegister r = bus.readBack r.address v := by
  cases r with
  | joypad => exact bus.joypad.control_setControl v
  | serialControl => exact bus.serial.control_setControl v
  | divider => exact bus.timer.divider_clearDivider
  | timerControl => exact bus.timer.control_setControl v
  | requests => exact congrArg (· ||| 0xE0) (InterruptSet.toByte_ofByte v)
  | displayControl => exact bus.video.control_setControl v
  | displayStatus => exact bus.video.status_setStatus v
  | _ => rfl

/-- Memory that can be written keeps the byte. -/
theorem readBack_of_cell {a c : UInt16} (h : Location.ofAddress a = .cell c) (v : UInt8) :
    bus.readBack a v = v := by
  have hplain : ¬ (a < 0x8000 ∨ (0xFEA0 ≤ a ∧ a < 0xFF00)) := by
    rintro (hrom | ⟨hlow, hhigh⟩)
    · rw [Location.ofAddress, if_pos hrom] at h
      contradiction
    · rw [Location.ofAddress_of_unused hlow hhigh] at h
      contradiction
  unfold readBack
  rw [if_neg hplain]
  -- The addresses that the table lists are those of registers.
  split <;> first | rfl | contradiction

/-- Where a write is lost, what has been read is read again. -/
theorem readBack_of_lost {a : UInt16} (h : a < 0x8000 ∨ (0xFEA0 ≤ a ∧ a < 0xFF00)) (v : UInt8) :
    bus.readBack a v = bus.read a := by
  unfold readBack
  exact if_pos h

/-! ### Reading and writing -/

/-- Memory is read at a cell. -/
theorem read_of_cell {a c : UInt16} (h : Location.ofAddress a = .cell c) :
    bus.read a = bus.memory.get c := by
  simp only [read, h]

/-- A cell is written, and nothing else is changed. -/
theorem write_of_cell {a c : UInt16} (h : Location.ofAddress a = .cell c) (v : UInt8) :
    bus.write a v = { bus with memory := bus.memory.set c v } := by
  simp only [write, h]

/-- A write to the address of a register is a write to the register. -/
theorem write_address (r : Register) (v : UInt8) :
    bus.write r.address v = bus.writeRegister r v := by
  have hr : Location.ofAddress r.address = .register r := Location.ofAddress_eq_register_iff.mpr rfl
  simp only [write, hr]

theorem memory_writeRegister (r : Register) (v : UInt8) :
    (bus.writeRegister r v).memory = bus.memory := by
  cases r <;> rfl

/-- Where nothing stands, nothing is read but ones. -/
theorem read_of_unused {a : UInt16} (hlow : 0xFEA0 ≤ a) (hhigh : a < 0xFF00) :
    bus.read a = 0xFF := by
  simp only [read, Location.ofAddress_of_unused hlow hhigh]

/-- Work memory shows the same at both of its addresses. -/
theorem read_of_echo {a : UInt16} (hlow : 0xE000 ≤ a) (hhigh : a < 0xFE00) :
    bus.read a = bus.read (a - 0x2000) := by
  rw [bus.read_of_cell (Location.ofAddress_of_echo hlow hhigh),
    bus.read_of_cell (Location.ofAddress_sub_of_echo hlow hhigh)]

/-- A write to memory is read at the addresses of its cell only. -/
theorem read_write_cell_of_ne {a b c : UInt16} (ha : Location.ofAddress a = .cell c) (hne : b ≠ a)
    (hecho : ¬ EchoPair a b) (v : UInt8) : (bus.write a v).read b = bus.read b := by
  rw [bus.write_of_cell ha]
  cases hb : Location.ofAddress b with
  | rom d =>
    simp only [read, hb]
    exact ObjectCopy.Channel.get_set_of_lt (Location.romSize_le_of_cell ha)
      (Location.lt_romSize_of_rom hb) v
  | cell d =>
    simp only [read, hb]
    refine Memory.get_set_of_ne _ v ?_
    rintro rfl
    exact (Location.eq_or_echoPair ha hb).elim hne hecho
  | unused => simp only [read, hb]
  | register r =>
    simp only [read, hb]
    cases r <;> rfl

/-- A write to a register is read at its address, and at those of the registers it affects. -/
theorem read_write_register_of_ne {r : Register} {b : UInt16} (hne : b ≠ r.address)
    (heffect : (r.address, b) ∉ sideEffects) (v : UInt8) :
    (bus.write r.address v).read b = bus.read b := by
  rw [write_address]
  cases hb : Location.ofAddress b with
  | rom d | cell d => simp only [read, hb, memory_writeRegister]
  | unused => simp only [read, hb]
  | register r' =>
    obtain rfl := Location.ofAddress_eq_register_iff.mp hb
    rw [read_address, read_address]
    refine bus.readRegister_writeRegister_of_ne ?_ (fun h ↦ heffect (Register.mem_sideEffects h)) v
    rintro rfl
    exact hne rfl

/-- What is read where something has just been written. -/
theorem read_write_self (a : UInt16) (v : UInt8) : (bus.write a v).read a = bus.readBack a v := by
  have hbehind := Location.behind_ofAddress a
  cases ha : Location.ofAddress a with
  | rom c =>
    rw [ha] at hbehind
    cases hbehind with
    | rom hrom => simp only [write, ha, bus.readBack_of_lost (.inl hrom)]
  | unused =>
    rw [ha] at hbehind
    cases hbehind with
    | unused hlow hhigh => simp only [write, ha, bus.readBack_of_lost (.inr ⟨hlow, hhigh⟩)]
  | cell c =>
    rw [bus.readBack_of_cell ha, read_of_cell _ ha, bus.write_of_cell ha, Memory.get_set_self]
  | register r =>
    obtain rfl := Location.ofAddress_eq_register_iff.mp ha
    rw [write_address, read_address, readRegister_writeRegister]

theorem read_write_echo {a b : UInt16} (h : EchoPair a b) (v : UInt8) :
    (bus.write a v).read b = v := by
  obtain ⟨c, ha, hb⟩ := Location.ofAddress_of_echoPair h
  rw [read_of_cell _ hb, bus.write_of_cell ha, Memory.get_set_self]

/-- **What a write does to what is read.** Whatever the state of the bus, an address shows after a
write what it has shown before, unless it is the address written to, or its echo, or one of the five
registers that see a write to another one. The address written to shows what the table says; if it
belongs to an echo pair, the other address of the pair shows the byte as well; and addresses behind
which nothing stands show ones. -/
theorem read_after_write (bus : Bus) (a : UInt16) (v : UInt8) :
    (∀ b, b ≠ a → ¬ EchoPair a b → (a, b) ∉ sideEffects → (bus.write a v).read b = bus.read b) ∧
      (bus.write a v).read a = bus.readBack a v ∧
      (∀ b, EchoPair a b → (bus.write a v).read b = v) ∧
      ∀ b, 0xFEA0 ≤ b → b < 0xFF00 → bus.read b = 0xFF := by
  refine ⟨fun b hne hecho heffect ↦ ?_, bus.read_write_self a v, fun b hecho ↦
    bus.read_write_echo hecho v, fun b ↦ bus.read_of_unused⟩
  cases ha : Location.ofAddress a with
  | rom | unused => simp only [write, ha]
  | cell c => exact bus.read_write_cell_of_ne ha hne hecho v
  | register r =>
    obtain rfl := Location.ofAddress_eq_register_iff.mp ha
    exact bus.read_write_register_of_ne hne heffect v

theorem read_after_write_at_powerOn :
    ((powerOn false).write 0xC000 0x5A).read 0xFF44 = (powerOn false).read 0xFF44 ∧
      ((powerOn false).write 0xC000 0x5A).read 0xC000 = 0x5A ∧
      ((powerOn false).write 0xC000 0x5A).read 0xE000 = 0x5A ∧
      (powerOn false).read 0xFEA0 = 0xFF := by
  obtain ⟨hother, hself, hecho, hunused⟩ := read_after_write (powerOn false) 0xC000 0x5A
  exact ⟨hother 0xFF44 (by decide) (by decide) (by decide), hself, hecho 0xE000 (by decide),
    hunused 0xFEA0 (by decide) (by decide)⟩

end Bus

end GameBoy
