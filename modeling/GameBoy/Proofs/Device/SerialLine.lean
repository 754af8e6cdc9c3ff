import GameBoy.Proofs.Device.Strides

/-!
# A byte on the line

While a byte is being sent, one thing is worth knowing about the serial port: when the last bit will
be gone. `Line.sending due` says that it goes in the advance that begins at tick `due`, so it is
gone as soon as the port has caught up to a later tick, and not before: `Line.Shows.catchUp_kept`
and `Line.Shows.catchUp_sent` are the two halves of that. A transfer that begins is due seven strides
after the clock of the port (`Line.shows_setControl`).
-/

namespace GameBoy

/-! ### One advance -/

namespace Serial

variable {p : Serial} (requests : InterruptSet)

/-- Without a transfer nothing but the time passes. -/
theorem advance_of_idle (h : p.bitsLeft = 0) :
    p.advance requests = ({ p with clock := p.clock + stride }, requests) := by
  simp only [advance, h]

/-- A bit is shifted out that is not the last one. -/
theorem advance_of_more {left : Nat} (h : p.bitsLeft = left + 1) (hmore : left ≠ 0) :
    p.advance requests =
      ({ p with clock := p.clock + stride, data := (p.data <<< 1) ||| 1, bitsLeft := left },
        requests) := by
  simp only [advance, h, if_neg hmore]

/-- With the last bit a transfer ends, and the serial port requests its source. -/
theorem advance_of_last (h : p.bitsLeft = 1) :
    p.advance requests =
      ({ p with
          clock := p.clock + stride, data := (p.data <<< 1) ||| 1, bitsLeft := 0
          requested := false },
        requests.insert .serial) := by
  simp only [advance, h]
  rfl

end Serial

/-! ### The line -/

/-- What the serial port is doing. -/
inductive Line where
  /-- Nothing is being sent. -/
  | idle
  /-- Nothing is being sent, and the data register holds a byte. -/
  | loaded (v : UInt8)
  /-- A byte is being sent, and its last bit goes in the advance that begins at tick `due`. -/
  | sending (due : Nat)

namespace Line

/-- The port does what is said of it. -/
def Shows : Line → Serial → Prop
  | idle, p => p.bitsLeft = 0
  | loaded v, p => p.bitsLeft = 0 ∧ p.data = v
  | sending due, p => p.bitsLeft ≠ 0 ∧ p.clock + Serial.stride * p.bitsLeft = due + Serial.stride

/-- No byte that is being sent is gone by the given tick. -/
def Until (line : Line) (target : Nat) : Prop := ∀ due, line = sending due → target ≤ due

/-- A line that is idle ends no transfer. -/
theorem until_idle (target : Nat) : idle.Until target := nofun

/-- Nor does one with a byte in it that has not been sent. -/
theorem until_loaded (v : UInt8) (target : Nat) : (loaded v).Until target := nofun

/-- A transfer does not end before it is due. -/
theorem until_sending {due target : Nat} (h : target ≤ due) : (sending due).Until target := by
  rintro _ ⟨⟩
  exact h

variable {line : Line} {p : Serial} {target due : Nat}

/-- An advance that does not shift the last bit. -/
theorem Shows.advance_kept (h : line.Shows p) (huntil : line.Until target)
    (hbehind : p.clock < target) (requests : InterruptSet) :
    line.Shows (p.advance requests).1 ∧ (p.advance requests).2 = requests := by
  cases line with
  | idle =>
    rw [Serial.advance_of_idle requests h]
    exact ⟨h, rfl⟩
  | loaded v =>
    rw [Serial.advance_of_idle requests h.1]
    exact ⟨h, rfl⟩
  | sending due =>
    have hdue := huntil due rfl
    obtain ⟨hbusy, hbits⟩ := h
    obtain ⟨left, hleft⟩ := Nat.exists_eq_succ_of_ne_zero hbusy
    rw [hleft, Nat.mul_succ] at hbits
    have hmore : left ≠ 0 := by
      rintro rfl
      omega
    rw [Serial.advance_of_more requests hleft hmore]
    refine ⟨⟨hmore, ?_⟩, rfl⟩
    show p.clock + Serial.stride + Serial.stride * left = due + Serial.stride
    omega

/-- **Up to the tick at which its last bit goes, a byte is being sent**, and nothing is
requested. -/
theorem Shows.catchUp_kept (h : line.Shows p) (huntil : line.Until target)
    (requests : InterruptSet) :
    line.Shows (Peripheral.catchUp target p requests).2.1 ∧
      (Peripheral.catchUp target p requests).2.2 = requests := by
  refine Peripheral.catchUp_induction
    (motive := fun p pending ↦ line.Shows p ∧ pending = requests) ?_ ⟨h, rfl⟩
  rintro p _ hbehind ⟨hp, rfl⟩
  exact hp.advance_kept huntil hbehind _

/-- **Past that tick the byte is gone**, and the interrupt has been requested. -/
theorem Shows.catchUp_sent (h : (sending due).Shows p) (hpast : due < target)
    (htarget : target ≤ due + Serial.stride) (requests : InterruptSet) :
    idle.Shows (Peripheral.catchUp target p requests).2.1 ∧
      (Peripheral.catchUp target p requests).2.2 = requests.insert .serial := by
  -- The port is on its way to the last bit, or has shifted it and is not behind any more.
  have hrun := @Peripheral.catchUp_induction Serial _ target
    (fun p pending ↦ ((sending due).Shows p ∧ pending = requests) ∨
      (idle.Shows p ∧ target ≤ p.clock ∧ pending = requests.insert .serial))
    ?_ p requests (.inl ⟨h, rfl⟩)
  · rcases hrun with ⟨⟨hbusy, hbits⟩, -⟩ | ⟨hidle, -, hrequests⟩
    · have harrived : target ≤ (Peripheral.catchUp target p requests).2.1.clock :=
        Peripheral.le_clock_catchUp target p requests
      have hstride : Serial.stride * 1 ≤
          Serial.stride * (Peripheral.catchUp target p requests).2.1.bitsLeft :=
        Nat.mul_le_mul_left _ (Nat.pos_of_ne_zero hbusy)
      omega
    · exact ⟨hidle, hrequests⟩
  · rintro p pending hbehind (⟨⟨hbusy, hbits⟩, rfl⟩ | ⟨-, hreached, -⟩)
    · obtain ⟨left, hleft⟩ := Nat.exists_eq_succ_of_ne_zero hbusy
      by_cases hlast : left = 0
      · subst hlast
        rw [hleft, Nat.mul_one] at hbits
        right
        show idle.Shows (p.advance pending).1 ∧ target ≤ (p.advance pending).1.clock ∧
          (p.advance pending).2 = pending.insert .serial
        rw [Serial.advance_of_last pending hleft]
        refine ⟨rfl, ?_, rfl⟩
        show target ≤ p.clock + Serial.stride
        omega
      · left
        have hbefore : p.clock < due := by
          have hstride : Serial.stride * 2 ≤ Serial.stride * p.bitsLeft :=
            Nat.mul_le_mul_left _ (by omega)
          have hpos : 0 < Serial.stride := by decide
          omega
        have hline : (sending due).Shows p := ⟨hbusy, hbits⟩
        exact hline.advance_kept (until_sending (Nat.le_refl due)) hbefore pending
    · exact absurd hbehind (Nat.not_lt_of_le hreached)

/-- A transfer that begins is due seven strides later. -/
theorem shows_setControl {v : UInt8} (hbegins : Serial.begins v = true)
    (hdue : due = p.clock + 7 * Serial.stride) : (sending due).Shows (p.setControl v) := by
  simp only [Serial.setControl, hbegins, if_true]
  refine ⟨Nat.succ_ne_zero 7, ?_⟩
  show p.clock + Serial.stride * 8 = due + Serial.stride
  omega

end Line

end GameBoy
