import GameBoy.Device.Video
import GameBoy.Proofs.Clock

/-!
# The position of the display in its frame

The current line and the ticks spent on it are one number, `Video.position`, written in base 456. An
advance of a display that is on adds four to it, modulo the length of a frame
(`position_advance`): a line that is full is carried over into the next one, and the last line into
the first. No register reaches the position but the control register, and that only by switching the
display on or off. So while it stays on, the position is a function of the clock
(`Video.Undisturbed`), and the line register shows the clock divided by 456.
-/

namespace GameBoy.Video

/-- The ticks of a frame. -/
def frameTicks : Nat := frameLines * lineTicks

/-- Ticks since the frame began. -/
def position (v : Video) : Nat := lineTicks * v.line + v.dot

/-- The current line is a line of the frame, and it is not yet over. -/
structure InFrame (v : Video) : Prop where
  /-- The frame has such a line. -/
  line_lt : v.line < frameLines
  /-- The line is not over. -/
  dot_lt : v.dot < lineTicks

variable (v : Video) (requests : InterruptSet)

/-! ### Advances -/

/-- Where a display is once it has entered the next line. -/
theorem fst_nextLine : (v.nextLine requests).1 =
    { v with dot := v.dot - lineTicks, line := (v.line + 1) % frameLines } := by
  simp only [nextLine]
  split <;> rfl

/-- A display that is off lives on and does nothing. -/
theorem advance_of_off (hoff : v.on = false) :
    v.advance requests = ({ v with clock := v.clock + stride }, requests) := by
  have hoff' : ({ v with clock := v.clock + stride } : Video).on = false := hoff
  simp only [advance, hoff']
  rfl

/-- What an advance of a display that is on leads to, but for the interrupt signal. -/
theorem advance_of_on (hon : v.on = true) :
    (v.advance requests).1.clock = v.clock + stride ∧
      (v.advance requests).1.control = v.control ∧
      (v.advance requests).1.line =
        (if lineTicks ≤ v.dot + stride then (v.line + 1) % frameLines else v.line) ∧
      (v.advance requests).1.dot =
        (if lineTicks ≤ v.dot + stride then v.dot + stride - lineTicks else v.dot + stride) := by
  have hon' : ({ v with clock := v.clock + stride } : Video).on = true := hon
  simp only [advance, hon', Bool.not_true, Bool.false_eq_true, if_false]
  by_cases hfull : lineTicks ≤ v.dot + stride
  · simp only [if_pos hfull, sample, fst_nextLine, and_self]
  · simp only [if_neg hfull, sample, and_self]

/-- An advance takes a stride, on or off. -/
theorem clock_advance : (v.advance requests).1.clock = v.clock + stride := by
  cases hon : v.on with
  | true => exact (advance_of_on v requests hon).1
  | false => rw [advance_of_off v requests hon]

/-- Time does not switch a display on or off. -/
theorem on_advance : (v.advance requests).1.on = v.on := by
  have hcontrol : (v.advance requests).1.control = v.control := by
    cases hon : v.on with
    | true => exact (advance_of_on v requests hon).2.1
    | false => rw [advance_of_off v requests hon]
  exact congrArg switchesOn hcontrol

instance : SteadyPeripheral Video stride where
  stride_pos := by decide
  clock_advance := clock_advance

variable {v}

/-- **An advance of a display that is on moves it on by four ticks**, round the frame. -/
theorem InFrame.advance (h : v.InFrame) (hon : v.on = true) :
    (v.advance requests).1.InFrame ∧
      (v.advance requests).1.position = (v.position + stride) % frameTicks := by
  obtain ⟨-, -, hline, hdot⟩ := advance_of_on v requests hon
  obtain ⟨hlineLt, hdotLt⟩ := h
  by_cases hfull : lineTicks ≤ v.dot + stride
  · -- What is left over of the line begins the next one.
    rw [if_pos hfull] at hline hdot
    simp only [lineTicks, frameLines, stride] at *
    refine ⟨⟨?_, ?_⟩, ?_⟩
    · rw [hline]
      exact Nat.mod_lt _ (by decide)
    · simp only [hdot, lineTicks]
      omega
    · simp only [position, hline, hdot, lineTicks, frameTicks, frameLines]
      omega
  · rw [if_neg hfull] at hline hdot
    simp only [lineTicks, frameLines, stride] at *
    refine ⟨⟨?_, ?_⟩, ?_⟩
    · rw [hline]
      exact hlineLt
    · simp only [hdot, lineTicks]
      omega
    · simp only [position, hline, hdot, lineTicks, frameTicks, frameLines]
      omega

/-! ### Register writes -/

/-- A write to the control register takes no time. -/
@[simp] theorem clock_setControl (v : Video) (byte : UInt8) :
    (v.setControl byte).clock = v.clock := by
  simp only [setControl]
  split <;> rfl

/-- A write that does not switch the display leaves everything but the control register alone. -/
theorem setControl_of_on_eq {byte : UInt8} (h : switchesOn byte = v.on) :
    v.setControl byte = { v with control := byte } :=
  if_pos h

/-! ### The position as a function of the clock -/

/-- The display is on, and where it has to be if it has never been switched. -/
structure Undisturbed (v : Video) : Prop where
  /-- The display is on. -/
  on : v.on = true
  /-- It is on some line of the frame. -/
  inFrame : v.InFrame
  /-- The first frame began when the clock did. -/
  position_eq : v.position = v.clock % frameTicks

/-- A display begins undisturbed. -/
theorem undisturbed_powerOn : Undisturbed {} where
  on := by decide
  inFrame := ⟨by decide, by decide⟩
  position_eq := rfl

/-- Time does not disturb a display. -/
theorem Undisturbed.advance (h : v.Undisturbed) : (v.advance requests).1.Undisturbed := by
  obtain ⟨hinFrame, hposition⟩ := h.inFrame.advance requests h.on
  refine ⟨(on_advance v requests).trans h.on, hinFrame, ?_⟩
  rw [hposition, h.position_eq, clock_advance, Nat.mod_add_mod]

/-- A write to the control register disturbs the display only if it switches it. -/
theorem Undisturbed.setControl (h : v.Undisturbed) {byte : UInt8}
    (hkept : switchesOn byte = switchesOn v.control) : (v.setControl byte).Undisturbed := by
  rw [setControl_of_on_eq hkept]
  exact ⟨hkept.trans h.on, ⟨h.inFrame.line_lt, h.inFrame.dot_lt⟩, h.position_eq⟩

/-- Catching up does not disturb the display. -/
theorem Undisturbed.catchUp (h : v.Undisturbed) (target : Nat) :
    (Peripheral.catchUp target v requests).2.1.Undisturbed :=
  Peripheral.catchUp_induction (motive := fun v _ ↦ Undisturbed v)
    (fun _ requests _ h ↦ h.advance requests) h

/-- What the line register shows if the display has never been switched. -/
theorem Undisturbed.lineRegister (h : v.Undisturbed) :
    v.lineRegister.toNat = v.clock / lineTicks % frameLines := by
  obtain ⟨-, ⟨hline, hdot⟩, hposition⟩ := h
  simp only [position, frameTicks, frameLines, lineTicks] at *
  have hquotient : v.line = v.clock / 456 % 154 := by omega
  simp only [Video.lineRegister, UInt8.toNat_ofNat']
  omega

end GameBoy.Video
