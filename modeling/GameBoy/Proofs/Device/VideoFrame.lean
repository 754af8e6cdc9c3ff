import GameBoy.Proofs.Device.Latching
import GameBoy.Proofs.Device.Registers
import GameBoy.Proofs.Device.Video

/-!
# Where in its frame the display is

A display is always somewhere in a frame, and a display that is off is at the beginning of one
(`Video.Regular`): it has been put there when it was switched off, and no advance moves it. So
nothing shows of the position at which it was switched off.

The position is what the vertical blank depends on: its interrupt is requested in the advance that
takes a display which is on past the last visible line (`vblank_mem_advance_iff`). An advance adds
four ticks to the position at most, and exactly four, round the frame, if the display is on. So the
position is bounded by the number of advances since a frame began (`Within`), and told by it for as
long as the display stays on (`Counts`): from the beginning of a frame the vertical blank is 16416
advances away, and no fewer.
-/

namespace GameBoy.Video

open Peripheral

/-! ### One advance -/

variable (v : Video)

theorem vblank_mem_sample {requests : InterruptSet} :
    .vblank ∈ (v.sample requests).2 ↔ .vblank ∈ requests := by
  rw [sample_eq_union, InterruptSet.mem_union, or_iff_left]
  intro h
  cases eq_of_mem_sample h

theorem vblank_mem_nextLine :
    .vblank ∈ (v.nextLine ∅).2 ↔ (v.line + 1) % frameLines = vblankLine := by
  simp only [nextLine]
  split
  · next hline =>
    refine iff_of_true ?_ hline
    split <;> simp
  · next hline => exact iff_of_false InterruptSet.not_mem_empty hline

/-- The tick of a frame at which the vertical blank begins. -/
def vblankStart : Nat := vblankLine * lineTicks

variable {v}

/-- **The vertical blank is requested when its first tick is reached.** -/
theorem vblank_mem_advance_iff (h : v.InFrame) :
    .vblank ∈ (v.advance ∅).2 ↔
      v.on = true ∧ v.position < vblankStart ∧ vblankStart ≤ v.position + stride := by
  obtain ⟨hline, hdot⟩ := h
  cases hon : v.on with
  | false =>
    rw [v.advance_of_off ∅ hon]
    simp
  | true =>
    have hon' : ({ v with clock := v.clock + stride } : Video).on = true := hon
    simp only [advance, hon', Bool.not_true, Bool.false_eq_true, if_false, true_and]
    rw [vblank_mem_sample]
    by_cases hfull : lineTicks ≤ v.dot + stride
    · rw [if_pos hfull, vblank_mem_nextLine]
      simp only [position, vblankStart, vblankLine, frameLines, lineTicks, stride] at *
      omega
    · rw [if_neg hfull]
      refine iff_of_false InterruptSet.not_mem_empty ?_
      simp only [position, vblankStart, vblankLine, lineTicks, stride] at *
      omega

/-! ### The status register -/

/-- The two lowest bits of the status are the mode. -/
theorem status_and_three (v : Video) : v.status &&& 0x03 = UInt8.ofNat v.mode.number := by
  have hall : ∀ coincidence objectScan vblank hblank coincides : Bool, ∀ n < 4,
      let sources : StatSources := { coincidence, objectScan, vblank, hblank }
      UInt8.ofNat (0x80 + sources.toNat + 4 * coincides.toNat + n) &&& 0x03 = UInt8.ofNat n := by
    decide +kernel
  exact hall _ _ _ _ _ _ (by cases v.mode <;> decide)

/-- A display that is off is in mode 0. -/
theorem mode_of_off (hoff : v.on = false) : v.mode = .hblank := by
  simp only [mode, hoff]
  rfl

/-- **What the lower two bits of the status register tell about a display that is on.** -/
theorem number_mode_of_on (hon : v.on = true) :
    v.mode.number =
      if 144 ≤ v.line then 1 else if v.dot < 80 then 2 else if v.dot < 252 then 3 else 0 := by
  simp only [mode, hon, Bool.not_true, Bool.false_eq_true, if_false, apply_ite VideoMode.number]
  rfl

/-! ### A display that is off -/

/-- A display that is off does not move, and requests nothing. -/
theorem advanced_of_off (hoff : v.on = false) (n : Nat) :
    (advanced n v).1 = { v with clock := (advanced n v).1.clock } ∧ (advanced n v).2 = ∅ := by
  refine advanced_induction
    (motive := fun (p : Video) requests ↦ p = { v with clock := p.clock } ∧ requests = ∅)
    (fun p requests h ↦ ?_) ⟨rfl, rfl⟩ n
  obtain ⟨hp, rfl⟩ := h
  have hadvance : Peripheral.advance p ∅ = ({ p with clock := p.clock + stride }, ∅) := by
    refine p.advance_of_off ∅ ?_
    rw [hp]
    exact hoff
  rw [hadvance]
  refine ⟨?_, rfl⟩
  rw [hp]

/-! ### Displays at the same place -/

/-- One display is where another one is in its frame, and on or off as that one is. -/
structure SamePlace (w v : Video) : Prop where
  /-- Both are on, or both are off. -/
  on_eq : w.on = v.on
  /-- They are on the same line. -/
  line_eq : w.line = v.line
  /-- They have spent as many ticks on it. -/
  dot_eq : w.dot = v.dot

variable {w : Video}

theorem SamePlace.position_eq (h : w.SamePlace v) : w.position = v.position := by
  rw [position, h.line_eq, h.dot_eq, position]

theorem SamePlace.inFrame (h : w.SamePlace v) (hv : v.InFrame) : w.InFrame where
  line_lt := by
    rw [h.line_eq]
    exact hv.line_lt
  dot_lt := by
    rw [h.dot_eq]
    exact hv.dot_lt

theorem samePlace_advance (requests : InterruptSet) (hoff : v.on = false) :
    (v.advance requests).1.SamePlace v := by
  rw [v.advance_of_off requests hoff]
  exact ⟨rfl, rfl, rfl⟩

theorem samePlace_setControl {byte : UInt8} (h : switchesOn byte = v.on) :
    (v.setControl byte).SamePlace v := by
  rw [setControl_of_on_eq h]
  exact ⟨h, rfl, rfl⟩

/-- A write that switches the display on or off puts it at the beginning of a frame. -/
theorem setControl_of_on_ne {byte : UInt8} (h : switchesOn byte ≠ v.on) :
    v.setControl byte = { v with control := byte, line := 0, dot := 0, signalled := false } :=
  if_neg h

/-- A display at the first dot of the first line is within the frame. -/
theorem inFrame_of_zero (hline : v.line = 0) (hdot : v.dot = 0) : v.InFrame where
  line_lt := by
    rw [hline]
    decide
  dot_lt := by
    rw [hdot]
    decide

/-! ### Regular displays -/

/-- The display is in its frame, and at the beginning of it while it is off. -/
structure Regular (v : Video) : Prop where
  /-- It is in its frame. -/
  inFrame : v.InFrame
  /-- It is at the beginning if it is off. -/
  position_eq : v.on = false → v.position = 0

/-- Displays at the same place are regular together. -/
theorem SamePlace.regular (h : w.SamePlace v) (hv : v.Regular) : w.Regular where
  inFrame := h.inFrame hv.inFrame
  position_eq hoff := h.position_eq.trans (hv.position_eq (h.on_eq.symm.trans hoff))

/-- A write to the control register keeps a display regular. -/
theorem Regular.setControl (h : v.Regular) (byte : UInt8) : (v.setControl byte).Regular := by
  by_cases hkept : switchesOn byte = v.on
  · exact (samePlace_setControl hkept).regular h
  · rw [setControl_of_on_ne hkept]
    exact ⟨inFrame_of_zero rfl rfl, fun _ ↦ rfl⟩

/-- So does an advance. -/
theorem Regular.advance (h : v.Regular) (requests : InterruptSet) :
    (v.advance requests).1.Regular := by
  cases hon : v.on with
  | true =>
    refine ⟨(h.inFrame.advance requests hon).1, fun hoff ↦ ?_⟩
    rw [on_advance, hon] at hoff
    cases hoff
  | false => exact (samePlace_advance requests hon).regular h

/-! ### How far a display has come -/

/-- The display is in its frame, and no further on than so many advances can have taken it. -/
structure Within (n : Nat) (v : Video) : Prop where
  /-- It is in its frame. -/
  inFrame : v.InFrame
  /-- It is no further on. -/
  position_le : v.position ≤ stride * n

/-- Displays at the same place have come equally far. -/
theorem SamePlace.within {n : Nat} (h : w.SamePlace v) (hv : Within n v) : Within n w where
  inFrame := h.inFrame hv.inFrame
  position_le := h.position_eq.trans_le hv.position_le

theorem Within.mono {n m : Nat} (h : Within n v) (hle : n ≤ m) : Within m v where
  inFrame := h.inFrame
  position_le := h.position_le.trans (Nat.mul_le_mul_left stride hle)

/-- An advance moves the bound by one. -/
theorem Within.advance {n : Nat} (h : Within n v) (requests : InterruptSet) :
    Within (n + 1) (v.advance requests).1 := by
  cases hon : v.on with
  | true =>
    obtain ⟨hinFrame, hposition⟩ := h.inFrame.advance requests hon
    refine ⟨hinFrame, ?_⟩
    calc (v.advance requests).1.position
        = (v.position + stride) % frameTicks := hposition
      _ ≤ v.position + stride := Nat.mod_le _ _
      _ ≤ stride * n + stride := Nat.add_le_add_right h.position_le stride
  | false => exact ((samePlace_advance requests hon).within h).mono (Nat.le_succ n)

/-- A write to the control register leaves the bound. -/
theorem Within.setControl {n : Nat} (h : Within n v) (byte : UInt8) :
    Within n (v.setControl byte) := by
  by_cases hkept : switchesOn byte = v.on
  · exact (samePlace_setControl hkept).within h
  · rw [setControl_of_on_ne hkept]
    exact ⟨inFrame_of_zero rfl rfl, Nat.zero_le _⟩

/-- The display is on, and exactly where so many advances from the beginning of a frame lead. -/
structure Counts (n : Nat) (v : Video) : Prop where
  /-- It is on. -/
  on : v.on = true
  /-- It is in its frame. -/
  inFrame : v.InFrame
  /-- It is there. -/
  position_eq : v.position = stride * n % frameTicks

/-- Displays at the same place have made as many advances. -/
theorem SamePlace.counts {n : Nat} (h : w.SamePlace v) (hv : Counts n v) : Counts n w where
  on := h.on_eq.trans hv.on
  inFrame := h.inFrame hv.inFrame
  position_eq := h.position_eq.trans hv.position_eq

/-- An advance is counted. -/
theorem Counts.advance {n : Nat} (h : Counts n v) (requests : InterruptSet) :
    Counts (n + 1) (v.advance requests).1 := by
  obtain ⟨hinFrame, hposition⟩ := h.inFrame.advance requests h.on
  refine ⟨(v.on_advance requests).trans h.on, hinFrame, ?_⟩
  rw [hposition, h.position_eq, Nat.mod_add_mod, Nat.mul_succ]

/-- A write that leaves the display on is not. -/
theorem Counts.setControl {n : Nat} (h : Counts n v) {byte : UInt8}
    (hon : switchesOn byte = true) : Counts n (v.setControl byte) :=
  (samePlace_setControl (hon.trans h.on.symm)).counts h

/-- A display that is switched on begins a frame. -/
theorem counts_setControl_of_off (hoff : v.on = false) {byte : UInt8}
    (hon : switchesOn byte = true) : Counts 0 (v.setControl byte) := by
  have hswitched : switchesOn byte ≠ v.on := by
    rw [hon, hoff]
    decide
  rw [setControl_of_on_ne hswitched]
  exact ⟨hon, inFrame_of_zero rfl rfl, rfl⟩

/-- What is counted exactly is within the bound. -/
theorem Counts.within {n : Nat} (h : Counts n v) : Within n v where
  inFrame := h.inFrame
  position_le := by
    rw [h.position_eq]
    exact Nat.mod_le _ _

/-- **Before the 16416th advance of a frame there is no vertical blank.** -/
theorem Within.vblank_not_mem {n : Nat} (h : Within n v) (hn : n < 16415) :
    .vblank ∉ (v.advance ∅).2 := by
  intro hmem
  obtain ⟨-, -, hreached⟩ := (vblank_mem_advance_iff h.inFrame).mp hmem
  have hle := h.position_le
  simp only [vblankStart, vblankLine, lineTicks, stride] at *
  omega

/-- **In the 16416th advance of a frame the vertical blank is requested.** -/
theorem Counts.vblank_mem (h : Counts 16415 v) : .vblank ∈ (v.advance ∅).2 := by
  have hposition : v.position = 65660 := h.position_eq
  refine (vblank_mem_advance_iff h.inFrame).mpr ⟨h.on, ?_, ?_⟩
  · rw [hposition]
    decide
  · rw [hposition]
    decide

end GameBoy.Video
