import GameBoy.Proofs.Bus.Display
import GameBoy.Proofs.Device.FrameCycle

/-!
# When the vertical blank is requested

A display that has never been switched is in the frame where the clock says. So the ticks at which
its vertical blank begins are known beforehand (`Video.Blanks`), and catching up to a tick requests
the vertical blank exactly if one of them is passed on the way (`Bus.vblank_mem_catchUp`), whatever
the other devices do.
-/

namespace GameBoy

namespace Video

/-- **A vertical blank begins** after one tick and not after another one. -/
def Blanks (first last : Nat) : Prop := ∃ t, first < t ∧ t ≤ last ∧ t % frameTicks = vblankStart

variable {first last : Nat}

theorem not_blanks_self (t : Nat) : ¬ Blanks t t := by
  rintro ⟨t', hfirst, hlast, -⟩
  omega

/-- Where none begins, none begins in between. -/
theorem Blanks.mono {first' last' : Nat} (h : Blanks first last) (hfirst : first' ≤ first)
    (hlast : last ≤ last') : Blanks first' last' := by
  obtain ⟨t, hlt, hle, ht⟩ := h
  exact ⟨t, Nat.lt_of_le_of_lt hfirst hlt, Nat.le_trans hle hlast, ht⟩

/-- The `n`-th vertical blank, counted from zero. -/
def blankTick (n : Nat) : Nat := vblankStart + frameTicks * n

/-- They come a frame after each other. -/
theorem blankTick_succ (n : Nat) : blankTick (n + 1) = blankTick n + frameTicks := by
  rw [blankTick, Nat.mul_succ, ← Nat.add_assoc, ← blankTick]

/-- A vertical blank begins between two ticks if one of these does. -/
theorem blanks_of_mem {n : Nat} (hfirst : first < blankTick n) (hlast : blankTick n ≤ last) :
    Blanks first last := by
  refine ⟨blankTick n, hfirst, hlast, ?_⟩
  rw [blankTick, Nat.add_mul_mod_self_left]
  rfl

/-- None begins before the first one. -/
theorem not_blanks_of_lt (hlast : last < blankTick 0) : ¬ Blanks first last := by
  rintro ⟨t, -, hle, ht⟩
  simp only [blankTick, vblankStart, frameTicks, frameLines, vblankLine, lineTicks] at *
  omega

/-- None begins between one and the next. -/
theorem not_blanks_between {n : Nat} (hfirst : blankTick n ≤ first)
    (hlast : last < blankTick (n + 1)) : ¬ Blanks first last := by
  rintro ⟨t, hlt, hle, ht⟩
  simp only [blankTick, vblankStart, frameTicks, frameLines, vblankLine, lineTicks] at *
  omega

/-! ### The display by itself -/

variable {v : Video}

theorem Undisturbed.running (h : v.Undisturbed) (hdvd : stride ∣ v.clock) : v.Running where
  on := h.on
  inFrame := h.inFrame
  stride_dvd := by
    have hwhole : stride ∣ frameTicks := by decide
    rw [h.position_eq]
    exact (Nat.dvd_mod_iff hwhole).mpr hdvd

/-- One advance passes a vertical blank or none. -/
theorem blanks_stride_iff (hle : first ≤ last) (hdvd : stride ∣ last) :
    Blanks first (last + stride) ↔
      Blanks first last ∨ (last + stride) % frameTicks = vblankStart := by
  constructor
  · rintro ⟨t, hlt, hle', ht⟩
    by_cases hbefore : t ≤ last
    · exact .inl ⟨t, hlt, hbefore, ht⟩
    · refine .inr ?_
      -- A vertical blank begins at a tick at which an advance can end.
      obtain rfl : t = last + stride := by
        simp only [vblankStart, frameTicks, frameLines, vblankLine, lineTicks, stride] at *
        omega
      exact ht
  · rintro (h | h)
    · exact h.mono (Nat.le_refl _) (Nat.le_add_right _ _)
    · have hpast : first < last + stride :=
        Nat.lt_of_le_of_lt hle (Nat.lt_add_of_pos_right (by decide))
      exact ⟨last + stride, hpast, Nat.le_refl _, h⟩

/-- A display that has caught up from the tick `first` on, where `before` was pending, has requested
the vertical blanks that it has passed. -/
structure HasPassed (first : Nat) (before : InterruptSet) (v : Video) (pending : InterruptSet) :
    Prop where
  /-- The display has never been switched. -/
  undisturbed : v.Undisturbed
  /-- It has come this far. -/
  le_clock : first ≤ v.clock
  /-- It has made whole advances. -/
  stride_dvd : stride ∣ v.clock
  /-- It has requested the vertical blanks that it has passed. -/
  vblank_mem_iff : .vblank ∈ pending ↔ .vblank ∈ before ∨ Blanks first v.clock

/-- **One advance.** -/
theorem HasPassed.advance {first : Nat} {before pending : InterruptSet}
    (h : HasPassed first before v pending) :
    HasPassed first before (v.advance pending).1 (v.advance pending).2 := by
  obtain ⟨hv, hle, hdvd, hpending⟩ := h
  have hclock : (v.advance pending).1.clock = v.clock + stride := v.clock_advance pending
  have hrequests : Peripheral.Requests .vblank v ↔
      (v.clock + stride) % frameTicks = vblankStart := by
    rw [(hv.running hdvd).requests_vblank_iff, hv.position_eq, Nat.mod_add_mod]
  have hmem : .vblank ∈ (v.advance pending).2 ↔ .vblank ∈ pending ∨ Peripheral.Requests .vblank v :=
    Peripheral.mem_advance_iff .vblank v pending
  refine ⟨hv.advance pending, ?_, ?_, ?_⟩
  · rw [hclock]
    exact Nat.le_add_right_of_le hle
  · rw [hclock]
    exact Nat.dvd_add hdvd (Nat.dvd_refl stride)
  · rw [hmem, hpending, hrequests, hclock, blanks_stride_iff hle hdvd, or_assoc]

/-- **The display requests the vertical blanks that it passes.** -/
theorem Undisturbed.vblank_mem_catchUp (h : v.Undisturbed) (hdvd : stride ∣ v.clock) {target : Nat}
    (hle : v.clock ≤ target) (htarget : stride ∣ target) (before : InterruptSet) :
    (Peripheral.catchUp target v before).2.1.clock = target ∧
      (.vblank ∈ (Peripheral.catchUp target v before).2.2 ↔
        .vblank ∈ before ∨ Blanks v.clock target) := by
  have hclock : (Peripheral.catchUp target v before).2.1.clock = target := by
    have hnotAhead : NotAhead stride target v.clock :=
      ⟨hdvd, Nat.lt_of_le_of_lt hle (Nat.lt_add_of_pos_right (by decide))⟩
    exact (Peripheral.arrived_catchUp (p := v) hnotAhead).eq_of_dvd htarget
  have hpassed : HasPassed v.clock before (Peripheral.catchUp target v before).2.1
      (Peripheral.catchUp target v before).2.2 :=
    Peripheral.catchUp_induction (motive := HasPassed v.clock before) (fun _ _ _ h ↦ h.advance)
      ⟨h, Nat.le_refl _, hdvd, by simp [not_blanks_self]⟩
  have hmem := hpassed.vblank_mem_iff
  rw [hclock] at hmem
  exact ⟨hclock, hmem⟩

end Video

namespace Bus

variable {bus : Bus} {target : Nat}

/-- **The vertical blank is pending after catching up** if it has been before or one is passed on the
way. -/
theorem vblank_mem_catchUp (h : bus.video.Undisturbed) (hdvd : Video.stride ∣ bus.video.clock)
    (hle : bus.video.clock ≤ target) (htarget : Video.stride ∣ target) :
    (bus.catchUp target).video.clock = target ∧
      (.vblank ∈ (bus.catchUp target).requests ↔
        .vblank ∈ bus.requests ∨ Video.Blanks bus.video.clock target) := by
  obtain ⟨hclock, hrequests⟩ := h.vblank_mem_catchUp hdvd hle htarget ∅
  rw [Peripheral.catchUp_eq_advanced, InterruptSet.empty_union] at hclock hrequests
  refine ⟨(congrArg Video.clock (bus.video_catchUp target)).trans hclock, ?_⟩
  rw [bus.mem_requests_catchUp target (d := .video) (by decide)]
  exact (or_congr_right hrequests).trans (by simp)

end Bus

end GameBoy
