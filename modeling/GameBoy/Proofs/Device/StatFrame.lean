import GameBoy.Proofs.Device.StatLine

/-!
# The display interrupt round the frame

A display that advances without being written to remembers what held when it advanced last
(`Video.Tracking`). So the display interrupt is requested where a selected condition begins to hold,
and where the vertical blank is entered with the object scan selected (`Tracking.requests_iff`).
Which advances these are is a matter of the position only. If one source is selected they lead to
the same tick of some successive lines (`Video.Reaches`): the end of a line begins on each visible
line, the vertical blank and the comparison begin with one line, and the object scan begins with
each visible line and counts as beginning with the one after them.

As each place of a frame is met once on the way round, wherever one begins to count, the requests
are counted by the lines: `lcdStat_per_frame`.
-/

namespace GameBoy.Video

open Peripheral

variable {v w : Video}

/-! ### Conditions that begin to hold -/

theorem compare_advance (v : Video) (pending : InterruptSet) :
    (v.advance pending).1.compare = v.compare := by
  simp only [advance]
  split
  · rfl
  · split
    · simp only [sample, fst_nextLine]
    · rfl

/-- Advances leave alone what has been written. -/
theorem sources_advanced (v : Video) (n : Nat) :
    (Peripheral.advanced n v).1.sources = v.sources ∧
      (Peripheral.advanced n v).1.compare = v.compare := by
  induction n with
  | zero => exact ⟨rfl, rfl⟩
  | succ n ih =>
    rw [fst_advanced_succ]
    exact ⟨(sources_advance _ ∅).trans ih.1, (compare_advance _ ∅).trans ih.2⟩

/-- What a display that is on does at each place. -/
theorem mode_iff (hon : v.on = true) :
    (v.mode = .objectScan ↔ v.line < 144 ∧ v.dot < 80) ∧ (v.mode = .vblank ↔ 144 ≤ v.line) ∧
      (v.mode = .hblank ↔ v.line < 144 ∧ 252 ≤ v.dot) := by
  simp only [mode, hon, vblankLine, scanTicks, transferTicks, Bool.not_true, Bool.false_eq_true,
    if_false]
  by_cases hvblank : 144 ≤ v.line
  · simp [hvblank, Nat.not_lt_of_le hvblank]
  · by_cases hscan : v.dot < 80
    · simp [hvblank, hscan, Nat.lt_of_not_le hvblank]
      omega
    · by_cases htransfer : v.dot < 252
      · simp [hvblank, hscan, htransfer]
      · simp [hvblank, hscan, htransfer]
        omega

/-- A display that is on its way round the frame, and remembers what holds. -/
structure Tracking (v : Video) : Prop extends v.Running where
  /-- What it has sampled is what holds. -/
  signalled_iff : v.signalled = true ↔ v.Holds

theorem Tracking.advance (h : v.Tracking) : (v.advance ∅).1.Tracking where
  toRunning := (h.toRunning.advance ∅).1
  signalled_iff := signalled_advance h.on

theorem Tracking.advanced (h : v.Tracking) (n : Nat) : (Peripheral.advanced n v).1.Tracking := by
  induction n with
  | zero => exact h
  | succ n ih =>
    rw [fst_advanced_succ]
    exact ih.advance

/-- **The display interrupt is requested where a condition begins to hold**, and where the vertical
blank is entered with the object scan selected. -/
theorem Tracking.requests_iff (h : v.Tracking) :
    Requests .lcdStat v ↔ v.ScansAtVblank ∨ (v.advance ∅).1.Holds ∧ ¬ v.Holds := by
  rw [requests_lcdStat_iff h.on, ← h.signalled_iff, Bool.not_eq_true]

/-- Where an advance leads. -/
theorem Running.next (h : v.Running) :
    (v.advance ∅).1.line < 154 ∧
      ((v.advance ∅).1.line = v.line ∧ (v.advance ∅).1.dot = v.dot + 4 ∨
        v.dot = 452 ∧ (v.advance ∅).1.line = (v.line + 1) % 154 ∧ (v.advance ∅).1.dot = 0) := by
  obtain ⟨-, -, hline, hdot⟩ := v.advance_of_on ∅ h.on
  have hfour := h.four_dvd_dot
  have hlt := h.inFrame.dot_lt
  refine ⟨(h.advance ∅).1.inFrame.line_lt, ?_⟩
  by_cases hfull : lineTicks ≤ v.dot + stride
  · rw [if_pos hfull] at hline hdot
    simp only [lineTicks, frameLines, stride] at *
    omega
  · rw [if_neg hfull] at hline hdot
    exact .inl ⟨hline, hdot⟩

section Selected

variable (h : v.Tracking)
include h

/-- The comparison begins to hold at the beginning of its line, if the frame has such a line. -/
theorem Tracking.requests_of_coincidence (hsources : v.sources = { coincidence := true }) :
    Requests .lcdStat v ↔
      (v.advance ∅).1.Reaches v.compare.toNat (min 154 (v.compare.toNat + 1)) 0 := by
  obtain ⟨hlt, hnext⟩ := h.next
  rw [h.requests_iff]
  simp only [ScansAtVblank, Holds, Reaches, sources_advance, compare_advance, hsources,
    Bool.false_eq_true, true_and, false_and, false_or, or_false]
  omega

/-- The end of a line begins on each visible line. -/
theorem Tracking.requests_of_hblank (hsources : v.sources = { hblank := true }) :
    Requests .lcdStat v ↔ (v.advance ∅).1.Reaches 0 144 252 := by
  obtain ⟨hlt, hnext⟩ := h.next
  obtain ⟨-, -, hmode⟩ := mode_iff h.on
  obtain ⟨-, -, hmode'⟩ := mode_iff h.advance.on
  have hfour := h.four_dvd_dot
  rw [h.requests_iff]
  simp only [ScansAtVblank, Holds, Reaches, sources_advance, hsources, hmode, hmode',
    Bool.false_eq_true, true_and, false_and, false_or]
  omega

/-- The vertical blank begins once. -/
theorem Tracking.requests_of_vblank (hsources : v.sources = { vblank := true }) :
    Requests .lcdStat v ↔ (v.advance ∅).1.Reaches 144 145 0 := by
  obtain ⟨hlt, hnext⟩ := h.next
  obtain ⟨-, hmode, -⟩ := mode_iff h.on
  obtain ⟨-, hmode', -⟩ := mode_iff h.advance.on
  have hline := h.inFrame.line_lt
  rw [h.requests_iff]
  simp only [ScansAtVblank, Holds, Reaches, sources_advance, hsources, hmode, hmode',
    Bool.false_eq_true, true_and, false_and, false_or, or_false, frameLines] at *
  omega

/-- The object scan begins on each visible line, and counts as beginning on the next one too. -/
theorem Tracking.requests_of_objectScan (hsources : v.sources = { objectScan := true }) :
    Requests .lcdStat v ↔ (v.advance ∅).1.Reaches 0 145 0 := by
  obtain ⟨hlt, hnext⟩ := h.next
  obtain ⟨hmode, -, -⟩ := mode_iff h.on
  obtain ⟨hmode', -, -⟩ := mode_iff h.advance.on
  have hline := h.inFrame.line_lt
  rw [h.requests_iff]
  simp only [ScansAtVblank, Holds, Reaches, sources_advance, hsources, hmode, hmode', vblankLine,
    Bool.false_eq_true, true_and, false_and, false_or, or_false, frameLines] at *
  omega

/-- If nothing is selected nothing is requested. -/
theorem Tracking.not_requests_of_none (hsources : v.sources = {}) : ¬ Requests .lcdStat v := by
  rw [h.requests_iff]
  simp [ScansAtVblank, Holds, sources_advance, hsources]

end Selected

/-- What holds of every advance of a display that has the same sources and the same comparison is
counted once for each line. -/
theorem Tracking.requestCount_lcdStat (h : v.Tracking) (first last dot : Nat)
    (hlast : last ≤ frameLines) (hdot : dot < lineTicks) (hfour : 4 ∣ dot)
    (hrequests : ∀ u : Video, u.Tracking → u.sources = v.sources → u.compare = v.compare →
      (Requests .lcdStat u ↔ (u.advance ∅).1.Reaches first last dot)) :
    requestCount .lcdStat frameAdvances v = last - first := by
  refine h.requestCount_eq first last dot hlast hdot hfour fun k ↦ ?_
  obtain ⟨hsources, hcompare⟩ := sources_advanced v k
  rw [fst_advanced_succ]
  exact hrequests _ (h.advanced k) hsources hcompare

/-- **How often the display interrupt is requested in a frame.** Take a display that is on, on some
line of the frame and a whole number of advances into it, and let it have advanced since it was last
written to. In any 17556 advances in succession that follow, the interrupt is requested once if the
comparison alone is selected and the frame has the line that is compared with, and not at all if it
has no such line. If one other source alone is selected, it is requested 144 times for the end of a
line, once for the vertical blank and 145 times for the object scan. If nothing is selected, it is
not requested. -/
theorem lcdStat_per_frame {w v : Video} {pending : InterruptSet} (hv : v = (w.advance pending).1)
    (hon : v.on = true) (hline : v.line < 154) (hdot : v.dot < 456) (hfour : 4 ∣ v.dot)
    (first : Nat) :
    let count := requestCount .lcdStat 17556 (advanced first v).1
    (v.sources = { coincidence := true } → count = if v.compare.toNat ≤ 153 then 1 else 0) ∧
      (v.sources = { hblank := true } → count = 144) ∧
      (v.sources = { vblank := true } → count = 1) ∧
      (v.sources = { objectScan := true } → count = 145) ∧
      (v.sources = {} → count = 0) := by
  intro count
  have hrunning : v.Running := by
    refine ⟨hon, ⟨hline, hdot⟩, ?_⟩
    simp only [position, lineTicks, stride]
    omega
  have hsignalled : v.signalled = true ↔ v.Holds := by
    have hw : w.on = true := by
      rw [← w.on_advance pending, ← hv]
      exact hon
    have hempty : v = (w.advance ∅).1 := by
      rw [hv, w.advance_eq_union pending]
    rw [hempty]
    exact signalled_advance hw
  have h : (Peripheral.advanced first v).1.Tracking :=
    Tracking.advanced ⟨hrunning, hsignalled⟩ first
  obtain ⟨hsources, hcompare⟩ := sources_advanced v first
  have hframe : 17556 = frameAdvances := by decide
  have hcount : count = requestCount .lcdStat frameAdvances (Peripheral.advanced first v).1 := by
    rw [← hframe]
  rw [hcount]
  refine ⟨fun hs ↦ ?_, fun hs ↦ ?_, fun hs ↦ ?_, fun hs ↦ ?_, fun hs ↦ ?_⟩
  · rw [h.requestCount_lcdStat v.compare.toNat (min 154 (v.compare.toNat + 1)) 0
      (Nat.min_le_left _ _) (by decide) (Nat.dvd_zero 4) fun u hu hs' hc' ↦ ?_]
    · split <;> omega
    · have h' := hu.requests_of_coincidence (hs'.trans (hsources.trans hs))
      rwa [hc', hcompare] at h'
  · exact h.requestCount_lcdStat 0 144 252 (by decide) (by decide) (by decide) fun u hu hs' _ ↦
      hu.requests_of_hblank (hs'.trans (hsources.trans hs))
  · exact h.requestCount_lcdStat 144 145 0 (by decide) (by decide) (by decide) fun u hu hs' _ ↦
      hu.requests_of_vblank (hs'.trans (hsources.trans hs))
  · exact h.requestCount_lcdStat 0 145 0 (by decide) (by decide) (by decide) fun u hu hs' _ ↦
      hu.requests_of_objectScan (hs'.trans (hsources.trans hs))
  · refine requestCount_eq_zero (fun k ↦ (h.advanced k).not_requests_of_none ?_) _
    exact (sources_advanced _ k).1.trans (hsources.trans hs)

/-- A display at the end of the last visible line. -/
def beforeVblank (sources : StatSources) : Video := { sources, line := 143, dot := 448 }

/-- In the frame that begins after four advances, line 144 has been entered already, and is entered
again at the end. -/
theorem lcdStat_per_frame_of_beforeVblank :
    requestCount .lcdStat 17556
        (advanced 3 ((beforeVblank { objectScan := true }).advance ∅).1).1 = 145 ∧
      requestCount .lcdStat 17556
        (advanced 3 ((beforeVblank { coincidence := true }).advance ∅).1).1 = 1 := by
  obtain ⟨-, -, -, hscan, -⟩ :=
    @lcdStat_per_frame (beforeVblank { objectScan := true }) _ ∅ rfl (by decide) (by decide)
      (by decide) (by decide) 3
  obtain ⟨hcoincidence, -⟩ :=
    @lcdStat_per_frame (beforeVblank { coincidence := true }) _ ∅ rfl (by decide) (by decide)
      (by decide) (by decide) 3
  exact ⟨hscan (by decide), hcoincidence (by decide)⟩

end GameBoy.Video
