import GameBoy.Proofs.Device.VideoFrame
import GameBoy.Proofs.History
import Mathlib.Order.Interval.Finset.Nat

/-!
# Round the frame

A display that is on and left to itself goes round its frame. If it is at a tick at which an advance
can begin (`Video.Running`), its position tells in how many advances it will be where
(`Running.advanced`), for a frame is a whole number of advances long. It meets every such tick once
on its way round. So the vertical blank, which is requested in the advance that leads to its first
tick, is requested once in as many advances as make a frame, wherever one begins to count:
`frame_cycle`.
-/

namespace GameBoy.Video

open Peripheral

/-- The advances that make a frame. -/
def frameAdvances : Nat := frameTicks / stride

/-- The display is on, and where an advance can begin or end. -/
structure Running (v : Video) : Prop where
  /-- It is on. -/
  on : v.on = true
  /-- It is in its frame. -/
  inFrame : v.InFrame
  /-- Whole advances have been made since the frame began. -/
  stride_dvd : stride ∣ v.position

variable {v : Video}

theorem InFrame.position_lt (h : v.InFrame) : v.position < frameTicks := by
  obtain ⟨hline, hdot⟩ := h
  simp only [position, frameTicks, frameLines, lineTicks] at *
  omega

/-- The display is at the given tick of a line, which is one of the lines from `first` up to, and not
including, `last`. -/
def Reaches (first last dot : Nat) (v : Video) : Prop :=
  first ≤ v.line ∧ v.line < last ∧ v.dot = dot

/-- The advances that come before the one that leads to a place of the frame. -/
def advancesTo (v : Video) (line dot : Nat) : Nat :=
  ((frameTicks + lineTicks * line + dot - v.position) / stride - 1) % frameAdvances

theorem advancesTo_lt (v : Video) (line dot : Nat) : v.advancesTo line dot < frameAdvances :=
  Nat.mod_lt _ (by decide)

namespace Running

/-- A display that is on stands at a multiple of four dots. -/
theorem four_dvd_dot (h : v.Running) : 4 ∣ v.dot := by
  have hdvd := h.stride_dvd
  simp only [position, lineTicks, stride] at hdvd
  omega

/-- **One advance.** -/
theorem advance (h : v.Running) (pending : InterruptSet) :
    (v.advance pending).1.Running ∧
      (v.advance pending).1.position = (v.position + stride) % frameTicks := by
  obtain ⟨hinFrame, hposition⟩ := h.inFrame.advance pending h.on
  refine ⟨⟨(v.on_advance pending).trans h.on, hinFrame, ?_⟩, hposition⟩
  have hwhole : stride ∣ frameTicks := by decide
  rw [hposition]
  exact (Nat.dvd_mod_iff hwhole).mpr (Nat.dvd_add h.stride_dvd (Nat.dvd_refl stride))

/-- **Any number of advances.** -/
theorem advanced (h : v.Running) (n : Nat) :
    (advanced n v).1.Running ∧
      (Peripheral.advanced n v).1.position = (v.position + stride * n) % frameTicks := by
  induction n with
  | zero => exact ⟨h, (Nat.mod_eq_of_lt h.inFrame.position_lt).symm⟩
  | succ n ih =>
    obtain ⟨hrunning, hposition⟩ := ih
    obtain ⟨hnext, hmoved⟩ := hrunning.advance ∅
    rw [fst_advanced_succ]
    refine ⟨hnext, hmoved.trans ?_⟩
    rw [hposition, Nat.mod_add_mod, Nat.add_assoc, Nat.mul_succ]

/-- The vertical blank is requested in the advance that leads to its first tick. -/
theorem requests_vblank_iff (h : v.Running) :
    Requests .vblank v ↔ (v.position + stride) % frameTicks = vblankStart := by
  show .vblank ∈ (v.advance ∅).2 ↔ _
  rw [vblank_mem_advance_iff h.inFrame, and_iff_right h.on]
  have hdvd := h.stride_dvd
  obtain ⟨hline, hdot⟩ := h.inFrame
  simp only [position, vblankStart, frameTicks, vblankLine, frameLines, lineTicks, stride] at *
  omega

/-- **Each place of the frame is met once**, in the advances that make a frame. -/
theorem eq_advancesTo_iff (h : v.Running) {line dot k : Nat} (hline : line < frameLines)
    (hdot : dot < lineTicks) (hfour : 4 ∣ dot) (hk : k < frameAdvances) :
    k = v.advancesTo line dot ↔
      (Peripheral.advanced (k + 1) v).1.line = line ∧
        (Peripheral.advanced (k + 1) v).1.dot = dot := by
  obtain ⟨hlater, hposition⟩ := h.advanced (k + 1)
  have hdvd := h.stride_dvd
  have hlt := h.inFrame.position_lt
  obtain ⟨hline', hdot'⟩ := hlater.inFrame
  simp only [advancesTo, position, frameAdvances, frameTicks, frameLines, lineTicks, stride] at *
  omega

/-- What is requested where the given tick is reached on one of some successive lines is requested
as often in a frame as there are such lines. -/
theorem requestCount_eq (h : v.Running) {i : Interrupt} (first last dot : Nat)
    (hlast : last ≤ frameLines) (hdot : dot < lineTicks) (hfour : 4 ∣ dot)
    (hrequests : ∀ k, Requests i (Peripheral.advanced k v).1 ↔
      (Peripheral.advanced (k + 1) v).1.Reaches first last dot) :
    requestCount i frameAdvances v = last - first := by
  have hplace {line k : Nat} (hline : line < last) (hk : k < frameAdvances) :=
    h.eq_advancesTo_iff (Nat.lt_of_lt_of_le hline hlast) hdot hfour hk
  rw [requestCount, Nat.count_eq_card_filter_range, ← Nat.card_Ico]
  -- An advance belongs to the line that it leads to, and a line to the advance that leads there.
  refine Finset.card_nbij' (fun k ↦ (Peripheral.advanced (k + 1) v).1.line)
    (fun line ↦ v.advancesTo line dot) (fun k hk ↦ ?_) (fun line hline ↦ ?_) (fun k hk ↦ ?_)
    (fun line hline ↦ ?_)
  · obtain ⟨-, hk⟩ := Finset.mem_filter.mp hk
    obtain ⟨hfirst, hlast, -⟩ := (hrequests k).mp hk
    exact Finset.mem_Ico.mpr ⟨hfirst, hlast⟩
  · obtain ⟨hfirst, hlast⟩ := Finset.mem_Ico.mp hline
    obtain ⟨hline', hdot'⟩ := (hplace hlast (v.advancesTo_lt line dot)).mp rfl
    refine Finset.mem_filter.mpr ⟨Finset.mem_range.mpr (v.advancesTo_lt line dot), ?_⟩
    refine (hrequests _).mpr ⟨?_, ?_, hdot'⟩
    · rw [hline']
      exact hfirst
    · rw [hline']
      exact hlast
  · obtain ⟨hk', hk⟩ := Finset.mem_filter.mp hk
    obtain ⟨-, hlast, hdot'⟩ := (hrequests k).mp hk
    exact ((hplace hlast (Finset.mem_range.mp hk')).mpr ⟨rfl, hdot'⟩).symm
  · obtain ⟨-, hlast⟩ := Finset.mem_Ico.mp hline
    exact ((hplace hlast (v.advancesTo_lt line dot)).mp rfl).1

/-- **Once round the frame** the vertical blank is requested once. -/
theorem requestCount_vblank (h : v.Running) : requestCount .vblank frameAdvances v = 1 := by
  refine h.requestCount_eq 144 145 0 (by decide) (by decide) (by decide) fun k ↦ ?_
  obtain ⟨hrunning, -⟩ := h.advanced k
  obtain ⟨hnext, hposition⟩ := hrunning.advance ∅
  have hdot := hnext.inFrame.dot_lt
  rw [hrunning.requests_vblank_iff, fst_advanced_succ, ← hposition]
  show _ ↔ Reaches _ _ _ (Video.advance _ ∅).1
  simp only [Reaches, position, vblankStart, vblankLine, lineTicks] at *
  omega

/-- **Once round the frame** the display is where it was. -/
theorem advanced_frame (h : v.Running) :
    (Peripheral.advanced frameAdvances v).1.line = v.line ∧
      (Peripheral.advanced frameAdvances v).1.dot = v.dot := by
  obtain ⟨hrunning, hposition⟩ := h.advanced frameAdvances
  obtain ⟨hline, hdot⟩ := h.inFrame
  obtain ⟨hline', hdot'⟩ := hrunning.inFrame
  simp only [position, frameAdvances, frameTicks, frameLines, lineTicks, stride] at *
  omega

end Running

/-- **The cycle of a frame.** A display that is on, on some line of the frame and a whole number of
advances into it: its line and the ticks spent on it after any number of advances, the advances in
which the vertical blank is requested, and what is true of any 17556 advances in succession. -/
theorem frame_cycle (v : Video) (hon : v.on = true) (hline : v.line < 154) (hdot : v.dot < 456)
    (hfour : 4 ∣ v.dot) :
    let p := 456 * v.line + v.dot
    let later n := (advanced n v).1
    (∀ n, (later n).line < 154 ∧ (later n).dot < 456 ∧
      456 * (later n).line + (later n).dot = (p + 4 * n) % 70224) ∧
    (∀ k, Requests .vblank (later k) ↔ (p + 4 * (k + 1)) % 70224 = 65664) ∧
    ∀ first, requestCount .vblank 17556 (later first) = 1 ∧
      (later (first + 17556)).line = (later first).line ∧
      (later (first + 17556)).dot = (later first).dot := by
  intro p later
  have hrunning : v.Running := by
    refine ⟨hon, ⟨hline, hdot⟩, ?_⟩
    simp only [position, lineTicks, stride]
    omega
  refine ⟨fun n ↦ ?_, fun k ↦ ?_, fun first ↦ ?_⟩
  · obtain ⟨⟨-, hinFrame, -⟩, hposition⟩ := hrunning.advanced n
    exact ⟨hinFrame.line_lt, hinFrame.dot_lt, hposition⟩
  · obtain ⟨hlater, hposition⟩ := hrunning.advanced k
    rw [hlater.requests_vblank_iff, hposition, Nat.mod_add_mod, Nat.add_assoc, ← Nat.mul_succ]
    exact Iff.rfl
  · obtain ⟨hlater, -⟩ := hrunning.advanced first
    have hframe : 17556 = frameAdvances := by decide
    show requestCount .vblank 17556 (advanced first v).1 = 1 ∧
      (advanced (first + 17556) v).1.line = (advanced first v).1.line ∧
      (advanced (first + 17556) v).1.dot = (advanced first v).1.dot
    rw [hframe, fst_advanced_add]
    exact ⟨hlater.requestCount_vblank, hlater.advanced_frame⟩

/-- Shortly before the vertical blank: it begins with the second advance, again a frame later. -/
theorem frame_cycle_of_lastVisibleLine :
    let v : Video := { line := 143, dot := 448 }
    let again := (advanced (1 + 17556) v).1
    Requests .vblank (advanced 1 v).1 ∧ ¬ Requests .vblank (advanced 2 v).1 ∧
      again.line = 143 ∧ again.dot = 452 ∧ Requests .vblank again := by
  intro v again
  obtain ⟨-, hrequests, hround⟩ := frame_cycle v (by decide) (by decide) (by decide) (by decide)
  obtain ⟨-, hline, hdot⟩ := hround 1
  have hfirst : (advanced 1 v).1.line = 143 ∧ (advanced 1 v).1.dot = 452 := by decide
  have hnextFrame : (456 * v.line + v.dot + 4 * (1 + 17556 + 1)) % 70224 = 65664 := by decide
  exact ⟨(hrequests 1).mpr rfl, fun h ↦ absurd ((hrequests 2).mp h) (by decide),
    hline.trans hfirst.1, hdot.trans hfirst.2, (hrequests (1 + 17556)).mpr hnextFrame⟩

end GameBoy.Video
