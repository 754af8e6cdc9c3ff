import GameBoy.Proofs.Device.FrameCycle

/-!
# The line of the display interrupt

Four conditions can be selected as sources of the display interrupt. The line is active if one of
them holds; every advance samples it, and the interrupt is meant to be requested when it rises. In
the advance that enters the vertical blank the object scan counts as holding too, if it is selected.

That last rule goes past the sample. The request that it makes does not depend on what the line was
before, and the sample that is remembered does not know of it (`requests_lcdStat_iff`). So the
interrupt is requested on the rising edges of the line (`lcdStat_on_rising_edges`), with two
exceptions. It is requested whenever the vertical blank is entered with the object scan selected,
even if the line has been held by another source (`lcdStat_requested_while_held`). And if only the
object scan made the line active in that advance, a line that is active in the next one is taken to
have risen (`lcdStat_requested_again`).

The history of a display is everything done to it since power-on (`Video.Use`). What the line was at
the previous sample is read off it: `Sampled`.
-/

namespace GameBoy.Video

open Peripheral

/-! ### The line -/

section Line

variable (v : Video)

/-- Some selected condition holds. -/
def Holds : Prop :=
  v.sources.coincidence = true ∧ v.line = v.compare.toNat ∨
    v.sources.objectScan = true ∧ v.mode = .objectScan ∨
    v.sources.vblank = true ∧ v.mode = .vblank ∨
    v.sources.hblank = true ∧ v.mode = .hblank

theorem signal_eq_true_iff : v.signal = true ↔ v.on = true ∧ v.Holds := by
  simp only [signal, Holds, coincides, Bool.and_eq_true, Bool.or_eq_true, beq_iff_eq, or_assoc]

/-- The next advance enters the vertical blank, and the object scan is selected. -/
def ScansAtVblank : Prop :=
  v.sources.objectScan = true ∧ v.line ≠ vblankLine ∧ (v.advance ∅).1.line = vblankLine

/-- The line is active after the next advance: some selected condition holds then, or the object
scan counts as holding. -/
def Active : Prop := (v.advance ∅).1.Holds ∨ v.ScansAtVblank

instance : Decidable v.Holds := inferInstanceAs (Decidable (_ ∨ _ ∨ _ ∨ _))

instance : Decidable v.ScansAtVblank := inferInstanceAs (Decidable (_ ∧ _ ∧ _))

instance : Decidable v.Active := inferInstanceAs (Decidable (_ ∨ _))

/-- Entering a line requests the display interrupt only on account of the object scan. -/
theorem lcdStat_mem_nextLine :
    .lcdStat ∈ (v.nextLine ∅).2 ↔
      v.sources.objectScan = true ∧ (v.line + 1) % frameLines = vblankLine := by
  simp only [nextLine]
  split
  · next hline =>
    rw [and_iff_left hline]
    split
    · next hscan => exact iff_of_true (InterruptSet.mem_insert.mpr (.inr rfl)) hscan
    · next hnone =>
      refine iff_of_false (fun h ↦ ?_) hnone
      rcases InterruptSet.mem_insert.mp h with hnever | hother
      · exact InterruptSet.not_mem_empty hnever
      · cases hother
  · next hline => exact iff_of_false InterruptSet.not_mem_empty fun h ↦ hline h.2

variable {v}

/-- **An advance ends with a sample**, and what has been requested before that is requested on
account of the object scan. -/
theorem advance_eq_sample (hon : v.on = true) :
    ∃ (w : Video) (pending : InterruptSet), v.advance ∅ = w.sample pending ∧
      w.on = true ∧ w.signalled = v.signalled ∧ (.lcdStat ∈ pending ↔ v.ScansAtVblank) := by
  have hon' : ({ v with clock := v.clock + stride } : Video).on = true := hon
  obtain ⟨-, -, hline, -⟩ := v.advance_of_on ∅ hon
  let w : Video := { v with clock := v.clock + stride, dot := v.dot + stride }
  by_cases hfull : lineTicks ≤ v.dot + stride
  · have hadvance : v.advance ∅ = (w.nextLine ∅).1.sample (w.nextLine ∅).2 := by
      simp only [advance, hon', Bool.not_true, Bool.false_eq_true, if_false, if_pos hfull]
      rfl
    refine ⟨_, _, hadvance, ?_, ?_, ?_⟩
    · rw [fst_nextLine]
      exact hon
    · rw [fst_nextLine]
    · rw [lcdStat_mem_nextLine, ScansAtVblank, hline, if_pos hfull]
      refine and_congr_right fun _ ↦ ?_
      show (v.line + 1) % frameLines = vblankLine ↔ _
      simp only [frameLines, vblankLine]
      omega
  · have hadvance : v.advance ∅ = w.sample ∅ := by
      simp only [advance, hon', Bool.not_true, Bool.false_eq_true, if_false, if_neg hfull]
      rfl
    refine ⟨w, ∅, hadvance, hon, rfl, iff_of_false InterruptSet.not_mem_empty ?_⟩
    rintro ⟨-, hother, hsame⟩
    rw [hline, if_neg hfull] at hsame
    exact hother hsame

/-- **When the display interrupt is requested**, told from the remembered sample. -/
theorem requests_lcdStat_iff (hon : v.on = true) :
    Requests .lcdStat v ↔
      v.ScansAtVblank ∨ (v.advance ∅).1.Holds ∧ v.signalled = false := by
  obtain ⟨w, pending, hadvance, hw, hsignalled, hpending⟩ := advance_eq_sample hon
  have hholds : (v.advance ∅).1.Holds ↔ w.signal = true := by
    rw [hadvance, signal_eq_true_iff, and_iff_right hw]
    exact Iff.rfl
  show .lcdStat ∈ (v.advance ∅).2 ↔ _
  rw [hholds, ← hsignalled, ← hpending, hadvance, sample_eq_union, InterruptSet.mem_union]
  refine or_congr_right ?_
  simp only [sample]
  split
  · next hrises => simpa using hrises
  · next hno => simpa using hno

/-- **The sample** that an advance leaves. -/
theorem signalled_advance (hon : v.on = true) :
    (v.advance ∅).1.signalled = true ↔ (v.advance ∅).1.Holds := by
  obtain ⟨w, pending, hadvance, hw, -, -⟩ := advance_eq_sample hon
  rw [hadvance]
  show w.signal = true ↔ w.Holds
  rw [signal_eq_true_iff, and_iff_right hw]

end Line

/-! ### Histories of a display -/

/-- Something that is done with a display. -/
inductive Use where
  /-- It advances. -/
  | advance
  /-- The control register is written. -/
  | setControl (byte : UInt8)
  /-- The status register is written. -/
  | setStatus (byte : UInt8)
  /-- The comparison register is written. -/
  | setCompare (byte : UInt8)
  /-- A reset. -/
  | reset
deriving DecidableEq

/-- The display after a use. -/
def use (v : Video) : Use → Video
  | .advance => (Peripheral.advance v ∅).1
  | .setControl byte => v.setControl byte
  | .setStatus byte => v.setStatus byte
  | .setCompare byte => v.setCompare byte
  | .reset => {}

/-- The display after some uses, one after the other. -/
def after (v : Video) (uses : List Use) : Video := uses.foldl use v

theorem after_append_singleton (v : Video) (uses : List Use) (u : Use) :
    v.after (uses ++ [u]) = (v.after uses).use u := by
  rw [after, List.foldl_append]
  rfl

/-- The use leaves the latest sample as it is: it neither samples the line, nor switches a display
that is on, nor resets it. -/
def Use.KeepsSample : Use → Prop
  | .setControl byte => switchesOn byte = true
  | .setStatus _ | .setCompare _ => True
  | .advance | .reset => False

/-- The line was active at the previous sample: in the latest advance, made while the display was
on, and not switched or reset since. What it means to be active is told of the display as it was
before that advance. -/
def Sampled (active : Video → Prop) : List Use → Prop :=
  Since (fun before u ↦ u = .advance ∧ (after {} before).on = true ∧ active (after {} before))
    Use.KeepsSample

section Sampled

variable {active active' : Video → Prop} {uses : List Use}

/-- Every advance of a display that is on takes a new sample. -/
theorem sampled_append_advance :
    Sampled active (uses ++ [.advance]) ↔
      (after {} uses).on = true ∧ active (after {} uses) := by
  rw [Sampled, since_append_singleton]
  simp only [Use.KeepsSample, false_and, or_false, true_and]

/-- Anything else keeps the sample or forgets it. -/
theorem sampled_append_of_ne {u : Use} (hu : u ≠ .advance) :
    Sampled active (uses ++ [u]) ↔ u.KeepsSample ∧ Sampled active uses := by
  rw [Sampled, since_append_singleton, or_iff_right fun h ↦ hu h.1]

/-- There is one latest sample. -/
theorem sampled_and (h : Sampled active uses) (h' : Sampled active' uses) :
    Sampled (fun v ↦ active v ∧ active' v) uses := by
  induction uses using List.reverseRecOn with
  | nil => exact absurd h not_since_nil
  | append_singleton uses u ih =>
    by_cases hu : u = .advance
    · subst hu
      rw [sampled_append_advance] at *
      exact ⟨h.1, h.2, h'.2⟩
    · rw [sampled_append_of_ne hu] at *
      exact ⟨h.1, ih h.2 h'.2⟩

theorem sampled_or :
    Sampled (fun v ↦ active v ∨ active' v) uses ↔ Sampled active uses ∨ Sampled active' uses := by
  constructor
  · rintro ⟨before, u, later, huses, ⟨hu, hon, hactive⟩, hlater⟩
    exact hactive.imp (fun h ↦ ⟨before, u, later, huses, ⟨hu, hon, h⟩, hlater⟩)
      fun h ↦ ⟨before, u, later, huses, ⟨hu, hon, h⟩, hlater⟩
  · rintro (⟨before, u, later, huses, ⟨hu, hon, h⟩, hlater⟩ |
      ⟨before, u, later, huses, ⟨hu, hon, h⟩, hlater⟩)
    · exact ⟨before, u, later, huses, ⟨hu, hon, .inl h⟩, hlater⟩
    · exact ⟨before, u, later, huses, ⟨hu, hon, .inr h⟩, hlater⟩

end Sampled

/-! ### The remembered sample -/

/-- A display that is off remembers an inactive line. -/
def QuietOff (v : Video) : Prop := v.on = false → v.signalled = false

section QuietOff

variable {v : Video}

theorem QuietOff.on_of_signalled (h : v.QuietOff) (hsignalled : v.signalled = true) :
    v.on = true := by
  rw [← Bool.not_eq_false]
  exact fun hoff ↦ Bool.false_ne_true ((h hoff).symm.trans hsignalled)

theorem QuietOff.advance (h : v.QuietOff) :
    (v.advance ∅).1.QuietOff ∧
      ((v.advance ∅).1.signalled = true ↔ v.on = true ∧ (v.advance ∅).1.Holds) := by
  cases hon : v.on with
  | true =>
    refine ⟨fun hoff ↦ ?_, (signalled_advance hon).trans (and_iff_right rfl).symm⟩
    rw [on_advance, hon] at hoff
    cases hoff
  | false =>
    rw [advance_of_off v ∅ hon]
    refine ⟨h, iff_of_false ?_ fun hnever ↦ Bool.false_ne_true hnever.1⟩
    rw [Bool.not_eq_true]
    exact h hon

/-- A write to the control register keeps the sample of a display that is on and stays on. Any other
one finds an inactive line, or leaves one. -/
theorem QuietOff.setControl (h : v.QuietOff) (byte : UInt8) :
    (v.setControl byte).QuietOff ∧
      ((v.setControl byte).signalled = true ↔ switchesOn byte = true ∧ v.signalled = true) := by
  by_cases hkept : switchesOn byte = v.on
  · rw [setControl_of_on_eq hkept]
    refine ⟨fun hoff ↦ h (hkept.symm.trans hoff), fun hsignalled ↦ ?_, And.right⟩
    exact ⟨hkept.trans (h.on_of_signalled hsignalled), hsignalled⟩
  · rw [setControl_of_on_ne hkept]
    refine ⟨fun _ ↦ rfl, iff_of_false Bool.false_ne_true ?_⟩
    rintro ⟨hbyte, hsignalled⟩
    exact hkept (hbyte.trans (h.on_of_signalled hsignalled).symm)

theorem QuietOff.use_of_ne (h : v.QuietOff) {u : Use} (hu : u ≠ .advance) :
    (v.use u).QuietOff ∧ ((v.use u).signalled = true ↔ u.KeepsSample ∧ v.signalled = true) := by
  cases u with
  | advance => exact absurd rfl hu
  | setControl byte => exact h.setControl byte
  | setStatus byte => exact ⟨h, (and_iff_right trivial).symm⟩
  | setCompare byte => exact ⟨h, (and_iff_right trivial).symm⟩
  | reset => exact ⟨fun _ ↦ rfl, iff_of_false Bool.false_ne_true And.left⟩

end QuietOff

/-- **What a display remembers** is whether some selected condition held at the previous sample. -/
theorem signalled_after (uses : List Use) :
    (after {} uses).QuietOff ∧
      ((after {} uses).signalled = true ↔ Sampled (fun v ↦ (v.advance ∅).1.Holds) uses) := by
  induction uses using List.reverseRecOn with
  | nil => exact ⟨fun _ ↦ rfl, iff_of_false Bool.false_ne_true not_since_nil⟩
  | append_singleton uses u ih =>
    obtain ⟨hquiet, hsampled⟩ := ih
    rw [after_append_singleton]
    by_cases hu : u = .advance
    · subst hu
      rw [sampled_append_advance]
      exact hquiet.advance
    · rw [sampled_append_of_ne hu, ← hsampled]
      exact hquiet.use_of_ne hu

/-! ### Rising edges -/

/-- After the next advance only the object scan makes the line active, because the vertical blank is
entered. -/
def OnlyScans (v : Video) : Prop := v.ScansAtVblank ∧ ¬ (v.advance ∅).1.Holds

instance (v : Video) : Decidable v.OnlyScans := inferInstanceAs (Decidable (_ ∧ _))

theorem active_iff (v : Video) : v.Active ↔ (v.advance ∅).1.Holds ∨ v.OnlyScans := by
  constructor
  · rintro (hholds | hscans)
    · exact .inl hholds
    · by_cases hholds : (v.advance ∅).1.Holds
      · exact .inl hholds
      · exact .inr ⟨hscans, hholds⟩
  · exact Or.imp_right And.left

variable (uses : List Use)

/-- The line was active at the previous sample if the display remembers it, or if only the object
scan made it active. -/
theorem sampled_active_iff :
    Sampled Active uses ↔ (after {} uses).signalled = true ∨ Sampled OnlyScans uses := by
  have hactive : Active = fun v ↦ (v.advance ∅).1.Holds ∨ v.OnlyScans :=
    funext fun v ↦ propext v.active_iff
  rw [hactive, sampled_or, (signalled_after uses).2]

/-- What only the object scan has made active is not remembered. -/
theorem signalled_of_sampled_onlyScans {uses : List Use} (h : Sampled OnlyScans uses) :
    (after {} uses).signalled = false := by
  rw [← Bool.not_eq_true, (signalled_after uses).2]
  intro hholds
  obtain ⟨_, _, _, -, ⟨-, -, hboth⟩, -⟩ := sampled_and hholds h
  exact hboth.2.2 hboth.1

/-- **The display interrupt is requested on the rising edges of its line**, for any display that is
on, whatever has been done with it since power-on: the next advance requests it if and only if the
line is active then and was not at the previous sample. This holds unless the vertical blank is
entered with the object scan selected and the line was active, or the line was active at the
previous sample only because of that rule.

In the first case the interrupt is requested nevertheless; in the second it is requested if the line
is active, as if it had not been so before. -/
theorem lcdStat_on_rising_edges (hon : (after {} uses).on = true) :
    let v := after {} uses
    (¬ (v.ScansAtVblank ∧ Sampled Active uses) → ¬ Sampled OnlyScans uses →
      (Requests .lcdStat v ↔ v.Active ∧ ¬ Sampled Active uses)) ∧
    (v.ScansAtVblank → Requests .lcdStat v) ∧
    (Sampled OnlyScans uses → (Requests .lcdStat v ↔ v.Active)) := by
  intro v
  have hsampled := sampled_active_iff uses
  have hrequests : Requests .lcdStat v ↔
      v.ScansAtVblank ∨ (v.advance ∅).1.Holds ∧ v.signalled = false := requests_lcdStat_iff hon
  refine ⟨fun hentered honly ↦ ?_, fun hscans ↦ hrequests.mpr (.inl hscans), fun honly ↦ ?_⟩
  · have hremembered : ¬ Sampled Active uses ↔ v.signalled = false := by
      rw [hsampled, or_iff_left honly, Bool.not_eq_true]
    rw [hrequests, ← hremembered, Active, or_and_right, or_comm]
    refine or_congr_right ⟨fun hscans ↦ ⟨hscans, fun hactive ↦ hentered ⟨hscans, hactive⟩⟩, ?_⟩
    exact And.left
  · rw [hrequests, signalled_of_sampled_onlyScans honly, and_iff_left rfl, or_comm, Active]

/-- The object scan is selected at power-on, and it holds after the first advance. -/
def scanning : List Use := [.setStatus 0x20]

/-- The first advance requests the interrupt. If the comparison is then selected as well, which
succeeds at once, the next advance requests nothing, for the object scan still holds. -/
theorem lcdStat_on_rising_edges_of_scanning :
    Requests .lcdStat (after {} scanning) ∧
      ¬ Requests .lcdStat (after {} (scanning ++ [.advance] ++ [.setStatus 0x60])) := by
  obtain ⟨hfirst, -⟩ := lcdStat_on_rising_edges scanning (by decide)
  obtain ⟨hsecond, -⟩ :=
    lcdStat_on_rising_edges (scanning ++ [.advance] ++ [.setStatus 0x60]) (by decide)
  have hstatus : ∀ byte, Use.setStatus byte ≠ .advance := nofun
  have hnever (active : Video → Prop) : ¬ Sampled active scanning := by
    show ¬ Sampled active ([] ++ [.setStatus 0x20])
    rw [sampled_append_of_ne (hstatus 0x20)]
    exact fun h ↦ not_since_nil h.2
  have hkept (active : Video → Prop) :
      Sampled active (scanning ++ [.advance] ++ [.setStatus 0x60]) ↔
        active (after {} scanning) := by
    rw [sampled_append_of_ne (hstatus 0x60), sampled_append_advance]
    exact ⟨fun h ↦ h.2.2, fun h ↦ ⟨trivial, by decide, h⟩⟩
  rw [hkept, hkept] at hsecond
  refine ⟨(hfirst (fun h ↦ hnever _ h.2) (hnever _)).mpr ⟨by decide, hnever _⟩, ?_⟩
  rw [hsecond (by decide) (by decide)]
  exact fun h ↦ h.2 (by decide)

/-! ### Entering the vertical blank -/

/-- Some sources are selected at power-on, and the display advances. -/
def advancing (byte : UInt8) (n : Nat) : List Use := .setStatus byte :: List.replicate n .advance

theorem advancing_succ (byte : UInt8) (n : Nat) :
    advancing byte (n + 1) = advancing byte n ++ [.advance] := by
  rw [advancing, List.replicate_succ']
  rfl

/-- Which conditions are selected does not change in time. -/
theorem sources_advance (v : Video) (pending : InterruptSet) :
    (v.advance pending).1.sources = v.sources := by
  simp only [advance]
  split
  · rfl
  · split
    · simp only [sample, fst_nextLine]
    · rfl

theorem advance_after_advancing (byte : UInt8) (n : Nat) :
    ((after {} (advancing byte n)).advance ∅).1 = after {} (advancing byte (n + 1)) := by
  rw [advancing_succ, after_append_singleton]
  rfl

/-- Where the display is then. -/
theorem after_advancing (byte : UInt8) (n : Nat) :
    let v := after {} (advancing byte n)
    v.on = true ∧ v.sources = .ofByte byte ∧ v.line = 4 * n % 70224 / 456 ∧
      v.dot = 4 * n % 70224 % 456 := by
  intro v
  have hrun : v.Running ∧ v.position = 4 * n % 70224 ∧ v.sources = .ofByte byte := by
    induction n with
    | zero =>
      obtain ⟨hon, ⟨hline, hdot⟩, -⟩ := undisturbed_powerOn
      exact ⟨⟨hon, ⟨hline, hdot⟩, Nat.dvd_zero stride⟩, rfl, rfl⟩
    | succ n ih =>
      obtain ⟨hrunning, hposition, hsources⟩ := ih
      obtain ⟨hnext, hmoved⟩ := hrunning.advance ∅
      have hv : v = ((after {} (advancing byte n)).advance ∅).1 :=
        (advance_after_advancing byte n).symm
      rw [hv]
      refine ⟨hnext, ?_, (sources_advance _ ∅).trans hsources⟩
      rw [hmoved, hposition]
      exact Nat.mod_add_mod ..
  obtain ⟨⟨hon, ⟨-, hdot⟩, -⟩, hposition, hsources⟩ := hrun
  simp only [position, lineTicks] at *
  exact ⟨hon, hsources, by omega, by omega⟩

/-- In the advance to the vertical blank the object scan counts as holding, if it is selected. -/
theorem scansAtVblank_after_advancing {byte : UInt8} (hbyte : byte.toNat.testBit 5 = true) :
    (after {} (advancing byte 16415)).ScansAtVblank := by
  obtain ⟨-, hsources, hline, -⟩ := after_advancing byte 16415
  obtain ⟨-, -, hnext, -⟩ := after_advancing byte 16416
  refine ⟨?_, ?_, ?_⟩
  · rw [hsources]
    exact hbyte
  · rw [hline]
    decide
  · rw [advance_after_advancing, hnext]
    rfl

/-- **The interrupt is requested while the line is held.** The object scan and the end of a line are
selected. The end of the last visible line makes the line active, and it was so at the previous
sample; yet the advance to the vertical blank requests the interrupt. -/
theorem lcdStat_requested_while_held :
    (after {} (advancing 0x28 16415)).on = true ∧
      Requests .lcdStat (after {} (advancing 0x28 16415)) ∧
      ¬ ((after {} (advancing 0x28 16415)).Active ∧ ¬ Sampled Active (advancing 0x28 16415)) := by
  obtain ⟨hon, hsources, hline, hdot⟩ := after_advancing 0x28 16415
  refine ⟨hon, (requests_lcdStat_iff hon).mpr (.inl (scansAtVblank_after_advancing rfl)), ?_⟩
  have hmode : (after {} (advancing 0x28 16415)).mode = .hblank := by
    simp only [mode, hon, hline, hdot]
    decide
  have hhblank : (after {} (advancing 0x28 16415)).sources.hblank = true := by
    rw [hsources]
    rfl
  have hsampled : Sampled Active (advancing 0x28 16415) := by
    rw [advancing_succ _ 16414, sampled_append_advance]
    refine ⟨(after_advancing 0x28 16414).1, .inl ?_⟩
    have hlast : ((after {} (advancing 0x28 16414)).advance ∅).1 =
        after {} (advancing 0x28 16415) := advance_after_advancing 0x28 16414
    rw [hlast]
    exact .inr (.inr (.inr ⟨hhblank, hmode⟩))
  exact fun h ↦ h.2 hsampled

/-- On the first line of the vertical blank, selecting the vertical blank makes the line active. -/
theorem requests_of_vblank_selected {v : Video} (hon : v.on = true) (hline : v.line = 144)
    (hdot : v.dot = 0) (hforgotten : v.signalled = false) :
    Requests .lcdStat (v.use (.setStatus 0x10)) := by
  have hon' : (v.setStatus 0x10).on = true := hon
  obtain ⟨-, -, hnext, -⟩ := (v.setStatus 0x10).advance_of_on ∅ hon'
  have hstays : ((v.setStatus 0x10).advance ∅).1.line = 144 := by
    rw [hnext, setStatus, hline, hdot]
    rfl
  refine (requests_lcdStat_iff hon').mpr (.inr ⟨.inr (.inr (.inl ⟨?_, ?_⟩)), hforgotten⟩)
  · rw [sources_advance]
    rfl
  · simp only [mode, on_advance, hon', hstays]
    rfl

/-- **The interrupt is requested again.** Only the object scan is selected, and it makes the line
active in the advance to the vertical blank. The vertical blank is selected in its place; it holds,
so the line stays active, yet the next advance takes that for a rising edge. -/
theorem lcdStat_requested_again :
    Sampled OnlyScans (advancing 0x20 16416) ∧
      Requests .lcdStat (after {} (advancing 0x20 16416 ++ [.setStatus 0x10])) := by
  obtain ⟨hon, hsources, hline, hdot⟩ := after_advancing 0x20 16416
  have hnone : ¬ (after {} (advancing 0x20 16416)).Holds := by
    simp only [Holds, mode, hsources, hon, hline]
    decide
  have hsampled : Sampled OnlyScans (advancing 0x20 16416) := by
    have hlast : ((after {} (advancing 0x20 16415)).advance ∅).1 =
        after {} (advancing 0x20 16416) := advance_after_advancing 0x20 16415
    rw [advancing_succ _ 16415, sampled_append_advance, OnlyScans, hlast]
    exact ⟨(after_advancing 0x20 16415).1, scansAtVblank_after_advancing rfl, hnone⟩
  refine ⟨hsampled, ?_⟩
  rw [after_append_singleton]
  exact requests_of_vblank_selected hon (hline.trans (by decide)) (hdot.trans (by decide))
    (signalled_of_sampled_onlyScans hsampled)

end GameBoy.Video
