import GameBoy.Proofs.Bus.Time
import GameBoy.Proofs.Device.Joypad
import GameBoy.Proofs.Device.Registers
import GameBoy.Proofs.History

/-!
# The joypad and its past

What a program sees of the joypad, and when the joypad requests its interrupt, told from nothing but
the history of what was done with it: buttons pressed and released, bytes written to the register,
advances and resets, in any order and from power-on.

A button is held if the last thing done with it was to press it (`Held`), a line is low if a button
on it is held whose group is selected (`Low`), and the interrupt is requested for a line that is low
and was not low when the lines were sampled last (`SampledLow`). Two buttons share each line, so a
button that is held may hide another one that is pressed.

A press that is undone before the next advance is told from one that was never made by following two
joypads at once (`Hides`). A reset samples the lines as well, so when there is one in between, the
line counts as low from there to the next advance. That can hide another press, and it never makes
the joypad request anything.
-/

namespace GameBoy

open Peripheral

/-! ### The matrix -/

theorem Button.line_lt (button : Button) : button.line < 4 := by
  cases button <;> decide

/-- No two buttons of a group share a line. -/
theorem Button.eq_of_line_eq {button other : Button}
    (hgroup : button.isDirection = other.isDirection) (hline : button.line = other.line) :
    button = other := by
  cases button <;> cases other <;> first | rfl | contradiction

/-- On each line there is a button of either group. -/
theorem Button.exists_line {i : Nat} (hi : i < 4) (direction : Bool) :
    ∃ button : Button, button.isDirection = direction ∧ button.line = i := by
  have hall : ∀ direction : Bool, ∀ i < 4,
      Button.all.any fun button ↦ button.isDirection == direction && button.line == i := by
    decide
  obtain ⟨button, -, hbutton⟩ := List.any_eq_true.mp (hall direction i hi)
  rw [Bool.and_eq_true, beq_iff_eq, beq_iff_eq] at hbutton
  exact ⟨button, hbutton⟩

namespace Joypad

variable {j : Joypad}

theorem getLsbD_setLine (group : BitVec 4) {line : Nat} (hline : line < 4) (held : Bool) (i : Nat) :
    (setLine group line held).getLsbD i = if i = line then held else group.getLsbD i := by
  have hbit : (BitVec.twoPow 4 line).getLsbD i = decide (i = line) := by
    rw [BitVec.getLsbD_twoPow, decide_eq_true hline, Bool.true_and]
    exact decide_eq_decide.mpr eq_comm
  cases held with
  | true =>
    show (group ||| BitVec.twoPow 4 line).getLsbD i = _
    rw [BitVec.getLsbD_or, hbit]
    by_cases hi : i = line <;> simp [hi]
  | false =>
    show (group &&& ~~~BitVec.twoPow 4 line).getLsbD i = _
    rw [BitVec.getLsbD_and, BitVec.getLsbD_not, hbit]
    by_cases hi : i = line
    · simp [hi]
    · by_cases hlt : i < 4
      · simp [hi, hlt]
      · rw [BitVec.getLsbD_of_ge group i (Nat.le_of_not_lt hlt)]
        simp [hi]

/-- A button that is pressed or released changes what is said of no other button. -/
theorem isHeld_setButton (j : Joypad) (button other : Button) (held : Bool) :
    (j.setButton button held).isHeld other = if other = button then held else j.isHeld other := by
  by_cases hgroup : other.isDirection = button.isDirection
  · have hset : (j.setButton button held).isHeld other =
        (setLine (if button.isDirection then j.directions else j.actions) button.line
          held).getLsbD other.line := by
      unfold setButton isHeld
      rw [hgroup]
      cases button.isDirection <;> rfl
    rw [hset, getLsbD_setLine _ button.line_lt, isHeld, hgroup]
    exact if_congr ⟨Button.eq_of_line_eq hgroup, congrArg Button.line⟩ rfl rfl
  · have hother : other ≠ button := fun h ↦ hgroup (congrArg Button.isDirection h)
    rw [if_neg hother]
    unfold setButton isHeld
    -- The other group is not written to.
    cases hbutton : button.isDirection <;> cases hother : other.isDirection <;> simp_all

/-- The group of the button is selected. -/
def selects (j : Joypad) (button : Button) : Bool :=
  if button.isDirection then j.directionsSelected else j.actionsSelected

/-- **A line is low** if a button on it is held whose group is selected. -/
theorem getLsbD_lines_eq_false_iff (j : Joypad) {i : Nat} (hi : i < 4) :
    j.lines.getLsbD i = false ↔
      ∃ button : Button, button.line = i ∧ j.isHeld button = true ∧ j.selects button = true := by
  have hgroups : j.lines.getLsbD i = false ↔
      (j.directionsSelected = true ∧ j.directions.getLsbD i = true) ∨
        (j.actionsSelected = true ∧ j.actions.getLsbD i = true) := by
    rw [lines, BitVec.getLsbD_not, BitVec.getLsbD_or]
    rw [decide_eq_true hi, Bool.true_and, Bool.not_eq_false', Bool.or_eq_true]
    refine or_congr ?_ ?_
    · cases j.directionsSelected <;> simp
    · cases j.actionsSelected <;> simp
  rw [hgroups]
  constructor
  · rintro (⟨hselected, hheld⟩ | ⟨hselected, hheld⟩)
    · obtain ⟨button, hgroup, rfl⟩ := Button.exists_line hi true
      refine ⟨button, rfl, ?_, ?_⟩
      · rw [isHeld, hgroup]
        exact hheld
      · rw [selects, hgroup]
        exact hselected
    · obtain ⟨button, hgroup, rfl⟩ := Button.exists_line hi false
      refine ⟨button, rfl, ?_, ?_⟩
      · rw [isHeld, hgroup]
        exact hheld
      · rw [selects, hgroup]
        exact hselected
  · rintro ⟨button, rfl, hheld, hselected⟩
    unfold isHeld selects at *
    cases hgroup : button.isDirection with
    | true =>
      rw [hgroup] at hheld hselected
      exact .inl ⟨hselected, hheld⟩
    | false =>
      rw [hgroup] at hheld hselected
      exact .inr ⟨hselected, hheld⟩

/-- The interrupt is requested when a line has fallen. -/
theorem requests_iff (j : Joypad) :
    Requests .joypad j ↔
      ∃ i < 4, j.lines.getLsbD i = false ∧ ¬ j.sampled.getLsbD i = false := by
  have hfallen : Requests .joypad j ↔ j.fallen ≠ 0 := by
    show .joypad ∈ (if j.fallen = 0 then (∅ : InterruptSet) else _) ↔ _
    split
    · next hnone => exact iff_of_false InterruptSet.not_mem_empty fun h ↦ h hnone
    · next hsome => exact iff_of_true (InterruptSet.mem_insert.mpr (.inr rfl)) hsome
  have hbit (i : Nat) (hi : i < 4) : j.fallen.getLsbD i = true ↔
      j.lines.getLsbD i = false ∧ ¬ j.sampled.getLsbD i = false := by
    rw [fallen, BitVec.getLsbD_and, BitVec.getLsbD_not, decide_eq_true hi, Bool.true_and,
      Bool.and_eq_true, Bool.not_eq_true', Bool.not_eq_false, and_comm]
  rw [hfallen]
  constructor
  · intro hne
    by_contra hnone
    refine hne (BitVec.eq_of_getLsbD_eq fun i hi ↦ ?_)
    have hzero : (0 : BitVec 4).getLsbD i = false := BitVec.getLsbD_zero
    rw [hzero, ← Bool.not_eq_true, hbit i hi]
    exact fun h ↦ hnone ⟨i, hi, h⟩
  · rintro ⟨i, hi, hlow⟩ hnone
    rw [← hbit i hi, hnone] at hlow
    exact Bool.false_ne_true (BitVec.getLsbD_zero.symm.trans hlow)

/-! ### Uses -/

/-- Something that is done with a joypad. -/
inductive Use where
  /-- It advances. -/
  | advance
  /-- A button is pressed or released. -/
  | setButton (button : Button) (held : Bool)
  /-- The joypad register is written. -/
  | setControl (v : UInt8)
  /-- A reset. -/
  | reset
deriving DecidableEq

/-- The joypad after a use. -/
def use (j : Joypad) : Use → Joypad
  | .advance => (Peripheral.advance j ∅).1
  | .setButton button held => j.setButton button held
  | .setControl v => j.setControl v
  | .reset => j.reset

/-- The joypad after some uses, one after the other. -/
def after (j : Joypad) (uses : List Use) : Joypad := uses.foldl use j

theorem after_append (j : Joypad) (uses later : List Use) :
    j.after (uses ++ later) = (j.after uses).after later :=
  List.foldl_append

section Use

variable (j : Joypad) (u : Use)

/-- A button is held if it has just been pressed, or was held and has been left alone. -/
theorem isHeld_use (button : Button) :
    (j.use u).isHeld button = true ↔
      u = .setButton button true ∨
        (∀ held, u ≠ .setButton button held) ∧ j.isHeld button = true := by
  have hkept (hu : ∀ held, u ≠ .setButton button held)
      (hheld : (j.use u).isHeld button = j.isHeld button) :
      (j.use u).isHeld button = true ↔
        u = .setButton button true ∨
          (∀ held, u ≠ .setButton button held) ∧ j.isHeld button = true := by
    rw [hheld, or_iff_right (hu true), and_iff_right hu]
  cases u with
  | setButton other held =>
    have hset := j.isHeld_setButton other button held
    by_cases h : button = other
    · subst h
      rw [if_pos rfl] at hset
      refine (iff_of_eq (congrArg (· = true) hset)).trans ⟨fun hheld ↦ .inl (hheld ▸ rfl), ?_⟩
      rintro (hpressed | ⟨hleft, -⟩)
      · exact (Use.setButton.inj hpressed).2
      · exact absurd rfl (hleft held)
    · rw [if_neg h] at hset
      exact hkept (fun _ heq ↦ h (Use.setButton.inj heq).1.symm) hset
  | _ => exact hkept nofun rfl

theorem selects_setButton (button other : Button) (held : Bool) :
    (j.setButton button held).selects other = j.selects other := by
  unfold setButton
  split <;> rfl

theorem selects_setControl (button : Button) (v : UInt8) :
    (j.setControl v).selects button = button.selectedBy v := by
  unfold selects Button.selectedBy
  cases button.isDirection <;> rfl

theorem sampled_setButton (button : Button) (held : Bool) :
    (j.setButton button held).sampled = j.sampled := by
  unfold setButton
  split <;> rfl

/-- The byte that selects the groups after a use, if `v` did before. -/
def Use.selection (v : UInt8) : Use → UInt8
  | .setControl byte => byte
  | .reset => 0
  | _ => v

theorem selects_use {v : UInt8} (h : ∀ button, j.selects button = button.selectedBy v)
    (button : Button) : (j.use u).selects button = button.selectedBy (u.selection v) := by
  cases u with
  | advance => exact h button
  | setButton other held => exact (j.selects_setButton other button held).trans (h button)
  | setControl byte => exact j.selects_setControl button byte
  | reset =>
    show selects j.reset button = button.selectedBy 0
    cases button <;> rfl

/-- **The lines are sampled by an advance and by a reset.** -/
theorem sampled_use :
    (j.use u).sampled = if u = .advance ∨ u = .reset then (j.use u).lines else j.sampled := by
  cases u with
  | advance | reset | setControl v => rfl
  | setButton button held => exact j.sampled_setButton button held

end Use

/-! ### Histories of a joypad -/

/-- The button is held: the last thing done with it was to press it. -/
def Held (button : Button) : List Use → Prop :=
  Since (fun _ u ↦ u = .setButton button true) fun u ↦ ∀ held, u ≠ .setButton button held

/-- The byte that selects the groups: the one last written to the register, since power-on or the
latest reset, which select both groups. -/
def selection (uses : List Use) : UInt8 := uses.foldl Use.selection 0

/-- The line is low: a button on it is held whose group is selected. -/
def Low (i : Nat) (uses : List Use) : Prop :=
  ∃ button : Button, button.line = i ∧ Held button uses ∧ button.selectedBy (selection uses) = true

/-- The line was low at the previous sample, which was taken by the latest advance or reset. At
power-on no line is low. -/
def SampledLow (i : Nat) : List Use → Prop :=
  Since (fun before u ↦ (u = .advance ∨ u = .reset) ∧ Low i (before ++ [u]))
    fun u ↦ ¬ (u = .advance ∨ u = .reset)

section History

variable (uses : List Use)

theorem after_append_singleton (u : Use) :
    after {} (uses ++ [u]) = (after {} uses).use u :=
  after_append {} uses [u]

theorem isHeld_after (button : Button) :
    (after {} uses).isHeld button = true ↔ Held button uses := by
  induction uses using List.reverseRecOn with
  | nil =>
    refine iff_of_false ?_ not_since_nil
    cases button <;> decide
  | append_singleton uses u ih =>
    rw [after_append_singleton, isHeld_use, ih, Held, since_append_singleton]

theorem selects_after (button : Button) :
    (after {} uses).selects button = button.selectedBy (selection uses) := by
  induction uses using List.reverseRecOn generalizing button with
  | nil => cases button <;> rfl
  | append_singleton uses u ih =>
    rw [after_append_singleton, selection, List.foldl_append]
    exact selects_use _ u ih button

theorem lines_after {i : Nat} (hi : i < 4) :
    (after {} uses).lines.getLsbD i = false ↔ Low i uses := by
  rw [getLsbD_lines_eq_false_iff _ hi]
  refine exists_congr fun button ↦ and_congr_right fun _ ↦ ?_
  rw [isHeld_after, selects_after]

theorem sampled_after {i : Nat} (hi : i < 4) :
    (after {} uses).sampled.getLsbD i = false ↔ SampledLow i uses := by
  induction uses using List.reverseRecOn with
  | nil =>
    refine iff_of_false ?_ not_since_nil
    revert i
    decide
  | append_singleton uses u ih =>
    rw [after_append_singleton, sampled_use, SampledLow, since_append_singleton]
    split
    · next hsamples =>
      rw [← after_append_singleton, lines_after _ hi, and_iff_right hsamples,
        or_iff_left fun h ↦ h.1 hsamples]
    · next hkeeps =>
      rw [or_iff_right fun h ↦ hkeeps h.1, and_iff_right hkeeps]
      exact ih

end History

/-! ### A press that is undone -/

/-- A joypad is known by its buttons, the groups that are selected, and what it remembers. -/
theorem eq_of_isHeld_eq {s t : Joypad} (hclock : s.clock = t.clock)
    (hsampled : s.sampled = t.sampled) (hheld : ∀ button, s.isHeld button = t.isHeld button)
    (hselects : ∀ button, s.selects button = t.selects button) : s = t := by
  have hgroup (direction : Bool) : (if direction then s.directions else s.actions) =
      if direction then t.directions else t.actions := by
    refine BitVec.eq_of_getLsbD_eq fun i hi ↦ ?_
    obtain ⟨button, rfl, rfl⟩ := Button.exists_line hi direction
    exact hheld button
  have hdirections : s.directions = t.directions := hgroup true
  have hactions : s.actions = t.actions := hgroup false
  have hselected : s.directionsSelected = t.directionsSelected := hselects .right
  have hselected' : s.actionsSelected = t.actionsSelected := hselects .a
  cases s
  cases t
  simp_all only

theorem lines_eq_of_isHeld_eq {s t : Joypad}
    (hheld : ∀ button, s.isHeld button = t.isHeld button)
    (hselects : ∀ button, s.selects button = t.selects button) : s.lines = t.lines := by
  refine BitVec.eq_of_getLsbD_eq fun i hi ↦ ?_
  rw [← Bool.not_inj_iff, Bool.eq_iff_iff, Bool.not_eq_true', Bool.not_eq_true',
    getLsbD_lines_eq_false_iff _ hi, getLsbD_lines_eq_false_iff _ hi]
  simp only [hheld, hselects]

/-- More buttons may be held on `s` than on `t`, and then no line is higher. -/
theorem lines_of_isHeld {s t : Joypad}
    (hheld : ∀ button, t.isHeld button = true → s.isHeld button = true)
    (hselects : ∀ button, s.selects button = t.selects button) {i : Nat} (hi : i < 4)
    (hlow : t.lines.getLsbD i = false) : s.lines.getLsbD i = false := by
  obtain ⟨button, hline, hpressed, hselected⟩ := (t.getLsbD_lines_eq_false_iff hi).mp hlow
  exact (s.getLsbD_lines_eq_false_iff hi).mpr
    ⟨button, hline, hheld button hpressed, (hselects button).trans hselected⟩

/-- One joypad hides what another one would show: they differ at most in a button, which is held on
`s` if it is held on `t`, and in the lines that have been sampled, which are low on `s` if they are
low on `t`. -/
structure Hides (button : Button) (s t : Joypad) : Prop where
  /-- They have lived through the same ticks. -/
  clock_eq : s.clock = t.clock
  /-- The same groups are selected. -/
  selects_eq : ∀ other, s.selects other = t.selects other
  /-- The other buttons are held on both or on none. -/
  isHeld_eq : ∀ other, other ≠ button → s.isHeld other = t.isHeld other
  /-- What is held on the second one is held on the first one. -/
  isHeld_of : ∀ other, t.isHeld other = true → s.isHeld other = true
  /-- A line that was low on the second one was low on the first one. -/
  sampled_of : ∀ i < 4, t.sampled.getLsbD i = false → s.sampled.getLsbD i = false

section Hides

variable {button : Button} {s t : Joypad}

/-- A button is pressed on one of two joypads that are the same. -/
theorem hides_press (button : Button) (j : Joypad) : Hides button (j.setButton button true) j where
  clock_eq := j.clock_setButton button true
  selects_eq other := j.selects_setButton button other true
  isHeld_eq other hother := by rw [isHeld_setButton, if_neg hother]
  isHeld_of other hheld := by
    rw [isHeld_setButton, hheld]
    exact ite_self true
  sampled_of i _ hlow := by
    rw [sampled_setButton]
    exact hlow

/-- **Whatever is done with both joypads**, the first one goes on hiding the second one. -/
theorem Hides.use (h : Hides button s t) (u : Use) : Hides button (s.use u) (t.use u) := by
  have hclock : (s.use u).clock = (t.use u).clock := by
    cases u with
    | advance => exact congrArg (· + stride) h.clock_eq
    | setButton other held =>
      exact (s.clock_setButton other held).trans
        (h.clock_eq.trans (t.clock_setButton other held).symm)
    | setControl v => exact h.clock_eq
    | reset => rfl
  have hselects (other : Button) : (s.use u).selects other = (t.use u).selects other := by
    cases u with
    | advance => exact h.selects_eq other
    | setButton pressed held =>
      exact (s.selects_setButton pressed other held).trans
        ((h.selects_eq other).trans (t.selects_setButton pressed other held).symm)
    | setControl v => rfl
    | reset => rfl
  have hheld (other : Button) (hother : (t.use u).isHeld other = true) :
      (s.use u).isHeld other = true := by
    rw [isHeld_use] at hother ⊢
    exact hother.imp_right fun hleft ↦ ⟨hleft.1, h.isHeld_of other hleft.2⟩
  refine ⟨hclock, hselects, fun other hother ↦ ?_, hheld, fun i hi hlow ↦ ?_⟩
  · rw [Bool.eq_iff_iff, isHeld_use, isHeld_use, h.isHeld_eq other hother]
  · rw [sampled_use] at hlow ⊢
    split
    · next hsamples =>
      rw [if_pos hsamples] at hlow
      exact lines_of_isHeld hheld hselects hi hlow
    · next hkeeps =>
      rw [if_neg hkeeps] at hlow
      exact h.sampled_of i hi hlow

theorem Hides.after (h : Hides button s t) (uses : List Use) :
    Hides button (s.after uses) (t.after uses) := by
  induction uses generalizing s t with
  | nil => exact h
  | cons u uses ih => exact ih (h.use u)

/-- Once the button has been released the same buttons are held on both. -/
theorem Hides.isHeld_release (h : Hides button s t) (other : Button) :
    (s.setButton button false).isHeld other = (t.setButton button false).isHeld other := by
  rw [isHeld_setButton, isHeld_setButton]
  split
  · rfl
  · next hother => exact h.isHeld_eq other hother

theorem isHeld_after_eq (hheld : ∀ other, s.isHeld other = t.isHeld other) (uses : List Use)
    (other : Button) : (s.after uses).isHeld other = (t.after uses).isHeld other := by
  induction uses generalizing s t with
  | nil => exact hheld other
  | cons u uses ih =>
    refine ih (s := s.use u) (t := t.use u) fun other ↦ ?_
    rw [Bool.eq_iff_iff, isHeld_use, isHeld_use, hheld]

/-- Of two joypads on which the same buttons are held the one that hides the other requests nothing
that the other one does not. -/
theorem Hides.requests (h : Hides button s t)
    (hheld : ∀ other, s.isHeld other = t.isHeld other) (hrequests : Requests .joypad s) :
    Requests .joypad t := by
  obtain ⟨i, hi, hlow, hhigh⟩ := s.requests_iff.mp hrequests
  refine t.requests_iff.mpr ⟨i, hi, ?_, fun hsampled ↦ hhigh (h.sampled_of i hi hsampled)⟩
  exact lines_of_isHeld (fun other hother ↦ (hheld other).symm.trans hother)
    (fun other ↦ (h.selects_eq other).symm) hi hlow

end Hides

theorem sampled_after_of_not_mem {uses : List Use}
    (h : ∀ u ∈ uses, ¬ (u = .advance ∨ u = .reset)) (j : Joypad) :
    (j.after uses).sampled = j.sampled := by
  induction uses generalizing j with
  | nil => rfl
  | cons u uses ih =>
    obtain ⟨hu, huses⟩ := List.forall_mem_cons.mp h
    refine (ih huses (j.use u)).trans ?_
    rw [sampled_use, if_neg hu]

/-- Once the same buttons are held on both, an advance leaves nothing to hide. -/
theorem Hides.after_eq (h : Hides button s t) (hheld : ∀ other, s.isHeld other = t.isHeld other)
    {uses : List Use} (hadvance : .advance ∈ uses) : s.after uses = t.after uses := by
  obtain ⟨first, later, rfl⟩ := List.append_of_mem hadvance
  have hfirst := h.after first
  have hheldFirst := isHeld_after_eq hheld first
  have hlines : (s.after first).lines = (t.after first).lines :=
    lines_eq_of_isHeld_eq hheldFirst hfirst.selects_eq
  have hboth : (s.after first).use .advance = (t.after first).use .advance :=
    eq_of_isHeld_eq (hfirst.use .advance).clock_eq hlines hheldFirst hfirst.selects_eq
  rw [after_append, after_append]
  show ((s.after first).use .advance).after later = ((t.after first).use .advance).after later
  rw [hboth]

/-- **A press that is undone before the next advance is never seen.** Without the press all would
be the same from the release on, or, if there was a reset in between, from the next advance on; and
nothing is requested that would not be requested without the press. -/
theorem undone_press (j : Joypad) (button : Button) {between : List Use}
    (hadvance : .advance ∉ between) (later : List Use) :
    let seen := j.after (.setButton button true :: between ++ [.setButton button false] ++ later)
    let unseen := j.after (between ++ [.setButton button false] ++ later)
    (.reset ∉ between ∨ .advance ∈ later → seen = unseen) ∧
      (Requests .joypad seen → Requests .joypad unseen) := by
  intro seen unseen
  set s := (j.setButton button true).after between with hs
  set t := j.after between with ht
  have hbetween : Hides button s t := (hides_press button j).after between
  have hhides : Hides button (s.setButton button false) (t.setButton button false) :=
    hbetween.use (.setButton button false)
  have hheld := hbetween.isHeld_release
  have hseen : seen = (s.setButton button false).after later := by
    rw [hs]
    exact (after_append _ _ later).trans (congrArg (after · later) (after_append _ _ _))
  have hunseen : unseen = (t.setButton button false).after later := by
    rw [ht]
    exact (after_append _ _ later).trans (congrArg (after · later) (after_append _ _ _))
  rw [hseen, hunseen]
  refine ⟨?_, (hhides.after later).requests (isHeld_after_eq hheld later)⟩
  rintro (hreset | hlater)
  · have hkeeps : ∀ u ∈ between, ¬ (u = .advance ∨ u = .reset) := by
      rintro u hu (rfl | rfl)
      · exact hadvance hu
      · exact hreset hu
    have hsampled : s.sampled = t.sampled := by
      rw [hs, sampled_after_of_not_mem hkeeps, sampled_setButton]
      exact (sampled_after_of_not_mem hkeeps j).symm
    refine congrArg (after · later) (eq_of_isHeld_eq hhides.clock_eq ?_ hheld hhides.selects_eq)
    rw [sampled_setButton, sampled_setButton, hsampled]
  · exact hhides.after_eq hheld hlater

/-- To release a button that is not held changes nothing. -/
theorem setButton_of_isHeld_eq_false {j : Joypad} {button : Button}
    (h : j.isHeld button = false) : j.setButton button false = j := by
  refine eq_of_isHeld_eq (j.clock_setButton button false) (j.sampled_setButton button false)
    (fun other ↦ ?_) fun other ↦ j.selects_setButton button other false
  rw [isHeld_setButton]
  split
  · next hsame => rw [hsame, h]
  · rfl

/-! ### The laws -/

/-- The register shows the groups that are selected and, below them, the lines. -/
theorem control_after (uses : List Use) : ∃ lines : UInt8, lines < 16 ∧
    (∀ i < 4, lines.toNat.testBit i = false ↔ Low i uses) ∧
    (after {} uses).control = 0xC0 ||| (selection uses &&& 0x30) ||| lines := by
  set j := after {} uses with hj
  have hbound : j.lines.toNat < 16 := j.lines.isLt
  have htoNat : (UInt8.ofNat j.lines.toNat).toNat = j.lines.toNat :=
    UInt8.toNat_ofNat_of_lt' (Nat.lt_trans hbound (by decide))
  refine ⟨UInt8.ofNat j.lines.toNat, ?_, fun i hi ↦ ?_, ?_⟩
  · rw [UInt8.lt_iff_toNat_lt, htoNat]
    exact hbound
  · rw [htoNat, BitVec.testBit_toNat]
    exact lines_after uses hi
  · -- The byte that was written last might as well be written once more.
    have hagain : j.setControl (selection uses) = j := by
      have hselects (button : Button) : button.selectedBy (selection uses) = j.selects button :=
        (selects_after uses button).symm
      have hdirections : (!(selection uses).toNat.testBit 4) = j.directionsSelected :=
        hselects .right
      have hactions : (!(selection uses).toNat.testBit 5) = j.actionsSelected := hselects .a
      rw [setControl, hdirections, hactions]
    have hcontrol := j.control_setControl (selection uses)
    rw [← ofNat_lines_setControl, hagain] at hcontrol
    exact hcontrol

/-- Lines that have just been sampled request nothing, however often they are sampled again. -/
theorem not_requests_of_fallen_eq_zero {j : Joypad} (h : j.fallen = 0) (n : Nat) :
    ¬ Requests .joypad (advanced n j).1 := by
  have hkept : (advanced n j).1.fallen = 0 :=
    advanced_induction (motive := fun j _ ↦ fallen j = 0)
      (fun j requests _ ↦ fallen_advance j requests) h n
  have hnone : (advanced 1 (advanced n j).1).2 = ∅ := advanced_of_fallen_eq_zero hkept 1
  show .joypad ∉ (advanced 1 (advanced n j).1).2
  rw [hnone]
  exact InterruptSet.not_mem_empty

theorem fallen_reset (j : Joypad) : j.reset.fallen = 0 :=
  BitVec.and_not_self j.reset.lines

/-- **The joypad and its past.** Whatever was done with the joypad since power-on,

* a button is held if the last thing done with it was to press it;
* the register reads as its two fixed bits, the selection and the four lines, and a line is low if
  a button on it is held whose group is selected;
* the next advance requests the interrupt if a line is low that was not low at the previous sample;
* after an advance or a reset, further advances request nothing;
* a press that is undone before the next advance is not seen: without it all would be the same from
  the release on, or, if there was a reset in between, from the next advance on, and nothing is
  requested that would not be requested without it. If the button was not held before, the release
  might as well be left out too. -/
theorem joypad_laws (uses : List Use) :
    (∀ button, (after {} uses).isHeld button = true ↔ Held button uses) ∧
    (∃ lines : UInt8, lines < 16 ∧
      (∀ i < 4, lines.toNat.testBit i = false ↔ Low i uses) ∧
      ∀ bus : Bus, bus.joypad = after {} uses →
        bus.read 0xFF00 = 0xC0 ||| (selection uses &&& 0x30) ||| lines) ∧
    (Requests .joypad (after {} uses) ↔ ∃ i < 4, Low i uses ∧ ¬ SampledLow i uses) ∧
    (∀ n, ¬ Requests .joypad (advanced n (after {} (uses ++ [.advance]))).1 ∧
      ¬ Requests .joypad (advanced n (after {} (uses ++ [.reset]))).1) ∧
    ∀ (button : Button) (between : List Use), .advance ∉ between →
      (∀ later : List Use,
        let seen := after {} (uses ++
          (.setButton button true :: between ++ [.setButton button false] ++ later))
        let unseen := after {} (uses ++ (between ++ [.setButton button false] ++ later))
        (.reset ∉ between ∨ .advance ∈ later → seen = unseen) ∧
          (Requests .joypad seen → Requests .joypad unseen)) ∧
      (¬ Held button (uses ++ between) →
        after {} (uses ++ between ++ [.setButton button false]) = after {} (uses ++ between)) := by
  refine ⟨isHeld_after uses, ?_, ?_, fun n ↦ ⟨?_, ?_⟩, fun button between hadvance ↦ ⟨?_, ?_⟩⟩
  · obtain ⟨lines, hbound, hlines, hcontrol⟩ := control_after uses
    refine ⟨lines, hbound, hlines, fun bus hbus ↦ ?_⟩
    rw [← hcontrol, ← hbus]
    exact bus.read_address .joypad
  · rw [requests_iff]
    refine exists_congr fun i ↦ and_congr_right fun hi ↦ ?_
    rw [lines_after uses hi, sampled_after uses hi]
  · rw [after_append_singleton]
    exact not_requests_of_fallen_eq_zero (fallen_advance _ ∅) n
  · rw [after_append_singleton]
    exact not_requests_of_fallen_eq_zero (fallen_reset _) n
  · intro later
    rw [after_append {} uses, after_append {} uses]
    exact undone_press _ button hadvance later
  · intro hreleased
    rw [after_append_singleton]
    exact setButton_of_isHeld_eq_false
      (Bool.not_eq_true _ ▸ (isHeld_after _ button).not.mpr hreleased)

/-- A button is tapped between two advances while another one is let go. -/
theorem joypad_laws_of_tap :
    let uses : List Use := [.setButton .start true, .setControl 0x10, .advance]
    let between : List Use := [.setButton .start false]
    Held .start uses ∧ .advance ∉ between ∧ .reset ∉ between ∧
      after {} (uses ++ (.setButton .a true :: between ++ [.setButton .a false])) =
        after {} (uses ++ (between ++ [.setButton .a false])) := by
  intro uses between
  have hadvance : .advance ∉ between := by decide
  have hreset : .reset ∉ between := by decide
  obtain ⟨hheld, -, -, -, hundone⟩ := joypad_laws uses
  exact ⟨(hheld .start).mp (by decide), hadvance, hreset,
    ((hundone .a between hadvance).1 []).1 (.inl hreset)⟩

end Joypad

end GameBoy
