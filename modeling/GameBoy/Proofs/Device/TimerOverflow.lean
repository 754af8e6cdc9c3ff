import GameBoy.Proofs.Device.Timer
import GameBoy.Proofs.History

/-!
# Overflows of the timer

What is done with a timer is an advance or a write to one of its four registers (`Timer.Use`). Two
kinds of it are special: a write to the timer register, and an advance that loads it because a load
is due. All else changes something other than the register and counts if that lets the signal fall
(`use_eq_whileCounting`); so it counts once or not at all (`count_use`).

A load is due when the register has been carried past 0xFF and nothing has been done about it since.
An advance does something about it, and so does a write to the register; what else may be written in
between, and how often it makes the timer count, is of no importance (`overflowed_use`). The history
tells, therefore, in which advance the interrupt is requested: `overflow_law`.
-/

namespace GameBoy.Timer

open Peripheral

/-! ### Counting -/

section Counting

variable {t : Timer} {change : Timer → Timer}

@[simp] theorem signal_whileCounting (t : Timer) (change : Timer → Timer) :
    (t.whileCounting change).signal = (change t).signal :=
  t.whileCounting_apply signal (fun _ ↦ rfl) change

/-- **The counter moves on when the signal falls**, and only then. -/
theorem whileCounting_eq (t : Timer) (change : Timer → Timer) :
    t.whileCounting change =
      if t.signal = true ∧ (change t).signal = false then (change t).tick else change t := by
  simp only [whileCounting, Bool.and_eq_true, Bool.not_eq_true']

/-- A change that lets the signal fall is counted. -/
theorem count_whileCounting (hcount : (change t).count = t.count) :
    (t.whileCounting change).count =
      t.count + if t.signal = true ∧ (change t).signal = false then 1 else 0 := by
  rw [whileCounting_eq]
  split
  · exact congrArg (· + 1) hcount
  · rw [hcount, UInt8.add_zero]

/-- Counting on from 0xFF makes a load due. -/
theorem overflowed_whileCounting (hcount : (change t).count = t.count)
    (hoverflowed : (change t).overflowed = t.overflowed) :
    (t.whileCounting change).overflowed = true ↔
      t.overflowed = true ∨ t.count = 0xFF ∧ t.signal = true ∧ (change t).signal = false := by
  rw [whileCounting_eq]
  split
  · next hfalls =>
    simp only [tick, hcount, hoverflowed, Bool.or_eq_true, beq_iff_eq, hfalls, and_self, and_true]
  · next hstays =>
    rw [hoverflowed, or_iff_left fun h ↦ hstays h.2]

end Counting

/-! ### Advances -/

variable (t : Timer)

/-- An advance in which a load is due. -/
theorem advance_of_overflowed (h : t.overflowed = true) (pending : InterruptSet) :
    t.advance pending =
      ({ t.bump with clock := t.clock + stride, count := t.modulo, overflowed := false },
        pending.insert .timer) := by
  simp only [advance, h, if_true]
  rfl

/-- What an advance changes if no load is due. -/
def move (t : Timer) : Timer := { t.bump with clock := t.clock + stride }

/-- A timer that has not overflowed goes on counting. -/
theorem advance_of_not_overflowed (h : t.overflowed = false) (pending : InterruptSet) :
    t.advance pending = (t.whileCounting move, pending) := by
  have hgoes : ¬ t.overflowed = true := by
    rw [h]
    exact Bool.false_ne_true
  simp only [advance]
  rw [if_neg hgoes]
  rfl

/-- **The interrupt is requested when a load is due.** -/
theorem requests_iff : Requests .timer t ↔ t.overflowed = true := by
  show .timer ∈ (t.advance ∅).2 ↔ _
  cases h : t.overflowed with
  | true =>
    rw [t.advance_of_overflowed h]
    exact iff_of_true (InterruptSet.mem_insert.mpr (.inr rfl)) rfl
  | false =>
    rw [t.advance_of_not_overflowed h]
    exact iff_of_false InterruptSet.not_mem_empty Bool.false_ne_true

/-! ### Uses -/

/-- Something that is done with a timer. -/
inductive Use where
  /-- It advances. -/
  | advance
  /-- The divider register is written. -/
  | clearDivider
  /-- The timer register is written. -/
  | setCount (v : UInt8)
  /-- The modulo register is written. -/
  | setModulo (v : UInt8)
  /-- The control register is written. -/
  | setControl (v : UInt8)
deriving DecidableEq

/-- The timer after a use. -/
def use (t : Timer) : Use → Timer
  | .advance => (Peripheral.advance t ∅).1
  | .clearDivider => t.clearDivider
  | .setCount v => t.setCount v
  | .setModulo v => t.setModulo v
  | .setControl v => t.setControl v

/-- The timer after some uses, one after the other. -/
def after (t : Timer) (uses : List Use) : Timer := uses.foldl use t

theorem after_append_singleton (uses : List Use) (u : Use) :
    t.after (uses ++ [u]) = (t.after uses).use u := by
  rw [after, List.foldl_append]
  rfl

/-- The use writes the timer register. -/
def Use.WritesCount : Use → Prop
  | .setCount _ => True
  | _ => False

/-- The use loads the timer register: it is an advance in which the interrupt is requested. -/
def Loads (t : Timer) (u : Use) : Prop := u = .advance ∧ Requests .timer t

/-- The use carries the timer register from 0xFF to zero. Writing or loading a zero is no carry,
whatever the register held before. -/
def Carries (t : Timer) (u : Use) : Prop :=
  ¬ u.WritesCount ∧ ¬ t.Loads u ∧ t.count = 0xFF ∧ (t.use u).count = 0

/-- The use does nothing about a carry: it is neither an advance nor a write to the register. -/
def Use.LeavesCarry (u : Use) : Prop := u ≠ .advance ∧ ¬ u.WritesCount

section Use

variable {t} {u : Use}

/-- **What is neither a write to the timer register nor a load** is a change of something else, on
account of which the timer counts if the signal falls. -/
theorem use_eq_whileCounting (hwrites : ¬ u.WritesCount) (hloads : ¬ t.Loads u) :
    ∃ change : Timer → Timer, t.use u = t.whileCounting change ∧
      (change t).count = t.count ∧ (change t).overflowed = t.overflowed := by
  cases u with
  | advance =>
    have hnone : t.overflowed = false := by
      rw [← Bool.not_eq_true, ← t.requests_iff]
      exact fun h ↦ hloads ⟨rfl, h⟩
    refine ⟨move, ?_, rfl, rfl⟩
    exact congrArg Prod.fst (t.advance_of_not_overflowed hnone ∅)
  | clearDivider => exact ⟨fun t ↦ { t with counter := 0 }, rfl, rfl, rfl⟩
  | setCount v => exact absurd trivial hwrites
  | setModulo v =>
    refine ⟨fun t ↦ t.setModulo v, ?_, rfl, rfl⟩
    -- The signal does not fall.
    rw [whileCounting_eq, if_neg]
    · rfl
    · rintro ⟨hhigh, hlow⟩
      exact absurd (hhigh.symm.trans hlow) (by decide)
  | setControl v =>
    exact ⟨fun t ↦
      { t with enabled := v.toNat.testBit 2, rate := ⟨v.toNat % 4, Nat.mod_lt _ (by decide)⟩ },
      rfl, rfl, rfl⟩

/-- **It counts once if the signal falls, and not otherwise.** -/
theorem count_use (hwrites : ¬ u.WritesCount) (hloads : ¬ t.Loads u) :
    (t.use u).count = t.count + if t.signal = true ∧ (t.use u).signal = false then 1 else 0 := by
  obtain ⟨change, huse, hcount, -⟩ := use_eq_whileCounting hwrites hloads
  rw [huse, signal_whileCounting]
  exact count_whileCounting hcount

theorem add_ite_eq_zero_iff {p : Prop} [Decidable p] :
    (0xFF + if p then 1 else 0 : UInt8) = 0 ↔ p := by
  by_cases hp : p
  · rw [if_pos hp]
    exact iff_of_true (by decide) hp
  · rw [if_neg hp]
    exact iff_of_false (by decide) hp

theorem carries_iff (hwrites : ¬ u.WritesCount) (hloads : ¬ t.Loads u) :
    t.Carries u ↔ t.count = 0xFF ∧ t.signal = true ∧ (t.use u).signal = false := by
  constructor
  · rintro ⟨-, -, hlast, hzero⟩
    rw [count_use hwrites hloads, hlast, add_ite_eq_zero_iff] at hzero
    exact ⟨hlast, hzero⟩
  · rintro ⟨hlast, hfalls⟩
    refine ⟨hwrites, hloads, hlast, ?_⟩
    rw [count_use hwrites hloads, hlast, add_ite_eq_zero_iff]
    exact hfalls

/-- **A load is due after a use** if the use carries, or leaves a load that has been due already. -/
theorem overflowed_use :
    (t.use u).overflowed = true ↔ t.Carries u ∨ u.LeavesCarry ∧ t.overflowed = true := by
  by_cases hwrites : u.WritesCount
  · have hnone : (t.use u).overflowed = false := by
      cases u with
      | setCount v => rfl
      | _ => exact hwrites.elim
    rw [hnone]
    refine iff_of_false Bool.false_ne_true ?_
    rintro (hcarries | ⟨hleaves, -⟩)
    · exact hcarries.1 hwrites
    · exact hleaves.2 hwrites
  by_cases hloads : t.Loads u
  · have hnone : (t.use u).overflowed = false := by
      obtain ⟨rfl, hrequests⟩ := hloads
      show (t.advance ∅).1.overflowed = false
      rw [t.advance_of_overflowed (t.requests_iff.mp hrequests)]
    rw [hnone]
    refine iff_of_false Bool.false_ne_true ?_
    rintro (hcarries | ⟨hleaves, -⟩)
    · exact hcarries.2.1 hloads
    · exact hleaves.1 hloads.1
  · have hleaves : t.overflowed = true ↔ u.LeavesCarry ∧ t.overflowed = true := by
      refine ⟨fun h ↦ ⟨⟨fun hadvance ↦ ?_, hwrites⟩, h⟩, And.right⟩
      exact hloads ⟨hadvance, t.requests_iff.mpr h⟩
    obtain ⟨change, huse, hcount, hoverflowed⟩ := use_eq_whileCounting hwrites hloads
    rw [carries_iff hwrites hloads, ← hleaves, huse, signal_whileCounting, or_comm]
    exact overflowed_whileCounting hcount hoverflowed

end Use

/-! ### Histories of a timer -/

/-- **A load is due if there has been a carry and nothing has been done about it.** -/
theorem overflowed_after (hnone : t.overflowed = false) (uses : List Use) :
    (t.after uses).overflowed = true ↔
      Since (fun before u ↦ (t.after before).Carries u) Use.LeavesCarry uses := by
  induction uses using List.reverseRecOn with
  | nil =>
    refine iff_of_false ?_ not_since_nil
    rw [Bool.not_eq_true]
    exact hnone
  | append_singleton uses u ih =>
    rw [after_append_singleton, since_append_singleton, overflowed_use, ih]

/-- **The law of overflows.** Take a timer for which no load is due, as at power-on, and whatever
has been done with it since. The next advance requests the interrupt if and only if the timer
register has been carried from 0xFF to zero, by an advance or by a write to the divider or control
register, and since then there was neither an advance nor a write to the timer register. Such an
advance loads the register with what the modulo register holds by then.

Anything else that is done next, but for a write to the timer register, leaves the timer register or
adds one to it, and it adds one if and only if it lets the signal fall. -/
theorem overflow_law (hnone : t.overflowed = false) (uses : List Use) :
    let s := t.after uses
    (Requests .timer s ↔
      Since (fun before u ↦ (t.after before).Carries u)
        (fun u ↦ u ≠ .advance ∧ ¬ u.WritesCount) uses) ∧
    (Requests .timer s → (s.use .advance).count = s.modulo) ∧
    ∀ u : Use, ¬ u.WritesCount → ¬ (u = .advance ∧ Requests .timer s) →
      ((s.use u).count = s.count ∨ (s.use u).count = s.count + 1) ∧
      ((s.use u).count = s.count + 1 ↔ s.signal = true ∧ (s.use u).signal = false) := by
  intro s
  refine ⟨?_, fun hrequests ↦ ?_, fun u hwrites hloads ↦ ?_⟩
  · rw [requests_iff]
    exact t.overflowed_after hnone uses
  · show (s.advance ∅).1.count = s.modulo
    rw [s.advance_of_overflowed (s.requests_iff.mp hrequests)]
  · have hcount := count_use hwrites hloads
    have hmore : s.count + 1 ≠ s.count := by
      rw [Ne, UInt8.add_eq_left]
      decide
    by_cases hfalls : s.signal = true ∧ (s.use u).signal = false
    · rw [if_pos hfalls] at hcount
      exact ⟨.inr hcount, iff_of_true hcount hfalls⟩
    · rw [if_neg hfalls, UInt8.add_zero] at hcount
      refine ⟨.inl hcount, iff_of_false ?_ hfalls⟩
      rw [hcount]
      exact hmore.symm

/-- A timer whose register is full, and whose signal is high. -/
def full : Timer where
  counter := 2
  count := 0xFF
  modulo := 0x42
  enabled := true
  rate := ⟨1, by decide⟩

/-- Clearing its divider carries, and the load that is due then takes what is written to the modulo
register meanwhile. -/
theorem overflow_law_of_full :
    full.overflowed = false ∧ (full.use .clearDivider).count = full.count + 1 ∧
      Requests .timer (full.after [.clearDivider, .setModulo 7]) ∧
      ((full.after [.clearDivider, .setModulo 7]).use .advance).count = 7 := by
  obtain ⟨-, -, hcounts⟩ := overflow_law full rfl []
  obtain ⟨hrequests, hloads, -⟩ := overflow_law full rfl [.clearDivider, .setModulo 7]
  have hloads' : ¬ full.Loads .clearDivider := fun h ↦ nomatch h.1
  have hcarries : full.Carries .clearDivider := ⟨id, hloads', rfl, rfl⟩
  obtain ⟨-, hfalls⟩ := hcounts .clearDivider id hloads'
  have hleft : ∀ u ∈ [Use.setModulo 7], u ≠ .advance ∧ ¬ u.WritesCount := by
    intro u hu
    rw [List.mem_singleton.mp hu]
    exact ⟨nofun, id⟩
  have hdue := hrequests.mpr ⟨[], .clearDivider, [.setModulo 7], rfl, hcarries, hleft⟩
  exact ⟨rfl, hfalls.mpr ⟨rfl, rfl⟩, hdue, hloads hdue⟩

end GameBoy.Timer
