import GameBoy.Text.Numeral

/-!
# Numerals that are accepted

`readBounded` reads a numeral from left to right and compares the number with the bound after each
digit, so that it can report the first thing that is wrong. Whether anything is wrong can be told
without an order (`readBounded_eq_ok_iff`), because a number only grows with its digits: what is
accepted is some digits, perhaps with a plus sign before them, whose number is within the bound.

Which of several things that are wrong is reported does depend on the order. Digits that run beyond
the bound (`RunsBeyond`) are reported even if something else stands behind them, and otherwise it is
a character that is no digit, unless there is no character at all (`readBounded_eq_error`).
-/

namespace GameBoy.Text

/-- Characters without the plus sign that may come first. -/
def unsigned : List Char → List Char
  | '+' :: digits => digits
  | digits => digits

theorem unsigned_of_ne {chars : List Char} (h : ∀ digits, chars ≠ '+' :: digits) :
    unsigned chars = chars := by
  unfold unsigned
  split
  · next digits => exact absurd rfl (h digits)
  · rfl

/-- **A decimal numeral**: a digit at least, and nothing but digits, once the sign is put aside. -/
def IsNumeral (s : String) (n : Nat) : Prop :=
  let digits := unsigned s.toList
  digits ≠ [] ∧ (∀ c ∈ digits, c.isDigit) ∧ Nat.ofDigitChars 10 digits 0 = n

variable {bound acc n : Nat} {digits : List Char}

/-- A number only grows with its digits. -/
theorem le_ofDigitChars : acc ≤ Nat.ofDigitChars 10 digits acc := by
  induction digits generalizing acc with
  | nil => exact Nat.le_refl acc
  | cons c rest ih =>
    rw [Nat.ofDigitChars_cons]
    have hrest := @ih (10 * acc + (c.toNat - '0'.toNat))
    omega

/-- **Digits are accepted** when there is nothing else among them and their number is within the
bound. -/
theorem readDigits_eq_ok_iff (hacc : acc ≤ bound) :
    readDigits bound acc digits = .ok n ↔
      (∀ c ∈ digits, c.isDigit) ∧ Nat.ofDigitChars 10 digits acc = n ∧ n ≤ bound := by
  induction digits generalizing acc with
  | nil =>
    rw [readDigits, Except.ok.injEq]
    constructor
    · rintro rfl
      exact ⟨by simp, rfl, hacc⟩
    · rintro ⟨-, rfl, -⟩
      rfl
  | cons c rest ih =>
    rw [readDigits, List.forall_mem_cons, Nat.ofDigitChars_cons]
    split
    · next hdigit =>
      dsimp only
      split
      · next hbeyond =>
        have hgrown : 10 * acc + (c.toNat - '0'.toNat) ≤ Nat.ofDigitChars 10 rest _ :=
          le_ofDigitChars
        refine iff_of_false (by simp) ?_
        rintro ⟨-, rfl, hle⟩
        omega
      · next hwithin => rw [ih (Nat.not_lt.mp hwithin), and_iff_right hdigit]
    · next hother =>
      refine iff_of_false (by simp) ?_
      rintro ⟨⟨hdigit, -⟩, -⟩
      exact hother hdigit

/-- **What is accepted as a number** up to a bound. -/
theorem readBounded_eq_ok_iff {s : String} :
    readBounded bound s = .ok n ↔ IsNumeral s n ∧ n ≤ bound := by
  have hread (digits : List Char) : readDigits bound 0 digits = .ok n ↔
      (∀ c ∈ digits, c.isDigit) ∧ Nat.ofDigitChars 10 digits 0 = n ∧ n ≤ bound :=
    readDigits_eq_ok_iff (Nat.zero_le bound)
  unfold readBounded IsNumeral
  split
  · next hempty => simp [hempty, unsigned]
  · next hsign => simp [hsign, unsigned]
  · next digits hlone hsigned =>
    have hne : digits ≠ [] := hlone
    rw [hsigned, hread]
    simp [unsigned, hne, and_assoc]
  · next hempty hsign hunsigned =>
    have hdigits : unsigned s.toList = s.toList := unsigned_of_ne hunsigned
    have hne : s.toList ≠ [] := hempty
    rw [hread, hdigits]
    simp only [ne_eq, hne, not_false_eq_true, true_and, and_assoc]

/-! ### What is wrong with the others -/

/-- **The digits that come first run beyond the bound**, whatever stands behind them. -/
def RunsBeyond (bound acc : Nat) (digits : List Char) : Prop :=
  ∃ front, front <+: digits ∧ (∀ c ∈ front, c.isDigit) ∧ bound < Nat.ofDigitChars 10 front acc

theorem not_runsBeyond_nil (hacc : acc ≤ bound) : ¬ RunsBeyond bound acc [] := by
  rintro ⟨front, hprefix, -, hbeyond⟩
  obtain rfl := List.prefix_nil.mp hprefix
  exact absurd hbeyond (Nat.not_lt.mpr hacc)

/-- Digits run beyond the bound if the first one is a digit and the others run beyond it. -/
theorem runsBeyond_cons (hacc : acc ≤ bound) {c : Char} :
    RunsBeyond bound acc (c :: digits) ↔
      c.isDigit ∧ RunsBeyond bound (10 * acc + (c.toNat - '0'.toNat)) digits := by
  constructor
  · rintro ⟨front, hprefix, hfront, hbeyond⟩
    cases front with
    | nil => exact absurd hbeyond (Nat.not_lt.mpr hacc)
    | cons d front =>
      obtain ⟨rfl, hrest⟩ := List.cons_prefix_cons.mp hprefix
      obtain ⟨hdigit, hdigits⟩ := List.forall_mem_cons.mp hfront
      rw [Nat.ofDigitChars_cons] at hbeyond
      exact ⟨hdigit, front, hrest, hdigits, hbeyond⟩
  · rintro ⟨hdigit, front, hprefix, hfront, hbeyond⟩
    refine ⟨c :: front, List.cons_prefix_cons.mpr ⟨rfl, hprefix⟩,
      List.forall_mem_cons.mpr ⟨hdigit, hfront⟩, ?_⟩
    rwa [Nat.ofDigitChars_cons]

/-- **Digits are not accepted** because they run beyond the bound, or else because there is something
else among them. -/
theorem readDigits_eq_error (hacc : acc ≤ bound) {cause : NumeralError}
    (h : readDigits bound acc digits = .error cause) :
    (RunsBeyond bound acc digits → cause = .tooLarge) ∧
      (¬ RunsBeyond bound acc digits → cause = .invalidDigit) := by
  induction digits generalizing acc with
  | nil => cases h
  | cons c rest ih =>
    rw [readDigits] at h
    rw [runsBeyond_cons hacc]
    split at h
    · next hdigit =>
      rw [and_iff_right hdigit]
      dsimp only at h
      split at h
      · next hbeyond =>
        have hfront : RunsBeyond bound (10 * acc + (c.toNat - '0'.toNat)) rest :=
          ⟨[], List.nil_prefix, by simp, hbeyond⟩
        cases h
        exact ⟨fun _ ↦ rfl, fun hnot ↦ absurd hfront hnot⟩
      · next hwithin => exact ih (Nat.not_lt.mp hwithin) h
    · next hother =>
      cases h
      exact ⟨fun hfront ↦ absurd hfront.1 hother, fun _ ↦ rfl⟩

/-- **Why a string is not accepted as a number** up to a bound. -/
theorem readBounded_eq_error {s : String} {cause : NumeralError}
    (h : readBounded bound s = .error cause) :
    (s = "" → cause = .empty) ∧
      (RunsBeyond bound 0 (unsigned s.toList) → cause = .tooLarge) ∧
      (s ≠ "" → ¬ RunsBeyond bound 0 (unsigned s.toList) → cause = .invalidDigit) := by
  have hnone : ¬ RunsBeyond bound 0 [] := not_runsBeyond_nil (Nat.zero_le bound)
  have hread (digits : List Char) (hdigits : readDigits bound 0 digits = .error cause) :=
    readDigits_eq_error (Nat.zero_le bound) hdigits
  rw [← String.toList_eq_nil_iff, ne_eq, ← String.toList_eq_nil_iff]
  unfold readBounded at h
  split at h
  · next hempty =>
    cases h
    rw [hempty]
    exact ⟨fun _ ↦ rfl, fun hbeyond ↦ absurd hbeyond hnone, fun hne ↦ absurd rfl hne⟩
  · next hsign =>
    cases h
    rw [hsign]
    exact ⟨fun hnil ↦ (nomatch hnil), fun hbeyond ↦ absurd hbeyond hnone, fun _ _ ↦ rfl⟩
  · next digits hlone hsigned =>
    rw [hsigned]
    exact ⟨fun hnil ↦ (nomatch hnil), (hread digits h).1, fun _ ↦ (hread digits h).2⟩
  · next hempty hsign hunsigned =>
    have hdigits : unsigned s.toList = s.toList := unsigned_of_ne hunsigned
    rw [hdigits]
    exact ⟨fun hnil ↦ absurd hnil hempty, (hread _ h).1, fun _ ↦ (hread _ h).2⟩

end GameBoy.Text
