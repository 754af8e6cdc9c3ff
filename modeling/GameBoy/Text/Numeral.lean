/-!
# Decimal numerals

Reading and writing of decimal numbers. `readBounded` reads a numeral left to right and stops at the
first thing that is wrong with it; at one and the same character, not being a digit is reported
before being too much. `fixed` writes a quotient with a given number of decimal places, a half going
to the even neighbour.
-/

namespace GameBoy.Text

/-! ### Reading -/

/-- Why a numeral was not accepted. -/
inductive NumeralError where
  /-- There is nothing to read. -/
  | empty
  /-- There is a character other than a digit, or no digit after a sign. -/
  | invalidDigit
  /-- The number is beyond the bound. -/
  | tooLarge
deriving DecidableEq, Repr

/-- The report of a numeral that was not accepted. -/
def NumeralError.message : NumeralError → String
  | empty => "cannot parse integer from empty string"
  | invalidDigit => "invalid digit found in string"
  | tooLarge => "number too large to fit in target type"

/-- The number that digits `acc` followed by the given characters stand for. -/
def readDigits (bound : Nat) : (acc : Nat) → List Char → Except NumeralError Nat
  | acc, [] => .ok acc
  | acc, c :: rest =>
    if c.isDigit then
      let n := 10 * acc + (c.toNat - '0'.toNat)
      if bound < n then .error .tooLarge else readDigits bound n rest
    else .error .invalidDigit

/-- The number that a string stands for, if it is at most `bound`. A plus sign may come first. -/
def readBounded (bound : Nat) (s : String) : Except NumeralError Nat :=
  match s.toList with
  | [] => .error .empty
  | ['+'] => .error .invalidDigit
  | '+' :: digits => readDigits bound 0 digits
  | digits => readDigits bound 0 digits

/-! ### Writing -/

/-- The integer nearest to `n / d`; of two that are equally near, the even one. -/
def roundHalfEven (n d : Nat) : Nat :=
  let q := n / d
  let twice := 2 * (n % d)
  if twice < d then q
  else if d < twice then q + 1
  else if q % 2 = 0 then q
  else q + 1

/-- The quotient `n / d` with `places` decimal places. -/
def fixed (places n d : Nat) : String :=
  let unit := Nat.pow 10 places
  let scaled := roundHalfEven (n * unit) d
  let digits := Nat.toDigits 10 (scaled % unit)
  let fraction := String.ofList (List.replicate (places - digits.length) '0' ++ digits)
  s!"{scaled / unit}.{fraction}"

end GameBoy.Text
