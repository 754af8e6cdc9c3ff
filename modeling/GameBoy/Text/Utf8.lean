/-!
# Reading UTF-8 with replacement

Turns any bytes into text. Well-formed sequences become the characters they encode; of anything
else, each longest beginning of a well-formed sequence, or a single byte that begins none, becomes
one replacement character.

The reader looks at one byte at a time. Between bytes it remembers at most one unfinished sequence,
with the range in which its next byte has to lie: that range is narrower after some first bytes,
which is what excludes overlong forms, surrogates and numbers beyond the last character.
-/

namespace GameBoy.Text

/-- A sequence of which at least one byte is still to come. -/
structure Unfinished where
  /-- The number of bytes to come after the next one. -/
  remaining : Nat
  /-- The least next byte. -/
  low : UInt8 := 0x80
  /-- The greatest next byte. -/
  high : UInt8 := 0xBF
  /-- The bits collected so far. -/
  bits : Nat
deriving DecidableEq, Repr

/-- The character that stands for bytes that encode none. -/
def replacement : Char := '\uFFFD'

/-- Looks at a byte where a sequence may begin. -/
def beginSequence (b : UInt8) : List Char × Option Unfinished :=
  let n := b.toNat
  if n < 0x80 then ([Char.ofNat n], none)
  else if n < 0xC2 then ([replacement], none)
  else if n < 0xE0 then ([], some { remaining := 0, bits := n % 32 })
  else if n = 0xE0 then ([], some { remaining := 1, low := 0xA0, bits := n % 16 })
  else if n = 0xED then ([], some { remaining := 1, high := 0x9F, bits := n % 16 })
  else if n < 0xF0 then ([], some { remaining := 1, bits := n % 16 })
  else if n = 0xF0 then ([], some { remaining := 2, low := 0x90, bits := n % 8 })
  else if n < 0xF4 then ([], some { remaining := 2, bits := n % 8 })
  else if n = 0xF4 then ([], some { remaining := 2, high := 0x8F, bits := n % 8 })
  else ([replacement], none)

/-- Looks at a byte. A byte that does not fit an unfinished sequence may begin another. -/
def readByte (u : Option Unfinished) (b : UInt8) : List Char × Option Unfinished :=
  match u with
  | none => beginSequence b
  | some u =>
    if u.low ≤ b ∧ b ≤ u.high then
      let bits := 64 * u.bits + b.toNat % 64
      match u.remaining with
      | 0 => ([Char.ofNat bits], none)
      | remaining + 1 => ([], some { remaining, bits })
    else
      let (chars, u) := beginSequence b
      (replacement :: chars, u)

/-- Reads bytes after an unfinished sequence. -/
def readUtf8From (u : Option Unfinished) : List UInt8 → List Char
  | [] => if u.isSome then [replacement] else []
  | b :: rest =>
    let (chars, u) := readByte u b
    chars ++ readUtf8From u rest

/-- The text that bytes stand for, with replacements where they stand for none. -/
def readUtf8 (bytes : List UInt8) : String := String.ofList (readUtf8From none bytes)

end GameBoy.Text
