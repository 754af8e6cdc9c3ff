/-!
# Hexadecimal numerals

Bytes and addresses in messages are written in base sixteen, with upper-case digits, a fixed number
of places and a leading `0x`.
-/

namespace GameBoy.Text

/-- The upper-case digits of `n` in base sixteen, with zeros in front up to `places` digits. -/
def hexDigits (places n : Nat) : List Char :=
  let digits := (Nat.toDigits 16 n).map Char.toUpper
  List.replicate (places - digits.length) '0' ++ digits

/-- A byte, in two digits. -/
def hexByte (b : UInt8) : String := "0x" ++ String.ofList (hexDigits 2 b.toNat)

/-- A word, in four digits. -/
def hexWord (w : UInt16) : String := "0x" ++ String.ofList (hexDigits 4 w.toNat)

end GameBoy.Text
