import GameBoy.Cpu.Flags
import GameBoy.Cpu.Instruction
import GameBoy.Word

/-!
# Arithmetic and logic

The operations of the CPU on bytes and words, as functions from operands and flags to results and
flags. Nothing here knows of other registers or memory.

Results wrap around at the width of the operand. A carry is found where the hardware finds it, by
adding or comparing operands widened by enough bits to hold it: the lower halves of two bytes for
the half carry, the bytes as words for the carry.

The flags are handed over as the register F. An operation that decides about all of them clears the
register first (`Flags.of`); any other sets its own flags and leaves the rest of the register.
-/

namespace GameBoy.Alu

/-! ### Bytes -/

/-- A carry flag as a number. -/
def carryIn (carry : Bool) : UInt8 := if carry then 1 else 0

/-- The sum of two bytes and a carry. -/
def add (a v : UInt8) (carry : Bool) : UInt8 × Flags :=
  let sum := a + v + carryIn carry
  let half := (a &&& 0x0F) + (v &&& 0x0F) + carryIn carry
  let full := a.toUInt16 + v.toUInt16 + (carryIn carry).toUInt16
  (sum, .of (sum == 0) false (half > 0x0F) (full > 0xFF))

/-- The difference of two bytes less a borrow. -/
def sub (a v : UInt8) (borrow : Bool) : UInt8 × Flags :=
  let difference := a - v - carryIn borrow
  let half := (v &&& 0x0F) + carryIn borrow
  let full := v.toUInt16 + (carryIn borrow).toUInt16
  (difference, .of (difference == 0) true ((a &&& 0x0F) < half) (a.toUInt16 < full))

/-- The flags of a logical operation. -/
def logic (result : UInt8) (half : Bool) : UInt8 × Flags :=
  (result, .of (result == 0) false half false)

/-- An operation of the accumulator `a` with a byte `v`. -/
def apply (op : AluOp) (a v : UInt8) (fs : Flags) : UInt8 × Flags :=
  match op with
  | .add => add a v false
  | .adc => add a v fs.c
  | .sub => sub a v false
  | .sbc => sub a v fs.c
  | .and => logic (a &&& v) true
  | .xor => logic (a ^^^ v) false
  | .or => logic (a ||| v) false
  | .cp => (a, (sub a v false).2)

/-- A byte and one more. The carry is kept. -/
def inc (v : UInt8) (fs : Flags) : UInt8 × Flags :=
  (v + 1, ((fs.set .z (v + 1 == 0)).set .n false).set .h ((v &&& 0x0F) == 0x0F))

/-- A byte less one. The carry is kept. -/
def dec (v : UInt8) (fs : Flags) : UInt8 × Flags :=
  (v - 1, ((fs.set .z (v - 1 == 0)).set .n true).set .h ((v &&& 0x0F) == 0))

/-- The correction that brings a sum of decimal digits back to decimal digits. -/
def decimalCorrection (a : UInt8) (fs : Flags) : UInt8 :=
  let low : UInt8 := if fs.h || (!fs.n && (a &&& 0x0F) > 0x09) then 0x06 else 0
  let high : UInt8 := if fs.c || (!fs.n && a > 0x99) then 0x60 else 0
  high ||| low

/-- The accumulator as two decimal digits, after an addition or a subtraction of such. A
subtraction keeps the carry, an addition may set it. -/
def decimalAdjust (a : UInt8) (fs : Flags) : UInt8 × Flags :=
  let correction := decimalCorrection a fs
  let result := if fs.n then a - correction else a + correction
  (result, ((fs.set .c (correction >= 0x60)).set .h false).set .z (result == 0))

/-! ### Bits -/

/-- A byte rotated by one place, and the bit that left it. -/
def rotate (r : Rotation) (v : UInt8) (carry : Bool) : UInt8 × Bool :=
  let top := v >>> 7
  let bottom := v &&& 1
  match r with
  | .rlc => ((v <<< 1) ||| top, top != 0)
  | .rrc => ((v >>> 1) ||| (bottom <<< 7), bottom != 0)
  | .rl => ((v <<< 1) ||| carryIn carry, top != 0)
  | .rr => ((v >>> 1) ||| (carryIn carry <<< 7), bottom != 0)

/-- A byte with its bits moved, and the bit that left it. Exchanging the halves loses none. -/
def shift (op : Shift) (v : UInt8) (carry : Bool) : UInt8 × Bool :=
  match op with
  | .rotate r => rotate r v carry
  | .sla => (v <<< 1, (v >>> 7) != 0)
  | .sra => ((v >>> 1) ||| (v &&& 0x80), (v &&& 1) != 0)
  | .swap => ((v <<< 4) ||| (v >>> 4), false)
  | .srl => (v >>> 1, (v &&& 1) != 0)

/-- The byte in which only bit `i` is set. -/
def bitMask (i : Fin 8) : UInt8 := 1 <<< UInt8.ofNat i

/-- The flags after a test of one bit. The carry is kept. -/
def testBit (i : Fin 8) (v : UInt8) (fs : Flags) : Flags :=
  ((fs.set .z ((v &&& bitMask i) == 0)).set .n false).set .h true

/-! ### Words -/

/-- The sum of two words. The half carry leaves bit 11; zero is kept. -/
def addWords (x y : UInt16) (fs : Flags) : UInt16 × Flags :=
  let half := (x &&& 0x0FFF) + (y &&& 0x0FFF)
  let full := x.toUInt32 + y.toUInt32
  (x + y, ((fs.set .n false).set .h (half > 0x0FFF)).set .c (full > 0xFFFF))

/-- A word plus a displacement. The carries are those of its low byte and the unsigned byte. -/
def addOffset (x : UInt16) (e : UInt8) : UInt16 × Flags :=
  let offset := signExtend e
  let half := (x &&& 0x000F) + (offset &&& 0x000F)
  let full := (x &&& 0x00FF) + (offset &&& 0x00FF)
  (x + offset, .of false false (half > 0x000F) (full > 0x00FF))

end GameBoy.Alu
