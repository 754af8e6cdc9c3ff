/-!
# Instructions

What the CPU can be told to do, as data. An opcode byte is read as three fields: the two upper bits,
the three middle bits and the three lower bits. Operand types are named for what they select, and
each has a function that reads it off a field.

`Opcode.decode` reads the first byte of an instruction and `BitInstruction.decode` the byte after
0xCB. The first is partial in the hardware: `Opcode.hole` stands for the bytes that mean nothing,
and 0xFD, which only passes decoding on to the next byte, is `Opcode.again`.
-/

namespace GameBoy

/-! ### Operands -/

/-- A byte operand. -/
inductive Operand where
  /-- Register B. -/
  | b
  /-- Register C. -/
  | c
  /-- Register D. -/
  | d
  /-- Register E. -/
  | e
  /-- Register H. -/
  | h
  /-- Register L. -/
  | l
  /-- The byte at the address in HL. -/
  | atHL
  /-- The accumulator. -/
  | a
deriving DecidableEq, Repr

/-- The byte operand selected by a three-bit field. -/
def Operand.ofField : Fin 8 → Operand
  | 0 => b
  | 1 => c
  | 2 => d
  | 3 => e
  | 4 => h
  | 5 => l
  | 6 => atHL
  | 7 => a

/-- A word operand of loads and arithmetic. -/
inductive Pair where
  /-- The pair BC. -/
  | bc
  /-- The pair DE. -/
  | de
  /-- The pair HL. -/
  | hl
  /-- The stack pointer. -/
  | sp
deriving DecidableEq, Repr

/-- The word operand selected by a two-bit field. -/
def Pair.ofField : Fin 4 → Pair
  | 0 => bc
  | 1 => de
  | 2 => hl
  | 3 => sp

/-- A word operand of PUSH and POP. -/
inductive StackPair where
  /-- The pair BC. -/
  | bc
  /-- The pair DE. -/
  | de
  /-- The pair HL. -/
  | hl
  /-- The accumulator and the flags. -/
  | af
deriving DecidableEq, Repr

/-- The stack operand selected by a two-bit field. -/
def StackPair.ofField : Fin 4 → StackPair
  | 0 => bc
  | 1 => de
  | 2 => hl
  | 3 => af

/-- An address held in a pair. -/
inductive Pointer where
  /-- The address in BC. -/
  | bc
  /-- The address in DE. -/
  | de
  /-- The address in HL, which is then incremented. -/
  | hlUp
  /-- The address in HL, which is then decremented. -/
  | hlDown
deriving DecidableEq, Repr

/-- The pointer selected by a two-bit field. -/
def Pointer.ofField : Fin 4 → Pointer
  | 0 => bc
  | 1 => de
  | 2 => hlUp
  | 3 => hlDown

/-- A condition on the flags. -/
inductive Condition where
  /-- Zero is clear. -/
  | nz
  /-- Zero is set. -/
  | z
  /-- Carry is clear. -/
  | nc
  /-- Carry is set. -/
  | c
deriving DecidableEq, Repr

/-- The condition selected by a two-bit field. -/
def Condition.ofField : Fin 4 → Condition
  | 0 => nz
  | 1 => z
  | 2 => nc
  | 3 => c

/-! ### Operations -/

/-- An operation of the accumulator with a byte. -/
inductive AluOp where
  /-- Addition. -/
  | add
  /-- Addition with the carry. -/
  | adc
  /-- Subtraction. -/
  | sub
  /-- Subtraction with the borrow. -/
  | sbc
  /-- Bitwise and. -/
  | and
  /-- Bitwise exclusive or. -/
  | xor
  /-- Bitwise or. -/
  | or
  /-- Comparison: a subtraction of which only the flags are kept. -/
  | cp
deriving DecidableEq, Repr

/-- The accumulator operation selected by a three-bit field. -/
def AluOp.ofField : Fin 8 → AluOp
  | 0 => add
  | 1 => adc
  | 2 => sub
  | 3 => sbc
  | 4 => and
  | 5 => xor
  | 6 => or
  | 7 => cp

/-- A rotation of a byte by one place. -/
inductive Rotation where
  /-- Left; the top bit comes in at the bottom. -/
  | rlc
  /-- Right; the bottom bit comes in at the top. -/
  | rrc
  /-- Left through the carry. -/
  | rl
  /-- Right through the carry. -/
  | rr
deriving DecidableEq, Repr

/-- The rotation selected by a two-bit field. -/
def Rotation.ofField : Fin 4 → Rotation
  | 0 => rlc
  | 1 => rrc
  | 2 => rl
  | 3 => rr

/-- A movement of the bits of a byte. -/
inductive Shift where
  /-- A rotation. -/
  | rotate (r : Rotation)
  /-- Left; zero comes in. -/
  | sla
  /-- Right; the top bit is repeated. -/
  | sra
  /-- The two halves change places. -/
  | swap
  /-- Right; zero comes in. -/
  | srl
deriving DecidableEq, Repr

/-- The movement selected by a three-bit field. -/
def Shift.ofField : Fin 8 → Shift
  | 0 => rotate .rlc
  | 1 => rotate .rrc
  | 2 => rotate .rl
  | 3 => rotate .rr
  | 4 => sla
  | 5 => sra
  | 6 => swap
  | 7 => srl

/-! ### The two tables -/

/-- An instruction of the primary table. A jump or call under `none` is unconditional. -/
inductive Instruction where
  /-- Does nothing. -/
  | nop
  /-- Sleeps until a button is pressed. -/
  | stop
  /-- Sleeps until an interrupt is pending. -/
  | halt
  /-- Disables interrupts, after the next instruction. -/
  | di
  /-- Enables interrupts, after the next instruction. -/
  | ei
  /-- Copies a byte operand. -/
  | load (dst src : Operand)
  /-- Loads a byte operand with the next byte. -/
  | loadImmediate (dst : Operand)
  /-- Loads a word operand with the next word. -/
  | loadPair (dst : Pair)
  /-- Stores the accumulator through a pointer. -/
  | storeA (p : Pointer)
  /-- Loads the accumulator through a pointer. -/
  | loadA (p : Pointer)
  /-- Stores the accumulator at the address in the next word. -/
  | storeADirect
  /-- Loads the accumulator from the address in the next word. -/
  | loadADirect
  /-- Stores the accumulator in the high page, at the offset in the next byte. -/
  | storeAHigh
  /-- Loads the accumulator from the high page, at the offset in the next byte. -/
  | loadAHigh
  /-- Stores the accumulator in the high page, at the offset in C. -/
  | storeAHighC
  /-- Loads the accumulator from the high page, at the offset in C. -/
  | loadAHighC
  /-- Stores the stack pointer at the address in the next word. -/
  | storeSP
  /-- Loads the stack pointer from HL. -/
  | loadSP
  /-- Loads HL with the stack pointer plus the displacement in the next byte. -/
  | loadHLOffset
  /-- Increments a byte operand. -/
  | inc (dst : Operand)
  /-- Decrements a byte operand. -/
  | dec (dst : Operand)
  /-- Increments a word operand. -/
  | incPair (dst : Pair)
  /-- Decrements a word operand. -/
  | decPair (dst : Pair)
  /-- Adds a word operand to HL. -/
  | addHL (src : Pair)
  /-- Adds the displacement in the next byte to the stack pointer. -/
  | addSP
  /-- Combines the accumulator with a byte operand. -/
  | alu (op : AluOp) (src : Operand)
  /-- Combines the accumulator with the next byte. -/
  | aluImmediate (op : AluOp)
  /-- Rotates the accumulator. -/
  | rotateA (r : Rotation)
  /-- Adjusts the accumulator to two decimal digits. -/
  | daa
  /-- Complements the accumulator. -/
  | cpl
  /-- Sets the carry. -/
  | scf
  /-- Complements the carry. -/
  | ccf
  /-- Jumps by the displacement in the next byte. -/
  | jumpRelative (guard : Option Condition)
  /-- Jumps to the next word. -/
  | jump (guard : Option Condition)
  /-- Jumps to the address in HL. -/
  | jumpHL
  /-- Calls the subroutine at the next word. -/
  | call (guard : Option Condition)
  /-- Returns from a subroutine. -/
  | ret
  /-- Returns from a subroutine under a condition. -/
  | retIf (guard : Condition)
  /-- Returns from a handler and enables interrupts at once. -/
  | reti
  /-- Calls one of the eight fixed addresses, eight bytes apart. -/
  | rst (slot : Fin 8)
  /-- Pushes a word operand. -/
  | push (src : StackPair)
  /-- Pops a word operand. -/
  | pop (dst : StackPair)
deriving DecidableEq, Repr

/-- An instruction of the table behind 0xCB. -/
inductive BitInstruction where
  /-- Moves the bits of an operand. -/
  | shift (op : Shift) (dst : Operand)
  /-- Tests one bit of an operand. -/
  | bit (i : Fin 8) (src : Operand)
  /-- Clears one bit of an operand. -/
  | res (i : Fin 8) (dst : Operand)
  /-- Sets one bit of an operand. -/
  | set (i : Fin 8) (dst : Operand)
deriving DecidableEq, Repr

/-- What the first byte of an instruction announces. -/
inductive Opcode where
  /-- An instruction of the primary table. -/
  | instruction (i : Instruction)
  /-- The next byte selects from the other table. -/
  | extended
  /-- The next byte is decoded in place of this one. -/
  | again
  /-- Nothing: the byte has no meaning. -/
  | hole
deriving DecidableEq, Repr

/-! ### Reading opcodes -/

/-- The upper bit of a three-bit field dropped. -/
def lowerTwo (y : Fin 8) : Fin 4 := ⟨y % 4, Nat.mod_lt _ (by decide)⟩

/-- The lowest bit of a three-bit field dropped. -/
def upperTwo (y : Fin 8) : Fin 4 := ⟨y / 2, by omega⟩

namespace Opcode

/-- Opcodes whose upper field is 0: pointer loads, word arithmetic, increments, relative jumps. -/
def decodeLow (y z : Fin 8) : Opcode :=
  let even : Bool := y.val % 2 == 0
  match z with
  | 0 =>
    match y with
    | 0 => instruction .nop
    | 1 => instruction .storeSP
    | 2 => instruction .stop
    | 3 => instruction (.jumpRelative none)
    | _ => instruction (.jumpRelative (some (.ofField (lowerTwo y))))
  | 1 => if even then instruction (.loadPair (.ofField (upperTwo y)))
         else instruction (.addHL (.ofField (upperTwo y)))
  | 2 => if even then instruction (.storeA (.ofField (upperTwo y)))
         else instruction (.loadA (.ofField (upperTwo y)))
  | 3 => if even then instruction (.incPair (.ofField (upperTwo y)))
         else instruction (.decPair (.ofField (upperTwo y)))
  | 4 => instruction (.inc (.ofField y))
  | 5 => instruction (.dec (.ofField y))
  | 6 => instruction (.loadImmediate (.ofField y))
  | 7 =>
    match y with
    | 4 => instruction .daa
    | 5 => instruction .cpl
    | 6 => instruction .scf
    | 7 => instruction .ccf
    | _ => instruction (.rotateA (.ofField (lowerTwo y)))

/-- Opcodes whose upper field is 3: control transfer, the stack, the high page, immediates. -/
def decodeHigh (y z : Fin 8) : Opcode :=
  match z with
  | 0 =>
    match y with
    | 4 => instruction .storeAHigh
    | 5 => instruction .addSP
    | 6 => instruction .loadAHigh
    | 7 => instruction .loadHLOffset
    | _ => instruction (.retIf (.ofField (lowerTwo y)))
  | 1 =>
    match y with
    | 1 => instruction .ret
    | 3 => instruction .reti
    | 5 => instruction .jumpHL
    | 7 => instruction .loadSP
    | _ => instruction (.pop (.ofField (upperTwo y)))
  | 2 =>
    match y with
    | 4 => instruction .storeAHighC
    | 5 => instruction .storeADirect
    | 6 => instruction .loadAHighC
    | 7 => instruction .loadADirect
    | _ => instruction (.jump (some (.ofField (lowerTwo y))))
  | 3 =>
    match y with
    | 0 => instruction (.jump none)
    | 1 => extended
    | 6 => instruction .di
    | 7 => instruction .ei
    | _ => hole
  | 4 => if y < 4 then instruction (.call (some (.ofField (lowerTwo y)))) else hole
  | 5 =>
    match y with
    | 1 => instruction (.call none)
    | 3 => hole
    | 5 => hole
    | 7 => again
    | _ => instruction (.push (.ofField (upperTwo y)))
  | 6 => instruction (.aluImmediate (.ofField y))
  | 7 => instruction (.rst y)

/-- What a first byte announces. -/
def decode (opcode : UInt8) : Opcode :=
  let y := Fin.ofNat 8 (opcode.toNat / 8)
  let z := Fin.ofNat 8 opcode.toNat
  match opcode.toNat / 64 with
  | 0 => decodeLow y z
  | 1 =>
    -- A copy of (HL) to itself would be pointless; its opcode means something else.
    if y = 6 ∧ z = 6 then instruction .halt
    else instruction (.load (.ofField y) (.ofField z))
  | 2 => instruction (.alu (.ofField y) (.ofField z))
  | _ => decodeHigh y z

end Opcode

/-- The instruction selected by the byte after 0xCB. Every byte selects one. -/
def BitInstruction.decode (opcode : UInt8) : BitInstruction :=
  let y := Fin.ofNat 8 (opcode.toNat / 8)
  let operand := Operand.ofField (Fin.ofNat 8 opcode.toNat)
  match opcode.toNat / 64 with
  | 0 => .shift (.ofField y) operand
  | 1 => .bit y operand
  | 2 => .res y operand
  | _ => .set y operand

end GameBoy
