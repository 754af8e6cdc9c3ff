import GameBoy.Text.Hex

/-!
# Decoding faults

Ten bytes of the primary opcode table have no meaning. A CPU that is told to stop at them reports
which byte it met, in which table, and where.
-/

namespace GameBoy

/-- One of the two opcode tables. -/
inductive OpcodeTable where
  /-- Selected by the first byte of an instruction. -/
  | primary
  /-- Selected by the byte after 0xCB. -/
  | extended
deriving DecidableEq, Repr

/-- An opcode without a meaning, met during execution. -/
structure Fault where
  /-- The byte that was read. -/
  opcode : UInt8
  /-- The table in which it was looked up. -/
  table : OpcodeTable
  /-- The address from which it was read. -/
  pc : UInt16
deriving DecidableEq, Repr

/-- The name of a table in messages. -/
def OpcodeTable.name : OpcodeTable → String
  | primary => "primary"
  | extended => "extended (CB)"

/-- The report of a fault. -/
def Fault.message (e : Fault) : String :=
  s!"undecodable {e.table.name} opcode {Text.hexByte e.opcode} at PC={Text.hexWord e.pc}"

end GameBoy
