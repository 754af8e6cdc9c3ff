import GameBoy.Clock

/-!
# The joypad

Eight buttons on four lines: each line carries one direction and one action button, and a program
selects which of the two groups it wants to see. A line is low while a button on it is held whose
group is selected. The lines are sampled every four ticks, and a line that has gone low since the
previous sample requests the interrupt.
-/

namespace GameBoy

/-- A button. -/
inductive Button where
  /-- Direction, on line 0. -/
  | right
  /-- Direction, on line 1. -/
  | left
  /-- Direction, on line 2. -/
  | up
  /-- Direction, on line 3. -/
  | down
  /-- Action, on line 0. -/
  | a
  /-- Action, on line 1. -/
  | b
  /-- Action, on line 2. -/
  | select
  /-- Action, on line 3. -/
  | start
deriving DecidableEq, Repr

namespace Button

/-- All buttons: the directions, then the actions, each group in the order of its lines. -/
def all : List Button := [right, left, up, down, a, b, select, start]

/-- The line that the button pulls low. -/
def line : Button → Nat
  | right | a => 0
  | left | b => 1
  | up | select => 2
  | down | start => 3

/-- Whether the button belongs to the directions. -/
def isDirection : Button → Bool
  | right | left | up | down => true
  | a | b | select | start => false

end Button

/-- The state of the joypad. Initially both groups are selected. -/
structure Joypad where
  /-- Ticks lived through. -/
  clock : Nat := 0
  /-- The directions are selected. -/
  directionsSelected : Bool := true
  /-- The actions are selected. -/
  actionsSelected : Bool := true
  /-- The lines of the directions that are held. -/
  directions : BitVec 4 := 0
  /-- The lines of the actions that are held. -/
  actions : BitVec 4 := 0
  /-- The lines at the previous sample; a set bit is a high line. -/
  sampled : BitVec 4 := 0xF
deriving DecidableEq, Repr

namespace Joypad

/-- The ticks from one sample to the next. -/
def stride : Nat := 4

/-- The lines as a program sees them; a set bit is a high line. -/
def lines (j : Joypad) : BitVec 4 :=
  ~~~((if j.directionsSelected then j.directions else 0) |||
    (if j.actionsSelected then j.actions else 0))

/-- One advance: the lines are sampled. -/
def advance (j : Joypad) (requests : InterruptSet) : Joypad × InterruptSet :=
  let fallen := j.sampled &&& ~~~j.lines
  ({ j with clock := j.clock + stride, sampled := j.lines },
    if fallen = 0 then requests else requests.insert .joypad)

instance : Peripheral Joypad where
  clock := Joypad.clock
  advance := advance

/-! ### Buttons -/

/-- One line of a group held or let go. -/
def setLine (group : BitVec 4) (line : Nat) (held : Bool) : BitVec 4 :=
  if held then group ||| BitVec.twoPow 4 line else group &&& ~~~BitVec.twoPow 4 line

/-- A button pressed or released. -/
def setButton (j : Joypad) (button : Button) (held : Bool) : Joypad :=
  if button.isDirection then { j with directions := setLine j.directions button.line held }
  else { j with actions := setLine j.actions button.line held }

/-- Whether a button is held. -/
def isHeld (j : Joypad) (button : Button) : Bool :=
  (if button.isDirection then j.directions else j.actions).getLsbD button.line

/-- Back to the beginning, except that held buttons stay held and count as sampled. -/
def reset (j : Joypad) : Joypad :=
  let fresh : Joypad := { directions := j.directions, actions := j.actions }
  { fresh with sampled := fresh.lines }

/-! ### The register -/

/-- The joypad register. A selection bit is zero where the group is selected. -/
def control (j : Joypad) : UInt8 :=
  UInt8.ofNat
    (0xC0 + 32 * (!j.actionsSelected).toNat + 16 * (!j.directionsSelected).toNat + j.lines.toNat)

/-- Writes the joypad register, of which only the selection bits can be written. -/
def setControl (j : Joypad) (v : UInt8) : Joypad :=
  { j with directionsSelected := !v.toNat.testBit 4, actionsSelected := !v.toNat.testBit 5 }

end Joypad

end GameBoy
