import GameBoy.Clock

/-!
# The display

The timetable of the display, without a picture. A frame has 154 lines of 456 ticks; each of the
first 144 lines goes through three modes, and the remaining ones are the vertical blank. A program
can ask to be interrupted when one of four conditions begins to hold; together they form one
signal, and only its rising edge requests anything.

A display that is switched off stands still on line 0, and one that is switched on starts a frame.
-/

namespace GameBoy

/-- What the display is doing. -/
inductive VideoMode where
  /-- Waiting for the end of a line, or switched off. -/
  | hblank
  /-- Between the last visible line and the next frame. -/
  | vblank
  /-- Looking up the objects of a line. -/
  | objectScan
  /-- Drawing a line. -/
  | transfer
deriving DecidableEq, Repr

/-- The number of a mode in the status register. -/
def VideoMode.number : VideoMode → Nat
  | hblank => 0
  | vblank => 1
  | objectScan => 2
  | transfer => 3

/-- The conditions that a program has selected as sources of the display interrupt. -/
structure StatSources where
  /-- The current line is the one in the comparison register. -/
  coincidence : Bool := false
  /-- The objects of a line are being looked up. -/
  objectScan : Bool := false
  /-- The vertical blank. -/
  vblank : Bool := false
  /-- The end of a line. -/
  hblank : Bool := false
deriving DecidableEq, Repr

namespace StatSources

/-- The sources selected by bits 6 to 3 of a byte. -/
def ofByte (v : UInt8) : StatSources where
  coincidence := v.toNat.testBit 6
  objectScan := v.toNat.testBit 5
  vblank := v.toNat.testBit 4
  hblank := v.toNat.testBit 3

/-- The selection as a number whose bits 6 to 3 are used. -/
def toNat (s : StatSources) : Nat :=
  64 * s.coincidence.toNat + 32 * s.objectScan.toNat + 16 * s.vblank.toNat + 8 * s.hblank.toNat

end StatSources

/-- The state of the display. Initially it is on and at the top of a frame. -/
structure Video where
  /-- Ticks lived through. -/
  clock : Nat := 0
  /-- The control register. Only its top bit, which switches the display on, has an effect here. -/
  control : UInt8 := 0x91
  /-- The selected sources of the display interrupt. -/
  sources : StatSources := {}
  /-- The current line. -/
  line : Nat := 0
  /-- The comparison register. -/
  compare : UInt8 := 0
  /-- Ticks spent on the current line. -/
  dot : Nat := 0
  /-- The interrupt signal at the previous advance. -/
  signalled : Bool := false
deriving DecidableEq, Repr

namespace Video

/-- The ticks of one advance. -/
def stride : Nat := 4

/-- The ticks of a line. -/
def lineTicks : Nat := 456

/-- The lines of a frame. -/
def frameLines : Nat := 154

/-- The first line of the vertical blank. -/
def vblankLine : Nat := 144

/-- The ticks of a visible line before drawing begins. -/
def scanTicks : Nat := 80

/-- The ticks of a visible line spent on drawing. -/
def transferTicks : Nat := 172

/-- Whether a control byte switches the display on. -/
def switchesOn (v : UInt8) : Bool := v.toNat.testBit 7

/-- Whether the display is on. -/
def on (v : Video) : Bool := switchesOn v.control

/-- What the display is doing. -/
def mode (v : Video) : VideoMode :=
  if !v.on then .hblank
  else if vblankLine ≤ v.line then .vblank
  else if v.dot < scanTicks then .objectScan
  else if v.dot < scanTicks + transferTicks then .transfer
  else .hblank

/-- Whether the current line is the one in the comparison register. -/
def coincides (v : Video) : Bool := v.line == v.compare.toNat

/-- The interrupt signal: some selected condition holds. A display that is off gives none. -/
def signal (v : Video) : Bool :=
  v.on &&
    (v.sources.coincidence && v.coincides ||
      v.sources.objectScan && v.mode == .objectScan ||
      v.sources.vblank && v.mode == .vblank ||
      v.sources.hblank && v.mode == .hblank)

/-- Samples the interrupt signal and requests the display interrupt if it has risen. -/
def sample (v : Video) (requests : InterruptSet) : Video × InterruptSet :=
  ({ v with signalled := v.signal },
    if v.signal && !v.signalled then requests.insert .lcdStat else requests)

/-- Moves on to the next line. Entering the vertical blank requests its interrupt, and the display
interrupt as well if the object scan is a selected source. -/
def nextLine (v : Video) (requests : InterruptSet) : Video × InterruptSet :=
  let v := { v with dot := v.dot - lineTicks, line := (v.line + 1) % frameLines }
  if v.line = vblankLine then
    let requests := requests.insert .vblank
    (v, if v.sources.objectScan then requests.insert .lcdStat else requests)
  else (v, requests)

/-- One advance. -/
def advance (v : Video) (requests : InterruptSet) : Video × InterruptSet :=
  let v := { v with clock := v.clock + stride }
  if !v.on then (v, requests)
  else
    let v := { v with dot := v.dot + stride }
    let (v, requests) := if lineTicks ≤ v.dot then v.nextLine requests else (v, requests)
    v.sample requests

instance : Peripheral Video where
  clock := Video.clock
  advance := advance

/-! ### Registers -/

/-- Writes the control register. Switching the display on or off starts a frame. -/
def setControl (v : Video) (byte : UInt8) : Video :=
  let changed := { v with control := byte }
  if changed.on = v.on then changed
  else { changed with line := 0, dot := 0, signalled := false }

/-- The status register. Its unused bit reads as one. -/
def status (v : Video) : UInt8 :=
  UInt8.ofNat (0x80 + v.sources.toNat + 4 * v.coincides.toNat + v.mode.number)

/-- Writes the status register, of which only the selection of sources can be written. -/
def setStatus (v : Video) (byte : UInt8) : Video := { v with sources := .ofByte byte }

/-- The line register. -/
def lineRegister (v : Video) : UInt8 := UInt8.ofNat v.line

/-- Writes the comparison register. -/
def setCompare (v : Video) (byte : UInt8) : Video := { v with compare := byte }

end Video

end GameBoy
