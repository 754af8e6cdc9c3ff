/-!
# Memory at power-on

Work memory and high memory hold noise when the machine is switched on. The noise comes from a
generator with a fixed seed, so that every run of a program is the same; the first 8192 bytes are
those of work memory and the next 127 those of high memory. The sound registers and a display
palette, which belong to no device here, hold the values a program finds when it begins. Everything
else is zero.
-/

namespace GameBoy.PowerOn

/-- One round of the noise generator. -/
def scramble (x : UInt32) : UInt32 :=
  let x := x ^^^ (x <<< 13)
  let x := x ^^^ (x >>> 17)
  x ^^^ (x <<< 5)

/-- The low bytes of the next `count` states of the generator, after the bytes in `acc`. -/
def noiseFrom : (count : Nat) → (state : UInt32) → (acc : Array UInt8) → Array UInt8
  | 0, _, acc => acc
  | count + 1, x, acc =>
    let x := scramble x
    noiseFrom count x (acc.push x.toUInt8)

/-- The bytes of work memory. -/
def workSize : Nat := 0x2000

/-- The bytes of high memory. -/
def highSize : Nat := 0x7F

/-- The noise: the bytes of work memory, then those of high memory. -/
def noise : Array UInt8 := noiseFrom (workSize + highSize) 0xC0DE1234 #[]

/-- The registers that are plain memory, with the values a program finds in them. -/
def registers : List (UInt16 × UInt8) :=
  [(0xFF10, 0x80), (0xFF11, 0xBF), (0xFF12, 0xF3), (0xFF13, 0xFF), (0xFF14, 0xBF),
    (0xFF16, 0x3F), (0xFF17, 0x00), (0xFF18, 0xFF), (0xFF19, 0xBF),
    (0xFF1A, 0x7F), (0xFF1B, 0xFF), (0xFF1C, 0x9F), (0xFF1D, 0xFF), (0xFF1E, 0xBF),
    (0xFF20, 0xFF), (0xFF21, 0x00), (0xFF22, 0x00), (0xFF23, 0xBF),
    (0xFF24, 0x77), (0xFF25, 0xF3), (0xFF26, 0xF1), (0xFF47, 0xFC)]

/-- The byte at an address when the machine is switched on. -/
def byte (a : UInt16) : UInt8 :=
  if a < 0xC000 then 0
  else if a < 0xE000 then noise[a.toNat - 0xC000]?.getD 0
  else if a < 0xFF00 then 0
  else if a < 0xFF80 then (registers.lookup a).getD 0
  else if a < 0xFFFF then noise[workSize + (a.toNat - 0xFF80)]?.getD 0
  else 0

end GameBoy.PowerOn
