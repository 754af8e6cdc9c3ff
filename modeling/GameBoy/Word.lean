/-!
# Bytes and words

A word is two bytes, the high one counting 256 times. `word` puts the two together and `highByte`,
`lowByte` take them apart again; the three lemmas at the end say that nothing is lost either way.
`signExtend` is the one other way in which a byte becomes a word here: as a displacement.

The bits of a byte are those of a number below 256, so an equation between bytes that has no other
unknowns is checked for each of these numbers (`byte_all`).
-/

namespace GameBoy

/-- What holds of the bytes with the numbers below 256 holds of every byte. -/
theorem byte_all {P : UInt8 → Prop} (h : ∀ n < 256, P (UInt8.ofNat n)) (v : UInt8) : P v := by
  have hv := h v.toNat v.toNat_lt
  rwa [UInt8.ofNat_toNat] at hv

/-- The word with the given high and low bytes. -/
def word (high low : UInt8) : UInt16 := UInt16.ofNat (256 * high.toNat + low.toNat)

/-- The more significant byte of a word. -/
def highByte (w : UInt16) : UInt8 := UInt8.ofNat (w.toNat / 256)

/-- The less significant byte of a word. -/
def lowByte (w : UInt16) : UInt8 := UInt8.ofNat w.toNat

/-- A byte as a displacement: bytes from 0x80 upwards count as negative. -/
def signExtend (b : UInt8) : UInt16 :=
  if b < 0x80 then b.toUInt16 else b.toUInt16 + 0xFF00

/-- The high byte counts 256 times. -/
theorem toNat_word (high low : UInt8) :
    (word high low).toNat = 256 * high.toNat + low.toNat := by
  have := high.toNat_lt; have := low.toNat_lt
  simp only [word, UInt16.toNat_ofNat']
  omega

/-- A word that has been put together gives back its high byte. -/
@[simp] theorem highByte_word (high low : UInt8) : highByte (word high low) = high := by
  apply UInt8.toNat_inj.mp
  have := high.toNat_lt; have := low.toNat_lt
  simp only [highByte, toNat_word, UInt8.toNat_ofNat']
  omega

/-- It gives back its low byte. -/
@[simp] theorem lowByte_word (high low : UInt8) : lowByte (word high low) = low := by
  apply UInt8.toNat_inj.mp
  have := low.toNat_lt
  simp only [lowByte, toNat_word, UInt8.toNat_ofNat']
  omega

/-- A word that has been taken apart is put together again. -/
@[simp] theorem word_highByte_lowByte (w : UInt16) : word (highByte w) (lowByte w) = w := by
  apply UInt16.toNat_inj.mp
  have := w.toNat_lt
  simp only [toNat_word, highByte, lowByte, UInt8.toNat_ofNat']
  omega

end GameBoy
