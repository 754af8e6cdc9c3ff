import GameBoy.Device.Joypad
import GameBoy.Device.ObjectCopy
import GameBoy.Device.Serial
import GameBoy.Device.Timer
import GameBoy.Device.Video
import GameBoy.Proofs.CatchUp

/-!
# Devices do not look at the requests

All five devices latch: what is pending has no part in what a device does, and a device withdraws
nothing. The display is the only one that can make two requests in one advance, and it makes them
one after the other. Each source has one device that requests it, and the copying engine requests
nothing.
-/

namespace GameBoy

open InterruptSet

namespace Timer

theorem advance_eq_union (t : Timer) (requests : InterruptSet) :
    t.advance requests = ((t.advance ∅).1, requests ∪ (t.advance ∅).2) := by
  simp only [advance]
  split
  · rw [insert_eq_union requests]
  · rw [union_empty]

instance : LatchingPeripheral Timer := ⟨advance_eq_union⟩

/-- A timer requests its own source only. -/
theorem eq_of_mem_advance {t : Timer} {i : Interrupt} (h : i ∈ (t.advance ∅).2) : i = .timer := by
  simp only [advance] at h
  split at h
  · simpa using h
  · simp at h

end Timer

namespace Serial

theorem advance_eq_union (p : Serial) (requests : InterruptSet) :
    p.advance requests = ((p.advance ∅).1, requests ∪ (p.advance ∅).2) := by
  simp only [advance]
  split
  · rw [union_empty]
  · split
    · rw [insert_eq_union requests]
    · rw [union_empty]

instance : LatchingPeripheral Serial := ⟨advance_eq_union⟩

/-- So does the serial port. -/
theorem eq_of_mem_advance {p : Serial} {i : Interrupt} (h : i ∈ (p.advance ∅).2) :
    i = .serial := by
  simp only [advance] at h
  split at h
  · simp at h
  · split at h
    · simpa using h
    · simp at h

end Serial

namespace Joypad

theorem advance_eq_union (j : Joypad) (requests : InterruptSet) :
    j.advance requests = ((j.advance ∅).1, requests ∪ (j.advance ∅).2) := by
  simp only [advance]
  split
  · rw [union_empty]
  · rw [insert_eq_union requests]

instance : LatchingPeripheral Joypad := ⟨advance_eq_union⟩

/-- So does the joypad. -/
theorem eq_of_mem_advance {j : Joypad} {i : Interrupt} (h : i ∈ (j.advance ∅).2) :
    i = .joypad := by
  simp only [advance] at h
  split at h
  · simp at h
  · simpa using h

end Joypad

namespace Video

variable (v : Video) (requests : InterruptSet)

/-- What a look at the line requests does not depend on what has been requested before. -/
theorem sample_eq_union : v.sample requests = ((v.sample ∅).1, requests ∪ (v.sample ∅).2) := by
  simp only [sample]
  split
  · rw [insert_eq_union requests]
  · rw [union_empty]

theorem nextLine_eq_union :
    v.nextLine requests = ((v.nextLine ∅).1, requests ∪ (v.nextLine ∅).2) := by
  simp only [nextLine]
  split
  · split
    · rw [insert_eq_union requests, insert_eq_union (requests ∪ _), union_assoc,
        ← insert_eq_union]
    · rw [insert_eq_union requests]
  · rw [union_empty]

/-- Nor does what an advance requests. -/
theorem advance_eq_union : v.advance requests = ((v.advance ∅).1, requests ∪ (v.advance ∅).2) := by
  simp only [advance]
  split
  · rw [union_empty]
  · split
    · -- What entering a line requests stays in front of what the sample requests.
      rw [nextLine_eq_union _ requests, sample_eq_union _ (requests ∪ _),
        sample_eq_union _ (nextLine _ ∅).2, union_assoc]
    · exact sample_eq_union _ requests

instance : LatchingPeripheral Video := ⟨advance_eq_union⟩

variable {v} {i : Interrupt}

/-- A look at the line requests the source of the line only. -/
theorem eq_of_mem_sample (h : i ∈ (v.sample ∅).2) : i = .lcdStat := by
  simp only [sample] at h
  split at h
  · simpa using h
  · simp at h

theorem eq_of_mem_nextLine (h : i ∈ (v.nextLine ∅).2) : i = .vblank ∨ i = .lcdStat := by
  simp only [nextLine] at h
  split at h
  · split at h
    · simpa using h
    · exact .inl (by simpa using h)
  · simp at h

/-- A display requests its two sources only. -/
theorem eq_of_mem_advance (h : i ∈ (v.advance ∅).2) : i = .vblank ∨ i = .lcdStat := by
  simp only [advance] at h
  split at h
  · simp at h
  · split at h
    · rw [sample_eq_union, mem_union] at h
      exact h.elim eq_of_mem_nextLine fun h ↦ .inr (eq_of_mem_sample h)
    · exact .inr (eq_of_mem_sample h)

end Video

namespace ObjectCopy.Channel

theorem advance_eq_union (c : Channel) (requests : InterruptSet) :
    c.advance requests = ((c.advance ∅).1, requests ∪ (c.advance ∅).2) := by
  simp only [advance]
  split <;> rw [union_empty]

instance : LatchingPeripheral Channel := ⟨advance_eq_union⟩

/-- An object copy requests nothing. -/
theorem not_mem_advance {c : Channel} {i : Interrupt} : i ∉ (c.advance ∅).2 := by
  simp only [advance]
  split <;> simp

end ObjectCopy.Channel

end GameBoy
