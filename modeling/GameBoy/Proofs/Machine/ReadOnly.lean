import GameBoy.Proofs.Bus.MemoryMap
import GameBoy.Proofs.Machine.Call

/-!
# What no program can change

A property of the bus that everything done to it keeps holds at every moment on the way as well,
after each step of a run included (`Machine.passed_induction`). The program image is one such
property: unless another image is mapped, the addresses from 0x0000 to 0x7FFF show the same bytes
for ever (`Machine.image_stays`), whatever the program is and wherever it makes the engine copy
from.

That work memory shows the same at both of its addresses, and that nothing but ones is read where
nothing stands, is true of any bus, and so of the one at each of these moments.
-/

namespace GameBoy

namespace Machine

/-- Whatever has been called, the copying engine is in range. -/
theorem inRange_after (config : Config) (calls : List Call) :
    ((powerOn config).after calls).bus.objectCopy.InRange :=
  after_induction Bus.kept_inRange _ calls (fun _ _ _ h ↦ h) ObjectCopy.inRange_powerOn

/-- **No program changes the program image.** Take a machine to which anything has been done, and
let anything but the mapping of an image be done to it: steps and runs of whatever program, buttons,
resets, requests, reads, writes, and copies from any page. At every moment the addresses below
0x8000 show what they have shown at first, work memory shows the same at both of its addresses, and
the addresses from 0xFEA0 to 0xFEFF show ones. -/
theorem image_stays (config : Config) (before later : List Call)
    (hsame : ∀ rom, .op (.loadRom rom) ∉ later) :
    let m := (powerOn config).after before
    ∀ s, s = m.after later ∨ s ∈ m.passed later →
      (∀ a ≤ 0x7FFF, s.bus.read a = m.bus.read a) ∧
      (∀ a, 0xE000 ≤ a → a ≤ 0xFDFF → s.bus.read a = s.bus.read (a - 0x2000)) ∧
      ∀ a, 0xFEA0 ≤ a → a ≤ 0xFEFF → s.bus.read a = 0xFF := by
  intro m s hs
  have hkept := Bus.kept_holdsRom m.bus.memory.get
  have hself : m.bus.HoldsRom m.bus.memory.get := Bus.holdsRom_self (inRange_after config before)
  have hholds : s.bus.HoldsRom m.bus.memory.get := by
    rcases hs with rfl | hs
    · exact after_induction hkept m later (fun rom hrom ↦ absurd hrom (hsame rom)) hself
    · exact passed_induction hkept m later (fun rom hrom ↦ absurd hrom (hsame rom)) hself s hs
  refine ⟨fun a ha ↦ ?_, fun a hlow hhigh ↦ ?_, fun a hlow hhigh ↦ ?_⟩
  · have hrom : a.toNat < Location.romSize := Nat.lt_succ_of_le (UInt16.le_iff_toNat_le.mp ha)
    rw [Bus.read_eq_get hrom, Bus.read_eq_get hrom]
    exact hholds.get_eq a hrom
  · exact s.bus.read_of_echo hlow (UInt16.lt_of_le_of_lt hhigh (by decide))
  · exact s.bus.read_of_unused hlow (UInt16.lt_of_le_of_lt hhigh (by decide))

/-- A program that stores a byte in its own image and then copies from that page. -/
def storesToImage : List Call :=
  [.op (.loadRom #[0x3E, 0x12, 0xEA, 0x00, 0x00, 0xE0, 0x46]), .set (.regs { pc := 0 })]

/-- Its steps, a write from outside, and a reset. -/
def storing : List Call :=
  [.op .step, .op (.runForTicks 40), .op (.write 0x0000 0x55), .op .reset]

theorem image_stays_when_storing :
    let m := (powerOn {}).after storesToImage
    ∀ s ∈ m.passed storing,
      s.bus.read 0x0000 = 0x3E ∧ s.bus.read 0xE123 = s.bus.read 0xC123 ∧
        s.bus.read 0xFEFF = 0xFF := by
  intro m s hs
  have hfirst : m.bus.read 0x0000 = 0x3E := by decide
  have hsame : ∀ rom, .op (.loadRom rom) ∉ storing := fun rom hrom ↦ by simp [storing] at hrom
  obtain ⟨himage, hecho, hunused⟩ := image_stays {} storesToImage storing hsame s (.inr hs)
  exact ⟨(himage 0x0000 (by decide)).trans hfirst, hecho 0xE123 (by decide) (by decide),
    hunused 0xFEFF (by decide) (by decide)⟩

end Machine

end GameBoy
