import GameBoy.Proofs.Bus.Kept

/-!
# What is done with a bus

A bus is read and written, its devices catch up, and it is reset, in any order: `Bus.Use` is one of
these, and `Bus.after` is what some of them lead to. What is kept by each of them is kept by all of
them together (`Bus.Kept.after`), and so is what is kept by counting the advances that a device
makes meanwhile (`Bus.after_counting`).
-/

namespace GameBoy.Bus

/-- Something that is done with a bus. -/
inductive Use where
  /-- A byte is read. -/
  | read (a : UInt16)
  /-- A byte is written. -/
  | write (a : UInt16) (v : UInt8)
  /-- The devices catch up to a tick. -/
  | catchUp (target : Nat)
  /-- A reset. -/
  | reset

/-- The bus after a use. -/
def use (bus : Bus) : Use → Bus
  | .read a => (Port.read bus a).2
  | .write a v => bus.write a v
  | .catchUp target => bus.catchUp target
  | .reset => bus.reset

/-- The bus after some uses, one after the other. -/
def after (bus : Bus) (uses : List Use) : Bus := uses.foldl use bus

/-- What everything done to a bus keeps holds after any uses. -/
theorem Kept.after {P : Bus → Prop} (h : Kept P) {bus : Bus} (hbus : P bus) (uses : List Use) :
    P (bus.after uses) := by
  induction uses generalizing bus with
  | nil => exact hbus
  | cons use uses ih =>
    refine ih ?_
    cases use with
    | read a => exact hbus
    | write a v => exact h.write _ _ _ hbus
    | catchUp target => exact h.catchUp _ _ hbus
    | reset => exact h.reset _ hbus

/-! ### Counting advances -/

/-- The advances that a device makes in a use. -/
def Use.advances (bus : Bus) (d : Device) : Use → Nat
  | .catchUp target => bus.advances target d
  | _ => 0

/-- The advances that a device makes in some uses. -/
def advancesIn (bus : Bus) (d : Device) : List Use → Nat
  | [] => 0
  | use :: uses => use.advances bus d + (bus.use use).advancesIn d uses

/-- What every use keeps that counts the advances of a device, all of them together keep. -/
theorem after_counting {d : Device} {motive : Nat → Bus → Prop} {uses : List Use}
    (huse : ∀ n bus, ∀ use ∈ uses, motive n bus → motive (n + use.advances bus d) (bus.use use))
    {n : Nat} {bus : Bus} (h : motive n bus) :
    motive (n + bus.advancesIn d uses) (bus.after uses) := by
  induction uses generalizing n bus with
  | nil => exact h
  | cons use uses ih =>
    rw [advancesIn, ← Nat.add_assoc]
    refine ih (fun n bus later hlater ↦ ?_) (huse n bus use List.mem_cons_self h)
    exact huse n bus later (List.mem_cons_of_mem _ hlater)

end GameBoy.Bus
