import GameBoy.Proofs.Port.Hom

/-!
# The writes of a step

`Logged M` is a port over another one that answers as the other does and keeps the writes made
through it, each with the byte that the address showed before. Forgetting the log is a port
homomorphism (`Logged.hom_inner`), so a CPU makes the same step whether or not its writes are kept,
and `Board.writes` may be called **the writes of a step** of the board itself.

`Board.step_induction` is how a property of the port comes to depend on the writes: it is followed
from one write to the next, with the writes made so far in view.
-/

namespace GameBoy

/-- A write through a port. -/
structure Write where
  /-- Where it goes. -/
  address : UInt16
  /-- What the address showed before. -/
  before : UInt8
  /-- What is written. -/
  value : UInt8
deriving DecidableEq, Repr

/-- A port together with the writes made through it. -/
structure Logged (M : Type) where
  /-- The port that answers. -/
  inner : M
  /-- The writes, the earliest one first. -/
  writes : List Write

namespace Logged

variable {M : Type} [Port M]

/-- The write of a byte, as it will be logged. -/
def entry (m : M) (a : UInt16) (v : UInt8) : Write where
  address := a
  before := (Port.read m a).1
  value := v

instance : Port (Logged M) where
  read l a := ((Port.read l.inner a).1, { l with inner := (Port.read l.inner a).2 })
  write l a v := { inner := Port.write l.inner a v, writes := l.writes ++ [entry l.inner a v] }
  note l e := { l with inner := Port.note l.inner e }

/-- **Nobody notices that a log is kept.** -/
theorem hom_inner : Port.Hom (inner : Logged M → M) where
  map_read _ _ := rfl
  map_write _ _ _ := rfl
  map_note _ _ := rfl

end Logged

namespace Board

variable {M : Type} [Port M] (s : Board M)

/-- The board with a log of its writes, which is empty yet. -/
def logged : Board (Logged M) := ⟨s.cpu, { inner := s.bus, writes := [] }⟩

/-- **The writes of a step**, the earliest one first. -/
def writes : List Write := s.logged.step.2.bus.writes

/-- A step of a board with a log is the step of the board, with a log. -/
theorem inner_step_logged : s.logged.step.2.bus.inner = s.step.2.bus := by
  have hmap := map_step Logged.hom_inner s.logged
  exact (congrArg (fun r ↦ r.2.bus) hmap).symm

/-- **A step as a series of accesses.** What a read, a write and an event keep, in view of the
writes made so far, holds after a step of the port that it leaves, in view of the writes of the
step. -/
theorem step_induction {motive : M → List Write → Prop}
    (read : ∀ m writes a, motive m writes → motive (Port.read m a).2 writes)
    (write : ∀ m writes a v, motive m writes →
      motive (Port.write m a v) (writes ++ [Logged.entry m a v]))
    (note : ∀ m writes e, motive m writes → motive (Port.note m e) writes)
    (h : motive s.bus []) : motive s.step.2.bus s.writes := by
  have hinvariant : Port.Invariant fun l : Logged M ↦ motive l.inner l.writes :=
    ⟨fun l a ↦ read l.inner l.writes a, fun l a v ↦ write l.inner l.writes a v,
      fun l e ↦ note l.inner l.writes e⟩
  have hstep := hinvariant.step s.logged h
  rwa [inner_step_logged] at hstep

end Board

end GameBoy
