import GameBoy.Port.Trace
import GameBoy.Proofs.Port.Hom

/-!
# The accesses of a step

Recording accesses has no effect: forgetting the record is a port homomorphism
(`Traced.hom_inner`). Nor does it matter what the record holds when a stage begins: whatever was
recorded earlier stands in front of what the stage records (`Traced.hom_after`). So stages may be
looked at one by one, each with an empty record, and `Board.accesses_step` puts the accesses of a
step together from those of its two parts.
-/

namespace GameBoy

namespace Traced

variable {M : Type} [Port M]

/-- **Nobody notices that accesses are recorded.** -/
theorem hom_inner : Port.Hom (inner : Traced M → M) where
  map_read _ _ := rfl
  map_write _ _ _ := rfl
  map_note _ _ := rfl

/-- The port with earlier accesses put in front of its own, the latest one first. -/
def after (earlier : List Access) (t : Traced M) : Traced M :=
  { t with recent := t.recent ++ earlier }

/-- What has been recorded before makes no difference to what follows. -/
theorem hom_after (earlier : List Access) : Port.Hom (after (M := M) earlier) where
  map_read _ _ := rfl
  map_write _ _ _ := rfl
  map_note _ _ := rfl

omit [Port M] in
/-- Accesses recorded before stand in front. -/
theorem accesses_after (earlier : List Access) (t : Traced M) :
    (t.after earlier).accesses = earlier.reverse ++ t.accesses :=
  List.reverse_append

/-- A read is recorded, with the byte that was read. -/
theorem accesses_read (t : Traced M) (a : UInt16) :
    (Port.read t a).2.accesses = t.accesses ++ [.read a (Port.read t.inner a).1] :=
  List.reverse_cons

/-- A write is recorded, with the byte that was written. -/
theorem accesses_write (t : Traced M) (a : UInt16) (v : UInt8) :
    (Port.write t a v).accesses = t.accesses ++ [.write a v] :=
  List.reverse_cons

end Traced

/-- The port after an access. -/
def Access.apply {M : Type} [Port M] (m : M) : Access → M
  | .read a _ => (Port.read m a).2
  | .write a v => Port.write m a v

/-- A port that ignores events is changed by accesses and by nothing else. -/
theorem Traced.invariant_apply {M : Type} [Port M] (hsilent : ∀ (m : M) e, Port.note m e = m)
    (start : M) :
    Port.Invariant fun t : Traced M ↦ t.inner = t.accesses.foldl Access.apply start where
  read t a h := by
    rw [accesses_read, List.foldl_append, ← h]
    rfl
  write t a v h := by
    rw [accesses_write, List.foldl_append, ← h]
    rfl
  note t e h := (hsilent t.inner e).trans h

/-- The value that an access stores at an address, if it stores one there. -/
def Access.stored? (a : UInt16) : Access → Option UInt8
  | .read .. => none
  | .write b v => if b = a then some v else none

/-- The values stored at an address by some accesses, the earliest one first. -/
def storedAt (a : UInt16) (accesses : List Access) : List UInt8 :=
  accesses.filterMap (Access.stored? a)

/-- A read stores nothing. -/
theorem storedAt_cons_read (a b : UInt16) (v : UInt8) (accesses : List Access) :
    storedAt a (.read b v :: accesses) = storedAt a accesses := rfl

/-- A write stores its byte at its own address. -/
theorem storedAt_cons_write (a b : UInt16) (v : UInt8) (accesses : List Access) :
    storedAt a (.write b v :: accesses) =
      if b = a then v :: storedAt a accesses else storedAt a accesses := by
  by_cases hba : b = a <;> simp [storedAt, Access.stored?, hba]

/-- What is stored by some accesses and then by others. -/
theorem storedAt_append (a : UInt16) (earlier later : List Access) :
    storedAt a (earlier ++ later) = storedAt a earlier ++ storedAt a later :=
  List.filterMap_append

namespace Board

variable {M : Type} [Port M] (s : Board M)

omit [Port M] in
/-- The board with a record of its accesses, which is empty yet. -/
def traced : Board (Traced M) := ⟨s.cpu, { inner := s.bus }⟩

/-- **The values that a step stores at an address**, the earliest one first. -/
def stored (a : UInt16) : List UInt8 := storedAt a s.traced.step.2.bus.accesses

/-- Recording makes no difference to what a step does to the bus. -/
theorem bus_step_traced : s.step.2.bus = s.traced.step.2.bus.inner :=
  congrArg (fun r ↦ r.2.bus) (map_step Traced.hom_inner s.traced)

/-- Nor to what looking at the interrupts does. -/
theorem serviceInterrupts_traced :
    s.serviceInterrupts = mapResult Traced.inner s.traced.serviceInterrupts :=
  map_serviceInterrupts Traced.hom_inner s.traced

/-- **The accesses of a step** are those made about the interrupts, followed by those that finishing
the step makes from there. -/
theorem accesses_step :
    s.traced.step.2.bus.accesses =
      s.traced.serviceInterrupts.2.bus.accesses ++
        (s.serviceInterrupts.2.traced.finish s.serviceInterrupts.1 s.cpu).2.bus.accesses := by
  rcases hserved : s.traced.serviceInterrupts with ⟨attention, s'⟩
  have hserved' : s.serviceInterrupts = (attention, s'.map Traced.inner) := by
    rw [serviceInterrupts_traced, hserved]
    rfl
  -- The record that finishing starts with may as well be put in front of it afterwards.
  have hafter : s' = (s'.map Traced.inner).traced.map (Traced.after s'.bus.recent) := rfl
  have hfinish : s'.finish attention s.cpu =
      mapResult (Traced.after s'.bus.recent)
        ((s'.map Traced.inner).traced.finish attention s.cpu) := by
    rw [← map_finish (Traced.hom_after s'.bus.recent), ← hafter]
  rw [step_eq_finish, hserved, hserved']
  exact (congrArg (fun r ↦ r.2.bus.accesses) hfinish).trans (Traced.accesses_after ..)

end Board

end GameBoy
