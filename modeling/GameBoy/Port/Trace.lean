import GameBoy.Port

/-!
# Recording accesses

`Traced M` is a port over another one that answers as the other does and keeps the accesses made
through it. It turns the question which addresses are touched, and in which order, into a question
about a list.
-/

namespace GameBoy

/-- One access through a port. -/
inductive Access where
  /-- A read, with the value that was delivered. -/
  | read (address : UInt16) (value : UInt8)
  /-- A write, with the value that was handed over. -/
  | write (address : UInt16) (value : UInt8)
deriving DecidableEq, Repr

/-- A port together with the accesses made through it. -/
structure Traced (M : Type) where
  /-- The port that answers. -/
  inner : M
  /-- The accesses, the latest one first. -/
  recent : List Access := []

namespace Traced

variable {M : Type}

/-- The accesses in the order in which they were made. -/
def accesses (t : Traced M) : List Access := t.recent.reverse

instance [Port M] : Port (Traced M) where
  read t a :=
    let (v, inner) := Port.read t.inner a
    (v, { inner, recent := .read a v :: t.recent })
  write t a v := { inner := Port.write t.inner a v, recent := .write a v :: t.recent }
  note t e := { t with inner := Port.note t.inner e }

end Traced

end GameBoy
