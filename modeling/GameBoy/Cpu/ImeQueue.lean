/-!
# Deferred changes of the interrupt master enable

EI and DI take effect late. A request waits in a ring of four slots, together with the tick after
which it may be applied; requests are applied in the order in which they were made, and a ring that
is full drops its oldest request to make room.

Slots outside the live part of the ring keep whatever they held. `ImeQueue.toList` is the view
through which nothing of that shows: the live requests, the oldest one first.
-/

namespace GameBoy

/-- A request to change the interrupt master enable. -/
structure ImeChange where
  /-- Whether interrupts are to be enabled. -/
  enable : Bool := false
  /-- The change may be applied once the clock is past this tick. -/
  due : Nat := 0
deriving DecidableEq, Repr, Inhabited

/-- A ring of requests. -/
structure ImeQueue where
  /-- Live requests and remains of earlier ones. -/
  slots : Vector ImeChange 4 := .replicate 4 {}
  /-- The slot of the oldest live request. -/
  head : Nat := 0
  /-- The number of live requests. -/
  length : Nat := 0
deriving DecidableEq, Repr

namespace ImeQueue

/-- The number of slots. -/
def capacity : Nat := 4

/-- The request in slot `i`, counting round the ring. -/
def slot (q : ImeQueue) (i : Nat) : ImeChange := q.slots.get (Fin.ofNat 4 i)

/-- The live requests, the oldest one first. -/
def toList (q : ImeQueue) : List ImeChange :=
  (List.range q.length).map fun i ↦ q.slot (q.head + i)

/-- The ring without live requests. -/
def clear (q : ImeQueue) : ImeQueue := { q with head := 0, length := 0 }

/-- The ring without its oldest live request. -/
def drop (q : ImeQueue) : ImeQueue :=
  { q with head := (q.head + 1) % capacity, length := q.length - 1 }

/-- The ring with one more request, stored behind the live ones. -/
def append (q : ImeQueue) (change : ImeChange) : ImeQueue :=
  { q with
    slots := q.slots.set (Fin.ofNat 4 (q.head + q.length)) change
    length := q.length + 1 }

/-- The ring with one more request, at the cost of the oldest one if there is no room. -/
def push (q : ImeQueue) (change : ImeChange) : ImeQueue :=
  if q.length = capacity then q.drop.append change else q.append change

/-- Takes the oldest request if the clock is past its due tick. -/
def popDue (q : ImeQueue) (clock : Nat) : Option (ImeChange × ImeQueue) :=
  if q.length = 0 then none
  else
    let oldest := q.slot q.head
    if clock ≤ oldest.due then none else some (oldest, q.drop)

end ImeQueue

end GameBoy
