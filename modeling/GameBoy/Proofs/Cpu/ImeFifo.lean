import GameBoy.Proofs.Cpu.ImeQueue

/-!
# The ring as a queue of bounded length

What a ring of requests is for can be said without slots: it is a list of at most four entries. A
request is put at its end, at the cost of the first entry if there are four; the first entry is
taken when it is due; all entries can be dropped. `ImeFifo` is that list.

Whatever is done with a ring and with such a list, the same is taken from both, and the live
requests of the ring are the entries of the list (`Shows.use` for one use, `Shows.run` for any
number). What the slots hold that are not live, in the beginning or later, can never be told.

The head stays among the slots. So a ring may look its slots up without counting round: with every
look-up checked (`ImeQueue.use?`), none of them fails and nothing else is different.
-/

namespace GameBoy

open ImeQueue (capacity)

/-- Something that is done with waiting requests. -/
inductive ImeUse where
  /-- One more request is put at the end. -/
  | push (change : ImeChange)
  /-- The oldest request is taken, if the clock is past its due tick. -/
  | popDue (clock : Nat)
  /-- All requests are dropped. -/
  | clear
deriving DecidableEq, Repr

/-- What is taken in some uses, one after the other, and what these uses lead to. -/
def ImeUse.run {S : Type} (use : S → ImeUse → Option ImeChange × S) (s : S) :
    List ImeUse → List (Option ImeChange) × S
  | [] => ([], s)
  | u :: uses =>
    let (taken, s) := use s u
    let (rest, s) := run use s uses
    (taken :: rest, s)

/-- **A queue of at most four requests**, the oldest one first. -/
structure ImeFifo where
  /-- The requests. -/
  entries : List ImeChange := []
  /-- There are at most four of them. -/
  length_le : entries.length ≤ capacity := by decide

namespace ImeFifo

variable (l : ImeFifo)

/-- One more request at the end, at the cost of the oldest one if there are four. -/
def push (change : ImeChange) : ImeFifo where
  entries := (if l.entries.length = capacity then l.entries.tail else l.entries) ++ [change]
  length_le := by
    have hle := l.length_le
    rw [List.length_append, List.length_singleton]
    by_cases hfull : l.entries.length = capacity
    · rw [if_pos hfull, List.length_tail, hfull]
      decide
    · rw [if_neg hfull]
      omega

theorem entries_push (change : ImeChange) :
    (l.push change).entries =
      (if l.entries.length = capacity then l.entries.tail else l.entries) ++ [change] := rfl

/-- The queue without its oldest request. -/
def tail : ImeFifo where
  entries := l.entries.tail
  length_le := by
    rw [List.length_tail]
    exact Nat.le_trans (Nat.sub_le ..) l.length_le

/-- What is taken in a use, and the queue after it. -/
def use : ImeUse → Option ImeChange × ImeFifo
  | .push change => (none, l.push change)
  | .popDue clock =>
    match l.entries.head? with
    | none => (none, l)
    | some oldest => if oldest.due < clock then (some oldest, l.tail) else (none, l)
  | .clear => (none, {})

/-- What is taken in some uses, and the queue after them. -/
def run (uses : List ImeUse) : List (Option ImeChange) × ImeFifo := ImeUse.run use l uses

end ImeFifo

namespace ImeQueue

variable (q : ImeQueue)

/-- What is taken in a use, and the ring after it. -/
def use : ImeUse → Option ImeChange × ImeQueue
  | .push change => (none, q.push change)
  | .popDue clock =>
    match q.popDue clock with
    | none => (none, q)
    | some (oldest, q) => (some oldest, q)
  | .clear => (none, q.clear)

/-- What is taken in some uses, and the ring after them. -/
def run (uses : List ImeUse) : List (Option ImeChange) × ImeQueue := ImeUse.run use q uses

/-! ### Checked look-ups -/

/-- The request in slot `i`, if there is such a slot. -/
def slot? (i : Nat) : Option ImeChange := q.slots[i]?

/-- Stores one more request behind the live ones, if the slot behind them exists. -/
def append? (change : ImeChange) : Option ImeQueue :=
  let i := (q.head + q.length) % capacity
  if h : i < 4 then some { q with slots := q.slots.set i change, length := q.length + 1 } else none

/-- A use in which every slot is looked up by its index. It fails if there is no such slot. -/
def use? : ImeUse → Option (Option ImeChange × ImeQueue)
  | .push change =>
    if q.length = capacity then
      -- The request that makes room is looked at before it is dropped.
      (q.slot? q.head).bind fun _ ↦ (q.drop.append? change).map (none, ·)
    else (q.append? change).map (none, ·)
  | .popDue clock =>
    if q.length = 0 then some (none, q)
    else
      (q.slot? q.head).map fun oldest ↦
        if clock ≤ oldest.due then (none, q) else (some oldest, q.drop)
  | .clear => some (none, q.clear)

variable {q}

theorem slot?_head (h : q.head < capacity) : q.slot? q.head = some (q.slot q.head) := by
  have hindex : (Fin.ofNat 4 q.head : Fin 4).val = q.head := Nat.mod_eq_of_lt h
  rw [slot?, slot_eq_getElem]
  simp only [Fin.getElem_fin, hindex]
  exact Vector.getElem?_eq_getElem h

theorem append?_eq (change : ImeChange) : q.append? change = some (q.append change) := by
  have hindex : (q.head + q.length) % capacity < 4 := Nat.mod_lt _ (by decide)
  rw [append?, dif_pos hindex]
  rfl

/-- **No look-up fails** while the head is among the slots. -/
theorem use?_eq (h : q.head < capacity) (u : ImeUse) : q.use? u = some (q.use u) := by
  cases u with
  | push change =>
    simp only [use?, use, push, slot?_head h, append?_eq, Option.bind_some, Option.map_some]
    split <;> rfl
  | popDue clock =>
    simp only [use?, use, popDue, slot?_head h, Option.map_some]
    split
    · rfl
    · split <;> rfl
  | clear => rfl

end ImeQueue

/-! ### One use, and any number of uses -/

/-- The head of the ring is among its slots, and its live requests are the entries of the queue. -/
structure ImeFifo.Shows (l : ImeFifo) (q : ImeQueue) : Prop where
  /-- The live requests. -/
  toList_eq : q.toList = l.entries
  /-- The head. -/
  head_lt : q.head < capacity

namespace ImeFifo

variable {l : ImeFifo} {q : ImeQueue}

theorem Shows.length_eq (h : l.Shows q) : q.length = l.entries.length := by
  rw [← q.length_toList, h.toList_eq]

theorem shows_nil (slots : Vector ImeChange 4) : Shows {} { slots } where
  toList_eq := rfl
  head_lt := (by decide : 0 < capacity)

theorem Shows.drop (h : l.Shows q) : l.tail.Shows q.drop where
  toList_eq := by
    rw [q.toList_drop, h.toList_eq]
    rfl
  head_lt := Nat.mod_lt _ (by decide)

theorem Shows.push (h : l.Shows q) (change : ImeChange) : (l.push change).Shows (q.push change) := by
  have hlength := h.length_eq
  by_cases hfull : q.length = capacity
  · refine ⟨?_, ?_⟩
    · rw [q.toList_push_of_full change hfull, h.toList_eq, l.entries_push,
        if_pos (by omega)]
    · rw [ImeQueue.push, if_pos hfull]
      exact h.drop.head_lt
  · have hroom : q.length < capacity := by
      have hle := l.length_le
      omega
    refine ⟨?_, ?_⟩
    · rw [q.toList_push change hroom, h.toList_eq, l.entries_push, if_neg (by omega)]
    · rw [ImeQueue.push, if_neg hfull]
      exact h.head_lt

/-- **One use takes the same from both**, and leaves the same waiting. -/
theorem Shows.use (h : l.Shows q) (u : ImeUse) :
    (q.use u).1 = (l.use u).1 ∧ (l.use u).2.Shows (q.use u).2 := by
  cases u with
  | push change => exact ⟨rfl, h.push change⟩
  | popDue clock =>
    cases hentries : l.entries with
    | nil =>
      have hlist : q.toList = [] := h.toList_eq.trans hentries
      have hq : q.use (.popDue clock) = (none, q) := by
        simp only [ImeQueue.use, ImeQueue.popDue_of_nil hlist]
      have hl : l.use (.popDue clock) = (none, l) := by
        simp only [ImeFifo.use, hentries, List.head?_nil]
      rw [hq, hl]
      exact ⟨rfl, h⟩
    | cons oldest rest =>
      have hlist : q.toList = oldest :: rest := h.toList_eq.trans hentries
      by_cases hdue : oldest.due < clock
      · have hq : q.use (.popDue clock) = (some oldest, q.drop) := by
          simp only [ImeQueue.use, ImeQueue.popDue_of_lt hlist hdue]
        have hl : l.use (.popDue clock) = (some oldest, l.tail) := by
          simp only [ImeFifo.use, hentries, List.head?_cons, if_pos hdue]
        rw [hq, hl]
        exact ⟨rfl, h.drop⟩
      · have hq : q.use (.popDue clock) = (none, q) := by
          simp only [ImeQueue.use, ImeQueue.popDue_of_le hlist (Nat.le_of_not_lt hdue)]
        have hl : l.use (.popDue clock) = (none, l) := by
          simp only [ImeFifo.use, hentries, List.head?_cons, if_neg hdue]
        rw [hq, hl]
        exact ⟨rfl, h⟩
  | clear => exact ⟨rfl, rfl, (by decide : 0 < capacity)⟩

/-- **So do any number of uses.** -/
theorem Shows.run (h : l.Shows q) (uses : List ImeUse) :
    (q.run uses).1 = (l.run uses).1 ∧ (l.run uses).2.Shows (q.run uses).2 := by
  induction uses generalizing l q with
  | nil => exact ⟨rfl, h⟩
  | cons u uses ih =>
    obtain ⟨htaken, hnext⟩ := h.use u
    obtain ⟨hrest, hend⟩ := ih hnext
    refine ⟨?_, hend⟩
    change (q.use u).1 :: ((q.use u).2.run uses).1 = (l.use u).1 :: ((l.use u).2.run uses).1
    rw [htaken, hrest]

end ImeFifo

/-- **The ring is a queue of at most four requests.** Let a ring without live requests hold
anything in its slots. Whatever is done with it, and however often, the same is taken from it as
from a queue that is empty in the beginning; as many requests wait in both, the same ones, and none
in the one if and only if there are none in the other. The head is among the slots, no more
requests wait than there are slots, and in whatever is done next no slot is looked up that does not
exist. -/
theorem ImeQueue.run_eq_run_fifo (slots : Vector ImeChange 4) (uses : List ImeUse) :
    let ring := ImeQueue.run { slots } uses
    let fifo := ImeFifo.run {} uses
    ring.1 = fifo.1 ∧
      ring.2.toList = fifo.2.entries ∧
      ring.2.length = fifo.2.entries.length ∧
      (ring.2.length == 0) = fifo.2.entries.isEmpty ∧
      ring.2.head < capacity ∧ ring.2.length ≤ capacity ∧
      ∀ u, ring.2.use? u = some (ring.2.use u) := by
  intro ring fifo
  obtain ⟨htaken, hshows⟩ := (ImeFifo.shows_nil slots).run uses
  have hlength : ring.2.length = fifo.2.entries.length := hshows.length_eq
  refine ⟨htaken, hshows.toList_eq, hlength, ?_, hshows.head_lt, ?_,
    ImeQueue.use?_eq hshows.head_lt⟩
  · rw [hlength]
    cases fifo.2.entries <;> rfl
  · rw [hlength]
    exact fifo.2.length_le

/-- Of six requests the first two are dropped. -/
example :
    (ImeQueue.run {} ((List.range 6).map (fun due ↦ .push { due }) ++ [.popDue 3])).1.getLast? =
      some (some { due := 2 }) := by
  decide

end GameBoy
