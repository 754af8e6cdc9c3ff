import GameBoy.Cpu.ImeQueue

/-!
# The ring as a list

`ImeQueue.toList` shows the live requests, the oldest one first, and each operation of the ring is
an operation on that list.

* A request is appended, as long as a slot is free (`toList_push`); if none is, the oldest one makes
  room for it (`toList_push_of_full`).
* Only the oldest request is looked at, and it leaves exactly when the clock is past its due tick
  (`popDue_of_nil`, `popDue_of_lt`, `popDue_of_le`).

What the slots outside the live part hold does not matter, and the head may be any number: slots are
counted round the ring.
-/

namespace GameBoy.ImeQueue

variable (q : ImeQueue)

/-- The queue lists as many requests as it counts. -/
@[simp] theorem length_toList : q.toList.length = q.length := by
  simp [toList]

/-- A queue that is cleared lists none. -/
@[simp] theorem toList_clear : q.clear.toList = [] := rfl

/-- A queue that lists none counts none. -/
theorem toList_eq_nil_iff {q : ImeQueue} : q.toList = [] ↔ q.length = 0 := by
  rw [← List.length_eq_zero_iff, length_toList]

/-! ### Slots -/

/-- A position beyond the slots wraps around. -/
theorem slot_eq_getElem (i : Nat) : q.slot i = q.slots[(Fin.ofNat 4 i : Fin 4)] := rfl

theorem slot_mod_add (i j : Nat) : q.slot (i % capacity + j) = q.slot (i + j) := by
  have hfin : Fin.ofNat 4 (i % 4 + j) = Fin.ofNat 4 (i + j) := by
    apply Fin.ext
    simp
  simp only [slot, capacity, hfin]

theorem slot_append (change : ImeChange) (i : Nat) :
    (q.append change).slot i =
      if (q.head + q.length) % capacity = i % capacity then change else q.slot i := by
  simp only [slot_eq_getElem, append, Fin.getElem_fin, Vector.getElem_set]
  rfl

/-! ### Appending and dropping -/

/-- A request is appended behind the live ones, if a slot is free. -/
theorem toList_append (change : ImeChange) (h : q.length < capacity) :
    (q.append change).toList = q.toList ++ [change] := by
  have hlive : ∀ i ∈ List.range q.length,
      (q.append change).slot (q.head + i) = q.slot (q.head + i) := by
    intro i hi
    have hi : i < q.length := List.mem_range.mp hi
    rw [slot_append, if_neg]
    -- The two slots are fewer than four apart.
    simp only [capacity] at h ⊢
    omega
  have hnew : (q.append change).slot (q.head + q.length) = change := by
    rw [slot_append, if_pos rfl]
  calc (q.append change).toList
      = (List.range (q.length + 1)).map fun i ↦ (q.append change).slot (q.head + i) := rfl
    _ = q.toList ++ [change] := by
      rw [List.range_succ, List.map_append, List.map_congr_left hlive, List.map_singleton, hnew]
      rfl

/-- A push into a ring with a free slot discards nothing. -/
theorem toList_push (change : ImeChange) (h : q.length < capacity) :
    (q.push change).toList = q.toList ++ [change] := by
  rw [push, if_neg (by omega), toList_append q change h]

/-- The oldest request leaves. -/
theorem toList_drop : q.drop.toList = q.toList.tail := by
  have hslot : ∀ i, q.drop.slot (q.drop.head + i) = q.slot (q.head + (i + 1)) := by
    intro i
    calc q.drop.slot (q.drop.head + i)
        = q.slot ((q.head + 1) % capacity + i) := rfl
      _ = q.slot (q.head + (i + 1)) := by rw [slot_mod_add, Nat.add_assoc, Nat.add_comm 1 i]
  cases hlen : q.length with
  | zero => simp [toList, drop, hlen]
  | succ n =>
    have hdrop : q.drop.length = n := by simp [drop, hlen]
    simp only [toList, hdrop, hslot, hlen, List.range_succ_eq_map, List.map_cons, List.tail_cons,
      List.map_map]
    rfl

/-- A push into a full ring discards the oldest request. -/
theorem toList_push_of_full (change : ImeChange) (h : q.length = capacity) :
    (q.push change).toList = q.toList.tail ++ [change] := by
  have hroom : q.drop.length < capacity := by
    simp only [drop, h, capacity]
    decide
  rw [push, if_pos h, toList_append _ _ hroom, toList_drop]

theorem length_push_le (change : ImeChange) (h : q.length ≤ capacity) :
    (q.push change).length ≤ capacity := by
  unfold push
  split
  · next hfull => simp [append, drop, hfull, capacity]
  · next hroom => exact Nat.lt_of_le_of_ne h hroom

/-! ### Taking what is due -/

section PopDue

variable {q} {clock : Nat} {oldest : ImeChange} {rest : List ImeChange}

theorem slot_head_of_cons (h : q.toList = oldest :: rest) : q.slot q.head = oldest := by
  cases hlen : q.length with
  | zero => simp [toList_eq_nil_iff.mpr hlen] at h
  | succ n =>
    simp only [toList, hlen, List.range_succ_eq_map, List.map_cons] at h
    exact (List.cons.inj h).1

/-- There is nothing to take from an empty queue. -/
theorem popDue_of_nil (h : q.toList = []) : q.popDue clock = none := by
  rw [popDue, if_pos (toList_eq_nil_iff.mp h)]

/-- The oldest request is taken once its tick has passed. -/
theorem popDue_of_lt (h : q.toList = oldest :: rest) (hdue : oldest.due < clock) :
    q.popDue clock = some (oldest, q.drop) := by
  have hlen : q.length ≠ 0 := fun h0 ↦ by simp [toList_eq_nil_iff.mpr h0] at h
  simp only [popDue, if_neg hlen, slot_head_of_cons h, if_neg (Nat.not_le.mpr hdue)]

/-- Until then it keeps the others waiting. -/
theorem popDue_of_le (h : q.toList = oldest :: rest) (hdue : clock ≤ oldest.due) :
    q.popDue clock = none := by
  have hlen : q.length ≠ 0 := fun h0 ↦ by simp [toList_eq_nil_iff.mpr h0] at h
  simp only [popDue, if_neg hlen, slot_head_of_cons h, if_pos hdue]

end PopDue

/-! ### Rings with the same live requests -/

/-- Two rings that hold the same live requests, and no more of them than they have slots. -/
structure Alike (q r : ImeQueue) : Prop where
  /-- The live requests are the same. -/
  toList_eq : q.toList = r.toList
  /-- There is a slot for each of them. -/
  length_le : q.length ≤ capacity

section Alike

variable {q r : ImeQueue}

/-- Queues that are alike are of the same length. -/
theorem Alike.length_eq (h : q.Alike r) : q.length = r.length := by
  rw [← length_toList, h.toList_eq, length_toList]

/-- Queues that are cleared are alike. -/
theorem alike_clear (q r : ImeQueue) : q.clear.Alike r.clear := ⟨rfl, Nat.zero_le _⟩

/-- They stay alike when the same request is added. -/
theorem Alike.push (h : q.Alike r) (change : ImeChange) : (q.push change).Alike (r.push change) := by
  refine ⟨?_, q.length_push_le change h.length_le⟩
  by_cases hfull : q.length = capacity
  · rw [toList_push_of_full q change hfull,
      toList_push_of_full r change (h.length_eq.symm.trans hfull), h.toList_eq]
  · have hroom : q.length < capacity := Nat.lt_of_le_of_ne h.length_le hfull
    rw [toList_push q change hroom, toList_push r change (h.length_eq ▸ hroom), h.toList_eq]

/-- They stay alike when the oldest request is dropped. -/
theorem Alike.drop (h : q.Alike r) : q.drop.Alike r.drop := by
  refine ⟨?_, Nat.le_trans (Nat.sub_le ..) h.length_le⟩
  rw [toList_drop, toList_drop, h.toList_eq]

/-- Either nothing is due in both rings, or the same request is. -/
theorem Alike.popDue (h : q.Alike r) (clock : Nat) :
    (q.popDue clock = none ∧ r.popDue clock = none) ∨
      ∃ change, q.popDue clock = some (change, q.drop) ∧
        r.popDue clock = some (change, r.drop) := by
  cases hq : q.toList with
  | nil => exact .inl ⟨popDue_of_nil hq, popDue_of_nil (h.toList_eq ▸ hq)⟩
  | cons oldest rest =>
    have hr : r.toList = oldest :: rest := h.toList_eq ▸ hq
    by_cases hdue : oldest.due < clock
    · exact .inr ⟨oldest, popDue_of_lt hq hdue, popDue_of_lt hr hdue⟩
    · have hdue := Nat.le_of_not_lt hdue
      exact .inl ⟨popDue_of_le hq hdue, popDue_of_le hr hdue⟩

end Alike

end GameBoy.ImeQueue
