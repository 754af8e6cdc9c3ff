import GameBoy.Device.ObjectCopy
import GameBoy.Proofs.Device.Strides

/-!
# How far a copy reaches

A copy into object memory takes its bytes from below object memory, and its offset stays below the
number of bytes to be copied (`ObjectCopy.InRange`). So the engine reads nothing that it has
written, and whatever it has copied after some advances is what stood in the source when they began
(`ObjectCopy.Channel.Copies`).

Once a byte has been written to the copy register, the number of advances made since then says
everything about the engine (`ObjectCopy.Begun`). Each advance adds one, so the first 160 of them
copy a byte each, and those after them copy nothing.
-/

namespace GameBoy.ObjectCopy

namespace Channel

variable (c : Channel) (requests : InterruptSet)

/-! ### One advance -/

theorem source_advance : (c.advance requests).1.engine.source = c.engine.source := by
  cases hnext : c.engine.next with
  | none => simp only [advance, hnext]
  | some i => simp only [advance, hnext, copy]

/-- A copy that goes on goes on with the next byte. -/
theorem next_advance {j : Nat} (h : (c.advance requests).1.engine.next = some j) :
    j < length ∧ ∃ i < j, c.engine.next = some i := by
  cases hnext : c.engine.next with
  | none => simp [advance, hnext] at h
  | some i =>
    simp only [advance, hnext, copy] at h
    by_cases hlast : i + 1 < length
    · rw [if_pos hlast] at h
      obtain rfl := Option.some.inj h
      exact ⟨hlast, i, Nat.lt_succ_self i, rfl⟩
    · simp [if_neg hlast] at h

/-- **What an advance does to memory**: the next byte is copied, if there is one. -/
theorem get_advance (a : UInt16) :
    (c.advance requests).1.memory.get a = c.memory.get a ∨
      ∃ i, c.engine.next = some i ∧ a = target + UInt16.ofNat i ∧
        (c.advance requests).1.memory.get a =
          c.memory.get (c.engine.source + UInt16.ofNat i) := by
  cases hnext : c.engine.next with
  | none =>
    left
    simp only [advance, hnext]
  | some i =>
    simp only [advance, hnext, copy]
    by_cases ha : target + UInt16.ofNat i = a
    · exact .inr ⟨i, rfl, ha.symm, by rw [ha, Memory.get_set_self]⟩
    · exact .inl (Memory.get_set_of_ne _ _ ha)

end Channel

/-! ### The bytes that a copy reaches -/

/-- The source lies below object memory, and the next byte to copy is one of those to be copied. -/
structure InRange (d : ObjectCopy) : Prop where
  /-- The last page that can be selected is the one before the pages seen twice. -/
  source_le : d.source.toNat ≤ 0xDF00
  /-- There are so many bytes to be copied. -/
  next_lt : ∀ i, d.next = some i → i < length

/-- No copy is under way when power is switched on. -/
theorem inRange_powerOn : InRange {} := ⟨by decide, fun i hi ↦ nomatch hi⟩

/-- Where the source begins: with the page that is selected, or 32 pages lower if that page shows
work memory again. -/
def pageStart (v : UInt8) : Nat := if v < 0xE0 then 256 * v.toNat else 256 * (v.toNat - 0x20)

/-- The source of a copy begins with its page. -/
theorem toNat_sourceOf (v : UInt8) : (sourceOf v).toNat = pageStart v := by
  have hzero : (0 : UInt8).toNat = 0 := rfl
  rw [sourceOf, toNat_word, hzero, Nat.add_zero, pageStart]
  split
  · rfl
  · next hhigh =>
    have hback : (v - 0x20).toNat = v.toNat - 0x20 :=
      UInt8.toNat_sub_of_le _ _ (UInt8.le_trans (by decide) (UInt8.not_lt.mp hhigh))
    rw [hback]

/-- It begins below the pages that show work memory again. -/
theorem pageStart_le (v : UInt8) : pageStart v ≤ 0xDF00 := by
  have hv := v.toNat_lt
  unfold pageStart
  split
  · next hlow =>
    have hlow : v.toNat < 0xE0 := UInt8.lt_iff_toNat_lt.mp hlow
    omega
  · omega

theorem toNat_sourceOf_le (v : UInt8) : (sourceOf v).toNat ≤ 0xDF00 :=
  Nat.le_trans (Nat.le_of_eq (toNat_sourceOf v)) (pageStart_le v)

/-- The addresses that a copy reads do not wrap around. -/
theorem sourceOf_add (v : UInt8) (i : Nat) :
    sourceOf v + UInt16.ofNat i = UInt16.ofNat (pageStart v + i) := by
  rw [UInt16.ofNat_add, ← toNat_sourceOf, UInt16.ofNat_toNat]

/-- A copy begins in range, whichever page is selected. -/
theorem inRange_start (d : ObjectCopy) (v : UInt8) : (d.start v).InRange where
  source_le := toNat_sourceOf_le v
  next_lt i hi := by
    obtain rfl : 0 = i := Option.some.inj hi
    decide

/-- A copy stays in range as it goes on. -/
theorem InRange.advance {c : Channel} (h : c.engine.InRange) (requests : InterruptSet) :
    (c.advance requests).1.engine.InRange where
  source_le := by
    rw [c.source_advance]
    exact h.source_le
  next_lt _ hj := (c.next_advance requests hj).1

/-- The addresses that a copy writes to are those of the objects. -/
theorem toNat_target_add {i : Nat} (hi : i < length) :
    (target + UInt16.ofNat i).toNat = 0xFE00 + i := by
  have htarget : target.toNat = 0xFE00 := rfl
  have hlength : length = 160 := rfl
  rw [UInt16.toNat_add, UInt16.toNat_ofNat', htarget]
  omega

/-- No byte of the source lies in object memory. -/
theorem InRange.source_ne_target {d : ObjectCopy} (h : d.InRange) {i j : Nat} (hi : i < length)
    (hj : j < length) : d.source + UInt16.ofNat i ≠ target + UInt16.ofNat j := by
  have hsource := h.source_le
  have hlength : length = 160 := rfl
  intro heq
  have heq := congrArg UInt16.toNat heq
  rw [toNat_target_add hj, UInt16.toNat_add, UInt16.toNat_ofNat'] at heq
  omega

/-! ### Several advances -/

namespace Channel

/-- **What some advances have done to memory.** A byte is as it was, or it is one of those that were
still to be copied, and then it is the byte that stood in its place in the source. -/
structure Copies (c c' : Channel) : Prop where
  /-- The source is the same. -/
  source_eq : c'.engine.source = c.engine.source
  /-- No copy has begun, and none has gone back. -/
  next_le : ∀ j, c'.engine.next = some j → ∃ i ≤ j, c.engine.next = some i
  /-- What is in memory. -/
  get_eq : ∀ a, c'.memory.get a = c.memory.get a ∨
    ∃ i j, c.engine.next = some i ∧ i ≤ j ∧ j < length ∧ a = target + UInt16.ofNat j ∧
      c'.memory.get a = c.memory.get (c.engine.source + UInt16.ofNat j)

variable {c c' : Channel}

/-- Nothing has been copied. -/
theorem Copies.refl (c : Channel) : Copies c c where
  source_eq := rfl
  next_le j hj := ⟨j, le_rfl, hj⟩
  get_eq _ := .inl rfl

/-- The bytes still to be copied are found in the source as they were. -/
theorem Copies.get_source (h : Copies c c') (hrange : c'.engine.InRange) {j : Nat}
    (hj : j < length) :
    c'.memory.get (c'.engine.source + UInt16.ofNat j) =
      c.memory.get (c.engine.source + UInt16.ofNat j) := by
  rw [← h.source_eq]
  rcases h.get_eq (c'.engine.source + UInt16.ofNat j) with hsame | ⟨-, k, -, -, hk, heq, -⟩
  · exact hsame
  · exact absurd heq (hrange.source_ne_target hj hk)

/-- **One more advance.** -/
theorem Copies.advance (h : Copies c c') (hrange : c'.engine.InRange) (requests : InterruptSet) :
    Copies c (c'.advance requests).1 where
  source_eq := (c'.source_advance requests).trans h.source_eq
  next_le k hk := by
    obtain ⟨-, j, hjk, hj⟩ := c'.next_advance requests hk
    obtain ⟨i, hij, hi⟩ := h.next_le j hj
    exact ⟨i, by omega, hi⟩
  get_eq a := by
    rcases c'.get_advance requests a with hsame | ⟨j, hnext, ha, hcopied⟩
    · rw [hsame]
      exact h.get_eq a
    · obtain ⟨i, hij, hi⟩ := h.next_le j hnext
      have hj := hrange.next_lt j hnext
      exact .inr ⟨i, j, hi, hij, hj, ha, hcopied.trans (h.get_source hrange hj)⟩

end Channel

/-! ### How far a copy has come -/

/-- The engine has made `n` advances since the byte `v` was written to its register, and the clock
showed `start` at the time. -/
structure Begun (v : UInt8) (start n : Nat) (d : ObjectCopy) : Prop where
  /-- Each advance has taken its time. -/
  clock_eq : d.clock = start + stride * n
  /-- The page is the one that was written. -/
  source_eq : d.source = sourceOf v
  /-- So many bytes have been copied, or all of them. -/
  next_eq : d.next = if n < length then some n else none

variable {v : UInt8} {start n : Nat}

/-- A copy that has just been started. -/
theorem begun_start (d : ObjectCopy) (v : UInt8) : Begun v d.clock 0 (d.start v) := ⟨rfl, rfl, rfl⟩

/-- A copy is under way until its last byte has been copied. -/
theorem Begun.active_iff {d : ObjectCopy} (h : Begun v start n d) :
    d.active = true ↔ n < length := by
  rw [active, h.next_eq]
  split
  · next hmore => exact iff_of_true rfl hmore
  · next hdone => exact iff_of_false Bool.false_ne_true hdone

section Advance

variable {c : Channel} (h : Begun v start n c.engine) (requests : InterruptSet)
include h

/-- **One advance more.** -/
theorem Begun.advance : Begun v start (n + 1) (c.advance requests).1.engine where
  clock_eq := by
    rw [c.clock_advance, h.clock_eq, Nat.mul_succ, Nat.add_assoc]
  source_eq := (c.source_advance requests).trans h.source_eq
  next_eq := by
    by_cases hmore : n < length
    · have hnext : c.engine.next = some n := h.next_eq.trans (if_pos hmore)
      simp only [Channel.advance, hnext, Channel.copy]
    · have hnext : c.engine.next = none := h.next_eq.trans (if_neg hmore)
      have hdone : ¬ n + 1 < length := fun hlt ↦ hmore (Nat.lt_of_succ_lt hlt)
      simp only [Channel.advance, hnext, if_neg hdone]

/-- An advance copies one byte. -/
theorem Begun.memory_advance (hmore : n < length) :
    (c.advance requests).1.memory = c.memory.set (target + UInt16.ofNat n)
      (c.memory.get (sourceOf v + UInt16.ofNat n)) := by
  have hnext : c.engine.next = some n := h.next_eq.trans (if_pos hmore)
  simp only [Channel.advance, hnext, Channel.copy, h.source_eq]

/-- When the copy is over, an advance copies nothing. -/
theorem Begun.memory_advance_of_le (hdone : length ≤ n) :
    (c.advance requests).1.memory = c.memory := by
  have hnext : c.engine.next = none := h.next_eq.trans (if_neg (Nat.not_lt.mpr hdone))
  simp only [Channel.advance, hnext]

end Advance

end GameBoy.ObjectCopy
