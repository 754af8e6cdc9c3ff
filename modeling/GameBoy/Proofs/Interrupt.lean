import GameBoy.Interrupt
import Mathlib.Order.Bounds.Basic

/-!
# Sets of interrupt sources

A set of sources is known by its members (`InterruptSet.ext`), and union, intersection and removal
say what they do to membership. As a byte it has a bit for each member, at the index of the source,
and no other bit; so set operations are operations on the five low bits of bytes.

The most urgent member is the one whose bit is the lowest (`isLeast_of_highest?`). `toList` has all
members in the order of their urgency: taking the most urgent one out leaves the tail.
-/

namespace GameBoy

/-- The byte in which only the bit of the source is set. -/
def Interrupt.mask (i : Interrupt) : UInt8 := UInt8.ofNat (1 <<< i.index)

theorem Interrupt.index_lt (i : Interrupt) : i.index < 5 := by
  cases i <;> decide

theorem Interrupt.exists_index {n : Nat} (h : n < 5) : ∃ i : Interrupt, i.index = n := by
  match n, h with
  | 0, _ => exact ⟨.vblank, rfl⟩
  | 1, _ => exact ⟨.lcdStat, rfl⟩
  | 2, _ => exact ⟨.timer, rfl⟩
  | 3, _ => exact ⟨.serial, rfl⟩
  | 4, _ => exact ⟨.joypad, rfl⟩

/-- Sources are told apart by their numbers. -/
theorem Interrupt.index_injective {i j : Interrupt} (h : i.index = j.index) : i = j := by
  cases i <;> cases j <;> first | rfl | cases h

/-- The sources stand in the priority list in the order of their bits. -/
theorem Interrupt.index_getElem_priority {n : Nat} (h : n < priority.length) :
    priority[n].index = n := by
  match n, h with
  | 0, _ | 1, _ | 2, _ | 3, _ | 4, _ => rfl

theorem Interrupt.mem_priority (i : Interrupt) : i ∈ priority := by
  cases i <;> decide

namespace InterruptSet

variable {s t u : InterruptSet} {i j : Interrupt}

/-! ### Members -/

/-- Sets with the same members are equal. -/
theorem ext (h : ∀ i, i ∈ s ↔ i ∈ t) : s = t := by
  obtain ⟨s⟩ := s
  obtain ⟨t⟩ := t
  have hbits : s = t := by
    apply BitVec.eq_of_getLsbD_eq
    intro n hn
    obtain ⟨i, rfl⟩ := Interrupt.exists_index hn
    exact Bool.eq_iff_iff.mpr (h i)
  rw [hbits]

/-- Membership in the empty set. -/
@[simp] theorem not_mem_empty : i ∉ (∅ : InterruptSet) := by
  change ¬ (0 : BitVec 5).getLsbD i.index = true
  simp

/-- Membership in a union. -/
@[simp] theorem mem_union : i ∈ s ∪ t ↔ i ∈ s ∨ i ∈ t := by
  change (s.bits ||| t.bits).getLsbD i.index = true ↔ _
  rw [BitVec.getLsbD_or, Bool.or_eq_true]
  rfl

/-- Membership in an intersection. -/
@[simp] theorem mem_inter : i ∈ s ∩ t ↔ i ∈ s ∧ i ∈ t := by
  change (s.bits &&& t.bits).getLsbD i.index = true ↔ _
  rw [BitVec.getLsbD_and, Bool.and_eq_true]
  rfl

/-- Membership in a set with one source. -/
@[simp] theorem mem_singleton : i ∈ ({j} : InterruptSet) ↔ i = j := by
  change (BitVec.twoPow 5 j.index).getLsbD i.index = true ↔ _
  rw [BitVec.getLsbD_twoPow]
  constructor
  · intro h
    simp only [Bool.and_eq_true, decide_eq_true_eq] at h
    exact (Interrupt.index_injective h.2).symm
  · rintro rfl
    simp [i.index_lt]

/-- Membership in a set with one source more. -/
@[simp] theorem mem_insert : i ∈ s.insert j ↔ i ∈ s ∨ i = j := by
  rw [insert, mem_union, mem_singleton]

/-- Membership in a set with one source less. -/
@[simp] theorem mem_erase : i ∈ s.erase j ↔ i ∈ s ∧ i ≠ j := by
  change (s.bits &&& ~~~ BitVec.twoPow 5 j.index).getLsbD i.index = true ↔ _
  have honly : (BitVec.twoPow 5 j.index).getLsbD i.index = true ↔ i = j := mem_singleton
  rw [BitVec.getLsbD_and, BitVec.getLsbD_not, decide_eq_true i.index_lt, Bool.true_and,
    Bool.and_eq_true, Bool.not_eq_true', ← Bool.not_eq_true, honly]
  rfl

/-- Membership in a difference. -/
@[simp] theorem mem_sdiff : i ∈ s \ t ↔ i ∈ s ∧ i ∉ t := by
  change (s.bits &&& ~~~ t.bits).getLsbD i.index = true ↔ _
  rw [BitVec.getLsbD_and, BitVec.getLsbD_not, decide_eq_true i.index_lt, Bool.true_and,
    Bool.and_eq_true, Bool.not_eq_true', ← Bool.not_eq_true]
  rfl

/-! ### Unions -/

/-- It does not matter in which order requests are collected. -/
theorem union_assoc (s t u : InterruptSet) : s ∪ t ∪ u = s ∪ (t ∪ u) :=
  ext fun i ↦ by simp [or_assoc]

/-- Nothing more is requested. -/
@[simp] theorem union_empty (s : InterruptSet) : s ∪ ∅ = s := ext fun i ↦ by simp

/-- Nothing was requested before. -/
@[simp] theorem empty_union (s : InterruptSet) : ∅ ∪ s = s := ext fun i ↦ by simp

/-- A request is added to what is pending already. -/
theorem insert_eq_union (s : InterruptSet) (i : Interrupt) :
    s.insert i = s ∪ (∅ : InterruptSet).insert i :=
  ext fun j ↦ by simp

/-! ### Sets as bytes -/

theorem toNat_toByte (s : InterruptSet) : s.toByte.toNat = s.bits.toNat := by
  have := s.bits.isLt
  simp only [toByte, UInt8.toNat_ofNat']
  omega

/-- The bits of the byte are the members of the set. -/
theorem testBit_toByte : s.toByte.toNat.testBit i.index = true ↔ i ∈ s := by
  rw [toNat_toByte]
  exact Iff.rfl

/-- A byte keeps the five bits that are sources. -/
theorem toByte_ofByte (v : UInt8) : (ofByte v).toByte = v &&& 0x1F := by
  apply UInt8.toNat_inj.mp
  rw [toNat_toByte, UInt8.toNat_and]
  exact (Nat.and_two_pow_sub_one_eq_mod v.toNat 5).symm

/-- The upper bits of a byte name no source. -/
theorem ofByte_toByte_or (s : InterruptSet) : ofByte (s.toByte ||| 0xE0) = s := by
  obtain ⟨bits⟩ := s
  revert bits
  decide

/-- The other three do not matter. -/
theorem ofByte_and (v : UInt8) : ofByte (v &&& 0x1F) = ofByte v := by
  rw [← toByte_ofByte, ofByte_toByte]

/-- An intersection is taken bit by bit. -/
theorem toByte_inter (s t : InterruptSet) : (s ∩ t).toByte = s.toByte &&& t.toByte := by
  apply UInt8.toNat_inj.mp
  rw [UInt8.toNat_and, toNat_toByte, toNat_toByte, toNat_toByte]
  exact BitVec.toNat_and ..

theorem toBitVec_toByte (s : InterruptSet) : s.toByte.toBitVec = s.bits.setWidth 8 := by
  apply BitVec.eq_of_toNat_eq
  have hlt := s.bits.isLt
  rw [BitVec.toNat_setWidth, UInt8.toNat_toBitVec, toNat_toByte]
  omega

/-- Removing a source clears its bit. -/
theorem toByte_erase (s : InterruptSet) (i : Interrupt) :
    (s.erase i).toByte = s.toByte &&& ~~~ i.mask := by
  have hmask : i.mask.toBitVec = BitVec.twoPow 8 i.index := by
    cases i <;> rfl
  have hbits : (s.erase i).bits = s.bits &&& ~~~ BitVec.twoPow 5 i.index := rfl
  apply UInt8.eq_of_toBitVec_eq
  rw [UInt8.toBitVec_and, UInt8.toBitVec_not, hmask, toBitVec_toByte, toBitVec_toByte, hbits]
  apply BitVec.eq_of_getLsbD_eq
  intro n hn
  by_cases hn5 : n < 5
  · simp [hn, hn5]
  · -- Neither side has a bit there.
    simp [BitVec.getLsbD_of_ge s.bits n (Nat.le_of_not_lt hn5)]

/-- So is a difference. -/
theorem toByte_sdiff (s t : InterruptSet) : (s \ t).toByte = s.toByte &&& ~~~ t.toByte := by
  have hbits : (s \ t).bits = s.bits &&& ~~~ t.bits := rfl
  apply UInt8.eq_of_toBitVec_eq
  rw [UInt8.toBitVec_and, UInt8.toBitVec_not, toBitVec_toByte, toBitVec_toByte, toBitVec_toByte,
    hbits]
  apply BitVec.eq_of_getLsbD_eq
  intro n hn
  by_cases hn5 : n < 5
  · simp [hn, hn5]
  · -- Neither side has a bit there.
    simp [BitVec.getLsbD_of_ge s.bits n (Nat.le_of_not_lt hn5)]

/-- The byte of a set is zero when there is nothing in the set. -/
theorem toByte_eq_zero_iff : s.toByte = 0 ↔ ∀ i, i ∉ s := by
  constructor
  · intro h i hi
    rw [← testBit_toByte, h] at hi
    simp at hi
  · intro h
    have hempty : s = ∅ := ext fun i ↦ by simp [h i]
    rw [hempty]
    rfl

/-! ### The most urgent member -/

/-- There is no highest source when there is none. -/
theorem highest?_eq_none_iff : s.highest? = none ↔ s.toByte = 0 := by
  rw [toByte_eq_zero_iff, highest?, List.find?_eq_none]
  constructor
  · intro h i
    simpa using h i i.mem_priority
  · intro h i _
    simpa using h i

/-- The highest source is one of them. -/
theorem mem_of_highest? (h : s.highest? = some i) : i ∈ s := by
  simpa using List.find?_some h

/-- **The most urgent member has the lowest bit.** -/
theorem isLeast_of_highest? (h : s.highest? = some i) :
    IsLeast { n | s.toByte.toNat.testBit n = true } i.index := by
  obtain ⟨hi, n, hn, hni, hbefore⟩ := List.find?_eq_some_iff_getElem.mp h
  have hindex : i.index = n := by
    rw [← hni]
    exact Interrupt.index_getElem_priority hn
  refine ⟨testBit_toByte.mpr (by simpa using hi), fun k hk ↦ ?_⟩
  by_contra hlt
  have hlt : k < n := by omega
  have hlength : k < Interrupt.priority.length := Nat.lt_trans hlt hn
  obtain ⟨j, rfl⟩ := Interrupt.exists_index hlength
  have hj := hbefore j.index hlt
  have hpriority : Interrupt.priority[j.index] = j :=
    Interrupt.index_injective (Interrupt.index_getElem_priority hlength)
  rw [hpriority] at hj
  exact absurd (testBit_toByte.mp hk) (by simpa using hj)

/-! ### The members in order -/

/-- The members, the most urgent one first. -/
def toList (s : InterruptSet) : List Interrupt := Interrupt.priority.filter (· ∈ s)

/-- The list of the sources has all of them. -/
@[simp] theorem mem_toList : i ∈ s.toList ↔ i ∈ s := by
  simp [toList, i.mem_priority]

/-- The most urgent member comes first. -/
theorem head?_toList (s : InterruptSet) : s.toList.head? = s.highest? := List.head?_filter

/-- The others follow in their order. -/
theorem toList_erase (h : s.highest? = some i) : (s.erase i).toList = s.toList.tail := by
  obtain ⟨bits⟩ := s
  revert bits
  cases i <;> decide

end InterruptSet

end GameBoy
