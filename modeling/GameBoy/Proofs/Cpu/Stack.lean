import GameBoy.Cpu.Board

/-!
# The stack

Words that are pushed lie below the stack pointer, two bytes each, the low byte first. Addresses go
round: below address 0 lies 0xFFFF, so a word may be stored at both ends of memory. Nothing else
is special there, as long as the words have room in memory.

* Only the bytes below the stack pointer are changed, two for each word (`get_pushWords`).
* Every word that has been pushed can be read where it lies (`readWord_pushWords`). The words that
  are pushed after it are stored further below, and do not come round to it.
* What is popped are the words in reverse order, and all that popping changes is the stack pointer
  (`popWords_pushWords`). It ends where it was in the beginning (`popWords_length_pushWords`).

A push moves the stack pointer down byte by byte, and a pop moves it up by two at once. It is in
`popWords_eq` and `cpu_pushWords` that the two ways are brought together.
-/

namespace GameBoy

/-! ### Addresses -/

/-- So many addresses below an address, the nearest one first. -/
def addressesBelow (a : UInt16) (count : Nat) : List UInt16 :=
  (List.range count).map fun i ↦ a - UInt16.ofNat (i + 1)

section Addresses

variable {a b : UInt16} {count : Nat}

theorem addressesBelow_add (a : UInt16) (n m : Nat) :
    addressesBelow a (n + m) = addressesBelow a n ++ addressesBelow (a - UInt16.ofNat n) m := by
  have hfurther (i : Nat) :
      a - UInt16.ofNat (n + i + 1) = a - UInt16.ofNat n - UInt16.ofNat (i + 1) := by
    rw [Nat.add_assoc, UInt16.ofNat_add]
    grind
  simp only [addressesBelow, List.range_add, List.map_append, List.map_map, Function.comp_def,
    hfurther]

/-- An address is among those below another one if going down leads to it soon enough. -/
theorem mem_addressesBelow : b ∈ addressesBelow a count ↔ (a - 1 - b).toNat < count := by
  simp only [addressesBelow, List.mem_map, List.mem_range]
  constructor
  · rintro ⟨i, hi, rfl⟩
    have hsteps : a - 1 - (a - UInt16.ofNat (i + 1)) = UInt16.ofNat i := by
      rw [UInt16.ofNat_add]
      grind
    rw [hsteps, UInt16.toNat_ofNat']
    exact Nat.lt_of_le_of_lt (Nat.mod_le ..) hi
  · intro hsoon
    refine ⟨(a - 1 - b).toNat, hsoon, ?_⟩
    rw [UInt16.ofNat_add, UInt16.ofNat_toNat]
    grind

/-- Going down from an address does not lead back to it, unless it leads through all of memory. -/
theorem not_mem_addressesBelow_self (h : count < 65536) : a ∉ addressesBelow a count := by
  have hround : (a - 1 - a).toNat = 65535 := by
    have hlast : a - 1 - a = 0xFFFF := by grind
    rw [hlast]
    rfl
  rw [mem_addressesBelow, hround]
  omega

theorem add_one_not_mem_addressesBelow (h : count < 65535) : a + 1 ∉ addressesBelow a count := by
  have hround : (a - 1 - (a + 1)).toNat = 65534 := by
    have hlast : a - 1 - (a + 1) = 0xFFFE := by grind
    rw [hlast]
    rfl
  rw [mem_addressesBelow, hround]
  omega

end Addresses

namespace Board

/-! ### Several words -/

section Port

variable {M : Type} [Port M]

/-- Pushes words, one after the other. -/
def pushWords (s : Board M) (words : List UInt16) : Board M := words.foldl pushWord s

/-- Pops so many words. The word that is popped first comes first. -/
def popWords (s : Board M) : Nat → List UInt16 × Board M
  | 0 => ([], s)
  | n + 1 =>
    let (w, s) := s.popWord
    let (words, s) := s.popWords n
    (w :: words, s)

/-- The word that is pushed last is pushed onto the others. -/
theorem pushWords_append_singleton (s : Board M) (words : List UInt16) (w : UInt16) :
    s.pushWords (words ++ [w]) = (s.pushWords words).pushWord w := by
  simp only [pushWords, List.foldl_append, List.foldl_cons, List.foldl_nil]

/-- A push moves the stack pointer down by two. -/
theorem cpu_pushWord (s : Board M) (w : UInt16) :
    (s.pushWord w).cpu = (s.setSP (s.cpu.regs.sp - 2)).cpu := by
  have htwo : s.cpu.regs.sp - 2 = s.cpu.regs.sp - 1 - 1 := by grind
  rw [htwo]
  rfl

/-- Pushes change nothing of the CPU but the stack pointer. -/
theorem cpu_pushWords (s : Board M) (words : List UInt16) :
    (s.pushWords words).cpu =
      (s.setSP (s.cpu.regs.sp - UInt16.ofNat (2 * words.length))).cpu := by
  induction words generalizing s with
  | nil =>
    have hsame : s.cpu.regs.sp - UInt16.ofNat (2 * 0) = s.cpu.regs.sp := UInt16.sub_zero _
    rw [List.length_nil, hsame]
    rfl
  | cons w words ih =>
    have hdown : s.cpu.regs.sp - UInt16.ofNat (2 * (words.length + 1)) =
        s.cpu.regs.sp - 2 - UInt16.ofNat (2 * words.length) := by
      rw [Nat.mul_succ, UInt16.ofNat_add]
      grind
    refine (ih (s.pushWord w)).trans ?_
    rw [List.length_cons, hdown]
    simp only [setSP, setRegs, cpu_pushWord]

end Port

variable (s : Board Memory)

/-! ### What is stored -/

/-- **A word is stored below the stack pointer**, its low byte at the lower address. -/
theorem bus_pushWord (w : UInt16) :
    (s.pushWord w).bus =
      (s.bus.set (s.cpu.regs.sp - 1) (highByte w)).set (s.cpu.regs.sp - 2) (lowByte w) := by
  have htwo : s.cpu.regs.sp - 2 = s.cpu.regs.sp - 1 - 1 := by grind
  rw [htwo]
  rfl

theorem get_pushWord (w a : UInt16) :
    (s.pushWord w).bus.get a =
      if a = s.cpu.regs.sp - 2 then lowByte w
      else if a = s.cpu.regs.sp - 1 then highByte w
      else s.bus.get a := by
  rw [bus_pushWord, Memory.get_set, Memory.get_set]
  simp only [eq_comm]

theorem readWord_pushWord (w : UInt16) :
    (Port.readWord (s.pushWord w).bus (s.cpu.regs.sp - 2)).1 = w := by
  have habove : s.cpu.regs.sp - 2 + 1 = s.cpu.regs.sp - 1 := by grind
  have hne : s.cpu.regs.sp - 1 ≠ s.cpu.regs.sp - 2 := by grind
  have hword : (Port.readWord (s.pushWord w).bus (s.cpu.regs.sp - 2)).1 =
      word ((s.pushWord w).bus.get (s.cpu.regs.sp - 2 + 1))
        ((s.pushWord w).bus.get (s.cpu.regs.sp - 2)) := rfl
  rw [hword, habove, get_pushWord, get_pushWord, if_neg hne, if_pos rfl, if_pos rfl,
    word_highByte_lowByte]

/-- **Only the bytes below the stack pointer are changed**, two for each word. -/
theorem get_pushWords {words : List UInt16} {a : UInt16}
    (h : a ∉ addressesBelow s.cpu.regs.sp (2 * words.length)) :
    (s.pushWords words).bus.get a = s.bus.get a := by
  induction words generalizing s with
  | nil => rfl
  | cons w words ih =>
    rw [List.length_cons, Nat.mul_succ, Nat.add_comm, addressesBelow_add, List.mem_append,
      not_or] at h
    obtain ⟨hhere, hfurther⟩ := h
    have hsp : (s.pushWord w).cpu.regs.sp = s.cpu.regs.sp - UInt16.ofNat 2 := by
      rw [cpu_pushWord]
      rfl
    have hlow : a ≠ s.cpu.regs.sp - 2 := by
      rintro rfl
      exact hhere (List.mem_map.mpr ⟨1, by decide, rfl⟩)
    have hhigh : a ≠ s.cpu.regs.sp - 1 := by
      rintro rfl
      exact hhere (List.mem_map.mpr ⟨0, by decide, rfl⟩)
    calc (s.pushWords (w :: words)).bus.get a
        = (s.pushWord w).bus.get a := ih (s.pushWord w) (by rwa [hsp])
      _ = s.bus.get a := by rw [get_pushWord, if_neg hlow, if_neg hhigh]

/-- **Every word lies where it has been pushed to.** -/
theorem readWord_pushWords {words : List UInt16} (h : 2 * words.length ≤ 65536) {i : Nat}
    (hi : i < words.length) :
    (Port.readWord (s.pushWords words).bus
      (s.cpu.regs.sp - UInt16.ofNat (2 * (i + 1)))).1 = words[i] := by
  induction words generalizing s i with
  | nil => exact absurd hi (Nat.not_lt_zero i)
  | cons w words ih =>
    rw [List.length_cons] at h hi
    have hsp : (s.pushWord w).cpu.regs.sp = s.cpu.regs.sp - 2 := by
      rw [cpu_pushWord]
      rfl
    cases i with
    | zero =>
      -- The words that follow are stored below this one and end before they come round to it.
      have hkept (a : UInt16) (ha : a ∉ addressesBelow (s.cpu.regs.sp - 2) (2 * words.length)) :
          (s.pushWords (w :: words)).bus.get a = (s.pushWord w).bus.get a :=
        (s.pushWord w).get_pushWords (by rwa [hsp])
      have hlow := hkept _ (not_mem_addressesBelow_self (by omega))
      have hhigh := hkept _ (add_one_not_mem_addressesBelow (by omega))
      calc word ((s.pushWords (w :: words)).bus.get (s.cpu.regs.sp - 2 + 1))
            ((s.pushWords (w :: words)).bus.get (s.cpu.regs.sp - 2))
          = word ((s.pushWord w).bus.get (s.cpu.regs.sp - 2 + 1))
              ((s.pushWord w).bus.get (s.cpu.regs.sp - 2)) := by rw [hhigh, hlow]
        _ = w := s.readWord_pushWord w
    | succ i =>
      have hdown : s.cpu.regs.sp - UInt16.ofNat (2 * (i + 1 + 1)) =
          (s.pushWord w).cpu.regs.sp - UInt16.ofNat (2 * (i + 1)) := by
        rw [hsp, Nat.mul_succ 2 (i + 1), UInt16.ofNat_add]
        grind
      rw [hdown]
      exact ih (s.pushWord w) (by omega) (by omega)

/-! ### What is popped -/

/-- Popping reads one word after the other and moves the stack pointer. -/
theorem popWords_eq (n : Nat) :
    s.popWords n =
      ((List.range n).map fun i ↦ (Port.readWord s.bus (s.cpu.regs.sp + UInt16.ofNat (2 * i))).1,
        s.setSP (s.cpu.regs.sp + UInt16.ofNat (2 * n))) := by
  induction n generalizing s with
  | zero =>
    have hsame : s.cpu.regs.sp + UInt16.ofNat (2 * 0) = s.cpu.regs.sp := UInt16.add_zero _
    rw [hsame]
    rfl
  | succ n ih =>
    have hpop : s.popWord =
        ((Port.readWord s.bus s.cpu.regs.sp).1, s.setSP (s.cpu.regs.sp + 2)) := rfl
    have hup (i : Nat) : s.cpu.regs.sp + 2 + UInt16.ofNat (2 * i) =
        s.cpu.regs.sp + UInt16.ofNat (2 * (i + 1)) := by
      rw [Nat.mul_succ, UInt16.ofNat_add]
      grind
    have hfirst : s.cpu.regs.sp + UInt16.ofNat (2 * 0) = s.cpu.regs.sp := UInt16.add_zero _
    simp only [popWords, hpop, ih]
    simp only [setSP, setRegs, hup, List.range_succ_eq_map, List.map_cons, List.map_map, hfirst]
    rfl

/-- **The last word that has been pushed is the first one that is popped.** Pushing has room in
memory, and no more is popped than has been pushed. -/
theorem popWords_pushWords {words : List UInt16} (h : 2 * words.length ≤ 65536) {n : Nat}
    (hn : n ≤ words.length) :
    (s.pushWords words).popWords n =
      (words.reverse.take n,
        (s.pushWords words).setSP
          (s.cpu.regs.sp - UInt16.ofNat (2 * (words.length - n)))) := by
  have hsp : (s.pushWords words).cpu.regs.sp =
      s.cpu.regs.sp - UInt16.ofNat (2 * words.length) := by
    rw [cpu_pushWords]
    rfl
  have hup {i : Nat} (hi : i ≤ words.length) :
      s.cpu.regs.sp - UInt16.ofNat (2 * words.length) + UInt16.ofNat (2 * i) =
        s.cpu.regs.sp - UInt16.ofNat (2 * (words.length - i)) := by
    have hsplit : 2 * words.length = 2 * (words.length - i) + 2 * i := by omega
    rw [hsplit, UInt16.ofNat_add]
    grind
  rw [popWords_eq, hsp, hup hn]
  refine congrArg (·, _) (List.ext_getElem (by simp [hn]) fun i hi hi' ↦ ?_)
  rw [List.length_map, List.length_range] at hi
  have hlast : words.length - i = words.length - 1 - i + 1 := by omega
  rw [List.getElem_map, List.getElem_range, List.getElem_take, List.getElem_reverse, hup (by omega),
    hlast]
  exact s.readWord_pushWords h (by omega)

/-- When all words have been popped, the CPU is as it was before they were pushed. -/
theorem popWords_length_pushWords {words : List UInt16} (h : 2 * words.length ≤ 65536) :
    (s.pushWords words).popWords words.length =
      (words.reverse, { s with bus := (s.pushWords words).bus }) := by
  have hback : s.cpu.regs.sp - UInt16.ofNat (2 * (words.length - words.length)) =
      s.cpu.regs.sp := by
    rw [Nat.sub_self]
    exact UInt16.sub_zero _
  rw [s.popWords_pushWords h Nat.le.refl, hback, ← List.length_reverse, List.take_length, setSP,
    setRegs, cpu_pushWords]
  rfl

end Board

end GameBoy
