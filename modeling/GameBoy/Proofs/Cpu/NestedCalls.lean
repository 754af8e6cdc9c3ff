import GameBoy.Proofs.Cpu.Digits
import GameBoy.Proofs.Cpu.Stack
import Mathlib.Logic.Function.Iterate

/-!
# Calls within calls

A call that is taken pushes the address behind it, and a return that is taken pops the address it
goes to. Of what the stack does, that is all that matters here, and so CALL and RST are the same
kind of thing (`Memory.Calls`), with a condition or without, and so are RET and RET under a
condition (`Memory.Returns`).

`Board.Nested` describes `n` calls within each other and the `n` returns from them, by the addresses
at which they stand, and by the memory as it is before the first call. The stack must not run into
them: **no byte of these instructions is among the `2 * n` bytes below the stack pointer**. That is
also why the stack has room in memory.

Of the boards in between, each is known as a whole, but for its clock (`Board.during`): the calls
leave their return addresses below the stack pointer one after the other, and the returns leave
memory alone. `Nested.executed_during` is the step from one board to the next, and
`Nested.iterate_executed` the run. What has been pushed last is popped first, and so the callers are
returned to in order (`stack_last_in_first_out`).
-/

namespace GameBoy

/-! ### Instructions that use the stack -/

section Flags

variable {cpu cpu' : Cpu}

theorem Cpu.holds_of_flags_eq (h : cpu'.regs.flags = cpu.regs.flags) (condition : Condition) :
    cpu'.holds condition = cpu.holds condition := by
  cases condition <;> simp only [Cpu.holds, h]

theorem Cpu.permits_of_flags_eq (h : cpu'.regs.flags = cpu.regs.flags)
    (guard : Option Condition) : cpu'.permits guard = cpu.permits guard := by
  cases guard with
  | none => rfl
  | some condition => exact cpu.holds_of_flags_eq h condition

end Flags

theorem Meaning.length_pos (m : Meaning) : 0 < m.length := by
  cases m with
  | primary i => cases i <;> exact Nat.succ_pos _
  | bit _ | nothing => exact Nat.succ_pos _

namespace Memory

variable (m : Memory)

/-- The addresses of the bytes that an instruction occupies. -/
def occupied (a : UInt16) : List UInt16 :=
  (List.range (m.meaning a).length).map fun i ↦ a + UInt16.ofNat i

/-- The address behind an instruction. -/
def behind (a : UInt16) : UInt16 := a + UInt16.ofNat (m.meaning a).length

/-- **A call to `target` stands at an address**, and the CPU takes it. -/
inductive Calls (cpu : Cpu) (a : UInt16) : UInt16 → Prop
  /-- The target follows the opcode. -/
  | call {guard : Option Condition} (h : m.meaning a = .primary (.call guard))
      (hpermits : cpu.permits guard = true) : Calls cpu a (word (m.get (a + 2)) (m.get (a + 1)))
  /-- The target is part of the opcode. -/
  | rst {slot : Fin 8} (h : m.meaning a = .primary (.rst slot)) :
      Calls cpu a (UInt16.ofNat (8 * slot))

/-- **A return stands at an address**, and the CPU takes it. -/
inductive Returns (cpu : Cpu) (a : UInt16) : Prop
  /-- A return without a condition. -/
  | ret (h : m.meaning a = .primary .ret)
  /-- A return under a condition that holds. -/
  | retIf {condition : Condition} (h : m.meaning a = .primary (.retIf condition))
      (hholds : cpu.holds condition = true)

variable {m} {m' : Memory} {cpu cpu' : Cpu} {a target : UInt16}

theorem add_mem_occupied {i : Nat} (h : i < (m.meaning a).length) :
    a + UInt16.ofNat i ∈ m.occupied a :=
  List.mem_map.mpr ⟨i, List.mem_range.mpr h, rfl⟩

theorem mem_occupied (m : Memory) (a : UInt16) : a ∈ m.occupied a := by
  have hfirst := add_mem_occupied (m.meaning a).length_pos
  rwa [show a + UInt16.ofNat 0 = a from UInt16.add_zero a] at hfirst

/-- The first byte of an instruction of the primary table decides about it. -/
theorem meaning_of_get_eq {i : Instruction} (h : m.meaning a = .primary i)
    (hget : m'.get a = m.get a) : m'.meaning a = .primary i := by
  unfold meaning at h ⊢
  rw [hget]
  cases hdecoded : Opcode.decode (m.get a) with
  | instruction j =>
    rw [hdecoded] at h
    exact h
  | extended | again | hole =>
    rw [hdecoded] at h
    cases h

/-- A call is the same call wherever its bytes and the flags are the same. -/
theorem Calls.of_get_eq (h : m.Calls cpu a target) (hflags : cpu'.regs.flags = cpu.regs.flags)
    (hget : ∀ b ∈ m.occupied a, m'.get b = m.get b) :
    m'.Calls cpu' a target ∧ m'.behind a = m.behind a := by
  have hfirst := hget a (m.mem_occupied a)
  cases h with
  | call h hpermits =>
    have hlength : (m.meaning a).length = 3 := congrArg Meaning.length h
    have hlow : m'.get (a + 1) = m.get (a + 1) :=
      hget _ (add_mem_occupied (by rw [hlength]; decide))
    have hhigh : m'.get (a + 2) = m.get (a + 2) :=
      hget _ (add_mem_occupied (by rw [hlength]; decide))
    have hsame := meaning_of_get_eq h hfirst
    refine ⟨?_, by rw [behind, behind, h, hsame]⟩
    rw [← hlow, ← hhigh]
    exact .call hsame ((cpu.permits_of_flags_eq hflags _).trans hpermits)
  | rst h =>
    have hsame := meaning_of_get_eq h hfirst
    exact ⟨.rst hsame, by rw [behind, behind, h, hsame]⟩

theorem Returns.of_get_eq (h : m.Returns cpu a) (hflags : cpu'.regs.flags = cpu.regs.flags)
    (hget : m'.get a = m.get a) : m'.Returns cpu' a := by
  cases h with
  | ret h => exact .ret (meaning_of_get_eq h hget)
  | retIf h hholds =>
    exact .retIf (meaning_of_get_eq h hget) ((cpu.holds_of_flags_eq hflags _).trans hholds)

end Memory

namespace Board

variable {s : Board Memory} {target : UInt16}

/-! ### What a call and a return do -/

/-- The board with other contents of memory, at another place, and at another time. -/
def movedTo (s : Board Memory) (pc sp : UInt16) (clock : Nat) (bus : Memory) : Board Memory where
  cpu := { s.cpu with regs := { s.cpu.regs with pc, sp }, clock }
  bus

/-- A push writes to memory and moves the stack pointer, wherever the CPU stands. -/
theorem pushWord_movedTo (s : Board Memory) (pc : UInt16) (clock : Nat) (w : UInt16) :
    (s.movedTo pc s.cpu.regs.sp clock s.bus).pushWord w =
      s.movedTo pc (s.cpu.regs.sp - 2) clock (s.pushWord w).bus := by
  have htwo : s.cpu.regs.sp - 2 = s.cpu.regs.sp - 1 - 1 := by grind
  rw [htwo]
  rfl

/-- **A call pushes the address behind it.** -/
theorem executed_of_calls (h : s.bus.Calls s.cpu s.cpu.regs.pc target) :
    s.Succeeds ∧ ∃ clock, s.executed = s.movedTo target (s.cpu.regs.sp - 2) clock
      (s.pushWord (s.bus.behind s.cpu.regs.pc)).bus := by
  cases h with
  | @call guard h hpermits =>
    obtain ⟨hone, t, hexecuted⟩ := executed_eq_carryOut h (by simp)
    have hbehind : s.bus.behind s.cpu.regs.pc = s.cpu.regs.pc + 1 + 1 + 1 := by
      rw [Memory.behind, h, UInt16.add_assoc, UInt16.add_assoc]
      rfl
    have htarget : s.cpu.regs.pc + 2 = s.cpu.regs.pc + 1 + 1 := by grind
    have hfetched : s.fetch.2.fetchWord =
        (word (s.bus.get (s.cpu.regs.pc + 1 + 1)) (s.bus.get (s.cpu.regs.pc + 1)),
          s.movedTo (s.cpu.regs.pc + 1 + 1 + 1) s.cpu.regs.sp s.cpu.clock s.bus) := rfl
    have htaken : s.fetch.2.cpu.permits guard = true :=
      (Cpu.permits_of_flags_eq rfl guard).trans hpermits
    refine ⟨hone, s.cpu.clock + t, ?_⟩
    simp only [hexecuted, carryOut, execute, htaken, call, hfetched, if_true]
    rw [pushWord_movedTo, hbehind, htarget]
    rfl
  | @rst slot h =>
    obtain ⟨hone, t, hexecuted⟩ := executed_eq_carryOut h (by simp)
    have hbehind : s.bus.behind s.cpu.regs.pc = s.cpu.regs.pc + 1 := by
      rw [Memory.behind, h]
      rfl
    have hfetched : s.fetch.2 =
        s.movedTo (s.cpu.regs.pc + 1) s.cpu.regs.sp s.cpu.clock s.bus := rfl
    refine ⟨hone, s.cpu.clock + t, ?_⟩
    simp only [hexecuted, carryOut, execute, hfetched]
    rw [pushWord_movedTo, hbehind]
    rfl

/-- **A return goes to the word at the stack pointer.** -/
theorem executed_of_returns (h : s.bus.Returns s.cpu s.cpu.regs.pc) :
    s.Succeeds ∧ ∃ clock, s.executed =
      s.movedTo (Port.readWord s.bus s.cpu.regs.sp).1 (s.cpu.regs.sp + 2) clock s.bus := by
  cases h with
  | ret h =>
    obtain ⟨hone, t, hexecuted⟩ := executed_eq_carryOut h (by simp)
    exact ⟨hone, s.cpu.clock + t, hexecuted⟩
  | retIf h hholds =>
    obtain ⟨hone, t, hexecuted⟩ := executed_eq_carryOut h (by simp)
    refine ⟨hone, s.cpu.clock + t, ?_⟩
    have hsame : s.fetch.2.cpu.holds _ = true := (Cpu.holds_of_flags_eq rfl _).trans hholds
    rw [hexecuted, carryOut, execute, hsame]
    rfl

/-! ### Calls within each other -/

section Nested

variable (s : Board Memory) (site : Nat → UInt16) (n : Nat)

/-- Where the `i`-th of `2 * n` instructions stands. The first `n` are calls, each at the target of
the one before, and what follows the innermost call stands behind the calls, from the inside to the
outside. -/
def trace (i : Nat) : UInt16 := if i ≤ n then site i else s.bus.behind (site (2 * n - i))

/-- **Calls within each other, and the returns from them.** The `i`-th call stands at `site i`, and
`site n` is the target of the innermost one. -/
structure Nested : Prop where
  /-- The outermost call stands at the program counter. -/
  start : site 0 = s.cpu.regs.pc
  /-- Each call leads to the next one, and the innermost one to the first return. -/
  calls : ∀ i < n, s.bus.Calls s.cpu (site i) (site (i + 1))
  /-- At the target of the innermost call, and behind every call but the outermost one, there is a
  return. -/
  returns : ∀ i, n ≤ i → i < 2 * n → s.bus.Returns s.cpu (s.trace site n i)
  /-- The stack does not reach an instruction. -/
  apart : ∀ i < 2 * n, ∀ a ∈ s.bus.occupied (s.trace site n i),
    a ∉ addressesBelow s.cpu.regs.sp (2 * n)

/-- The addresses behind the first `k` calls. -/
def returnAddresses (k : Nat) : List UInt16 :=
  (List.range k).map fun i ↦ s.bus.behind (site i)

/-- The board when `i` of the `2 * n` instructions have been executed. So many of the calls have not
been returned from as there are instructions before or still to come, whichever is less. -/
def during (i clock : Nat) : Board Memory :=
  s.movedTo (s.trace site n i) (s.cpu.regs.sp - UInt16.ofNat (2 * min i (2 * n - i))) clock
    (s.pushWords (s.returnAddresses site (min i n))).bus

end Nested

section Run

variable {site : Nat → UInt16} {n i : Nat}

theorem length_returnAddresses (s : Board Memory) (site : Nat → UInt16) (k : Nat) :
    (s.returnAddresses site k).length = k := by
  rw [returnAddresses, List.length_map, List.length_range]

theorem returnAddresses_succ (s : Board Memory) (site : Nat → UInt16) (k : Nat) :
    s.returnAddresses site (k + 1) = s.returnAddresses site k ++ [s.bus.behind (site k)] := by
  rw [returnAddresses, List.range_succ, List.map_append, List.map_singleton]
  rfl

/-- Calls and returns leave the flags alone. -/
theorem flags_during (s : Board Memory) (site : Nat → UInt16) (n i clock : Nat) :
    (s.during site n i clock).cpu.regs.flags = s.cpu.regs.flags := rfl

/-- The stack has room in memory, as it does not reach the outermost call. -/
theorem Nested.room (h : s.Nested site n) : 2 * n ≤ 65536 := by
  by_contra hmore
  have hfirst := h.apart 0 (by omega) _ (s.bus.mem_occupied _)
  rw [mem_addressesBelow] at hfirst
  have := (s.cpu.regs.sp - 1 - s.trace site n 0).toNat_lt
  omega

/-- The instructions stay as they are. -/
theorem Nested.get_during (h : s.Nested site n) (hi : i < 2 * n) (clock : Nat) {a : UInt16}
    (ha : a ∈ s.bus.occupied (s.trace site n i)) :
    (s.during site n i clock).bus.get a = s.bus.get a := by
  have hapart := h.apart i hi a ha
  refine s.get_pushWords ?_
  rw [length_returnAddresses]
  rw [mem_addressesBelow] at hapart ⊢
  omega

/-- As long as there are only calls, the stack pointer is where they have left it. -/
theorem during_of_le (hi : i ≤ n) (clock : Nat) :
    let pushed := s.pushWords (s.returnAddresses site i)
    s.during site n i clock = pushed.movedTo (site i) pushed.cpu.regs.sp clock pushed.bus := by
  have hcount : min i n = i := Nat.min_eq_left hi
  have hdepth : min i (2 * n - i) = i := Nat.min_eq_left (by omega)
  simp only [during, trace, if_pos hi, hcount, hdepth, movedTo, cpu_pushWords,
    length_returnAddresses]
  rfl

/-- When all calls have been returned from, the stack pointer is where it was. -/
theorem during_end (s : Board Memory) (site : Nat → UInt16) (n clock : Nat) :
    s.during site n (2 * n) clock =
      s.movedTo (s.trace site n (2 * n)) s.cpu.regs.sp clock
        (s.pushWords (s.returnAddresses site n)).bus := by
  have hback : s.cpu.regs.sp - UInt16.ofNat (2 * min (2 * n) (2 * n - 2 * n)) =
      s.cpu.regs.sp := by
    rw [Nat.sub_self, Nat.min_zero]
    exact UInt16.sub_zero _
  have hcount : min (2 * n) n = n := Nat.min_eq_right (by omega)
  rw [during, hback, hcount]

/-- A call pushes one more return address. -/
theorem Nested.executed_call (h : s.Nested site n) (hi : i < n) (clock : Nat) :
    (s.during site n i clock).Succeeds ∧
      ∃ clock', (s.during site n i clock).executed = s.during site n (i + 1) clock' := by
  have htrace : s.trace site n i = site i := if_pos hi.le
  obtain ⟨hcall, hbehind⟩ := (h.calls i hi).of_get_eq (s.flags_during site n i clock)
    fun a ha ↦ h.get_during (by omega) clock (htrace ▸ ha)
  rw [during_of_le hi.le] at hcall hbehind ⊢
  obtain ⟨hone, clock', hexecuted⟩ := executed_of_calls hcall
  refine ⟨hone, clock', hexecuted.trans ?_⟩
  rw [during_of_le (Nat.succ_le_of_lt hi), returnAddresses_succ, pushWords_append_singleton,
    ← hbehind, pushWord_movedTo]
  simp only [movedTo, cpu_pushWord]
  rfl

/-- A return pops one of them. -/
theorem Nested.executed_return (h : s.Nested site n) (hn : n ≤ i) (hi : i < 2 * n) (clock : Nat) :
    (s.during site n i clock).Succeeds ∧
      ∃ clock', (s.during site n i clock).executed = s.during site n (i + 1) clock' := by
  have hreturn := (h.returns i hn hi).of_get_eq (s.flags_during site n i clock)
    (h.get_during hi clock (s.bus.mem_occupied _))
  obtain ⟨hone, clock', hexecuted⟩ := executed_of_returns hreturn
  refine ⟨hone, clock', hexecuted.trans ?_⟩
  -- The return address of the innermost of the calls that have not been returned from.
  obtain ⟨k, hk⟩ : ∃ k, 2 * n - i = k + 1 := ⟨2 * n - (i + 1), by omega⟩
  have hnext : 2 * n - (i + 1) = k := by omega
  have hkn : k < n := by omega
  have htarget : (Port.readWord (s.pushWords (s.returnAddresses site n)).bus
      (s.cpu.regs.sp - UInt16.ofNat (2 * (k + 1)))).1 = s.bus.behind (site k) := by
    have hlength := s.length_returnAddresses site n
    rw [s.readWord_pushWords (by rw [hlength]; exact h.room) (by rwa [hlength])]
    simp only [returnAddresses, List.getElem_map, List.getElem_range]
  have hup : s.cpu.regs.sp - UInt16.ofNat (2 * (k + 1)) + 2 =
      s.cpu.regs.sp - UInt16.ofNat (2 * k) := by
    rw [Nat.mul_succ, UInt16.ofNat_add]
    grind
  have hcount : min i n = n := Nat.min_eq_right hn
  have hcount' : min (i + 1) n = n := Nat.min_eq_right (by omega)
  have hdepth : min i (k + 1) = k + 1 := Nat.min_eq_right (by omega)
  have hdepth' : min (i + 1) k = k := Nat.min_eq_right (by omega)
  have hreturned : ¬ i + 1 ≤ n := by omega
  simp only [during, trace, movedTo, hcount, hcount', hk, hnext, hdepth, hdepth', htarget, hup,
    if_neg hreturned]

/-- **One instruction leads from one board to the next.** -/
theorem Nested.executed_during (h : s.Nested site n) (hi : i < 2 * n) (clock : Nat) :
    (s.during site n i clock).Succeeds ∧
      ∃ clock', (s.during site n i clock).executed = s.during site n (i + 1) clock' := by
  rcases Nat.lt_or_ge i n with hcall | hreturn
  · exact h.executed_call hcall clock
  · exact h.executed_return hreturn hi clock

/-- **The run.** After `i` of the instructions the board is known but for its clock. -/
theorem Nested.iterate_executed (h : s.Nested site n) (hi : i ≤ 2 * n) :
    ∃ clock, executed^[i] s = s.during site n i clock := by
  induction i with
  | zero =>
    refine ⟨s.cpu.clock, ?_⟩
    rw [during_of_le (Nat.zero_le n), h.start]
    rfl
  | succ i ih =>
    obtain ⟨clock, hrun⟩ := ih (Nat.le_of_succ_le hi)
    obtain ⟨-, clock', hexecuted⟩ := h.executed_during (Nat.lt_of_succ_le hi) clock
    exact ⟨clock', by rw [Function.iterate_succ_apply', hrun, hexecuted]⟩

end Run

/-! ### Last in, first out -/

/-- **What has been pushed last is popped first.** The stack is anywhere in memory, and goes round
from its beginning to its end if it has to. Words that have room in memory are popped in reverse
order, which leaves the CPU as it was before they were pushed. Memory is changed below the stack
pointer only, two bytes for each word, and each word can be read there. And so the callers are
returned to in order: the instructions of calls within each other and of the returns from them are
executed without a fault, each caller goes on behind its call with the stack pointer that it had
there, and when all of them are done, the clock and the place have changed, and below the stack
pointer the return addresses are left. -/
theorem stack_last_in_first_out (s : Board Memory) :
    (∀ words : List UInt16, 2 * words.length ≤ 65536 →
      (s.pushWords words).popWords words.length =
          (words.reverse, { s with bus := (s.pushWords words).bus }) ∧
        (∀ a, a ∉ addressesBelow s.cpu.regs.sp (2 * words.length) →
          (s.pushWords words).bus.get a = s.bus.get a) ∧
        ∀ (i : Nat) (hi : i < words.length),
          (Port.readWord (s.pushWords words).bus
            (s.cpu.regs.sp - UInt16.ofNat (2 * (i + 1)))).1 = words[i]) ∧
      ∀ (site : Nat → UInt16) (n : Nat), s.Nested site n →
        (∀ i < 2 * n, (executed^[i] s).Succeeds) ∧
          (∀ i ≤ n, (executed^[i] s).cpu.regs.pc = site i) ∧
          (∀ i < n,
            (executed^[2 * n - i] s).cpu.regs.pc = s.bus.behind (site i) ∧
              (executed^[2 * n - i] s).cpu.regs.sp = (executed^[i] s).cpu.regs.sp) ∧
          ∃ clock, executed^[2 * n] s =
            s.movedTo (s.trace site n (2 * n)) s.cpu.regs.sp clock
              (s.pushWords (s.returnAddresses site n)).bus := by
  refine ⟨fun words hroom ↦ ⟨s.popWords_length_pushWords hroom, fun a ha ↦ s.get_pushWords ha,
    fun i hi ↦ s.readWord_pushWords hroom hi⟩, fun site n h ↦ ⟨fun i hi ↦ ?_, fun i hi ↦ ?_,
    fun i hi ↦ ?_, ?_⟩⟩
  · obtain ⟨clock, hrun⟩ := h.iterate_executed hi.le
    rw [hrun]
    exact (h.executed_during hi clock).1
  · obtain ⟨clock, hrun⟩ := h.iterate_executed (show i ≤ 2 * n by omega)
    rw [hrun]
    exact if_pos hi
  · obtain ⟨clock, hrun⟩ := h.iterate_executed (show i ≤ 2 * n by omega)
    obtain ⟨clock', hrun'⟩ := h.iterate_executed (show 2 * n - i ≤ 2 * n by omega)
    have hcaller : 2 * n - (2 * n - i) = i := by omega
    have hreturned : ¬ 2 * n - i ≤ n := by omega
    rw [hrun, hrun']
    simp only [during, trace, movedTo, hcaller, if_neg hreturned, Nat.min_comm (2 * n - i),
      and_self]
  · obtain ⟨clock, hrun⟩ := h.iterate_executed Nat.le.refl
    exact ⟨clock, hrun.trans (s.during_end site n clock)⟩

/-- A CALL that leads to a RST, with a RET behind it and one where the RST leads to. The stack is so
low that the first return address is stored at both ends of memory. -/
def callThenRst : Board Memory where
  cpu := { Cpu.powerOn .fatal with regs := { Cpu.initialRegisters with sp := 1, pc := 0x0100 } }
  bus := (((Memory.fill 0).overwrite 0x0100 [0xCD, 0x00, 0x02]).overwrite 0x0200 [0xCF, 0xC9]).set
    0x0008 0xC9

/-- Where the calls of `callThenRst` stand, and where the inner one leads to. -/
def callThenRstSite : Nat → UInt16
  | 0 => 0x0100
  | 1 => 0x0200
  | _ => 0x0008

theorem nested_callThenRst : callThenRst.Nested callThenRstSite 2 where
  start := rfl
  calls i hi := by
    obtain rfl | rfl : i = 0 ∨ i = 1 := by omega
    · exact .call rfl rfl
    · have hrst : callThenRst.bus.meaning 0x0200 = .primary (.rst 1) := rfl
      exact .rst hrst
  returns i hn hi := by
    obtain rfl | rfl : i = 2 ∨ i = 3 := by omega
    · exact .ret rfl
    · exact .ret rfl
  apart i hi a ha := by
    have hfree : ∀ i < 2 * 2, (callThenRst.bus.occupied (callThenRst.trace callThenRstSite 2 i)).all
        (· ∉ addressesBelow callThenRst.cpu.regs.sp (2 * 2)) = true := by decide
    exact of_decide_eq_true (List.all_eq_true.mp (hfree i hi) a ha)

theorem stack_last_in_first_out_of_callThenRst :
    ((callThenRst.pushWords [0x1234, 0xABCD]).popWords 2).1 = [0xABCD, 0x1234] ∧
      (callThenRst.pushWords [0x1234, 0xABCD]).bus.get 0x0002 = 0 ∧
      (Port.readWord (callThenRst.pushWords [0x1234, 0xABCD]).bus 0xFFFF).1 = 0x1234 ∧
      callThenRst.Nested callThenRstSite 2 ∧
      (executed^[3] callThenRst).cpu.regs.pc = 0x0201 ∧
      ∃ clock, executed^[4] callThenRst = callThenRst.movedTo 0x0103 1 clock
        (callThenRst.pushWords [0x0103, 0x0201]).bus := by
  obtain ⟨hwords, hcalls⟩ := stack_last_in_first_out callThenRst
  obtain ⟨hpopped, hkept, hstored⟩ := hwords [0x1234, 0xABCD] (by decide)
  obtain ⟨-, -, hreturned, hend⟩ := hcalls callThenRstSite 2 nested_callThenRst
  exact ⟨congrArg Prod.fst hpopped, hkept 0x0002 (by decide), hstored 0 (by decide),
    nested_callThenRst, (hreturned 1 (by decide)).1, hend⟩

end Board

end GameBoy
