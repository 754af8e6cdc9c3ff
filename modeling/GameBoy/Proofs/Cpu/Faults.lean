import GameBoy.Proofs.Cpu.Passive

/-!
# Where the strict policy ends a step

Ten bytes of the primary table mean nothing, and 0xFD means nothing behind another 0xFD. On a
passive port `Board.FaultAt` says beforehand whether executing comes to such a byte, and to which
one: the first byte, or the second behind 0xFD. Under the strict policy that is when executing
fails, and a failure moves the program counter onto the byte and does nothing else
(`executeOne_error_iff`).

In a whole step the interrupts come first, so what counts is the board that they leave. Looking
at them again changes nothing, and so a step that has failed at one of the ten fails in the same way
when it is repeated (`step_again`).
-/

namespace GameBoy

/-- The ten opcodes that mean nothing wherever they stand. -/
def Opcode.holes : List UInt8 :=
  [0xD3, 0xDB, 0xDD, 0xE3, 0xE4, 0xEB, 0xEC, 0xED, 0xF4, 0xFC]

theorem Opcode.decode_eq_hole_iff (opcode : UInt8) : decode opcode = .hole ↔ opcode ∈ holes :=
  byte_all (P := fun opcode ↦ decode opcode = .hole ↔ opcode ∈ holes) (by decide +kernel) opcode

theorem Opcode.not_mem_holes_of_again {opcode : UInt8} (h : opcode = 0xFD) : opcode ∉ holes := by
  rw [h]
  decide

namespace Board

variable {M : Type} [Port M] {s s' : Board M} {e : Fault}

/-! ### Opcodes -/

/-- **The strict policy fails at the bytes without a meaning**, and moves the program counter onto
them. -/
theorem executeOpcode_error_iff {owed : Nat} {opcode : UInt8} {pc : UInt16} :
    s.executeOpcode owed opcode pc = (.error e, s') ↔
      s.cpu.policy = .fatal ∧ (opcode = 0xFD ∨ opcode ∈ Opcode.holes) ∧
        e = { opcode, table := .primary, pc } ∧
        s' = (s.setPC pc).note (.opcodeRejected opcode (s.setPC pc).cpu.regs) := by
  rw [← Opcode.decode_eq_hole_iff, ← Opcode.decode_eq_again_iff]
  cases hdecoded : Opcode.decode opcode with
  | instruction i =>
    rw [executeOpcode_instruction s hdecoded]
    simp [charge]
  | extended =>
    rw [executeOpcode_extended s hdecoded]
    simp [charge]
  | again | hole =>
    rw [executeOpcode_hole s (by simp [hdecoded])]
    cases hpolicy : s.cpu.policy <;> simp [meetHole, charge, hpolicy, eq_comm]

/-- What is owed by then plays no part. -/
theorem executeOpcode_fails_iff {owed : Nat} {opcode : UInt8} {pc : UInt16} :
    (s.executeOpcode owed opcode pc).1 = .error e ↔
      s.cpu.policy = .fatal ∧ (opcode = 0xFD ∨ opcode ∈ Opcode.holes) ∧
        e = { opcode, table := .primary, pc } := by
  refine ⟨fun h ↦ ?_, fun ⟨hpolicy, hopcode, he⟩ ↦ ?_⟩
  · obtain ⟨hpolicy, hopcode, he, -⟩ := executeOpcode_error_iff.mp (Prod.ext h rfl)
    exact ⟨hpolicy, hopcode, he⟩
  · exact congrArg Prod.fst (executeOpcode_error_iff.mpr ⟨hpolicy, hopcode, he, rfl⟩)

/-! ### Executing -/

variable (s) in
/-- **Executing from an address comes to a byte that means nothing there.** -/
inductive FaultAt (pc : UInt16) : Fault → Prop
  /-- The first byte is one of the ten. -/
  | first : s.peek pc ∈ Opcode.holes → FaultAt pc ⟨s.peek pc, .primary, pc⟩
  /-- The first byte is 0xFD, and the second is one of the ten or 0xFD again. -/
  | second : s.peek pc = 0xFD → s.peek (pc + 1) = 0xFD ∨ s.peek (pc + 1) ∈ Opcode.holes →
      FaultAt pc ⟨s.peek (pc + 1), .primary, pc + 1⟩

/-- The byte at fault stands where the fault says. -/
theorem FaultAt.peek_eq {pc : UInt16} (h : s.FaultAt pc e) : s.peek e.pc = e.opcode := by
  cases h <;> rfl

/-- One of the ten is met again if execution is resumed at it. -/
theorem FaultAt.again {pc : UInt16} (h : s.FaultAt pc e) (hopcode : e.opcode ≠ 0xFD) :
    s.FaultAt e.pc e := by
  cases h with
  | first hhole => exact .first hhole
  | second _ hhole => exact .first (hhole.resolve_left hopcode)

/-- Where the program counter stands does not matter. -/
theorem FaultAt.setPC {pc : UInt16} (h : s.FaultAt pc e) (other : UInt16) :
    (s.setPC other).FaultAt pc e := by
  cases h with
  | first hhole => exact .first hhole
  | second hprefixed hhole => exact .second hprefixed hhole

variable [Port.Passive M]

/-- **When executing fails, and what is left then.** -/
theorem executeOne_error_iff :
    s.executeOne = (.error e, s') ↔
      s.cpu.policy = .fatal ∧ s.FaultAt s.cpu.regs.pc e ∧ s' = s.setPC e.pc := by
  rw [executeOne_eq]
  by_cases hprefixed : s.peek s.cpu.regs.pc = 0xFD
  · rw [fetchOpcode_of_prefixed s hprefixed, executeOpcode_error_iff, note_eq]
    refine and_congr_right fun _ ↦ ⟨?_, ?_⟩
    · rintro ⟨hopcode, rfl, rfl⟩
      exact ⟨.second hprefixed hopcode, rfl⟩
    · rintro ⟨hfault, rfl⟩
      cases hfault with
      | first hhole => exact absurd hhole (Opcode.not_mem_holes_of_again hprefixed)
      | second _ hopcode => exact ⟨hopcode, rfl, rfl⟩
  · rw [fetchOpcode_of_plain s hprefixed, executeOpcode_error_iff, note_eq]
    refine and_congr_right fun _ ↦ ⟨?_, ?_⟩
    · rintro ⟨hopcode, rfl, rfl⟩
      exact ⟨.first (hopcode.resolve_left hprefixed), rfl⟩
    · rintro ⟨hfault, rfl⟩
      cases hfault with
      | first hhole => exact ⟨.inr hhole, rfl, rfl⟩
      | second hagain _ => exact absurd hagain hprefixed

/-! ### Whole steps -/

omit [Port.Passive M] in
/-- A step fails if the CPU is awake once the interrupts have been looked at and executing fails. -/
theorem step_error_iff :
    s.step = (.error e, s') ↔
      s.serviceInterrupts.2.cpu.power = .running ∧
        s.serviceInterrupts.2.executeOne = (.error e, s') := by
  rw [step_eq_finish, finish]
  by_cases hpower : s.serviceInterrupts.2.cpu.power = .running
  · rw [executeOrSleep, if_pos hpower]
    rcases s.serviceInterrupts.2.executeOne with ⟨_ | t, r⟩ <;> simp [hpower]
  · rw [executeOrSleep, if_neg hpower]
    simp [charge, hpower]

/-- **A step that has failed at one of the ten bytes fails there again**, and changes nothing. -/
theorem step_again (h : s.step = (.error e, s')) (hopcode : e.opcode ≠ 0xFD) :
    s'.step = (.error e, s') := by
  obtain ⟨hpower, hfailed⟩ := step_error_iff.mp h
  obtain ⟨hpolicy, hfault, rfl⟩ := executeOne_error_iff.mp hfailed
  have hserved := s.serviceInterrupts_again e.pc hpower
  refine step_error_iff.mpr ?_
  rw [hserved]
  exact ⟨hpower, executeOne_error_iff.mpr ⟨hpolicy, (hfault.again hopcode).setPC e.pc, rfl⟩⟩

end Board

end GameBoy
