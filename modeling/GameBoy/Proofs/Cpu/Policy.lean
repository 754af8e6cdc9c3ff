import GameBoy.Proofs.Cpu.Alike

/-!
# The policy is asked about holes only

What to do at an opcode without a meaning is asked when one is met, and nowhere else. So another
policy may be chosen before an instruction or after it, before looking at the interrupts or after;
and a step that succeeds under the strict policy, under which a hole is a fault, has met no hole and
is the same step under any other (`step_setPolicy`).
-/

namespace GameBoy

theorem Control.execute_setPolicy (c : Control) (policy : IllegalOpcodePolicy) (i : Instruction) :
    ({ c with policy } : Control).execute i = { c.execute i with policy } := by
  cases i <;> rfl

theorem Control.policy_execute (c : Control) (i : Instruction) :
    (c.execute i).policy = c.policy := by
  cases i <;> rfl

theorem Control.policy_pass (c : Control) (next : Option Fetched) (ticks : Nat) :
    (c.pass next ticks).policy = c.policy := by
  have hnext : (c.executeNext next).policy = c.policy := by
    cases next with
    | none => rfl
    | some f =>
      simp only [executeNext, executeOpcode]
      split
      · exact policy_execute ..
      · rfl
  rw [← hnext]
  unfold pass applyDue
  split <;> rfl

namespace Board

variable {M : Type}

/-- The board with another policy. -/
def setPolicy (s : Board M) (policy : IllegalOpcodePolicy) : Board M :=
  { s with cpu := { s.cpu with policy } }

variable [Port M] (s : Board M) (p : IllegalOpcodePolicy)

/-- A step leaves the policy alone, whether it succeeds or not. -/
theorem policy_step : s.step.2.cpu.policy = s.cpu.policy := by
  have hserved := (serviceInterrupts_attends s).policy_eq
  rcases hstep : s.step with ⟨_ | t, s'⟩
  · exact (congrArg Control.policy (step_error hstep).1).trans hserved
  · obtain ⟨d, -, -, hcontrol⟩ := step_ok hstep
    exact (congrArg Control.policy hcontrol).trans ((Control.policy_pass ..).trans hserved)

/-! ### Stages that do not ask -/

theorem execute_setPolicy (i : Instruction) :
    (s.setPolicy p).execute i = ((s.execute i).1, (s.execute i).2.setPolicy p) := by
  have hcontrol := execute_withControl s { s.cpu.control with policy := p } i
  rw [Control.execute_setPolicy, ← control_execute] at hcontrol
  exact hcontrol

theorem executeBit_setPolicy (i : BitInstruction) :
    (s.setPolicy p).executeBit i = ((s.executeBit i).1, (s.executeBit i).2.setPolicy p) := by
  have hkept := control_executeBit s i
  have hafter : (s.executeBit i).2.setPolicy p =
      (s.executeBit i).2.withControl { s.cpu.control with policy := p } := by
    rw [← hkept]
    rfl
  rw [hafter]
  exact executeBit_withControl s { s.cpu.control with policy := p } i

theorem fetchOpcode_setPolicy :
    (s.setPolicy p).fetchOpcode = (s.fetchOpcode.1, s.fetchOpcode.2.setPolicy p) := by
  have hkept := control_fetchOpcode s
  have hafter : s.fetchOpcode.2.setPolicy p =
      s.fetchOpcode.2.withControl { s.cpu.control with policy := p } := by
    rw [← hkept]
    rfl
  rw [hafter]
  exact fetchOpcode_withControl s { s.cpu.control with policy := p }

theorem serviceInterrupts_setPolicy :
    (s.setPolicy p).serviceInterrupts =
      (s.serviceInterrupts.1, s.serviceInterrupts.2.setPolicy p) := by
  have hkept : s.serviceInterrupts.2.cpu.imeQueue = s.cpu.imeQueue :=
    (serviceInterrupts_attends s).imeQueue_eq
  have hafter : s.serviceInterrupts.2.setPolicy p =
      s.serviceInterrupts.2.exchange s.cpu.imeQueue p := by
    rw [← hkept]
    rfl
  rw [hafter]
  exact serviceInterrupts_exchange s s.cpu.imeQueue p

theorem applyDueIme_setPolicy : (s.setPolicy p).applyDueIme = s.applyDueIme.setPolicy p := by
  have hpop : (s.setPolicy p).cpu.imeQueue.popDue (s.setPolicy p).cpu.clock =
      s.cpu.imeQueue.popDue s.cpu.clock := rfl
  simp only [applyDueIme, hpop]
  split <;> rfl

omit [Port M] in
theorem rollBack_setPolicy (attention : Attention) (pc : UInt16) :
    (s.setPolicy p).rollBack attention pc = (s.rollBack attention pc).setPolicy p := by
  cases attention <;> rfl

/-! ### Steps that meet no hole -/

variable {s} {s' : Board M} {t : Nat}

theorem executeOpcode_setPolicy {owed : Nat} {opcode : UInt8} {pc : UInt16}
    (hfatal : s.cpu.policy = .fatal) (h : s.executeOpcode owed opcode pc = (.ok t, s')) :
    (s.setPolicy p).executeOpcode owed opcode pc = (.ok t, s'.setPolicy p) := by
  -- Under the strict policy a hole is a fault, so no hole has been met.
  have hhole : s.executeOpcode owed opcode pc ≠ s.meetHole owed opcode pc := by
    intro hmeet
    rw [hmeet] at h
    simp [meetHole, hfatal] at h
  cases hdecoded : Opcode.decode opcode with
  | instruction i =>
    rw [executeOpcode_instruction s hdecoded] at h
    rw [executeOpcode_instruction _ hdecoded, execute_setPolicy]
    obtain ⟨ht, rfl⟩ := Prod.mk.inj h
    rw [← ht]
    rfl
  | extended =>
    have hfetch : (s.setPolicy p).fetch = (s.fetch.1, s.fetch.2.setPolicy p) := rfl
    rw [executeOpcode_extended s hdecoded] at h
    rw [executeOpcode_extended _ hdecoded, hfetch, executeBit_setPolicy]
    obtain ⟨ht, rfl⟩ := Prod.mk.inj h
    rw [← ht]
    rfl
  | again => exact absurd (executeOpcode_hole s (.inl hdecoded) owed pc) hhole
  | hole => exact absurd (executeOpcode_hole s (.inr hdecoded) owed pc) hhole

theorem executeOrSleep_setPolicy (hfatal : s.cpu.policy = .fatal)
    (h : s.executeOrSleep = (.ok t, s')) :
    (s.setPolicy p).executeOrSleep = (.ok t, s'.setPolicy p) := by
  have hpower : (s.setPolicy p).cpu.power = s.cpu.power := rfl
  by_cases hrunning : s.cpu.power = .running
  · have hfetched : s.fetchOpcode.2.cpu.policy = .fatal :=
      (congrArg Control.policy (control_fetchOpcode s)).trans hfatal
    rw [executeOrSleep, if_pos hrunning, executeOne_eq] at h
    rw [executeOrSleep, if_pos (hpower.trans hrunning), executeOne_eq, fetchOpcode_setPolicy]
    exact executeOpcode_setPolicy p hfetched h
  · have hasleep : (s.setPolicy p).cpu.power ≠ .running := hrunning
    rw [executeOrSleep, if_neg hrunning] at h
    rw [executeOrSleep, if_neg hasleep]
    obtain ⟨ht, rfl⟩ := Prod.mk.inj h
    rw [← ht]
    rfl

/-- **A step that succeeds under the strict policy succeeds under any**, and does the same. -/
theorem step_setPolicy (hfatal : s.cpu.policy = .fatal) (h : s.step = (.ok t, s')) :
    (s.setPolicy p).step = (.ok t, s'.setPolicy p) := by
  have hserved : s.serviceInterrupts.2.cpu.policy = .fatal :=
    (serviceInterrupts_attends s).policy_eq.trans hfatal
  rw [step_eq_finish] at h ⊢
  rw [serviceInterrupts_setPolicy]
  rcases hrun : s.serviceInterrupts.2.executeOrSleep with ⟨_ | d, r⟩
  · simp [finish, hrun] at h
  · have hrun' := executeOrSleep_setPolicy p hserved hrun
    simp only [finish, hrun] at h
    simp only [finish, hrun', applyDueIme_setPolicy, rollBack_setPolicy]
    obtain ⟨ht, rfl⟩ := Prod.mk.inj h
    rw [← ht]
    rfl

end Board

end GameBoy
