import GameBoy.Proofs.Cpu.ImeQueue
import GameBoy.Proofs.Cpu.Stages
import GameBoy.Proofs.Cpu.WithControl

/-!
# Nothing shows of the remains in the ring

Two boards are **alike** if they differ in their rings of deferred changes at most, and there in
nothing but what earlier requests have left behind: the live requests are the same. Nothing that the
CPU does tells the two apart, and they stay alike (`Alike.step`, `Alike.executeOne`).

Looking at the interrupts does not concern the ring at all, nor the policy; both may be exchanged
before or after (`serviceInterrupts_exchange`). Instructions are a matter of
`execute_withControl`, and only EI and DI reach the ring, by a push. The end of a step takes out of
it what is due.
-/

namespace GameBoy

/-- Two control parts that differ in the remains in their rings at most. -/
structure Control.Alike (c d : Control) : Prop where
  /-- The clocks show the same. -/
  clock_eq : c.clock = d.clock
  /-- The state of power is the same. -/
  power_eq : c.power = d.power
  /-- The master enable is the same. -/
  ime_eq : c.ime = d.ime
  /-- The policy is the same. -/
  policy_eq : c.policy = d.policy
  /-- The same requests wait. -/
  imeQueue : c.imeQueue.Alike d.imeQueue

theorem Control.Alike.execute {c d : Control} (h : c.Alike d) (i : Instruction) :
    (c.execute i).Alike (d.execute i) := by
  obtain ⟨hclock, hpower, hime, hpolicy, hqueue⟩ := h
  cases i with
  | stop | halt => exact ⟨hclock, rfl, hime, hpolicy, hqueue⟩
  | di | ei =>
    refine ⟨hclock, hpower, hime, hpolicy, ?_⟩
    simp only [Control.execute, Control.request, hclock]
    exact hqueue.push _
  | reti => exact ⟨hclock, hpower, rfl, hpolicy, hqueue⟩
  | _ => exact ⟨hclock, hpower, hime, hpolicy, hqueue⟩

namespace Board

variable {M : Type}

/-- The board with another ring and another policy. -/
def exchange (s : Board M) (imeQueue : ImeQueue) (policy : IllegalOpcodePolicy) : Board M :=
  { s with cpu := { s.cpu with imeQueue, policy } }

/-- Two boards that differ in the remains in their rings at most. -/
def Alike (s t : Board M) : Prop := ∃ d, s.cpu.control.Alike d ∧ t = s.withControl d

/-- The same result, and boards that are alike. -/
def AlikeResults {α : Type} (r r' : α × Board M) : Prop := r.1 = r'.1 ∧ r.2.Alike r'.2

variable [Port M] (s : Board M)

/-! ### Looking at the interrupts -/

section Exchange

variable (q : ImeQueue) (p : IllegalOpcodePolicy)

omit [Port M] in
theorem endHalt_exchange : (s.exchange q p).endHalt = s.endHalt.exchange q p := by
  by_cases hpower : s.cpu.power = .halted
  · have hpower' : (s.exchange q p).cpu.power = .halted := hpower
    rw [endHalt, endHalt, if_pos hpower, if_pos hpower']
    rfl
  · have hpower' : (s.exchange q p).cpu.power ≠ .halted := hpower
    rw [endHalt, endHalt, if_neg hpower, if_neg hpower']

theorem attend_exchange (pending : InterruptSet) :
    (s.exchange q p).attend pending =
      ((s.attend pending).1, (s.attend pending).2.exchange q p) := by
  have hread : (s.exchange q p).read enableAddress =
      ((s.read enableAddress).1, (s.read enableAddress).2.exchange q p) := rfl
  have hurgent : (s.exchange q p).urgent? pending = s.urgent? pending := rfl
  by_cases hlook : s.cpu.ime = true ∨ s.cpu.power = .halted
  · cases hsource : s.urgent? pending with
    | none =>
      rw [attend_of_none s pending hlook hsource,
        attend_of_none (s.exchange q p) pending hlook (hurgent.trans hsource), hread]
    | some source =>
      cases hime : s.cpu.ime with
      | true =>
        rw [attend_of_dispatched s pending hime hsource,
          attend_of_dispatched (s.exchange q p) pending hime (hurgent.trans hsource), hread,
          endHalt_exchange]
        rfl
      | false =>
        have hpower : s.cpu.power = .halted := hlook.resolve_left (by simp [hime])
        rw [attend_of_haltEnded s pending hime hpower hsource,
          attend_of_haltEnded (s.exchange q p) pending hime hpower (hurgent.trans hsource)]
        rfl
  · obtain ⟨hime, hpower⟩ := not_or.mp hlook
    have hime : s.cpu.ime = false := by simpa using hime
    rw [attend_of_unheeded s pending hime hpower,
      attend_of_unheeded (s.exchange q p) pending hime hpower]

/-- **Looking at the interrupts concerns neither the ring nor the policy.** -/
theorem serviceInterrupts_exchange :
    (s.exchange q p).serviceInterrupts =
      (s.serviceInterrupts.1, s.serviceInterrupts.2.exchange q p) := by
  have hread : (s.exchange q p).read requestAddress =
      ((s.read requestAddress).1, (s.read requestAddress).2.exchange q p) := rfl
  have hpower : ((s.read requestAddress).2.exchange q p).cpu.power =
    (s.read requestAddress).2.cpu.power := rfl
  simp only [serviceInterrupts, hread, hpower]
  split
  · split
    · exact attend_exchange (((s.read requestAddress).2.note _).setPower .running) q p _
    · rfl
  · exact attend_exchange (s.read requestAddress).2 q p _

end Exchange

variable {s} {t : Board M}

omit [Port M] in
/-- Boards that are alike show the same time. -/
theorem Alike.clock_eq (h : s.Alike t) : s.cpu.clock = t.cpu.clock := by
  obtain ⟨d, hd, rfl⟩ := h
  exact hd.clock_eq

omit [Port M] in
/-- They are awake or asleep together. -/
theorem Alike.power_eq (h : s.Alike t) : s.cpu.power = t.cpu.power := by
  obtain ⟨d, hd, rfl⟩ := h
  exact hd.power_eq

/-- What looking at the interrupts leaves to the rest of a step. -/
theorem Alike.serviceInterrupts (h : s.Alike t) :
    AlikeResults s.serviceInterrupts t.serviceInterrupts := by
  obtain ⟨d, ⟨hclock, hpower, hime, hpolicy, hqueue⟩, rfl⟩ := h
  have hexchange : s.withControl d = s.exchange d.imeQueue s.cpu.policy := by
    have hd : d = { s.cpu.control with imeQueue := d.imeQueue } := by
      cases d
      simp_all
    rw [hd]
    rfl
  have hattends := serviceInterrupts_attends s
  rw [hexchange, serviceInterrupts_exchange]
  refine ⟨rfl, { s.serviceInterrupts.2.cpu.control with
    imeQueue := d.imeQueue, policy := s.cpu.policy }, ⟨rfl, rfl, rfl, hattends.policy_eq, ?_⟩, rfl⟩
  rw [hattends.imeQueue_eq]
  exact hqueue

/-! ### Executing an opcode -/

omit [Port M] in
theorem Alike.charge (h : s.Alike t) (ticks : Nat) :
    AlikeResults (s.charge ticks) (t.charge ticks) := by
  obtain ⟨d, ⟨hclock, hpower, hime, hpolicy, hqueue⟩, rfl⟩ := h
  exact ⟨rfl, { d with clock := d.clock + ticks },
    ⟨congrArg (· + ticks) hclock, hpower, hime, hpolicy, hqueue⟩, rfl⟩

theorem Alike.note (h : s.Alike t) (e : Event) : (s.note e).Alike (t.note e) := by
  obtain ⟨d, hd, rfl⟩ := h
  exact ⟨d, hd, rfl⟩

theorem Alike.meetHole (h : s.Alike t) (owed : Nat) (opcode : UInt8) (pc : UInt16) :
    AlikeResults (s.meetHole owed opcode pc) (t.meetHole owed opcode pc) := by
  have hpolicy : t.cpu.policy = s.cpu.policy := by
    obtain ⟨d, hd, rfl⟩ := h
    exact hd.policy_eq.symm
  simp only [Board.meetHole, hpolicy]
  split
  · obtain ⟨d, hd, rfl⟩ := h
    exact ⟨rfl, d, hd, rfl⟩
  · exact (h.note _).charge _

theorem Alike.executeOpcode (h : s.Alike t) (owed : Nat) (opcode : UInt8) (pc : UInt16) :
    AlikeResults (s.executeOpcode owed opcode pc) (t.executeOpcode owed opcode pc) := by
  cases hdecoded : Opcode.decode opcode with
  | instruction i =>
    obtain ⟨d, hd, rfl⟩ := h
    rw [executeOpcode_instruction s hdecoded, executeOpcode_instruction _ hdecoded,
      execute_withControl]
    refine Alike.charge ⟨d.execute i, ?_, rfl⟩ _
    rw [control_execute]
    exact hd.execute i
  | extended =>
    obtain ⟨d, hd, rfl⟩ := h
    rw [executeOpcode_extended s hdecoded, executeOpcode_extended _ hdecoded, withControl_fetch,
      executeBit_withControl]
    refine Alike.charge ⟨d, ?_, rfl⟩ _
    rw [control_executeBit]
    exact hd
  | again =>
    rw [executeOpcode_hole s (.inl hdecoded), executeOpcode_hole t (.inl hdecoded)]
    exact h.meetHole owed opcode pc
  | hole =>
    rw [executeOpcode_hole s (.inr hdecoded), executeOpcode_hole t (.inr hdecoded)]
    exact h.meetHole owed opcode pc

theorem Alike.fetchOpcode (h : s.Alike t) : AlikeResults s.fetchOpcode t.fetchOpcode := by
  obtain ⟨d, hd, rfl⟩ := h
  rw [fetchOpcode_withControl]
  exact ⟨rfl, d, (control_fetchOpcode s).symm ▸ hd, rfl⟩

/-- **One instruction does the same on boards that are alike.** -/
theorem Alike.executeOne (h : s.Alike t) : AlikeResults s.executeOne t.executeOne := by
  obtain ⟨hfetched, hafter⟩ := h.fetchOpcode
  rw [executeOne_eq, executeOne_eq, ← hfetched]
  exact hafter.executeOpcode ..

theorem Alike.executeOrSleep (h : s.Alike t) : AlikeResults s.executeOrSleep t.executeOrSleep := by
  have hpower : t.cpu.power = s.cpu.power := h.power_eq.symm
  simp only [Board.executeOrSleep, hpower]
  split
  · exact h.executeOne
  · exact h.charge idleTicks

/-! ### Whole steps -/

theorem Alike.applyDueIme (h : s.Alike t) : s.applyDueIme.Alike t.applyDueIme := by
  obtain ⟨d, ⟨hclock, hpower, hime, hpolicy, hqueue⟩, rfl⟩ := h
  have hnow : (s.withControl d).cpu.clock = s.cpu.clock := hclock.symm
  rcases hqueue.popDue s.cpu.clock with ⟨hs, hd⟩ | ⟨change, hs, hd⟩
  · have hs' : s.cpu.imeQueue.popDue s.cpu.clock = none := hs
    have hd' : (s.withControl d).cpu.imeQueue.popDue s.cpu.clock = none := hd
    simp only [Board.applyDueIme, hnow, hs', hd']
    exact ⟨d, ⟨hclock, hpower, hime, hpolicy, hqueue⟩, rfl⟩
  · have hs' : s.cpu.imeQueue.popDue s.cpu.clock = some (change, s.cpu.imeQueue.drop) := hs
    have hd' : (s.withControl d).cpu.imeQueue.popDue s.cpu.clock = some (change, d.imeQueue.drop) :=
      hd
    simp only [Board.applyDueIme, hnow, hs', hd']
    exact ⟨{ d with ime := change.enable, imeQueue := d.imeQueue.drop },
      ⟨hclock, hpower, rfl, hpolicy, hqueue.drop⟩, rfl⟩

omit [Port M] in
theorem Alike.rollBack (h : s.Alike t) (attention : Attention) (pc : UInt16) :
    (s.rollBack attention pc).Alike (t.rollBack attention pc) := by
  obtain ⟨d, hd, rfl⟩ := h
  cases attention <;> exact ⟨d, hd, rfl⟩

/-- **A step does the same on boards that are alike.** -/
theorem Alike.step (h : s.Alike t) : AlikeResults s.step t.step := by
  have hpc : t.cpu.regs.pc = s.cpu.regs.pc := by
    obtain ⟨d, hd, rfl⟩ := h
    rfl
  have hclock : t.cpu.clock = s.cpu.clock := h.clock_eq.symm
  obtain ⟨hattention, hserved⟩ := h.serviceInterrupts
  rcases hs : s.serviceInterrupts.2.executeOrSleep with ⟨r, s'⟩
  rcases ht : t.serviceInterrupts.2.executeOrSleep with ⟨r', t'⟩
  obtain ⟨hresult, hran⟩ := hserved.executeOrSleep
  rw [hs, ht] at hresult hran
  obtain rfl : r = r' := hresult
  cases r with
  | error e =>
    simp only [Board.step, hs, ht]
    exact ⟨rfl, hran⟩
  | ok d =>
    have hfinished := hran.applyDueIme.rollBack s.serviceInterrupts.1 s.cpu.regs.pc
    simp only [Board.step, hs, ht, hpc, hclock, ← hattention]
    exact ⟨congrArg (fun now : Nat ↦ Except.ok (now - s.cpu.clock)) hfinished.clock_eq, hfinished⟩

end Board

end GameBoy
