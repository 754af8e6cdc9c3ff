import GameBoy.Proofs.Cpu.ImeQueue
import GameBoy.Proofs.Cpu.Passive
import Mathlib.Logic.Function.Iterate

/-!
# Handlers that return at once

A handler that consists of RETI and nothing else leaves no trace but time: the dispatch pushes the
program counter and disables interrupts, and RETI pops the one and enables the others. So a step
that calls such a handler leaves the CPU as it was, 36 ticks later, and its source no longer calls
(`step_of_returnsAtOnce`).

If that holds of the handlers of all sources that call, the next steps go through these sources in
the order of their urgency, one step for each (`serving_afterSteps`). What is followed from step to
step is the list of sources that still call, which loses its head, and the part of memory that no
dispatch writes.

The stack is the one thing that could interfere: the return address must not be stored over an
interrupt register or over a handler.
-/

namespace GameBoy.Board

/-- The opcode of RETI. -/
def retiOpcode : UInt8 := 0xD9

variable {s s' : Board Memory} {i : Interrupt}

variable (s) in
/-- **Each source that calls will be served, and its handler returns at once.** -/
structure ReturnsAtOnce : Prop where
  /-- The CPU is awake. -/
  running : s.cpu.power = .running
  /-- Interrupts are enabled. -/
  enabled : s.cpu.ime = true
  /-- No change of the master enable is waiting. -/
  settled : s.cpu.imeQueue.toList = []
  /-- The handlers begin with RETI. -/
  reti : ∀ i ∈ s.calling, s.bus.get i.vector = retiOpcode
  /-- A return address is pushed neither there nor over an interrupt register. -/
  apart : ∀ a ∈ [s.cpu.regs.sp - 1, s.cpu.regs.sp - 2],
    a ≠ requestAddress ∧ a ≠ enableAddress ∧ ∀ i ∈ s.calling, a ≠ i.vector

/-! ### One source -/

variable (s) in
/-- Memory after a source has been acknowledged and the return address has been pushed. -/
def acknowledged (i : Interrupt) : Memory :=
  ((s.bus.set requestAddress ((InterruptSet.ofByte (s.peek requestAddress)).erase i).toByte).set
    (s.cpu.regs.sp - 1) (highByte s.cpu.regs.pc)).set (s.cpu.regs.sp - 2) (lowByte s.cpu.regs.pc)

/-- A dispatch writes three addresses. -/
theorem get_acknowledged_of_ne {a : UInt16} (hrequest : a ≠ requestAddress)
    (hstack : a ∉ [s.cpu.regs.sp - 1, s.cpu.regs.sp - 2]) :
    (s.acknowledged i).get a = s.bus.get a := by
  simp only [List.mem_cons, List.not_mem_nil, or_false, not_or] at hstack
  rw [acknowledged, Memory.get_set_of_ne _ _ (Ne.symm hstack.2),
    Memory.get_set_of_ne _ _ (Ne.symm hstack.1), Memory.get_set_of_ne _ _ hrequest.symm]

/-- The handlers are still there afterwards. -/
theorem ReturnsAtOnce.reti_acknowledged (h : s.ReturnsAtOnce) {j : Interrupt}
    (hj : j ∈ s.calling) : (s.acknowledged i).get j.vector = retiOpcode := by
  rw [get_acknowledged_of_ne, h.reti j hj]
  · cases j <;> decide
  · exact fun hmem ↦ (h.apart _ hmem).2.2 j hj rfl

/-- The return address is on the stack. -/
theorem word_acknowledged :
    word ((s.acknowledged i).get (s.cpu.regs.sp - 2 + 1))
      ((s.acknowledged i).get (s.cpu.regs.sp - 2)) = s.cpu.regs.pc := by
  have habove : s.cpu.regs.sp - 2 + 1 = s.cpu.regs.sp - 1 := by grind
  have hne : s.cpu.regs.sp - 2 ≠ s.cpu.regs.sp - 1 := by grind
  rw [habove, acknowledged, Memory.get_set_self, Memory.get_set_of_ne _ _ hne, Memory.get_set_self,
    word_highByte_lowByte]

/-- RETI goes on at the address on the stack, with interrupts enabled. -/
theorem executeOne_reti (h : s.bus.get s.cpu.regs.pc = retiOpcode) :
    s.executeOne = (.ok 16,
      { cpu := { s.cpu with
          regs := { s.cpu.regs with
            sp := s.cpu.regs.sp + 2
            pc := word (s.bus.get (s.cpu.regs.sp + 1)) (s.bus.get s.cpu.regs.sp) }
          clock := s.cpu.clock + 16
          ime := true }
        bus := s.bus }) := by
  have hreti : Opcode.decode s.fetch.1 = .instruction .reti :=
    (congrArg Opcode.decode h).trans (by decide)
  rw [executeOne_of_instruction s hreti]
  rfl

variable (s i) in
/-- The board with which the handler of a source begins. -/
def called : Board Memory where
  cpu :=
    { s.cpu with
      regs := { s.cpu.regs with sp := s.cpu.regs.sp - 2, pc := i.vector }
      clock := s.cpu.clock + dispatchTicks
      ime := false }
  bus := s.acknowledged i

/-- The handler takes back what the call has done to the CPU. -/
theorem executeOne_called (hime : s.cpu.ime = true)
    (hreti : (s.acknowledged i).get i.vector = retiOpcode) :
    (s.called i).executeOne =
      (.ok 16, ⟨{ s.cpu with clock := s.cpu.clock + 36 }, s.acknowledged i⟩) := by
  have hback : s.cpu.regs.sp - 2 + 2 = s.cpu.regs.sp := by grind
  have hreturn : word ((s.called i).bus.get ((s.called i).cpu.regs.sp + 1))
      ((s.called i).bus.get (s.called i).cpu.regs.sp) = s.cpu.regs.pc := word_acknowledged
  have hsame : ({ s.cpu with clock := s.cpu.clock + 36 } : Cpu) =
      { s.cpu with clock := s.cpu.clock + 36, ime := true } := by
    rw [← hime]
  rw [executeOne_reti (s := s.called i) hreti, hreturn, hsame]
  simp only [called, hback, dispatchTicks]

/-- **One source is served.** Its handler is called and returns, and the CPU is as it was. -/
theorem step_of_returnsAtOnce (h : s.ReturnsAtOnce) (hsource : s.calling.highest? = some i) :
    s.serviceInterrupts.1 = .dispatched i ∧
      s.step = (.ok 36, ⟨{ s.cpu with clock := s.cpu.clock + 36 }, s.acknowledged i⟩) := by
  have hcalls : i ∈ s.calling := InterruptSet.mem_of_highest? hsource
  have hserved : s.serviceInterrupts = (.dispatched i, s.called i) := by
    have hawake := not_sleepsOn s (by simp [h.running])
    rw [serviceInterrupts_of_dispatched s hawake h.enabled hsource, setPower_eq_self s h.running,
      dispatch_eq]
    rfl
  have hrun : (s.called i).executeOrSleep =
      (.ok 16, ⟨{ s.cpu with clock := s.cpu.clock + 36 }, s.acknowledged i⟩) := by
    have hone : (s.called i).executeOrSleep = (s.called i).executeOne := if_pos h.running
    rw [hone, executeOne_called h.enabled (h.reti_acknowledged hcalls)]
  refine ⟨congrArg Prod.fst hserved, ?_⟩
  simp only [step_eq_finish, hserved, finish, hrun, applyDueIme,
    ImeQueue.popDue_of_nil h.settled, rollBack, Nat.add_sub_cancel_left]

/-! ### What calls afterwards -/

theorem peek_step (h : s.ReturnsAtOnce) (hsource : s.calling.highest? = some i) (a : UInt16) :
    s.step.2.peek a = (s.acknowledged i).get a := by
  rw [(step_of_returnsAtOnce h hsource).2]
  rfl

/-- The enable register is not written, and the request of the source is withdrawn. -/
theorem registers_step (h : s.ReturnsAtOnce) (hsource : s.calling.highest? = some i) :
    s.step.2.peek enableAddress = s.peek enableAddress ∧
      s.step.2.peek requestAddress =
        ((InterruptSet.ofByte (s.peek requestAddress)).erase i).toByte := by
  obtain ⟨hhigh, hlow⟩ : s.cpu.regs.sp - 1 ≠ requestAddress ∧ s.cpu.regs.sp - 2 ≠ requestAddress :=
    ⟨(h.apart _ (by simp)).1, (h.apart _ (by simp)).1⟩
  rw [peek_step h hsource, peek_step h hsource]
  refine ⟨get_acknowledged_of_ne (by decide) fun hmem ↦ (h.apart _ hmem).2.1 rfl, ?_⟩
  rw [acknowledged, Memory.get_set_of_ne _ _ hlow, Memory.get_set_of_ne _ _ hhigh,
    Memory.get_set_self]

/-- The source calls no longer, and the others go on calling. -/
theorem calling_step (h : s.ReturnsAtOnce) (hsource : s.calling.highest? = some i) :
    s.step.2.calling = s.calling.erase i := by
  obtain ⟨henabled, hrequested⟩ := registers_step h hsource
  rw [calling, henabled, hrequested, InterruptSet.ofByte_toByte, calling]
  exact InterruptSet.ext fun j ↦ by simp [and_assoc]

theorem ReturnsAtOnce.step (h : s.ReturnsAtOnce) (hsource : s.calling.highest? = some i) :
    s.step.2.ReturnsAtOnce := by
  have hcpu : s.step.2.cpu = { s.cpu with clock := s.cpu.clock + 36 } := by
    rw [(step_of_returnsAtOnce h hsource).2]
  have hfewer (j : Interrupt) (hj : j ∈ s.step.2.calling) : j ∈ s.calling := by
    rw [calling_step h hsource, InterruptSet.mem_erase] at hj
    exact hj.1
  refine ⟨?_, ?_, ?_, fun j hj ↦ ?_, ?_⟩
  · rw [hcpu]
    exact h.running
  · rw [hcpu]
    exact h.enabled
  · rw [hcpu]
    exact h.settled
  · have hget : s.step.2.bus.get j.vector = (s.acknowledged i).get j.vector := peek_step h hsource _
    rw [hget, h.reti_acknowledged (hfewer j hj)]
  · rw [hcpu]
    intro a ha
    obtain ⟨hrequest, henable, hvector⟩ := h.apart a ha
    exact ⟨hrequest, henable, fun j hj ↦ hvector j (hfewer j hj)⟩

/-! ### All sources -/

/-- The board after `n` steps, whether they succeed or fail. -/
def afterSteps {M : Type} [Port M] (s : Board M) (n : Nat) : Board M := (fun s ↦ s.step.2)^[n] s

theorem afterSteps_succ {M : Type} [Port M] (s : Board M) (n : Nat) :
    s.afterSteps (n + 1) = (s.afterSteps n).step.2 :=
  Function.iterate_succ_apply' ..

/-- **What `k` steps have done** that have each served a source. -/
structure Serving (s : Board Memory) (k : Nat) (s' : Board Memory) : Prop where
  /-- The next source can be served. -/
  returnsAtOnce : s'.ReturnsAtOnce
  /-- The CPU is as it was, but later. -/
  cpu_eq : s'.cpu = { s.cpu with clock := s.cpu.clock + 36 * k }
  /-- The first `k` sources call no longer. -/
  left : s'.calling.toList = s.calling.toList.drop k
  /-- The enable register is as it was. -/
  enabled : s'.peek enableAddress = s.peek enableAddress
  /-- Requests of sources that have not been calling are pending as before. -/
  pending : ∀ i ∉ s.calling, i ∈ InterruptSet.ofByte (s'.peek requestAddress) ↔
    i ∈ InterruptSet.ofByte (s.peek requestAddress)
  /-- The rest of memory is as it was. -/
  kept : ∀ a ≠ requestAddress, a ∉ [s.cpu.regs.sp - 1, s.cpu.regs.sp - 2] →
    s'.bus.get a = s.bus.get a

theorem Serving.zero (h : s.ReturnsAtOnce) : s.Serving 0 s :=
  ⟨h, rfl, rfl, rfl, fun _ _ ↦ Iff.rfl, fun _ _ _ ↦ rfl⟩

variable {k : Nat}

/-- The next source in the order is the most urgent one that still calls. -/
theorem Serving.highest? (h : s.Serving k s') (hk : k < s.calling.toList.length) :
    s'.calling.highest? = some s.calling.toList[k] := by
  rw [← InterruptSet.head?_toList, h.left, List.head?_drop, List.getElem?_eq_getElem hk]

/-- Another step serves another source. -/
theorem Serving.step (h : s.Serving k s') (hk : k < s.calling.toList.length) :
    s.Serving (k + 1) s'.step.2 := by
  have hsource := h.highest? hk
  have hreturns := h.returnsAtOnce
  obtain ⟨-, hstep⟩ := step_of_returnsAtOnce hreturns hsource
  obtain ⟨henabled, hrequested⟩ := registers_step hreturns hsource
  have hcalls : s.calling.toList[k] ∈ s.calling :=
    InterruptSet.mem_toList.mp (List.getElem_mem hk)
  refine ⟨hreturns.step hsource, ?_, ?_, henabled.trans h.enabled, fun i hi ↦ ?_,
    fun a hrequest hstack ↦ ?_⟩
  · rw [hstep, h.cpu_eq, Nat.mul_succ, Nat.add_assoc]
  · rw [calling_step hreturns hsource, InterruptSet.toList_erase hsource, h.left, List.tail_drop]
  · have hne : i ≠ s.calling.toList[k] := by
      rintro rfl
      exact hi hcalls
    rw [hrequested, InterruptSet.ofByte_toByte, InterruptSet.mem_erase, h.pending i hi]
    exact and_iff_left hne
  · have hsp : s'.cpu.regs.sp = s.cpu.regs.sp := by rw [h.cpu_eq]
    have hget : s'.step.2.bus.get a = (s'.acknowledged s.calling.toList[k]).get a :=
      peek_step hreturns hsource a
    rw [hget, get_acknowledged_of_ne hrequest (by rwa [hsp]), h.kept a hrequest hstack]

/-- **One step after the other serves all sources.** -/
theorem serving_afterSteps (h : s.ReturnsAtOnce) (hk : k ≤ s.calling.toList.length) :
    s.Serving k (s.afterSteps k) := by
  induction k with
  | zero => exact .zero h
  | succ k ih =>
    rw [afterSteps_succ]
    exact (ih (Nat.le_of_succ_le hk)).step hk

/-- In the end the sources that are left pending are those that are not enabled. -/
theorem Serving.pending_eq (h : s.Serving s.calling.toList.length s') :
    InterruptSet.ofByte (s'.peek requestAddress) =
      InterruptSet.ofByte (s.peek requestAddress) \ InterruptSet.ofByte (s.peek enableAddress) := by
  have hnone (i : Interrupt) : i ∉ s'.calling := by
    rw [← InterruptSet.mem_toList, h.left, List.drop_length]
    exact List.not_mem_nil
  refine InterruptSet.ext fun i ↦ ?_
  have hi := hnone i
  rw [calling, InterruptSet.mem_inter, h.enabled] at hi
  rw [InterruptSet.mem_sdiff]
  by_cases hcalls : i ∈ s.calling
  · rw [calling, InterruptSet.mem_inter] at hcalls
    tauto
  · rw [h.pending i hcalls]
    rw [h.pending i hcalls] at hi
    tauto

/-- **Interrupts are served in order and leave no trace.** Let the handlers of all sources that call
return at once, and let there be `n` of these sources, at least one. Then each of the next `n` steps
succeeds in 36 ticks and dispatches one of them, the most urgent one first. After that the CPU is as
it was, but for its clock; the request register holds the requests of the sources that are not
enabled; and the rest of memory is as it was, but for the two bytes below the stack pointer. -/
theorem interrupts_served_in_order (h : s.ReturnsAtOnce)
    (hcalling : s.peek enableAddress &&& s.peek requestAddress &&& 0x1F ≠ 0) :
    let sources := s.calling.toList
    let s' := s.afterSteps sources.length
    1 ≤ sources.length ∧
      (∀ k (hk : k < sources.length),
        (s.afterSteps k).serviceInterrupts.1 = .dispatched sources[k] ∧
          (s.afterSteps k).step = (.ok 36, s.afterSteps (k + 1))) ∧
      s'.cpu = { s.cpu with clock := s.cpu.clock + 36 * sources.length } ∧
      s'.bus.get requestAddress =
        (s.bus.get requestAddress &&& 0x1F) &&& ~~~ (s.bus.get enableAddress &&& 0x1F) ∧
      ∀ a, a ∉ [requestAddress, s.cpu.regs.sp - 1, s.cpu.regs.sp - 2] →
        s'.bus.get a = s.bus.get a := by
  intro sources s'
  have hsome : 1 ≤ sources.length := by
    obtain ⟨i, hi⟩ := Option.ne_none_iff_exists'.mp (mt s.highest?_calling_eq_none_iff.mp hcalling)
    exact List.length_pos_of_mem (InterruptSet.mem_toList.mpr (InterruptSet.mem_of_highest? hi))
  have hall : s.Serving sources.length s' := serving_afterSteps h (Nat.le_refl _)
  refine ⟨hsome, fun k hk ↦ ?_, hall.cpu_eq, ?_, fun a ha ↦ ?_⟩
  · have hserving := serving_afterSteps h (Nat.le_of_lt hk)
    obtain ⟨hdispatched, hstep⟩ :=
      step_of_returnsAtOnce hserving.returnsAtOnce (hserving.highest? hk)
    have hticks : (s.afterSteps k).step.1 = .ok 36 := congrArg Prod.fst hstep
    rw [afterSteps_succ]
    exact ⟨hdispatched, Prod.ext hticks rfl⟩
  · -- The last step has written a byte without upper bits.
    obtain ⟨k, hk⟩ := Nat.exists_eq_add_of_le' hsome
    have hlast : k < sources.length := by omega
    have hserving := serving_afterSteps h (Nat.le_of_lt hlast)
    have hwritten := (registers_step hserving.returnsAtOnce (hserving.highest? hlast)).2
    rw [← afterSteps_succ, ← hk] at hwritten
    calc s'.bus.get requestAddress
        = (InterruptSet.ofByte (s'.peek requestAddress)).toByte := by
          rw [hwritten, InterruptSet.ofByte_toByte]
          exact hwritten
      _ = (s.bus.get requestAddress &&& 0x1F) &&& ~~~ (s.bus.get enableAddress &&& 0x1F) := by
          rw [hall.pending_eq, InterruptSet.toByte_sdiff, InterruptSet.toByte_ofByte,
            InterruptSet.toByte_ofByte]
          rfl
  · exact hall.kept a (List.ne_of_not_mem_cons ha) (List.not_mem_of_not_mem_cons ha)

/-- All sources are requested and all but the joypad are enabled. The stack is where the handler of
the joypad would be. -/
def callingFour : Board Memory where
  cpu := { Cpu.powerOn .fatal with regs := { Cpu.initialRegisters with sp := 0x0062 } }
  bus := ((((((Memory.fill 0xFF).set requestAddress 0xFF).set enableAddress 0xEF).set
    0x0040 0xD9).set 0x0048 0xD9).set 0x0050 0xD9).set 0x0058 0xD9

/-- Four handlers are called, and the request of the joypad is left. -/
theorem interrupts_served_in_order_of_callingFour :
    callingFour.calling.toList = [.vblank, .lcdStat, .timer, .serial] ∧
      (callingFour.afterSteps 2).serviceInterrupts.1 = .dispatched .timer ∧
      (callingFour.afterSteps 4).cpu = { callingFour.cpu with clock := 144 } ∧
      (callingFour.afterSteps 4).bus.get requestAddress = 0x10 := by
  have hreturns : callingFour.ReturnsAtOnce :=
    ⟨rfl, rfl, rfl, fun i ↦ by cases i <;> decide, fun a ha ↦ by
      simp only [List.mem_cons, List.not_mem_nil, or_false] at ha
      rcases ha with rfl | rfl <;>
        exact ⟨by decide, by decide, fun i ↦ by cases i <;> decide⟩⟩
  have hsources : callingFour.calling.toList = [.vblank, .lcdStat, .timer, .serial] := by decide
  obtain ⟨-, hsteps, hcpu, hrequests, -⟩ :=
    interrupts_served_in_order hreturns (by decide)
  simp only [hsources] at hsteps hcpu hrequests
  exact ⟨hsources, (hsteps 2 (by decide)).1, hcpu, hrequests⟩

end GameBoy.Board
