import GameBoy.Proofs.Interrupt
import GameBoy.Proofs.Port.Trace

/-!
# What a step does about interrupts

Before anything else a step reads the request register, and from then on three things decide: the
state of power, the interrupt master enable, and the bytes that the two interrupt registers deliver.
`interrupt_phase` says what becomes of the CPU and which accesses are made, for every CPU and
whatever is attached.

The enable register is not read in every step, and where it is, it is read after the request
register and after STOP has ended. `Board.enableByte` is what it delivers then; in the steps that do
not read it, nothing depends on it.

Only the five low bits of the two bytes count. The others may hold anything: they are neither looked
at nor written back.
-/

namespace GameBoy

namespace Board

variable {M : Type} [Port M] (s : Board M)

/-! ### The two registers -/

/-- The byte that the request register delivers when a step begins. -/
def requestByte : UInt8 := (s.read requestAddress).1

/-- The board once the request register has been read, with STOP ended if it was in STOP. -/
def woken : Board M :=
  if s.cpu.power = .stopped then
    ((s.read requestAddress).2.note (.stopEnded s.cpu.clock)).setPower .running
  else (s.read requestAddress).2

/-- The byte that the enable register delivers next. -/
def enableByte : UInt8 := (s.woken.read enableAddress).1

/-- The requests: the five low bits of the request register. -/
def pendingBits : UInt8 := s.requestByte &&& 0x1F

/-- The enabled sources: the five low bits of the enable register. -/
def enabledBits : UInt8 := s.enableByte &&& 0x1F

/-- In STOP, without a request of the joypad. -/
def SleepsOn : Prop := s.cpu.power = .stopped ∧ s.pendingBits.toNat.testBit 4 = false

/-- Interrupts are enabled, or the CPU waits for one. -/
def Looks : Prop := s.cpu.ime = true ∨ s.cpu.power = .halted

instance : Decidable s.SleepsOn := inferInstanceAs (Decidable (_ ∧ _))

instance : Decidable s.Looks := inferInstanceAs (Decidable (_ ∨ _))

/-- The sources that are pending, as bits. -/
theorem toByte_pending : (InterruptSet.ofByte s.requestByte).toByte = s.pendingBits :=
  InterruptSet.toByte_ofByte _

theorem toByte_urgent :
    (InterruptSet.ofByte s.enableByte ∩ InterruptSet.ofByte s.requestByte).toByte =
      s.enabledBits &&& s.pendingBits := by
  rw [InterruptSet.toByte_inter, InterruptSet.toByte_ofByte, InterruptSet.toByte_ofByte]
  rfl

theorem joypad_mem_pending_iff :
    Interrupt.joypad ∈ InterruptSet.ofByte s.requestByte ↔ s.pendingBits.toNat.testBit 4 = true := by
  rw [← toByte_pending]
  exact InterruptSet.testBit_toByte.symm

theorem urgent?_woken_eq_none_iff :
    s.woken.urgent? (.ofByte s.requestByte) = none ↔ s.enabledBits &&& s.pendingBits = 0 := by
  rw [← toByte_urgent]
  exact InterruptSet.highest?_eq_none_iff

/-- What is found to be most urgent has the lowest bit among those that are set in both. -/
theorem isLeast_of_urgent?_woken {i : Interrupt}
    (h : s.woken.urgent? (.ofByte s.requestByte) = some i) :
    IsLeast { n | (s.enabledBits &&& s.pendingBits).toNat.testBit n = true } i.index := by
  rw [← toByte_urgent]
  exact InterruptSet.isLeast_of_highest? h

/-! ### Waking up -/

/-- A CPU in STOP wakes up, and nothing else happens to it. -/
theorem cpu_woken :
    s.woken.cpu =
      { s.cpu with power := if s.cpu.power = .stopped then .running else s.cpu.power } := by
  by_cases hpower : s.cpu.power = .stopped
  · rw [woken, if_pos hpower, if_pos hpower]
    rfl
  · rw [woken, if_neg hpower, if_neg hpower]
    rfl

/-- That does not end HALT. -/
theorem power_woken_eq_halted_iff : s.woken.cpu.power = .halted ↔ s.cpu.power = .halted := by
  rw [cpu_woken]
  by_cases hpower : s.cpu.power = .stopped <;> simp [hpower]

/-- A CPU that stays in STOP looks at nothing but the requests. -/
theorem serviceInterrupts_of_sleepsOn (h : s.SleepsOn) :
    s.serviceInterrupts = (.idle, (s.read requestAddress).2) := by
  obtain ⟨hpower, hbit⟩ := h
  have hcpu : (s.read requestAddress).2.cpu = s.cpu := rfl
  have hjoypad : Interrupt.joypad ∉ InterruptSet.ofByte (s.read requestAddress).1 := by
    intro hmem
    have hset := (joypad_mem_pending_iff s).mp hmem
    simp [hset] at hbit
  simp only [serviceInterrupts, hcpu, if_pos hpower, if_neg hjoypad]

/-- Any other CPU goes on to look for a source. -/
theorem serviceInterrupts_of_not_sleepsOn (h : ¬ s.SleepsOn) :
    s.serviceInterrupts = s.woken.attend (.ofByte s.requestByte) := by
  have hcpu : (s.read requestAddress).2.cpu = s.cpu := rfl
  by_cases hpower : s.cpu.power = .stopped
  · have hjoypad : Interrupt.joypad ∈ InterruptSet.ofByte (s.read requestAddress).1 := by
      refine (joypad_mem_pending_iff s).mpr ?_
      by_contra hbit
      exact h ⟨hpower, by simpa using hbit⟩
    simp only [serviceInterrupts, hcpu, if_pos hpower, if_pos hjoypad, woken, requestByte]
  · simp only [serviceInterrupts, hcpu, if_neg hpower, woken, requestByte]

/-! ### The accesses -/

/-- The request register is read first, whatever comes then. -/
theorem woken_traced :
    s.traced.woken = s.woken.traced.map (Traced.after [.read requestAddress s.requestByte]) := by
  by_cases hpower : s.cpu.power = .stopped
  · have hpower' : s.traced.cpu.power = .stopped := hpower
    rw [woken, woken, if_pos hpower, if_pos hpower']
    rfl
  · have hpower' : s.traced.cpu.power ≠ .stopped := hpower
    rw [woken, woken, if_neg hpower, if_neg hpower']
    rfl

/-- What looking at the interrupts comes to: where it leads, the CPU then, and the accesses made. -/
def interruptPhase : Attention × Cpu × List Access :=
  let r := s.traced.serviceInterrupts
  (r.1, r.2.cpu, r.2.bus.accesses)

theorem interruptPhase_of_sleepsOn (h : s.SleepsOn) :
    s.interruptPhase = (.idle, s.cpu, [.read requestAddress s.requestByte]) := by
  have h' : s.traced.SleepsOn := h
  rw [interruptPhase, serviceInterrupts_of_sleepsOn _ h']
  rfl

/-- What is done after the request register has been read, as the accesses of its own. -/
theorem interruptPhase_of_not_sleepsOn (h : ¬ s.SleepsOn) :
    s.interruptPhase =
      let r := s.woken.traced.attend (.ofByte s.requestByte)
      (r.1, r.2.cpu, .read requestAddress s.requestByte :: r.2.bus.accesses) := by
  have h' : ¬ s.traced.SleepsOn := h
  have hbyte : s.traced.requestByte = s.requestByte := rfl
  rw [interruptPhase, serviceInterrupts_of_not_sleepsOn _ h', hbyte, woken_traced,
    map_attend (Traced.hom_after _)]
  simp only [mapResult, map_cpu, map_bus, Traced.accesses_after, List.reverse_singleton,
    List.singleton_append]

omit [Port M] in
theorem cpu_endHalt :
    s.endHalt.cpu =
      { s.cpu with power := if s.cpu.power = .halted then .running else s.cpu.power } := by
  unfold endHalt
  split <;> rfl

omit [Port M] in
theorem bus_endHalt : s.endHalt.bus = s.bus := by
  unfold endHalt
  split <;> rfl

/-- **What a dispatch does to the CPU.** -/
theorem cpu_dispatch (source : Interrupt) (pending enabled : InterruptSet) :
    (s.dispatch source pending enabled).cpu =
      { s.cpu with
        regs := { s.cpu.regs with sp := s.cpu.regs.sp - 2, pc := source.vector }
        clock := s.cpu.clock + dispatchTicks, ime := false } := by
  have hsp : s.cpu.regs.sp - 2 = s.cpu.regs.sp - 1 - 1 := by grind
  rw [hsp]
  rfl

/-- A dispatch acknowledges first, and then stores the return address from the top. -/
theorem accesses_dispatch (s : Board (Traced M)) (source : Interrupt)
    (pending enabled : InterruptSet) :
    (s.dispatch source pending enabled).bus.accesses =
      s.bus.accesses ++
        [.write requestAddress (pending.erase source).toByte,
          .write (s.cpu.regs.sp - 1) (highByte s.cpu.regs.pc),
          .write (s.cpu.regs.sp - 2) (lowByte s.cpu.regs.pc)] := by
  have hsp : s.cpu.regs.sp - 2 = s.cpu.regs.sp - 1 - 1 := by grind
  have hrecent : (s.dispatch source pending enabled).bus.recent =
      .write (s.cpu.regs.sp - 1 - 1) (lowByte s.cpu.regs.pc) ::
        .write (s.cpu.regs.sp - 1) (highByte s.cpu.regs.pc) ::
          .write requestAddress (pending.erase source).toByte :: s.bus.recent := rfl
  rw [Traced.accesses, hrecent, hsp]
  simp [Traced.accesses]

section Awake

variable {s} (hawake : ¬ s.SleepsOn)
include hawake

/-- Nobody asks for the enable register, or nothing is both requested and enabled. -/
theorem interruptPhase_of_idle (h : ¬ (s.Looks ∧ s.enabledBits &&& s.pendingBits ≠ 0)) :
    s.interruptPhase =
      (.idle, { s.cpu with power := if s.cpu.power = .stopped then .running else s.cpu.power },
        .read requestAddress s.requestByte ::
          if s.Looks then [.read enableAddress s.enableByte] else []) := by
  rw [interruptPhase_of_not_sleepsOn s hawake, ← cpu_woken]
  have hime : s.woken.traced.cpu.ime = s.cpu.ime := by
    change s.woken.cpu.ime = s.cpu.ime
    rw [cpu_woken]
  by_cases hlooks : s.Looks
  · have hnone : s.enabledBits &&& s.pendingBits = 0 := by
      by_contra hsome
      exact h ⟨hlooks, hsome⟩
    have hlooks' : s.woken.traced.cpu.ime = true ∨ s.woken.traced.cpu.power = .halted := by
      rw [hime]
      exact hlooks.imp_right (power_woken_eq_halted_iff s).mpr
    have hsource := (urgent?_woken_eq_none_iff s).mpr hnone
    rw [attend_of_none s.woken.traced _ hlooks' hsource, if_pos hlooks]
    rfl
  · obtain ⟨hdisabled, hpower⟩ := not_or.mp hlooks
    have hime' : s.woken.traced.cpu.ime = false := by
      rw [hime]
      simpa using hdisabled
    have hpower' : s.woken.traced.cpu.power ≠ .halted :=
      fun hhalted ↦ hpower ((power_woken_eq_halted_iff s).mp hhalted)
    rw [attend_of_unheeded s.woken.traced _ hime' hpower', if_neg hlooks]
    rfl

/-- HALT ends without a handler: both registers are read, and nothing is written. -/
theorem interruptPhase_of_haltEnded (hime : s.cpu.ime = false) (hpower : s.cpu.power = .halted)
    {i : Interrupt} (hsource : s.woken.urgent? (.ofByte s.requestByte) = some i) :
    s.interruptPhase =
      (.haltEnded i, { s.cpu with power := .running },
        [.read requestAddress s.requestByte, .read enableAddress s.enableByte]) := by
  rw [interruptPhase_of_not_sleepsOn s hawake]
  have hcpu : s.woken.traced.cpu = { s.cpu with power := .halted } := by
    change s.woken.cpu = _
    rw [cpu_woken, hpower, if_neg (by decide)]
  have hime' : s.woken.traced.cpu.ime = false := by
    rw [hcpu]
    exact hime
  have hpower' : s.woken.traced.cpu.power = .halted := by
    rw [hcpu]
  rw [attend_of_haltEnded s.woken.traced _ hime' hpower' hsource]
  have hafter : ((s.woken.traced.read enableAddress).2.setPower .running).cpu =
      { s.woken.traced.cpu with power := .running } := rfl
  have hcpu' : ({ s.woken.traced.cpu with power := .running } : Cpu) =
      { s.cpu with power := .running } := by
    rw [hcpu]
  rw [← hcpu', ← hafter]
  rfl

/-- A handler is called: the request is taken back, and the program counter is pushed. -/
theorem interruptPhase_of_dispatched (hime : s.cpu.ime = true) {i : Interrupt}
    (hsource : s.woken.urgent? (.ofByte s.requestByte) = some i) :
    s.interruptPhase =
      (.dispatched i,
        { s.cpu with
          regs := { s.cpu.regs with sp := s.cpu.regs.sp - 2, pc := i.vector }
          clock := s.cpu.clock + dispatchTicks, power := .running, ime := false },
        [.read requestAddress s.requestByte, .read enableAddress s.enableByte,
          .write requestAddress (s.pendingBits &&& ~~~ i.mask),
          .write (s.cpu.regs.sp - 1) (highByte s.cpu.regs.pc),
          .write (s.cpu.regs.sp - 2) (lowByte s.cpu.regs.pc)]) := by
  rw [interruptPhase_of_not_sleepsOn s hawake]
  have hime' : s.woken.traced.cpu.ime = true := by
    change s.woken.cpu.ime = true
    rw [cpu_woken]
    exact hime
  rw [attend_of_dispatched s.woken.traced _ hime' hsource]
  -- Whatever the state of power was, the CPU is awake when the dispatch begins.
  have hcpu : (s.woken.traced.read enableAddress).2.endHalt.cpu =
      { s.cpu with power := .running } := by
    have hread : (s.woken.traced.read enableAddress).2.cpu = s.woken.cpu := rfl
    rw [cpu_endHalt, hread, cpu_woken]
    cases s.cpu.power <;> rfl
  have haccesses : (s.woken.traced.read enableAddress).2.endHalt.bus.accesses =
      [.read enableAddress s.enableByte] := by
    rw [bus_endHalt]
    rfl
  simp only [cpu_dispatch, accesses_dispatch, hcpu, haccesses, InterruptSet.toByte_erase,
    toByte_pending, List.cons_append, List.nil_append]

end Awake

/-- A source is dispatched only if it is the most urgent one, with interrupts enabled. -/
theorem dispatched_iff {i : Interrupt} :
    s.serviceInterrupts.1 = .dispatched i ↔
      ¬ s.SleepsOn ∧ s.cpu.ime = true ∧ s.woken.urgent? (.ofByte s.requestByte) = some i := by
  have hattention : s.serviceInterrupts.1 = s.interruptPhase.1 := by
    rw [serviceInterrupts_traced]
    rfl
  rw [hattention]
  constructor
  · intro h
    have hawake : ¬ s.SleepsOn := fun hsleeps ↦ by simp [interruptPhase_of_sleepsOn s hsleeps] at h
    have hlooked : s.Looks ∧ s.enabledBits &&& s.pendingBits ≠ 0 := by
      by_contra hidle
      simp [interruptPhase_of_idle hawake hidle] at h
    obtain ⟨hlooks, hboth⟩ := hlooked
    cases hsource : s.woken.urgent? (.ofByte s.requestByte) with
    | none => exact absurd ((urgent?_woken_eq_none_iff s).mp hsource) hboth
    | some j =>
      cases hime : s.cpu.ime with
      | true =>
        rw [interruptPhase_of_dispatched hawake hime hsource] at h
        exact ⟨hawake, rfl, congrArg some (Attention.dispatched.inj h)⟩
      | false =>
        have hpower : s.cpu.power = .halted := hlooks.resolve_left (by simp [hime])
        simp [interruptPhase_of_haltEnded hawake hime hpower hsource] at h
  · rintro ⟨hawake, hime, hsource⟩
    rw [interruptPhase_of_dispatched hawake hime hsource]

/-! ### The whole phase -/

/-- Where reading has no effect and events go unheard, the enable register is read as it is. -/
theorem enableByte_eq_read (hread : ∀ (m : M) a, (Port.read m a).2 = m)
    (hsilent : ∀ (m : M) e, Port.note m e = m) :
    s.enableByte = (Port.read s.bus enableAddress).1 := by
  have hbus : s.woken.bus = s.bus := by
    unfold woken
    split
    · exact (hsilent _ _).trans (hread s.bus requestAddress)
    · exact hread s.bus requestAddress
  change (Port.read s.woken.bus enableAddress).1 = _
  rw [hbus]

/-- What looking at the interrupts does to a port that ignores events is what its accesses do. -/
theorem bus_serviceInterrupts (hsilent : ∀ (m : M) e, Port.note m e = m) :
    s.serviceInterrupts.2.bus = s.interruptPhase.2.2.foldl Access.apply s.bus := by
  have hinner := (Traced.invariant_apply hsilent s.bus).of_map serviceInterrupts
    map_serviceInterrupts s.traced rfl
  rw [serviceInterrupts_traced]
  exact hinner

/-- **What a step does about interrupts.** In STOP, without a request of the joypad, the request
register is read and that is all. Otherwise STOP ends, and then there are three cases.

* If interrupts are enabled and some source is both requested and enabled, the most urgent one is
  dispatched: its request alone is withdrawn, interrupts are disabled, and the handler is called,
  which takes 20 ticks.
* If interrupts are disabled, such a source ends HALT, and nothing else happens.
* In all other cases nothing else happens.

The accesses made are those listed, in that order; a port that ignores events is changed by nothing
else; and the rest of the step goes on from there, with accesses of its own after these. -/
theorem interrupt_phase :
    (s.SleepsOn → s.interruptPhase = (.idle, s.cpu, [.read requestAddress s.requestByte])) ∧
    (¬ s.SleepsOn →
      (s.cpu.ime = true → s.enabledBits &&& s.pendingBits ≠ 0 → ∃ i : Interrupt,
        IsLeast { n | (s.enabledBits &&& s.pendingBits).toNat.testBit n = true } i.index ∧
          s.interruptPhase =
            (.dispatched i,
              { s.cpu with
                regs :=
                  { s.cpu.regs with
                    sp := s.cpu.regs.sp - 2, pc := UInt16.ofNat (0x40 + 8 * i.index) }
                clock := s.cpu.clock + 20, power := .running, ime := false },
              [.read requestAddress s.requestByte, .read enableAddress s.enableByte,
                .write requestAddress (s.pendingBits &&& ~~~ i.mask),
                .write (s.cpu.regs.sp - 1) (highByte s.cpu.regs.pc),
                .write (s.cpu.regs.sp - 2) (lowByte s.cpu.regs.pc)])) ∧
      (s.cpu.ime = false → s.cpu.power = .halted → s.enabledBits &&& s.pendingBits ≠ 0 →
        ∃ i : Interrupt,
          IsLeast { n | (s.enabledBits &&& s.pendingBits).toNat.testBit n = true } i.index ∧
            s.interruptPhase =
              (.haltEnded i, { s.cpu with power := .running },
                [.read requestAddress s.requestByte, .read enableAddress s.enableByte])) ∧
      (¬ (s.Looks ∧ s.enabledBits &&& s.pendingBits ≠ 0) →
        s.interruptPhase =
          (.idle, { s.cpu with power := if s.cpu.power = .stopped then .running else s.cpu.power },
            .read requestAddress s.requestByte ::
              if s.Looks then [.read enableAddress s.enableByte] else []))) ∧
    (s.serviceInterrupts.1 = s.interruptPhase.1 ∧
      s.serviceInterrupts.2.cpu = s.interruptPhase.2.1 ∧
      ((∀ (m : M) e, Port.note m e = m) →
        s.serviceInterrupts.2.bus = s.interruptPhase.2.2.foldl Access.apply s.bus)) ∧
    s.step = s.serviceInterrupts.2.finish s.serviceInterrupts.1 s.cpu ∧
    s.traced.step.2.bus.accesses =
      s.interruptPhase.2.2 ++
        (s.serviceInterrupts.2.traced.finish s.serviceInterrupts.1 s.cpu).2.bus.accesses := by
  have hfound (hboth : s.enabledBits &&& s.pendingBits ≠ 0) :
      ∃ i, s.woken.urgent? (.ofByte s.requestByte) = some i := by
    cases hsource : s.woken.urgent? (.ofByte s.requestByte) with
    | none => exact absurd ((urgent?_woken_eq_none_iff s).mp hsource) hboth
    | some i => exact ⟨i, rfl⟩
  have hserved := serviceInterrupts_traced s
  refine ⟨interruptPhase_of_sleepsOn s, fun hawake ↦ ⟨?_, ?_, ?_⟩, ⟨?_, ?_, ?_⟩, ?_, ?_⟩
  · intro hime hboth
    obtain ⟨i, hsource⟩ := hfound hboth
    exact ⟨i, isLeast_of_urgent?_woken s hsource, interruptPhase_of_dispatched hawake hime hsource⟩
  · intro hime hpower hboth
    obtain ⟨i, hsource⟩ := hfound hboth
    exact ⟨i, isLeast_of_urgent?_woken s hsource,
      interruptPhase_of_haltEnded hawake hime hpower hsource⟩
  · exact interruptPhase_of_idle hawake
  · rw [hserved]
    rfl
  · rw [hserved]
    rfl
  · exact bus_serviceInterrupts s
  · exact step_eq_finish s
  · exact accesses_step s

/-- In HALT, with three requests pending behind junk in the upper bits, all sources enabled, and a
stack whose top lies on the request register. -/
def stackOnRequests : Board Memory where
  cpu :=
    { regs := { Cpu.initialRegisters with sp := 0xFF10, pc := 0x1234 }, power := .halted
      ime := true }
  bus := ((Memory.fill 0).set requestAddress 0xF6).set enableAddress 0xFF

/-- The request of the display is withdrawn, and then the return address is stored over what was
written back. -/
theorem interrupt_phase_of_stackOnRequests :
    stackOnRequests.interruptPhase.1 = .dispatched .lcdStat ∧
      stackOnRequests.interruptPhase.2.2 =
        [.read 0xFF0F 0xF6, .read 0xFFFF 0xFF, .write 0xFF0F 0x14, .write 0xFF0F 0x12,
          .write 0xFF0E 0x34] ∧
      stackOnRequests.serviceInterrupts.2.bus.get 0xFF0F = 0x12 := by
  obtain ⟨-, hphase, ⟨-, -, hbus⟩, -⟩ := interrupt_phase stackOnRequests
  have henable : stackOnRequests.enableByte = 0xFF :=
    enableByte_eq_read _ (fun _ _ ↦ rfl) (fun _ _ ↦ rfl)
  obtain ⟨i, hleast, hdispatched⟩ := (hphase (by decide)).1 rfl (by decide)
  have hlowest : IsLeast { n | (0x16 : UInt8).toNat.testBit n = true } Interrupt.lcdStat.index := by
    refine ⟨by decide, fun n hn ↦ ?_⟩
    by_contra hlt
    obtain rfl : n = 0 := by
      simp only [Interrupt.index] at hlt
      omega
    exact absurd hn (by decide)
  have hbits : stackOnRequests.enabledBits &&& stackOnRequests.pendingBits = 0x16 := by decide
  rw [hbits] at hleast
  obtain rfl := Interrupt.index_injective (hleast.unique hlowest)
  rw [hdispatched] at hbus ⊢
  refine ⟨rfl, ?_, ?_⟩
  · rw [henable]
    decide
  · rw [hbus (fun _ _ ↦ rfl)]
    decide

end Board

end GameBoy
