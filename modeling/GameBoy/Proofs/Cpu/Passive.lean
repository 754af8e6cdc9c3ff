import GameBoy.Bus
import GameBoy.Proofs.Cpu.Frame
import GameBoy.Proofs.Cpu.InterruptPhase

/-!
# Ports that only writes change

A plain memory and the bus have something in common that a port need not have: reading has no effect
on them, and they take no notice of events. On such a port, which is called **passive** here, the
bytes that a step is going to read can be named before it begins (`Board.peek`). Two things follow.

* What is fetched is what stands at the program counter (`fetchOpcode_of_prefixed`,
  `fetchOpcode_of_plain`).
* What looking at the interrupts comes to is known beforehand, and so is the board that it leaves
  (`serviceInterrupts_cases`). Unless a handler is called, that board differs from the one before in
  its state of power at most; and it has nothing more to look at (`serviceInterrupts_again`).
-/

namespace GameBoy

/-- A port that is changed by writes and by nothing else. -/
class Port.Passive (M : Type) [Port M] : Prop where
  /-- A read leaves it as it is. -/
  snd_read : ∀ (m : M) a, (Port.read m a).2 = m
  /-- An event leaves it as it is. -/
  note_eq : ∀ (m : M) e, Port.note m e = m

instance : Port.Passive Memory := ⟨fun _ _ ↦ rfl, fun _ _ ↦ rfl⟩

instance : Port.Passive Bus := ⟨fun _ _ ↦ rfl, fun _ _ ↦ rfl⟩

namespace Board

variable {M : Type} [Port M] (s : Board M)

/-- The byte at an address. -/
def peek (a : UInt16) : UInt8 := (s.read a).1

/-- The sources that are both requested and enabled. -/
def calling : InterruptSet :=
  .ofByte (s.peek enableAddress) ∩ .ofByte (s.peek requestAddress)

/-- Nothing calls if the two registers have none of the five bits in common. -/
theorem highest?_calling_eq_none_iff :
    s.calling.highest? = none ↔ s.peek enableAddress &&& s.peek requestAddress &&& 0x1F = 0 := by
  have hbits (v w : UInt8) : v &&& 0x1F &&& (w &&& 0x1F) = v &&& w &&& 0x1F :=
    calc v &&& 0x1F &&& (w &&& 0x1F)
        = v &&& w &&& (0x1F &&& 0x1F) := by ac_rfl
      _ = v &&& w &&& 0x1F := by rw [UInt8.and_self]
  rw [InterruptSet.highest?_eq_none_iff, calling, InterruptSet.toByte_inter,
    InterruptSet.toByte_ofByte, InterruptSet.toByte_ofByte, hbits]

/-- Only a CPU in STOP can stay there. -/
theorem not_sleepsOn (h : s.cpu.power ≠ .stopped) : ¬ s.SleepsOn := fun hsleeps ↦ h hsleeps.1

omit [Port M] in
/-- A CPU that is set to the state of power that it is in does not change. -/
theorem setPower_eq_self {power : Power} (h : s.cpu.power = power) : s.setPower power = s := by
  rw [← h]
  rfl

variable [Port.Passive M]

/-! ### Moves -/

@[simp] theorem snd_read (a : UInt16) : (s.read a).2 = s :=
  congrArg (Board.mk s.cpu) (Port.Passive.snd_read s.bus a)

/-- A passive port takes no notice of an event. -/
@[simp] theorem note_eq (e : Event) : s.note e = s :=
  congrArg (Board.mk s.cpu) (Port.Passive.note_eq s.bus e)

theorem fetch_eq : s.fetch = (s.peek s.cpu.regs.pc, s.setPC (s.cpu.regs.pc + 1)) := by
  refine Prod.ext rfl ?_
  show (s.read s.cpu.regs.pc).2.setPC (s.cpu.regs.pc + 1) = s.setPC (s.cpu.regs.pc + 1)
  rw [snd_read]

/-- Behind 0xFD the next byte is decoded. -/
theorem fetchOpcode_of_prefixed (h : s.peek s.cpu.regs.pc = 0xFD) :
    s.fetchOpcode =
      ({ opcode := s.peek (s.cpu.regs.pc + 1), pc := s.cpu.regs.pc + 1, prefixed := true },
        s.setPC (s.cpu.regs.pc + 1 + 1)) := by
  have hagain : Opcode.decode (s.peek s.cpu.regs.pc) = .again :=
    (Opcode.decode_eq_again_iff _).mpr h
  simp only [fetchOpcode, fetch_eq, if_pos hagain, note_eq]
  rfl

/-- An opcode other than 0xFD is fetched as it stands there. -/
theorem fetchOpcode_of_plain (h : s.peek s.cpu.regs.pc ≠ 0xFD) :
    s.fetchOpcode =
      ({ opcode := s.peek s.cpu.regs.pc, pc := s.cpu.regs.pc, prefixed := false },
        s.setPC (s.cpu.regs.pc + 1)) := by
  have hagain : Opcode.decode (s.peek s.cpu.regs.pc) ≠ .again :=
    mt (Opcode.decode_eq_again_iff _).mp h
  simp only [fetchOpcode, fetch_eq, if_neg hagain]

/-! ### Looking at the interrupts -/

theorem woken_of_stopped (h : s.cpu.power = .stopped) : s.woken = s.setPower .running := by
  rw [woken, if_pos h, snd_read, note_eq]

theorem woken_of_ne_stopped (h : s.cpu.power ≠ .stopped) : s.woken = s := by
  rw [woken, if_neg h, snd_read]

theorem bus_woken : s.woken.bus = s.bus := by
  by_cases hpower : s.cpu.power = .stopped
  · rw [woken_of_stopped s hpower]
    rfl
  · rw [woken_of_ne_stopped s hpower]

/-- Waking up changes nothing in memory. -/
theorem peek_woken (a : UInt16) : s.woken.peek a = s.peek a :=
  congrArg (fun bus ↦ (Port.read bus a).1) s.bus_woken

/-- The enable register reads the same before STOP has ended and after. -/
theorem urgent?_woken : s.woken.urgent? (.ofByte s.requestByte) = s.calling.highest? :=
  congrArg (fun v ↦ (InterruptSet.ofByte v ∩ .ofByte s.requestByte).highest?)
    (s.peek_woken enableAddress)

theorem endHalt_woken : s.woken.endHalt = s.setPower .running := by
  cases hpower : s.cpu.power with
  | stopped =>
    rw [woken_of_stopped s hpower]
    exact if_neg (by simp [setPower])
  | halted =>
    rw [woken_of_ne_stopped s (by simp [hpower])]
    exact if_pos hpower
  | running =>
    rw [woken_of_ne_stopped s (by simp [hpower]), setPower_eq_self s hpower]
    exact if_neg (by simp [hpower])

theorem serviceInterrupts_of_asleep (h : s.SleepsOn) : s.serviceInterrupts = (.idle, s) := by
  rw [serviceInterrupts_of_sleepsOn s h, snd_read]

/-- Nothing is looked for, or nothing calls. -/
theorem serviceInterrupts_of_idle (hawake : ¬ s.SleepsOn)
    (h : s.Looks → s.calling.highest? = none) : s.serviceInterrupts = (.idle, s.woken) := by
  have hime : s.woken.cpu.ime = s.cpu.ime := by
    rw [cpu_woken]
  rw [serviceInterrupts_of_not_sleepsOn s hawake]
  by_cases hlooks : s.Looks
  · have hlook : s.woken.cpu.ime = true ∨ s.woken.cpu.power = .halted := by
      rw [hime]
      exact hlooks.imp_right (power_woken_eq_halted_iff s).mpr
    have hnone := (urgent?_woken s).trans (h hlooks)
    rw [attend_of_none _ _ hlook hnone, snd_read]
  · obtain ⟨hdisabled, hpower⟩ := not_or.mp hlooks
    refine attend_of_unheeded _ _ ?_ (mt (power_woken_eq_halted_iff s).mp hpower)
    rw [hime]
    simpa using hdisabled

/-- A CPU that is awake goes on as it is, with interrupts disabled or while nothing calls. -/
theorem serviceInterrupts_of_running (hpower : s.cpu.power = .running)
    (h : s.cpu.ime = true → s.calling.highest? = none) : s.serviceInterrupts = (.idle, s) := by
  have hstays : s.cpu.power ≠ .stopped := by simp [hpower]
  have hlooks : s.Looks → s.calling.highest? = none := by simpa [Looks, hpower] using h
  rw [serviceInterrupts_of_idle s (not_sleepsOn s hstays) hlooks, woken_of_ne_stopped s hstays]

/-- With interrupts disabled, the most urgent source that calls ends HALT. -/
theorem serviceInterrupts_of_haltEnded (hpower : s.cpu.power = .halted) (hime : s.cpu.ime = false)
    {source : Interrupt} (h : s.calling.highest? = some source) :
    s.serviceInterrupts = (.haltEnded source, s.setPower .running) := by
  have hsource := (urgent?_woken s).trans h
  rw [serviceInterrupts_of_not_sleepsOn s (not_sleepsOn s (by simp [hpower]))]
  rw [woken_of_ne_stopped s (by simp [hpower])] at hsource ⊢
  rw [attend_of_haltEnded s _ hime hpower hsource, snd_read, note_eq]

/-- With interrupts enabled, its handler is called. -/
theorem serviceInterrupts_of_dispatched (hawake : ¬ s.SleepsOn) (hime : s.cpu.ime = true)
    {source : Interrupt} (h : s.calling.highest? = some source) :
    s.serviceInterrupts = (.dispatched source, (s.setPower .running).dispatch source
      (.ofByte (s.peek requestAddress)) (.ofByte (s.peek enableAddress))) := by
  have hime' : s.woken.cpu.ime = true := by
    rw [cpu_woken]
    exact hime
  have hsource := (urgent?_woken s).trans h
  have henabled : (s.woken.read enableAddress).1 = s.peek enableAddress := s.peek_woken _
  rw [serviceInterrupts_of_not_sleepsOn s hawake, attend_of_dispatched _ _ hime' hsource, snd_read,
    endHalt_woken, henabled]
  rfl

/-- **The four ends that looking at the interrupts can come to.** -/
theorem serviceInterrupts_cases {motive : Attention × Board M → Prop}
    (asleep : s.SleepsOn → motive (.idle, s))
    (idle : ¬ s.SleepsOn → (s.Looks → s.calling.highest? = none) → motive (.idle, s.woken))
    (haltEnded : ∀ source, s.cpu.power = .halted → s.cpu.ime = false →
      s.calling.highest? = some source → motive (.haltEnded source, s.setPower .running))
    (dispatched : ∀ source, ¬ s.SleepsOn → s.cpu.ime = true →
      s.calling.highest? = some source → motive (.dispatched source,
        (s.setPower .running).dispatch source
          (.ofByte (s.peek requestAddress)) (.ofByte (s.peek enableAddress)))) :
    motive s.serviceInterrupts := by
  by_cases hsleeps : s.SleepsOn
  · rw [serviceInterrupts_of_asleep s hsleeps]
    exact asleep hsleeps
  by_cases hidle : s.Looks → s.calling.highest? = none
  · rw [serviceInterrupts_of_idle s hsleeps hidle]
    exact idle hsleeps hidle
  · obtain ⟨hlooks, hcalling⟩ := Classical.not_imp.mp hidle
    obtain ⟨source, hsource⟩ := Option.ne_none_iff_exists'.mp hcalling
    cases hime : s.cpu.ime with
    | true =>
      rw [serviceInterrupts_of_dispatched s hsleeps hime hsource]
      exact dispatched source hsleeps hime hsource
    | false =>
      have hpower : s.cpu.power = .halted := hlooks.resolve_left (by simp [hime])
      rw [serviceInterrupts_of_haltEnded s hpower hime hsource]
      exact haltEnded source hpower hime hsource

/-- What a handler finds: the request of its source is withdrawn, and the return address is on the
stack. -/
theorem dispatch_eq (source : Interrupt) (pending enabled : InterruptSet) :
    s.dispatch source pending enabled =
      { cpu := { s.cpu with
          regs := { s.cpu.regs with sp := s.cpu.regs.sp - 2, pc := source.vector }
          clock := s.cpu.clock + dispatchTicks
          ime := false }
        bus := Port.write
          (Port.write (Port.write s.bus requestAddress (pending.erase source).toByte)
            (s.cpu.regs.sp - 1) (highByte s.cpu.regs.pc))
          (s.cpu.regs.sp - 2) (lowByte s.cpu.regs.pc) } := by
  have hsp : s.cpu.regs.sp - 2 = s.cpu.regs.sp - 1 - 1 := by grind
  rw [dispatch, note_eq, hsp]
  rfl

/-! ### What is left then -/

/-- Whether a handler is called. -/
def Attention.dispatches : Attention → Bool
  | .dispatched _ => true
  | _ => false

/-- Execution starts at the handler, if one has been called, and otherwise where the program counter
was. -/
theorem pc_serviceInterrupts :
    (∀ source, s.serviceInterrupts.1 = .dispatched source →
      s.serviceInterrupts.2.cpu.regs.pc = source.vector) ∧
    (s.serviceInterrupts.1.dispatches = false →
      s.serviceInterrupts.2.cpu.regs.pc = s.cpu.regs.pc ∧ s.serviceInterrupts.2.bus = s.bus) := by
  refine serviceInterrupts_cases
    (motive := fun r ↦ (∀ source, r.1 = .dispatched source → r.2.cpu.regs.pc = source.vector) ∧
      (r.1.dispatches = false → r.2.cpu.regs.pc = s.cpu.regs.pc ∧ r.2.bus = s.bus))
    s ?asleep ?idle ?haltEnded ?dispatched
  case asleep => exact fun _ ↦ ⟨nofun, fun _ ↦ ⟨rfl, rfl⟩⟩
  case idle => exact fun _ _ ↦ ⟨nofun, fun _ ↦ ⟨congrArg (·.regs.pc) s.cpu_woken, s.bus_woken⟩⟩
  case haltEnded => exact fun _ _ _ _ ↦ ⟨nofun, fun _ ↦ ⟨rfl, rfl⟩⟩
  case dispatched =>
    intro source _ _ _
    refine ⟨fun _ h ↦ ?_, nofun⟩
    obtain rfl := Attention.dispatched.inj h
    rfl

/-- A call takes its ticks and its place on the stack. The other registers, the queue and the policy
are never touched. -/
theorem cpu_serviceInterrupts :
    let called := s.serviceInterrupts.1.dispatches
    ∃ pc power ime, s.serviceInterrupts.2.cpu =
      { s.cpu with
        regs := { s.cpu.regs with pc, sp := s.cpu.regs.sp - if called then 2 else 0 }
        clock := s.cpu.clock + if called then dispatchTicks else 0
        power, ime } := by
  refine serviceInterrupts_cases
    (motive := fun r ↦ ∃ pc power ime, r.2.cpu =
      { s.cpu with
        regs := { s.cpu.regs with pc, sp := s.cpu.regs.sp - if r.1.dispatches then 2 else 0 }
        clock := s.cpu.clock + if r.1.dispatches then dispatchTicks else 0
        power, ime })
    s ?asleep ?idle ?haltEnded ?dispatched
  case asleep =>
    intro _
    exact ⟨s.cpu.regs.pc, s.cpu.power, s.cpu.ime, by simp [Attention.dispatches]⟩
  case idle =>
    intro _ _
    exact ⟨s.cpu.regs.pc, s.woken.cpu.power, s.cpu.ime, by simp [Attention.dispatches, cpu_woken]⟩
  case haltEnded =>
    intro _ _ _ _
    exact ⟨s.cpu.regs.pc, .running, s.cpu.ime, by simp [Attention.dispatches, setPower]⟩
  case dispatched =>
    intro source _ _ _
    exact ⟨source.vector, .running, false, by rw [cpu_dispatch]; rfl⟩

/-- Asleep, with nothing that ends the sleep: in STOP without a request of the joypad, or in HALT
without a source that is both requested and enabled. -/
def Idles : Prop :=
  s.SleepsOn ∨
    s.cpu.power = .halted ∧ s.peek enableAddress &&& s.peek requestAddress &&& 0x1F = 0

omit [Port.Passive M] in
instance : Decidable s.Idles := inferInstanceAs (Decidable (_ ∨ _ ∧ _))

/-- The CPU comes to executing unless it idles. -/
theorem power_serviceInterrupts_iff :
    s.serviceInterrupts.2.cpu.power = .running ↔ ¬ s.Idles := by
  rw [Idles, ← highest?_calling_eq_none_iff]
  refine serviceInterrupts_cases
    (motive := fun r ↦ r.2.cpu.power = .running ↔
      ¬ (s.SleepsOn ∨ s.cpu.power = .halted ∧ s.calling.highest? = none))
    s ?asleep ?idle ?haltEnded ?dispatched
  case asleep =>
    intro hsleeps
    simp [hsleeps, hsleeps.1]
  case idle =>
    intro hawake hcalling
    have hnone : s.cpu.power = .halted → s.calling.highest? = none := fun h ↦ hcalling (.inr h)
    rw [cpu_woken]
    cases hpower : s.cpu.power <;> simp_all
  case haltEnded =>
    intro source hpower _ hsource
    simp [SleepsOn, hpower, hsource, setPower]
  case dispatched =>
    intro source hawake _ hsource
    simp [hawake, hsource, cpu_dispatch, setPower]

/-- By then nothing calls, or interrupts are disabled. -/
theorem calling_serviceInterrupts (h : s.serviceInterrupts.2.cpu.power = .running)
    (hime : s.serviceInterrupts.2.cpu.ime = true) :
    s.serviceInterrupts.2.calling.highest? = none := by
  revert h hime
  refine serviceInterrupts_cases
    (motive := fun r ↦ r.2.cpu.power = .running → r.2.cpu.ime = true →
      r.2.calling.highest? = none)
    s ?asleep ?idle ?haltEnded ?dispatched
  case asleep =>
    intro hsleeps hpower
    simp [hsleeps.1] at hpower
  case idle =>
    intro _ hcalling _ hime
    have hsame : s.woken.calling = s.calling := by
      rw [calling, peek_woken, peek_woken, calling]
    rw [cpu_woken] at hime
    rw [hsame]
    exact hcalling (.inl hime)
  case haltEnded =>
    intro _ _ hdisabled _ _ hime
    exact absurd (hdisabled.symm.trans hime) (by simp)
  case dispatched =>
    intro _ _ _ _ _ hime
    simp [cpu_dispatch] at hime

/-- **Looking at the interrupts again changes nothing** if the CPU is awake, wherever the program
counter is then. -/
theorem serviceInterrupts_again (pc : UInt16) (h : s.serviceInterrupts.2.cpu.power = .running) :
    (s.serviceInterrupts.2.setPC pc).serviceInterrupts =
      (.idle, s.serviceInterrupts.2.setPC pc) :=
  serviceInterrupts_of_running _ h (s.calling_serviceInterrupts h)

end Board

end GameBoy
