import GameBoy.Proofs.Bus.Blanking
import GameBoy.Proofs.Program.Scene

/-!
# Following a program that waits for the vertical blank

A program that listens to the vertical blank and to nothing else depends on little of what is on the
bus: an `Outlook` says whether it listens, whether the vertical blank is pending, and which return
address is on the stack. The CPU it is easiest to know completely. Both together are a `Vigil`, and
`Leads code v v'` says that every machine of which `v` is true comes to one of which `v'` is, by
steps that succeed.

The display has never been switched, so the clock tells when the vertical blank is requested. A link
of the chain during which none begins leaves the outlook alone; the lemmas below ask for that. The
other links are the last nap before a vertical blank (`leads_blank`) and the step in which the
handler begins (`leads_handler`).
-/

namespace GameBoy

/-- What is known of the bus. -/
structure Outlook where
  /-- The vertical blank is enabled. Nothing else is. -/
  listening : Bool
  /-- The vertical blank is pending. -/
  pending : Bool
  /-- The return address on the stack, inside the handler. -/
  saved : Option UInt16

namespace Outlook

/-- The sources that are enabled. -/
def heeded (o : Outlook) : InterruptSet := if o.listening then {.vblank} else ∅

/-- **What is said of the bus is true** at the tick `now`. -/
structure Shows (code : UInt16 → UInt8) (o : Outlook) (now : Nat) (bus : Bus) : Prop where
  /-- The program is mapped. -/
  rom : bus.HoldsRom code
  /-- Nothing is being copied. -/
  still : bus.objectCopy.next = none
  /-- The enable register is as said. -/
  enabled_eq : InterruptSet.ofByte bus.enabled = o.heeded
  /-- The request of the vertical blank is as said. -/
  pending_iff : .vblank ∈ bus.requests ↔ o.pending = true
  /-- The display has never been switched. -/
  undisturbed : bus.video.Undisturbed
  /-- It has caught up. -/
  clock_eq : bus.video.clock = now
  /-- Time goes by in strides of the display. -/
  stride_dvd : Video.stride ∣ now
  /-- The return address is on top of the stack. -/
  saved : ∀ back, o.saved = some back →
    bus.memory.get 0xFFFC = lowByte back ∧ bus.memory.get 0xFFFD = highByte back

variable {code : UInt16 → UInt8} {o : Outlook} {now target : Nat} {bus : Bus}

/-- A byte of the program is read at its address. -/
theorem Shows.read_code (h : o.Shows code now bus) {a : UInt16} (ha : a.toNat < Location.romSize) :
    bus.read a = code a :=
  (Bus.read_eq_get ha).trans (h.rom.get_eq a ha)

/-- Unless the vertical blank is pending and listened to, there is nothing to attend to. -/
theorem Shows.quiet (h : o.Shows code now bus) (hquiet : o.listening = false ∨ o.pending = false) :
    ∀ i ∈ InterruptSet.ofByte bus.enabled, i ∉ bus.requests := by
  intro i hi hrequested
  rw [h.enabled_eq, heeded] at hi
  split at hi
  · next hlistening =>
    obtain rfl := InterruptSet.mem_singleton.mp hi
    simp [hlistening, h.pending_iff.mp hrequested] at hquiet
  · exact InterruptSet.not_mem_empty hi

/-! ### Catching up -/

theorem Shows.catchUp_of (h : o.Shows code now bus) (hle : now ≤ target)
    (htarget : Video.stride ∣ target) {pending : Bool}
    (hpending : pending = true ↔ o.pending = true ∨ Video.Blanks now target) :
    ({ o with pending } : Outlook).Shows code target (bus.catchUp target) := by
  have hdvd := h.stride_dvd
  obtain rfl := h.clock_eq
  obtain ⟨hclock, hvblank⟩ := Bus.vblank_mem_catchUp h.undisturbed hdvd hle htarget
  obtain ⟨hmemory, hstill⟩ := bus.memory_catchUp target h.still
  exact {
    rom := h.rom.catchUp target
    still := hstill
    enabled_eq := h.enabled_eq
    pending_iff := by rw [hvblank, h.pending_iff, hpending]
    undisturbed := Bus.undisturbed_video_catchUp h.undisturbed target
    clock_eq := hclock
    stride_dvd := htarget
    saved := by
      rw [hmemory]
      exact h.saved }

/-- **Time passes**, and no vertical blank begins. -/
theorem Shows.catchUp (h : o.Shows code now bus) (hle : now ≤ target)
    (htarget : Video.stride ∣ target) (hcalm : ¬ Video.Blanks now target) :
    o.Shows code target (bus.catchUp target) :=
  h.catchUp_of hle htarget (by simp [hcalm])

/-- **Time passes, and a vertical blank begins.** -/
theorem Shows.catchUp_blank (h : o.Shows code now bus) (hle : now ≤ target)
    (htarget : Video.stride ∣ target) (hblank : Video.Blanks now target) :
    ({ o with pending := true } : Outlook).Shows code target (bus.catchUp target) :=
  h.catchUp_of hle htarget (by simp [hblank])

/-! ### Writes -/

/-- A write to the enable register decides what is listened to. -/
theorem Shows.write_enabled (h : o.Shows code now bus) {v : UInt8} {listening : Bool}
    (hv : InterruptSet.ofByte v = ({ o with listening } : Outlook).heeded) :
    ({ o with listening } : Outlook).Shows code now (bus.write enableAddress v) :=
  { h with rom := h.rom.write enableAddress v, enabled_eq := hv }

/-- A write to the request register decides what is pending. -/
theorem Shows.write_requests (h : o.Shows code now bus) {v : UInt8} {pending : Bool}
    (hv : .vblank ∈ InterruptSet.ofByte v ↔ pending = true) :
    ({ o with pending } : Outlook).Shows code now (bus.write requestAddress v) :=
  { h with rom := h.rom.write requestAddress v, pending_iff := hv }

/-- The return address goes to the top of the stack. -/
theorem Shows.write_stack (h : o.Shows code now bus) (back : UInt16) :
    ({ o with saved := some back } : Outlook).Shows code now
      ((bus.write 0xFFFD (highByte back)).write 0xFFFC (lowByte back)) where
  rom := (h.rom.write 0xFFFD _).write 0xFFFC _
  still := h.still
  enabled_eq := h.enabled_eq
  pending_iff := h.pending_iff
  undisturbed := h.undisturbed
  clock_eq := h.clock_eq
  stride_dvd := h.stride_dvd
  saved := by
    rintro _ ⟨⟩
    exact bus.get_saved back

/-- Whether a return address is known. -/
theorem Shows.forget_saved (h : o.Shows code now bus) :
    ({ o with saved := none } : Outlook).Shows code now bus :=
  { h with saved := nofun }

end Outlook

/-- A CPU, and what is known of the bus that it is attached to. -/
structure Vigil extends Outlook where
  /-- The CPU. -/
  cpu : Cpu

/-- The CPU after a deferred change of the master enable has been applied, if one is due. -/
def Cpu.settled (cpu : Cpu) : Cpu :=
  match cpu.imeQueue.popDue cpu.clock with
  | none => cpu
  | some (change, imeQueue) => { cpu with ime := change.enable, imeQueue }

theorem Cpu.settled_of_nil {cpu : Cpu} (h : cpu.imeQueue.toList = []) : cpu.settled = cpu := by
  simp only [settled, ImeQueue.popDue_of_nil h]

theorem Machine.cpu_settle (s : Board Bus) : (Machine.settle s).cpu = s.cpu.settled := by
  simp only [settle, Board.applyDueIme, Cpu.settled]
  cases s.cpu.imeQueue.popDue s.cpu.clock <;> rfl

namespace Vigil

/-- **What is said of the machine is true.** -/
structure Shows (code : UInt16 → UInt8) (v : Vigil) (m : Machine) : Prop where
  /-- The CPU is the one that is said. -/
  cpu_eq : m.cpu = v.cpu
  /-- What is said of the bus is true. -/
  outlook : v.toOutlook.Shows code v.cpu.clock m.bus

/-- Every machine of which the first vigil is true comes to one of which the second is. -/
def Leads (code : UInt16 → UInt8) (v v' : Vigil) : Prop :=
  ∀ m, v.Shows code m → ∃ m', m.Reaches m' ∧ v'.Shows code m'

variable {code : UInt16 → UInt8} {v v' v'' : Vigil}

theorem Leads.refl (v : Vigil) : Leads code v v := fun m hm ↦ ⟨m, .refl m, hm⟩

/-- **Vigils lead on from one to the next.** -/
theorem Leads.trans (h : Leads code v v') (h' : Leads code v' v'') : Leads code v v'' := by
  intro m hm
  obtain ⟨m', hreaches, hm'⟩ := h m hm
  obtain ⟨m'', hreaches', hm''⟩ := h' m' hm'
  exact ⟨m'', hreaches.trans hreaches', hm''⟩

instance : Trans (Leads code) (Leads code) (Leads code) := ⟨Leads.trans⟩

theorem leads_of_step
    (h : ∀ m, v.Shows code m → ∃ t m', Machine.step m = (.ok t, m') ∧ v'.Shows code m') :
    Leads code v v' := by
  intro m hm
  obtain ⟨t, m', hstep, hm'⟩ := h m hm
  exact ⟨m', .of_step hstep, hm'⟩

/-! ### Instructions -/

/-- No vertical blank begins in so many ticks, which are a whole number of strides. -/
structure Calm (v : Vigil) (ticks : Nat) : Prop where
  /-- The display makes whole advances. -/
  stride_dvd : Video.stride ∣ ticks
  /-- It does not come to a vertical blank. -/
  not_blanks : ¬ Video.Blanks v.cpu.clock (v.cpu.clock + ticks)

/-- A step ends with what is due, and with the devices catching up. -/
theorem shows_settle {s : Board Bus} {o : Outlook} {now ticks : Nat} {cpu : Cpu}
    (hcpu : s.cpu = cpu) (hclock : cpu.clock = now + ticks) (hbus : o.Shows code now s.bus)
    (hdvd : Video.stride ∣ ticks) (hcalm : ¬ Video.Blanks now (now + ticks)) :
    ({ toOutlook := o, cpu := cpu.settled } : Vigil).Shows code (Machine.settle s) where
  cpu_eq := by rw [Machine.cpu_settle, hcpu]
  outlook := by
    have hsettled : cpu.settled.clock = now + ticks := by
      rw [← hclock, Cpu.settled]
      split <;> rfl
    have hcaughtUp := hbus.catchUp (Nat.le_add_right now ticks)
      (Nat.dvd_add hbus.stride_dvd hdvd) hcalm
    rw [← hclock, ← hcpu] at hcaughtUp
    show o.Shows code cpu.settled.clock (s.bus.catchUp s.cpu.clock)
    rw [hsettled, ← hclock, ← hcpu]
    exact hcaughtUp

theorem shows_settle_of_nil {s : Board Bus} {o : Outlook} {now ticks : Nat} {cpu : Cpu}
    (hqueue : cpu.imeQueue.toList = []) (hcpu : s.cpu = cpu) (hclock : cpu.clock = now + ticks)
    (hbus : o.Shows code now s.bus) (hdvd : Video.stride ∣ ticks)
    (hcalm : ¬ Video.Blanks now (now + ticks)) :
    ({ toOutlook := o, cpu } : Vigil).Shows code (Machine.settle s) := by
  have hsettled := shows_settle hcpu hclock hbus hdvd hcalm
  rwa [Cpu.settled_of_nil hqueue] at hsettled

/-- The next step performs `i`. -/
structure Ready (code : UInt16 → UInt8) (v : Vigil) (i : Instruction) : Prop where
  /-- Nothing interrupts. -/
  quiet : v.listening = false ∨ v.pending = false
  /-- The CPU is awake. -/
  awake : v.cpu.power = .running
  /-- The opcode and two more bytes are part of the program. -/
  mapped : v.cpu.regs.pc.toNat + 2 < Location.romSize
  /-- The opcode means `i`. -/
  opcode : Opcode.decode (code v.cpu.regs.pc) = .instruction i

section Instructions

variable {i : Instruction} {ticks : Nat}

/-- **An instruction leads to what it makes of a vigil**, once the step has been ended. -/
theorem Ready.leads (h : v.Ready code i) {cpu : Cpu} {o : Outlook} (hcalm : v.Calm ticks)
    (hclock : cpu.clock = v.cpu.clock + ticks)
    (hperform : ∀ m, v.Shows code m →
      (Board.perform m i).cpu = cpu ∧ o.Shows code v.cpu.clock (Board.perform m i).bus) :
    Leads code v { toOutlook := o, cpu := cpu.settled } := by
  refine leads_of_step fun m hm ↦ ?_
  have hawake : m.cpu.power = .running := (congrArg Cpu.power hm.cpu_eq).trans h.awake
  have hstopped : m.cpu.power ≠ .stopped := by
    rw [hawake]
    decide
  have hopcode : Opcode.decode (m.bus.read m.cpu.regs.pc) = .instruction i := by
    rw [hm.cpu_eq, hm.outlook.read_code (Nat.lt_of_add_right_lt h.mapped)]
    exact h.opcode
  have hserved := Board.serviceInterrupts_of_quiet m hstopped (hm.outlook.quiet h.quiet)
  obtain ⟨t, hstep⟩ := Machine.step_of_instruction hserved (fun _ h ↦ nomatch h) hawake hopcode
  obtain ⟨hcpu, hbus⟩ := hperform m hm
  exact ⟨t, _, hstep, shows_settle hcpu hclock hbus hcalm.stride_dvd hcalm.not_blanks⟩

/-- The operand, as it is read. -/
theorem Ready.read_operand (h : v.Ready code i) {m : Machine} (hm : v.Shows code m) {x : UInt8}
    (hx : code (v.cpu.regs.pc + 1) = x) : m.bus.read (v.cpu.regs.pc + 1) = x := by
  have hmapped := h.mapped
  have hnext : (v.cpu.regs.pc + 1).toNat < Location.romSize := by
    rw [UInt16.toNat_add, UInt16.toNat_one]
    omega
  exact (hm.outlook.read_code hnext).trans hx

/-- An instruction that leaves the bus alone. -/
theorem Ready.leads_of_bus (h : v.Ready code i) {cpu : Cpu} (hcalm : v.Calm ticks)
    (hclock : cpu.clock = v.cpu.clock + ticks)
    (hperform : ∀ m, v.Shows code m → Board.perform m i = { m with cpu }) :
    Leads code v { v with cpu := cpu.settled } := by
  refine h.leads hcalm hclock fun m hm ↦ ?_
  rw [hperform m hm]
  exact ⟨rfl, hm.outlook⟩

/-- A byte is loaded into the accumulator. -/
theorem leads_loadA (h : v.Ready code (.loadImmediate .a)) (hcalm : v.Calm 8) {x : UInt8}
    (hx : code (v.cpu.regs.pc + 1) = x) :
    Leads code v
      { v with
        cpu := ({ v.cpu with
          regs := { v.cpu.regs with a := x, pc := v.cpu.regs.pc + 1 + 1 }
          clock := v.cpu.clock + 8 } : Cpu).settled } := by
  refine h.leads_of_bus hcalm rfl fun m hm ↦ ?_
  rw [Board.perform_loadA, hm.cpu_eq, h.read_operand hm hx]

/-- A byte is loaded into register C. -/
theorem leads_loadC (h : v.Ready code (.loadImmediate .c)) (hcalm : v.Calm 8) {x : UInt8}
    (hx : code (v.cpu.regs.pc + 1) = x) :
    Leads code v
      { v with
        cpu := ({ v.cpu with
          regs := { v.cpu.regs with c := x, pc := v.cpu.regs.pc + 1 + 1 }
          clock := v.cpu.clock + 8 } : Cpu).settled } := by
  refine h.leads_of_bus hcalm rfl fun m hm ↦ ?_
  rw [Board.perform_loadC, hm.cpu_eq, h.read_operand hm hx]

/-- The accumulator is cleared. -/
theorem leads_clearA (h : v.Ready code (.alu .xor .a)) (hcalm : v.Calm 4) :
    Leads code v
      { v with
        cpu := ({ v.cpu with
          regs := { v.cpu.regs with
            a := 0, flags := .of true false false false, pc := v.cpu.regs.pc + 1 }
          clock := v.cpu.clock + 4 } : Cpu).settled } := by
  refine h.leads_of_bus hcalm rfl fun m hm ↦ ?_
  rw [Board.perform_alu, hm.cpu_eq, Alu.apply, UInt8.xor_self]
  rfl

/-- A byte is stored in the high page, which changes the outlook in one way or another. -/
theorem leads_store (h : v.Ready code .storeAHigh) (hcalm : v.Calm 12) {offset : UInt8}
    (hoffset : code (v.cpu.regs.pc + 1) = offset) {o : Outlook}
    (hwrite : ∀ bus : Bus, v.toOutlook.Shows code v.cpu.clock bus →
      o.Shows code v.cpu.clock (bus.write (Board.highPage offset) v.cpu.regs.a)) :
    Leads code v
      { toOutlook := o
        cpu := ({ v.cpu with
          regs := { v.cpu.regs with pc := v.cpu.regs.pc + 1 + 1 }
          clock := v.cpu.clock + 12 } : Cpu).settled } := by
  refine h.leads hcalm rfl fun m hm ↦ ?_
  rw [Board.perform_storeHigh, hm.cpu_eq, h.read_operand hm hoffset]
  exact ⟨rfl, hwrite m.bus hm.outlook⟩

/-- Interrupts are to be enabled after the next instruction. -/
theorem leads_ei (h : v.Ready code .ei) (hcalm : v.Calm 4) :
    Leads code v
      { v with
        cpu := ({ v.cpu with
          regs := { v.cpu.regs with pc := v.cpu.regs.pc + 1 }
          imeQueue := v.cpu.imeQueue.push { enable := true, due := v.cpu.clock + 5 }
          clock := v.cpu.clock + 4 } : Cpu).settled } := by
  refine h.leads_of_bus hcalm rfl fun m hm ↦ ?_
  rw [← hm.cpu_eq]
  rfl

/-- The program goes to sleep. -/
theorem leads_halt (h : v.Ready code .halt) (hcalm : v.Calm 4) :
    Leads code v
      { v with
        cpu := ({ v.cpu with
          regs := { v.cpu.regs with pc := v.cpu.regs.pc + 1 }
          power := .halted
          clock := v.cpu.clock + 4 } : Cpu).settled } := by
  refine h.leads_of_bus hcalm rfl fun m hm ↦ ?_
  rw [← hm.cpu_eq]
  rfl

/-- A jump that is always made. -/
theorem leads_jump (h : v.Ready code (.jumpRelative none)) (hcalm : v.Calm 12) {e : UInt8}
    (he : code (v.cpu.regs.pc + 1) = e) {target : UInt16}
    (htarget : v.cpu.regs.pc + 1 + 1 + signExtend e = target) :
    Leads code v
      { v with
        cpu := ({ v.cpu with
          regs := { v.cpu.regs with pc := target }
          clock := v.cpu.clock + 12 } : Cpu).settled } := by
  refine h.leads_of_bus hcalm rfl fun m hm ↦ ?_
  rw [Board.perform_jump, hm.cpu_eq, h.read_operand hm he, htarget]

/-- The handler returns, and interrupts are enabled again. -/
theorem leads_reti (h : v.Ready code .reti) (hcalm : v.Calm 16) (hsp : v.cpu.regs.sp = 0xFFFC)
    {back : UInt16} (hsaved : v.saved = some back) :
    Leads code v
      { v with
        saved := none
        cpu := ({ v.cpu with
          regs := { v.cpu.regs with sp := 0xFFFE, pc := back }
          ime := true
          clock := v.cpu.clock + 16 } : Cpu).settled } := by
  refine h.leads hcalm rfl fun m hm ↦ ?_
  obtain ⟨hlow, hhigh⟩ := hm.outlook.saved back hsaved
  have hback : word (m.bus.read (v.cpu.regs.sp + 1)) (m.bus.read v.cpu.regs.sp) = back := by
    rw [hsp]
    show word (m.bus.memory.get 0xFFFD) (m.bus.memory.get 0xFFFC) = back
    rw [hlow, hhigh, word_highByte_lowByte]
  rw [Board.perform_reti, hm.cpu_eq, hback, hsp]
  exact ⟨rfl, hm.outlook.forget_saved⟩

end Instructions

/-! ### Steps asleep -/

/-- The same, so many ticks later. -/
def later (v : Vigil) (ticks : Nat) : Vigil :=
  { v with cpu := { v.cpu with clock := v.cpu.clock + ticks } }

theorem later_later (v : Vigil) (first second : Nat) :
    (v.later first).later second = v.later (first + second) := by
  simp only [later, Nat.add_assoc]

theorem Calm.mono {first second : Nat} (h : v.Calm (first + second))
    (hfirst : Video.stride ∣ first) : v.Calm first ∧ (v.later first).Calm second := by
  obtain ⟨hdvd, hnone⟩ := h
  refine ⟨⟨hfirst, fun hblanks ↦ hnone (hblanks.mono (Nat.le_refl _) (by omega))⟩,
    (Nat.dvd_add_right hfirst).mp hdvd, fun hblanks ↦ hnone (hblanks.mono ?_ ?_)⟩
  · exact Nat.le_add_right _ _
  · exact Nat.le_of_eq (Nat.add_assoc _ _ _)

/-- The CPU is asleep, and no change of the master enable waits. -/
structure Asleep (v : Vigil) : Prop where
  /-- The CPU is asleep. -/
  power_eq : v.cpu.power = .halted
  /-- No change waits. -/
  queue_eq : v.cpu.imeQueue.toList = []

/-- Asleep, time passes and nothing else happens. -/
theorem Shows.step_asleep {m : Machine} (hm : v.Shows code m) (h : v.Asleep)
    (hpending : v.pending = false) :
    Machine.step m =
      (.ok 4, { cpu := (v.later 4).cpu, bus := m.bus.catchUp (v.cpu.clock + 4) }) := by
  have hhalted : m.cpu.power = .halted := (congrArg Cpu.power hm.cpu_eq).trans h.power_eq
  have hqueue : (Board.elapse m Board.idleTicks).cpu.imeQueue.toList = [] :=
    (congrArg (ImeQueue.toList ∘ Cpu.imeQueue) hm.cpu_eq).trans h.queue_eq
  rw [Machine.step_of_halted hhalted (hm.outlook.quiet (.inr hpending)),
    Machine.settle_of_nil hqueue, later, ← hm.cpu_eq]
  rfl

theorem leads_nap (h : v.Asleep) (hpending : v.pending = false) (hcalm : v.Calm 4) :
    Leads code v (v.later 4) := by
  refine leads_of_step fun m hm ↦ ⟨_, _, hm.step_asleep h hpending, rfl, ?_⟩
  have htarget := Nat.dvd_add hm.outlook.stride_dvd hcalm.stride_dvd
  exact hm.outlook.catchUp (Nat.le_add_right _ _) htarget hcalm.not_blanks

/-- **Time is slept away**, as long as no vertical blank begins. -/
theorem leads_wait (h : v.Asleep) (hpending : v.pending = false) (n : Nat)
    (hcalm : v.Calm (4 * n)) : Leads code v (v.later (4 * n)) := by
  induction n with
  | zero => exact .refl v
  | succ n ih =>
    have hsplit : v.Calm (4 * n + 4) := hcalm
    obtain ⟨hbefore, hlast⟩ := hsplit.mono (Nat.dvd_mul_right 4 n)
    have hlater : Leads code (v.later (4 * n)) ((v.later (4 * n)).later 4) :=
      leads_nap ⟨h.power_eq, h.queue_eq⟩ hpending hlast
    have hboth := (ih hbefore).trans hlater
    rwa [later_later] at hboth

/-- **The last nap before a vertical blank.** -/
theorem leads_blank (h : v.Asleep) (hpending : v.pending = false)
    (hblank : Video.Blanks v.cpu.clock (v.cpu.clock + 4)) :
    Leads code v { v.later 4 with pending := true } := by
  refine leads_of_step fun m hm ↦ ⟨_, _, hm.step_asleep h hpending, rfl, ?_⟩
  have htarget := Nat.dvd_add hm.outlook.stride_dvd (Nat.dvd_refl Video.stride)
  exact hm.outlook.catchUp_blank (Nat.le_add_right _ _) htarget hblank

/-! ### The handler -/

/-- The vigil once control has passed to the handler of the vertical blank. -/
def interrupted (v : Vigil) : Vigil where
  listening := v.listening
  pending := false
  saved := some v.cpu.regs.pc
  cpu := { v.cpu with
    regs := { v.cpu.regs with sp := 0xFFFC, pc := Interrupt.vblank.vector }
    power := .running
    ime := false
    clock := v.cpu.clock + Board.dispatchTicks }

/-- The vertical blank interrupts a machine asleep. The devices have not caught up with that yet. -/
theorem Shows.interrupted {m : Machine} (hm : v.Shows code m) (h : v.Asleep)
    (hpending : v.pending = true) (hlistening : v.listening = true) (hime : v.cpu.ime = true)
    (hsp : v.cpu.regs.sp = 0xFFFE) :
    ∃ s, Board.serviceInterrupts m = (.dispatched .vblank, s) ∧ s.cpu = v.interrupted.cpu ∧
      v.interrupted.toOutlook.Shows code v.cpu.clock s.bus := by
  have henabled : InterruptSet.ofByte m.bus.enabled = {.vblank} := by
    rw [hm.outlook.enabled_eq, Outlook.heeded, if_pos hlistening]
  have hhalted : m.cpu.power = .halted := (congrArg Cpu.power hm.cpu_eq).trans h.power_eq
  have hserved := Board.serviceInterrupts_of_only m hhalted
    ((congrArg Cpu.ime hm.cpu_eq).trans hime) henabled (hm.outlook.pending_iff.mpr hpending)
  have hrequests : .vblank ∈ InterruptSet.ofByte (m.bus.requests.erase .vblank).toByte ↔
      false = true := by
    simp
  refine ⟨_, hserved, ?_⟩
  have hregs : (Board.setPower m .running).cpu.regs = m.cpu.regs := rfl
  rw [Board.dispatch_bus, hregs, hm.cpu_eq, hsp]
  refine ⟨?_, (hm.outlook.write_requests hrequests).write_stack v.cpu.regs.pc⟩
  simp only [Vigil.interrupted, ← hm.cpu_eq]
  rfl

/-- **The handler of the vertical blank begins**, if it does so by incrementing register C. -/
theorem leads_handler (h : v.Asleep) (hpending : v.pending = true)
    (hlistening : v.listening = true) (hime : v.cpu.ime = true) (hsp : v.cpu.regs.sp = 0xFFFE)
    (hopcode : Opcode.decode (code Interrupt.vblank.vector) = .instruction (.inc .c))
    (hcalm : v.Calm 24) :
    Leads code v
      { v.interrupted with
        cpu := { v.interrupted.cpu with
          regs := { v.interrupted.cpu.regs with
            c := v.cpu.regs.c + 1
            flags := (Alu.inc v.cpu.regs.c v.cpu.regs.flags).2
            pc := Interrupt.vblank.vector + 1 }
          clock := v.cpu.clock + 24 } } := by
  refine leads_of_step fun m hm ↦ ?_
  obtain ⟨s, hserved, hcpu, hbus⟩ := hm.interrupted h hpending hlistening hime hsp
  have hrunning : s.cpu.power = .running := congrArg Cpu.power hcpu
  have hmapped : Interrupt.vblank.vector.toNat < Location.romSize := by decide
  have hnext : Opcode.decode (s.bus.read s.cpu.regs.pc) = .instruction (.inc .c) := by
    rw [hcpu]
    exact (congrArg Opcode.decode (hbus.read_code hmapped)).trans hopcode
  obtain ⟨t, hstep⟩ := Machine.step_of_instruction hserved (fun _ h ↦ nomatch h) hrunning hnext
  have hperformed : (s.perform (.inc .c)).cpu =
      { v.interrupted.cpu with
        regs := { v.interrupted.cpu.regs with
          c := v.cpu.regs.c + 1
          flags := (Alu.inc v.cpu.regs.c v.cpu.regs.flags).2
          pc := Interrupt.vblank.vector + 1 }
        clock := v.cpu.clock + 24 } := by
    rw [Board.perform_incC, hcpu]
    rfl
  have hbus' : v.interrupted.toOutlook.Shows code v.cpu.clock (s.perform (.inc .c)).bus := by
    rw [Board.perform_incC]
    exact hbus
  exact ⟨t, _, hstep, shows_settle_of_nil h.queue_eq hperformed rfl hbus' hcalm.stride_dvd
    hcalm.not_blanks⟩

end Vigil

end GameBoy
