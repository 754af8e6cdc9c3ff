import GameBoy.Proofs.Machine.Perform
import GameBoy.Proofs.Machine.Steps
import GameBoy.Proofs.Program.Wiring

/-!
# Following a sending program

A `Scene` is what has to be known of a machine in order to follow it through a sending program: a
few registers, the clock, the state of power, the master enable with the changes that wait, and the
wiring of the bus. `Leads code c c'` says that every machine of which the scene `c` is true comes to
one of which `c'` is, by steps that succeed. It is transitive, so a program is followed by a chain
of scenes, with one of the lemmas below for each link: one for each instruction used, those for time
that is slept away, and one for the step in which a machine asleep is interrupted and begins its
handler.

What a scene does not mention may be anything.
-/

namespace GameBoy

namespace Machine

/-- The first machine comes to the second by steps that succeed. -/
def Reaches (m m' : Machine) : Prop := ∃ k, m.Makes k ∧ m.stepped k = m'

/-- A machine reaches itself, in no step. -/
theorem Reaches.refl (m : Machine) : m.Reaches m := ⟨0, makes_zero m, rfl⟩

/-- What is reached from there is reached. -/
theorem Reaches.trans {m m' m'' : Machine} (h : m.Reaches m') (h' : m'.Reaches m'') :
    m.Reaches m'' := by
  obtain ⟨j, hj, rfl⟩ := h
  obtain ⟨k, hk, rfl⟩ := h'
  exact ⟨j + k, makes_add.mpr ⟨hj, hk⟩, m.stepped_add j k⟩

/-- A step that succeeds reaches its result. -/
theorem Reaches.of_step {m m' : Machine} {t : Nat} (h : step m = (.ok t, m')) : m.Reaches m' :=
  ⟨1, makes_one h⟩

/-- **A run for some time ends at a machine that it comes to at just that time.** -/
theorem Reaches.runForTicks_eq {m m' : Machine} (h : m.Reaches m') {ticks : Nat}
    (hclock : m'.cpu.clock = m.cpu.clock + ticks) (hlast : m.cpu.clock + ticks ≤ lastTick) :
    m.runForTicks ticks = (.ok ticks, m') := by
  obtain ⟨k, hmakes, rfl⟩ := h
  obtain ⟨r, hstops, hrun⟩ := Machine.runForTicks_eq m ticks
  have hend : Stops m (m.cpu.clock + ticks) (.ok (), m.stepped k) :=
    .reached hmakes (fun j hj ↦ hclock ▸ hmakes.clock_lt hj) (Nat.le_of_eq hclock.symm)
  rw [Nat.min_eq_left hlast] at hstops
  obtain rfl := hstops.unique hend
  rw [hrun, hclock]
  exact congrArg (Except.ok · , m.stepped k) (Nat.add_sub_cancel_left ..)

end Machine

/-- What is known of a machine that runs a sending program. -/
structure Scene extends Wiring where
  /-- The program counter. -/
  pc : UInt16
  /-- The accumulator. -/
  a : UInt8
  /-- The zero flag. -/
  z : Bool
  /-- The pair HL. -/
  hl : Nat
  /-- The clock. -/
  clock : Nat
  /-- The state of power. -/
  power : Power
  /-- The interrupt master enable. -/
  ime : Bool
  /-- The changes of the master enable that wait. -/
  waiting : List ImeChange

namespace Scene

/-- The stack pointer: the stack is empty but for the return address. -/
def sp (c : Scene) : UInt16 := if c.saved.isSome then 0xFFFC else 0xFFFE

/-- What is said of the CPU is true. -/
structure Fits (c : Scene) (cpu : Cpu) : Prop where
  /-- The program counter is as said. -/
  pc_eq : cpu.regs.pc = c.pc
  /-- The accumulator is as said. -/
  a_eq : cpu.regs.a = c.a
  /-- The zero flag is as said. -/
  z_eq : cpu.regs.flags.z = c.z
  /-- The pair HL is as said. -/
  hl_eq : cpu.regs.hl = UInt16.ofNat c.hl
  /-- The stack pointer is as said. -/
  sp_eq : cpu.regs.sp = c.sp
  /-- The clock is as said. -/
  clock_eq : cpu.clock = c.clock
  /-- The state of power is as said. -/
  power_eq : cpu.power = c.power
  /-- The master enable is as said. -/
  ime_eq : cpu.ime = c.ime
  /-- The changes that wait are as said. -/
  waiting_eq : cpu.imeQueue.toList = c.waiting

/-- **What is said of the machine is true.** -/
structure Shows (code : UInt16 → UInt8) (c : Scene) (m : Machine) : Prop where
  /-- It is true of the CPU. -/
  fits : c.Fits m.cpu
  /-- It is true of the bus. -/
  wiring : c.toWiring.Shows code c.clock m.bus

/-- Every machine of which the first scene is true comes to one of which the second is. -/
def Leads (code : UInt16 → UInt8) (c c' : Scene) : Prop :=
  ∀ m, c.Shows code m → ∃ m', m.Reaches m' ∧ c'.Shows code m'

variable {code : UInt16 → UInt8} {c c' c'' : Scene}

/-- A scene leads to itself. -/
theorem Leads.refl (c : Scene) : Leads code c c := fun m hm ↦ ⟨m, .refl m, hm⟩

/-- **Scenes lead on from one to the next.** -/
theorem Leads.trans (h : Leads code c c') (h' : Leads code c' c'') : Leads code c c'' := by
  intro m hm
  obtain ⟨m', hreaches, hm'⟩ := h m hm
  obtain ⟨m'', hreaches', hm''⟩ := h' m' hm'
  exact ⟨m'', hreaches.trans hreaches', hm''⟩

instance : Trans (Leads code) (Leads code) (Leads code) := ⟨Leads.trans⟩

/-! ### Ending a step -/

/-- The scene after a deferred change of the master enable has been applied, if one is due. -/
def settled (c : Scene) : Scene :=
  match c.waiting with
  | [] => c
  | change :: rest =>
    if change.due < c.clock then { c with ime := change.enable, waiting := rest } else c

theorem settled_of_nil (h : c.waiting = []) : c.settled = c := by
  simp only [settled, h]

/-- A step ends with what is due, and with the devices catching up. -/
theorem shows_settle {s : Board Bus} {now : Nat} (hcpu : c.Fits s.cpu)
    (hbus : c.toWiring.Shows code now s.bus) (hle : now ≤ c.clock) (huntil : c.line.Until c.clock) :
    c.settled.Shows code (Machine.settle s) := by
  have hcaughtUp : c.toWiring.Shows code c.clock (s.bus.catchUp s.cpu.clock) := by
    rw [hcpu.clock_eq]
    exact hbus.catchUp hle huntil
  cases hwaiting : c.waiting with
  | nil =>
    rw [settled_of_nil hwaiting, Machine.settle_of_nil (hcpu.waiting_eq.trans hwaiting)]
    exact ⟨hcpu, hcaughtUp⟩
  | cons change rest =>
    have hqueue := hcpu.waiting_eq.trans hwaiting
    by_cases hdue : change.due < c.clock
    · have hsettled : c.settled = { c with ime := change.enable, waiting := rest } := by
        simp only [settled, hwaiting, if_pos hdue]
      rw [hsettled, Machine.settle_of_lt hqueue (hcpu.clock_eq.symm ▸ hdue)]
      refine ⟨{ hcpu with ime_eq := rfl, waiting_eq := ?_ }, hcaughtUp⟩
      show s.cpu.imeQueue.drop.toList = rest
      rw [ImeQueue.toList_drop, hqueue, List.tail_cons]
    · have hsettled : c.settled = c := by simp only [settled, hwaiting, if_neg hdue]
      rw [hsettled, Machine.settle_of_le hqueue (hcpu.clock_eq.symm ▸ Nat.le_of_not_lt hdue)]
      exact ⟨hcpu, hcaughtUp⟩

theorem shows_settle_of_nil {s : Board Bus} {now : Nat} (hwaiting : c.waiting = [])
    (hcpu : c.Fits s.cpu) (hbus : c.toWiring.Shows code now s.bus) (hle : now ≤ c.clock)
    (huntil : c.line.Until c.clock) : c.Shows code (Machine.settle s) := by
  have hsettle := shows_settle hcpu hbus hle huntil
  rwa [settled_of_nil hwaiting] at hsettle

/-! ### Instructions -/

/-- The next step performs `i`. -/
structure Ready (code : UInt16 → UInt8) (c : Scene) (i : Instruction) : Prop where
  /-- Nothing interrupts. -/
  quiet : c.pending = false
  /-- The CPU is awake. -/
  awake : c.power = .running
  /-- The opcode and two more bytes are part of the program. -/
  mapped : c.pc.toNat + 2 < Location.romSize
  /-- The opcode means `i`. -/
  opcode : Opcode.decode (code c.pc) = .instruction i

theorem leads_of_step
    (h : ∀ m, c.Shows code m → ∃ t m', Machine.step m = (.ok t, m') ∧ c'.Shows code m') :
    Leads code c c' := by
  intro m hm
  obtain ⟨t, m', hstep, hm'⟩ := h m hm
  exact ⟨m', .of_step hstep, hm'⟩

variable {i : Instruction}

/-- **An instruction leads to what it makes of a scene**, once the step has been ended. -/
theorem Ready.leads (h : c.Ready code i)
    (hperform : ∀ m, c.Shows code m → c'.Fits (Board.perform m i).cpu ∧
      c'.toWiring.Shows code c.clock (Board.perform m i).bus)
    (hle : c.clock ≤ c'.clock) (huntil : c'.line.Until c'.clock) : Leads code c c'.settled := by
  refine leads_of_step fun m hm ↦ ?_
  have hawake : m.cpu.power = .running := hm.fits.power_eq.trans h.awake
  have hstopped : m.cpu.power ≠ .stopped := by
    rw [hawake]
    decide
  have hopcode : Opcode.decode (m.bus.read m.cpu.regs.pc) = .instruction i := by
    rw [hm.fits.pc_eq, hm.wiring.read_code (Nat.lt_of_add_right_lt h.mapped)]
    exact h.opcode
  have hserved := Board.serviceInterrupts_of_quiet m hstopped (hm.wiring.quiet h.quiet)
  obtain ⟨t, hstep⟩ := Machine.step_of_instruction hserved (fun _ h ↦ nomatch h) hawake hopcode
  obtain ⟨hcpu, hbus⟩ := hperform m hm
  exact ⟨t, _, hstep, shows_settle hcpu hbus hle huntil⟩

/-- The first operand, as it is read. -/
theorem Ready.read_operand (h : c.Ready code i) {m : Machine} (hm : c.Shows code m) {v : UInt8}
    (hv : code (c.pc + 1) = v) : m.bus.read (c.pc + 1) = v := by
  have hmapped := h.mapped
  have hnext : (c.pc + 1).toNat < Location.romSize := by
    rw [UInt16.toNat_add, UInt16.toNat_one]
    omega
  exact (hm.wiring.read_code hnext).trans hv

/-- The second operand, as it is read. -/
theorem Ready.read_operand₂ (h : c.Ready code i) {m : Machine} (hm : c.Shows code m) {v : UInt8}
    (hv : code (c.pc + 1 + 1) = v) : m.bus.read (c.pc + 1 + 1) = v := by
  have hmapped := h.mapped
  have hnext : (c.pc + 1 + 1).toNat < Location.romSize := by
    rw [UInt16.toNat_add, UInt16.toNat_add, UInt16.toNat_one]
    omega
  exact (hm.wiring.read_code hnext).trans hv

/-- A word is loaded into HL. -/
theorem leads_loadHL (h : c.Ready code (.loadPair .hl)) {low high : UInt8}
    (hlow : code (c.pc + 1) = low) (hhigh : code (c.pc + 1 + 1) = high)
    (huntil : c.line.Until (c.clock + 12)) :
    Leads code c
      ({ c with
          pc := c.pc + 1 + 1 + 1, hl := 256 * high.toNat + low.toNat,
          clock := c.clock + 12 } : Scene).settled := by
  refine h.leads (fun m hm ↦ ?_) (Nat.le_add_right _ _) huntil
  rw [Board.perform_loadHL, hm.fits.pc_eq, h.read_operand hm hlow, h.read_operand₂ hm hhigh]
  exact ⟨{ hm.fits with
    pc_eq := rfl, hl_eq := Registers.hl_setHL m.cpu.regs (word high low)
    clock_eq := congrArg (· + 12) hm.fits.clock_eq }, hm.wiring⟩

/-- A byte is loaded into the accumulator. -/
theorem leads_loadA (h : c.Ready code (.loadImmediate .a)) {v : UInt8}
    (hv : code (c.pc + 1) = v)
    (huntil : c.line.Until (c.clock + 8)) :
    Leads code c
      ({ c with pc := c.pc + 1 + 1, a := v, clock := c.clock + 8 } : Scene).settled := by
  refine h.leads (fun m hm ↦ ?_) (Nat.le_add_right _ _) huntil
  rw [Board.perform_loadA, hm.fits.pc_eq, h.read_operand hm hv]
  exact ⟨{ hm.fits with
    pc_eq := rfl, a_eq := rfl, clock_eq := congrArg (· + 8) hm.fits.clock_eq }, hm.wiring⟩

/-- A byte is stored in the high page, which changes the wiring in one way or another. -/
theorem leads_store (h : c.Ready code .storeAHigh) {offset : UInt8}
    (hoffset : code (c.pc + 1) = offset)
    {w : Wiring} (hsaved : w.saved = c.saved)
    (hwrite : ∀ bus : Bus, c.toWiring.Shows code c.clock bus →
      w.Shows code c.clock (bus.write (Board.highPage offset) c.a))
    (huntil : w.line.Until (c.clock + 12)) :
    Leads code c
      ({ c with toWiring := w, pc := c.pc + 1 + 1, clock := c.clock + 12 } : Scene).settled := by
  refine h.leads (fun m hm ↦ ?_) (Nat.le_add_right _ _) huntil
  rw [Board.perform_storeHigh, hm.fits.pc_eq, h.read_operand hm hoffset, hm.fits.a_eq]
  refine ⟨{ hm.fits with
    pc_eq := rfl, sp_eq := ?_
    clock_eq := congrArg (· + 12) hm.fits.clock_eq }, hwrite m.bus hm.wiring⟩
  simp only [sp, hsaved]
  exact hm.fits.sp_eq

/-- The accumulator is cleared. -/
theorem leads_clearA (h : c.Ready code (.alu .xor .a)) (huntil : c.line.Until (c.clock + 4)) :
    Leads code c
      ({ c with pc := c.pc + 1, a := 0, z := true, clock := c.clock + 4 } : Scene).settled := by
  refine h.leads (fun m hm ↦ ?_) (Nat.le_add_right _ _) huntil
  rw [Board.perform_alu, Alu.apply, UInt8.xor_self]
  exact ⟨{ hm.fits with
    pc_eq := congrArg (· + 1) hm.fits.pc_eq, a_eq := rfl, z_eq := Flags.z_of ..
    clock_eq := congrArg (· + 4) hm.fits.clock_eq }, hm.wiring⟩

/-- The accumulator is compared with zero. -/
theorem leads_testA (h : c.Ready code (.alu .or .a)) {z : Bool} (hz : (c.a == 0) = z)
    (huntil : c.line.Until (c.clock + 4)) :
    Leads code c ({ c with pc := c.pc + 1, z, clock := c.clock + 4 } : Scene).settled := by
  refine h.leads (fun m hm ↦ ?_) (Nat.le_add_right _ _) huntil
  rw [Board.perform_alu, Alu.apply, UInt8.or_self, hm.fits.a_eq]
  exact ⟨{ hm.fits with
    pc_eq := congrArg (· + 1) hm.fits.pc_eq, a_eq := rfl, z_eq := (Flags.z_of ..).trans hz
    clock_eq := congrArg (· + 4) hm.fits.clock_eq }, hm.wiring⟩

/-- A jump that is always made. -/
theorem leads_jump (h : c.Ready code (.jumpRelative none)) {e : UInt8} {target : UInt16}
    (he : code (c.pc + 1) = e) (htarget : c.pc + 1 + 1 + signExtend e = target)
    (huntil : c.line.Until (c.clock + 12)) :
    Leads code c ({ c with pc := target, clock := c.clock + 12 } : Scene).settled := by
  refine h.leads (fun m hm ↦ ?_) (Nat.le_add_right _ _) huntil
  rw [Board.perform_jump, hm.fits.pc_eq, h.read_operand hm he]
  exact ⟨{ hm.fits with
    pc_eq := htarget, clock_eq := congrArg (· + 12) hm.fits.clock_eq }, hm.wiring⟩

/-- A jump that is made if the zero flag is set. -/
theorem leads_jumpIfZero (h : c.Ready code (.jumpRelative (some .z))) {e : UInt8} {target : UInt16}
    (he : code (c.pc + 1) = e) (htarget : c.pc + 1 + 1 + signExtend e = target) (hz : c.z = true)
    (huntil : c.line.Until (c.clock + 12)) :
    Leads code c ({ c with pc := target, clock := c.clock + 12 } : Scene).settled := by
  refine h.leads (fun m hm ↦ ?_) (Nat.le_add_right _ _) huntil
  have htaken : m.cpu.regs.flags.z = true := hm.fits.z_eq.trans hz
  rw [Board.perform_jumpIfZero, if_pos htaken, hm.fits.pc_eq, h.read_operand hm he]
  exact ⟨{ hm.fits with
    pc_eq := htarget, clock_eq := congrArg (· + 12) hm.fits.clock_eq }, hm.wiring⟩

/-- It is passed over if the flag is not set. -/
theorem leads_passIfNotZero (h : c.Ready code (.jumpRelative (some .z))) (hz : c.z = false)
    (huntil : c.line.Until (c.clock + 8)) :
    Leads code c ({ c with pc := c.pc + 1 + 1, clock := c.clock + 8 } : Scene).settled := by
  refine h.leads (fun m hm ↦ ?_) (Nat.le_add_right _ _) huntil
  have hpassed : ¬ m.cpu.regs.flags.z = true := by
    rw [hm.fits.z_eq, hz]
    decide
  rw [Board.perform_jumpIfZero, if_neg hpassed]
  exact ⟨{ hm.fits with
    pc_eq := congrArg (· + 1 + 1) hm.fits.pc_eq
    clock_eq := congrArg (· + 8) hm.fits.clock_eq }, hm.wiring⟩

/-- A byte is loaded from the program, and HL moves on. -/
theorem fits_loadNext {s : Board Bus} {now : Nat} (hcpu : c.Fits s.cpu)
    (hbus : c.toWiring.Shows code now s.bus) {v : UInt8} (hmapped : c.hl < Location.romSize)
    (hv : code (UInt16.ofNat c.hl) = v) :
    ({ c with pc := c.pc + 1, a := v, hl := c.hl + 1, clock := c.clock + 8 } : Scene).Fits
        (s.perform (.loadA .hlUp)).cpu ∧
      c.toWiring.Shows code now (s.perform (.loadA .hlUp)).bus := by
  have hsize : c.hl < UInt16.size := Nat.lt_trans hmapped (by decide)
  have hbyte : (UInt16.ofNat c.hl).toNat < Location.romSize := by
    rw [UInt16.toNat_ofNat_of_lt' hsize]
    exact hmapped
  rw [Board.perform_loadNext, hcpu.hl_eq, hbus.read_code hbyte, hv]
  exact ⟨{ hcpu with
    pc_eq := congrArg (· + 1) hcpu.pc_eq, a_eq := rfl
    hl_eq := (Registers.hl_setHL s.cpu.regs _).trans (UInt16.ofNat_add ..).symm
    clock_eq := congrArg (· + 8) hcpu.clock_eq }, hbus⟩

/-- A byte is loaded from the program image, and HL moves on. -/
theorem leads_loadNext (h : c.Ready code (.loadA .hlUp)) {v : UInt8}
    (hmapped : c.hl < Location.romSize) (hv : code (UInt16.ofNat c.hl) = v)
    (huntil : c.line.Until (c.clock + 8)) :
    Leads code c
      ({ c with pc := c.pc + 1, a := v, hl := c.hl + 1, clock := c.clock + 8 } : Scene).settled :=
  h.leads (fun _ hm ↦ fits_loadNext hm.fits hm.wiring hmapped hv) (Nat.le_add_right _ _) huntil

/-- A change of the master enable is requested, and waits. -/
theorem leads_ei (h : c.Ready code .ei) (hwaiting : c.waiting = [])
    (huntil : c.line.Until (c.clock + 4)) :
    Leads code c
      ({ c with
          pc := c.pc + 1, waiting := [{ enable := true, due := c.clock + 5 }],
          clock := c.clock + 4 } : Scene).settled := by
  refine h.leads (fun m hm ↦ ?_) (Nat.le_add_right _ _) huntil
  have hqueue : m.cpu.imeQueue.toList = [] := hm.fits.waiting_eq.trans hwaiting
  refine ⟨{ hm.fits with pc_eq := ?_, clock_eq := ?_, waiting_eq := ?_ }, hm.wiring⟩
  · exact congrArg (· + 1) hm.fits.pc_eq
  · exact congrArg (· + 4) hm.fits.clock_eq
  · have hroom : m.cpu.imeQueue.length < ImeQueue.capacity := by
      rw [ImeQueue.toList_eq_nil_iff.mp hqueue]
      decide
    show (m.cpu.imeQueue.push { enable := true, due := m.cpu.clock + Cpu.imeDelay }).toList = _
    rw [ImeQueue.toList_push _ _ hroom, hqueue, hm.fits.clock_eq]
    rfl

/-- The program goes to sleep. -/
theorem leads_halt (h : c.Ready code .halt) (huntil : c.line.Until (c.clock + 4)) :
    Leads code c
      ({ c with pc := c.pc + 1, power := .halted, clock := c.clock + 4 } : Scene).settled :=
  h.leads (fun _ hm ↦ ⟨{ hm.fits with
    pc_eq := congrArg (· + 1) hm.fits.pc_eq, power_eq := rfl
    clock_eq := congrArg (· + 4) hm.fits.clock_eq }, hm.wiring⟩) (Nat.le_add_right _ _) huntil

/-- The handler returns, and interrupts are enabled again. -/
theorem leads_reti (h : c.Ready code .reti) {back : UInt16} (hsaved : c.saved = some back)
    (huntil : c.line.Until (c.clock + 16)) :
    Leads code c
      ({ c with
          pc := back, saved := none, ime := true, clock := c.clock + 16 } : Scene).settled := by
  refine h.leads (fun m hm ↦ ?_) (Nat.le_add_right _ _) huntil
  have hsp : m.cpu.regs.sp = 0xFFFC := by
    rw [hm.fits.sp_eq, sp, hsaved]
    rfl
  obtain ⟨hlow, hhigh⟩ := hm.wiring.saved back hsaved
  have hback : word (m.bus.read (m.cpu.regs.sp + 1)) (m.bus.read m.cpu.regs.sp) = back := by
    rw [hsp]
    show word (m.bus.memory.get 0xFFFD) (m.bus.memory.get 0xFFFC) = back
    rw [hlow, hhigh, word_highByte_lowByte]
  rw [Board.perform_reti, hback, hsp]
  exact ⟨{ hm.fits with
    pc_eq := rfl, sp_eq := rfl, ime_eq := rfl
    clock_eq := congrArg (· + 16) hm.fits.clock_eq }, hm.wiring.forget_saved⟩

/-! ### Steps asleep -/

/-- Asleep, time passes and nothing else happens. -/
theorem Shows.sleep {m : Machine} (hm : c.Shows code m) (hpower : c.power = .halted)
    (hquiet : c.pending = false) (hwaiting : c.waiting = []) (huntil : c.line.Until (c.clock + 4)) :
    ∃ t m', Machine.step m = (.ok t, m') ∧
      ({ c with clock := c.clock + 4 } : Scene).Shows code m' := by
  have hstep := Machine.step_of_halted (hm.fits.power_eq.trans hpower) (hm.wiring.quiet hquiet)
  refine ⟨_, _, hstep, shows_settle_of_nil hwaiting ?_ hm.wiring (Nat.le_add_right _ _) huntil⟩
  exact { hm.fits with clock_eq := congrArg (· + 4) hm.fits.clock_eq }

/-- **Time is slept away**, as long as no byte is gone. -/
theorem Shows.sleeps {m : Machine} (hm : c.Shows code m) (hpower : c.power = .halted)
    (hquiet : c.pending = false) (hwaiting : c.waiting = []) (n : Nat)
    (huntil : c.line.Until (c.clock + 4 * n)) :
    m.Makes n ∧ ({ c with clock := c.clock + 4 * n } : Scene).Shows code (m.stepped n) := by
  induction n with
  | zero => exact ⟨Machine.makes_zero m, hm⟩
  | succ n ih =>
    obtain ⟨hmakes, hslept⟩ := ih fun due hdue ↦ Nat.le_trans (by omega) (huntil due hdue)
    obtain ⟨t, m', hstep, hm'⟩ := hslept.sleep hpower hquiet hwaiting huntil
    obtain ⟨hone, rfl⟩ := Machine.makes_one hstep
    rw [Machine.stepped_add]
    exact ⟨Machine.makes_add.mpr ⟨hmakes, hone⟩, hm'⟩

/-- Asleep, it lets time pass until the transfer ends. -/
theorem leads_wait (hpower : c.power = .halted) (hquiet : c.pending = false)
    (hwaiting : c.waiting = []) (n : Nat) (huntil : c.line.Until (c.clock + 4 * n)) :
    Leads code c { c with clock := c.clock + 4 * n } := by
  intro m hm
  obtain ⟨hmakes, hslept⟩ := hm.sleeps hpower hquiet hwaiting n huntil
  exact ⟨m.stepped n, ⟨n, hmakes, rfl⟩, hslept⟩

/-- The last bit of a byte goes, and its interrupt is requested. -/
theorem leads_sleep_sent (hpower : c.power = .halted) (hquiet : c.pending = false)
    (hwaiting : c.waiting = []) {due : Nat} (hdue : c.line = .sending due)
    (hpast : due < c.clock + 4) (hstride : c.clock + 4 ≤ due + Serial.stride) :
    Leads code c { c with line := .idle, pending := true, clock := c.clock + 4 } := by
  refine leads_of_step fun m hm ↦ ?_
  have hstep := Machine.step_of_halted (hm.fits.power_eq.trans hpower) (hm.wiring.quiet hquiet)
  have hclock : m.cpu.clock + 4 = c.clock + 4 := congrArg (· + 4) hm.fits.clock_eq
  have hgone := hm.wiring.catchUp_sent (Nat.le_add_right c.clock 4) hdue hpast hstride
  rw [← hclock] at hgone
  refine ⟨_, _, hstep, ?_⟩
  rw [Machine.settle_of_nil (s := Board.elapse m Board.idleTicks)
    (hm.fits.waiting_eq.trans hwaiting)]
  exact ⟨{ hm.fits with clock_eq := hclock }, hclock ▸ hgone⟩

/-- The scene once control has passed to the handler of the serial port. -/
def interrupted (c : Scene) : Scene :=
  { c with
    pending := false, saved := some c.pc, pc := Interrupt.serial.vector
    clock := c.clock + Board.dispatchTicks, power := .running, ime := false }

/-- The serial port interrupts a machine asleep. The devices have not caught up with that yet. -/
theorem Shows.interrupted {m : Machine} (hm : c.Shows code m) (hpower : c.power = .halted)
    (hpending : c.pending = true) (hlistening : c.listening = true) (hime : c.ime = true)
    (hsaved : c.saved = none) :
    ∃ s, Board.serviceInterrupts m = (.dispatched .serial, s) ∧ c.interrupted.Fits s.cpu ∧
      c.interrupted.toWiring.Shows code c.clock s.bus := by
  have henabled : InterruptSet.ofByte m.bus.enabled = {.serial} := by
    rw [hm.wiring.enabled_eq, Wiring.heeded, if_pos hlistening]
  have hserved := Board.serviceInterrupts_of_only m (hm.fits.power_eq.trans hpower)
    (hm.fits.ime_eq.trans hime) henabled (hm.wiring.pending_iff.mpr hpending)
  have hrequests : .serial ∈ InterruptSet.ofByte (m.bus.requests.erase .serial).toByte ↔
      false = true := by
    simp
  have hsp : m.cpu.regs.sp = 0xFFFE := by
    rw [hm.fits.sp_eq, sp, hsaved]
    rfl
  refine ⟨_, hserved, ?_⟩
  rw [Board.dispatch_bus]
  refine ⟨{ hm.fits with
    pc_eq := rfl, sp_eq := ?_, clock_eq := congrArg (· + Board.dispatchTicks) hm.fits.clock_eq
    power_eq := rfl, ime_eq := rfl }, ?_⟩
  · show m.cpu.regs.sp - 1 - 1 = 0xFFFC
    rw [hsp]
    rfl
  · show c.interrupted.toWiring.Shows code c.clock
      (((m.bus.write requestAddress (m.bus.requests.erase .serial).toByte).write
        (m.cpu.regs.sp - 1) (highByte m.cpu.regs.pc)).write
          (m.cpu.regs.sp - 1 - 1) (lowByte m.cpu.regs.pc))
    rw [hsp, hm.fits.pc_eq]
    exact (hm.wiring.write_requests hrequests).write_stack c.pc

/-- **The handler of the serial port begins**, if it does so by loading the next byte of the
program. -/
theorem leads_interrupted (hpower : c.power = .halted) (hpending : c.pending = true)
    (hlistening : c.listening = true) (hime : c.ime = true) (hwaiting : c.waiting = [])
    (hsaved : c.saved = none)
    (hopcode : Opcode.decode (code Interrupt.serial.vector) = .instruction (.loadA .hlUp))
    {v : UInt8} (hmapped : c.hl < Location.romSize) (hv : code (UInt16.ofNat c.hl) = v)
    (huntil : c.line.Until (c.clock + 28)) :
    Leads code c
      { c.interrupted with
        pc := Interrupt.serial.vector + 1, a := v, hl := c.hl + 1, clock := c.clock + 28 } := by
  refine leads_of_step fun m hm ↦ ?_
  obtain ⟨s, hserved, hcpu, hbus⟩ :=
    hm.interrupted hpower hpending hlistening hime hsaved
  have hpc : s.cpu.regs.pc = Interrupt.serial.vector := hcpu.pc_eq
  have hnext : Opcode.decode (s.bus.read s.cpu.regs.pc) = .instruction (.loadA .hlUp) := by
    rw [hpc, hbus.read_code (by decide)]
    exact hopcode
  obtain ⟨t, hstep⟩ := Machine.step_of_instruction hserved (fun _ h ↦ nomatch h) hcpu.power_eq hnext
  obtain ⟨hcpu', hbus'⟩ := fits_loadNext hcpu hbus hmapped hv
  exact ⟨t, _, hstep, shows_settle_of_nil hwaiting hcpu' hbus' (Nat.le_add_right _ _) huntil⟩

end Scene

end GameBoy
