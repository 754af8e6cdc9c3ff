import GameBoy.Proofs.Program.Printer
import GameBoy.Proofs.Program.Vigil

/-!
# Counting frames

A program that sleeps, and whose handler of the vertical blank counts in register C. However long it
runs, it has counted every frame once: `FrameCounter.counts_frames`.

What carries the proof is where the program sleeps (`FrameCounter.asleep`). It wakes up when a
vertical blank begins, and 56 ticks later it is asleep again at the same place, with everything as
before but for the count. The display does not wait for the program: the next vertical blank begins
a frame after the last one has begun, whatever the handler takes. So the phase in which the program
goes to sleep does not drift, and one frame leads to the next (`FrameCounter.leads_frame`).
-/

namespace GameBoy

namespace FrameCounter

/-! ### The program -/

/-- Enables the vertical blank, and sleeps for good. -/
def main : List UInt8 :=
  [ 0x0E, 0x00,   -- LD C, 0x00
    0xAF,         -- XOR A
    0xE0, 0x0F,   -- LDH (0x0F), A
    0x3E, 0x01,   -- LD A, 0x01
    0xE0, 0xFF,   -- LDH (0xFF), A
    0xFB,         -- EI
    0x76,         -- HALT
    0x18, 0xFD ]  -- JR -3

/-- Counts. -/
def handler : List UInt8 :=
  [ 0x0C,         -- INC C
    0xD9 ]        -- RETI

/-- The program and its handler. -/
def pieces : List (Nat × List UInt8) := [(0x0100, main), (0x0040, handler)]

/-- The byte of the image at an address. -/
def code (a : UInt16) : UInt8 := Printer.byteAt pieces a.toNat

/-- The program image. -/
def rom : Array UInt8 := Array.ofFn fun i : Fin Location.romSize ↦ code (UInt16.ofNat i)

/-- The program is what the machine reads in the lower half of memory. -/
theorem get_loadRom_rom (bus : Bus) {a : UInt16} (ha : a.toNat < Location.romSize) :
    (bus.loadRom rom).memory.get a = code a := by
  rw [Bus.get_memory_loadRom, if_pos ha, rom, Array.getElem?_ofFn, dif_pos ha]
  exact congrArg code (UInt16.ofNat_toNat)

/-! ### Where the program stands -/

/-- The CPU at some place of the program. -/
def cpuAt (policy : IllegalOpcodePolicy) (pc : UInt16) (a c : UInt8) (flags : Flags)
    (clock : Nat) : Cpu :=
  { Cpu.powerOn policy with regs := { Cpu.initialRegisters with pc, a, c, flags }, clock }

variable (policy : IllegalOpcodePolicy)

/-- At power-on. -/
def start : Vigil where
  listening := false
  pending := true
  saved := none
  cpu := cpuAt policy 0x0100 0x01 0x13 Cpu.initialRegisters.flags 0

/-- The counter once it has been incremented so often. -/
def count : Nat → UInt8
  | 0 => 0
  | n + 1 => count n + 1

theorem toNat_count (n : Nat) : (count n).toNat = n % 256 := by
  induction n with
  | zero => rfl
  | succ n ih =>
    rw [count, UInt8.toNat_add, ih, UInt8.toNat_one, Nat.mod_add_mod]

/-- The flags, which tell about the counter as the last increment has left it. -/
def flagsAfter : Nat → Flags
  | 0 => .of true false false false
  | n + 1 => (Alu.inc (count n) (flagsAfter n)).2

/-- Asleep, after so many frames. -/
def asleep (n clock : Nat) : Vigil where
  listening := true
  pending := false
  saved := none
  cpu := { cpuAt policy 0x010B 0x01 (count n) (flagsAfter n) clock with
    power := .halted
    -- The change of the master enable that EI has requested has been applied.
    imeQueue := (ImeQueue.push {} { enable := true, due := 49 }).drop }

/-! ### Up to the first sleep -/

open Vigil

theorem code_eq {a : UInt16} {x : UInt8} (n : Nat) (ha : a.toNat = n)
    (hx : Printer.byteAt pieces n = x) : code a = x := by
  rw [code, ha, hx]

theorem decode_code {a : UInt16} {i : Instruction} (n : Nat) (opcode : UInt8) (ha : a.toNat = n)
    (hbyte : Printer.byteAt pieces n = opcode) (hdecode : Opcode.decode opcode = .instruction i) :
    Opcode.decode (code a) = .instruction i := by
  rw [code_eq n ha hbyte, hdecode]

/-- The next step performs the instruction at an address. -/
theorem ready {v : Vigil} {i : Instruction} (n : Nat) (opcode : UInt8)
    (hpc : v.cpu.regs.pc.toNat = n) (hbyte : Printer.byteAt pieces n = opcode)
    (hdecode : Opcode.decode opcode = .instruction i) (hmapped : n + 2 < Location.romSize)
    (hquiet : v.listening = false ∨ v.pending = false) (hawake : v.cpu.power = .running) :
    v.Ready code i where
  quiet := hquiet
  awake := hawake
  mapped := hpc ▸ hmapped
  opcode := decode_code n opcode hpc hbyte hdecode

/-- The first vertical blank is far away. -/
theorem calm_start {v : Vigil} {ticks : Nat} (last : Nat) (hdvd : Video.stride ∣ ticks)
    (hclock : v.cpu.clock + ticks = last) (hlast : last < Video.blankTick 0) : v.Calm ticks where
  stride_dvd := hdvd
  not_blanks := by
    rw [hclock]
    exact Video.not_blanks_of_lt hlast

/-- The byte zero takes back all requests. -/
theorem vblank_not_mem_zero : .vblank ∈ InterruptSet.ofByte 0 ↔ false = true := by decide

/-- **The program goes to sleep** long before the first vertical blank. -/
theorem leads_asleep : Leads code (start policy) (asleep policy 0 52) :=
  calc
    Leads code (start policy)
        { start policy with cpu := cpuAt policy 0x0102 0x01 0 Cpu.initialRegisters.flags 8 } :=
      leads_loadC (ready 0x0100 0x0E rfl rfl rfl (by decide) (.inl rfl) rfl)
        (calm_start 8 (by decide) rfl (by decide)) (code_eq 0x0101 rfl rfl)
    Leads code _ { start policy with cpu := cpuAt policy 0x0103 0 0 (flagsAfter 0) 12 } :=
      leads_clearA (ready 0x0102 0xAF rfl rfl rfl (by decide) (.inl rfl) rfl)
        (calm_start 12 (by decide) rfl (by decide))
    Leads code _
        { start policy with
          pending := false, cpu := cpuAt policy 0x0105 0 0 (flagsAfter 0) 24 } :=
      leads_store (ready 0x0103 0xE0 rfl rfl rfl (by decide) (.inl rfl) rfl)
        (calm_start 24 (by decide) rfl (by decide)) (code_eq 0x0104 rfl rfl)
        fun _ h ↦ h.write_requests vblank_not_mem_zero
    Leads code _
        { start policy with
          pending := false, cpu := cpuAt policy 0x0107 1 0 (flagsAfter 0) 32 } :=
      leads_loadA (ready 0x0105 0x3E rfl rfl rfl (by decide) (.inl rfl) rfl)
        (calm_start 32 (by decide) rfl (by decide)) (code_eq 0x0106 rfl rfl)
    Leads code _
        { start policy with
          listening := true, pending := false, cpu := cpuAt policy 0x0109 1 0 (flagsAfter 0) 44 } :=
      leads_store (ready 0x0107 0xE0 rfl rfl rfl (by decide) (.inl rfl) rfl)
        (calm_start 44 (by decide) rfl (by decide)) (code_eq 0x0108 rfl rfl)
        fun _ h ↦ h.write_enabled rfl
    Leads code _
        { start policy with
          listening := true, pending := false
          cpu := { cpuAt policy 0x010A 1 0 (flagsAfter 0) 48 with
            imeQueue := ImeQueue.push {} { enable := true, due := 49 } } } :=
      leads_ei (ready 0x0109 0xFB rfl rfl rfl (by decide) (.inr rfl) rfl)
        (calm_start 48 (by decide) rfl (by decide))
    Leads code _ (asleep policy 0 52) :=
      leads_halt (ready 0x010A 0x76 rfl rfl rfl (by decide) (.inr rfl) rfl)
        (calm_start 52 (by decide) rfl (by decide))

/-! ### From frame to frame -/

/-- When a vertical blank has begun, the next one is far away. -/
theorem calm_after {v : Vigil} {n ticks : Nat} (k : Nat) (hdvd : Video.stride ∣ ticks)
    (hclock : v.cpu.clock = Video.blankTick n + k) (hlast : k + ticks < Video.frameTicks) :
    v.Calm ticks where
  stride_dvd := hdvd
  not_blanks := by
    rw [hclock]
    refine Video.not_blanks_between (Nat.le_add_right _ _) ?_
    rw [Video.blankTick_succ]
    omega

/-- In the handler, when a vertical blank has begun. -/
def counted (n : Nat) : Vigil :=
  { asleep policy (n + 1) (Video.blankTick n + 24) with
    saved := some 0x010B
    cpu := { (asleep policy (n + 1) (Video.blankTick n + 24)).cpu with
      regs := { (asleep policy (n + 1) (Video.blankTick n + 24)).cpu.regs with
        sp := 0xFFFC, pc := 0x0041 }
      power := .running
      ime := false } }

/-- **The program wakes up and counts** when a vertical blank begins. -/
theorem leads_counted {n clock : Nat} (naps : Nat)
    (hnaps : clock + 4 * naps + 4 = Video.blankTick n)
    (hcalm : ¬ Video.Blanks clock (clock + 4 * naps)) :
    Leads code (asleep policy n clock) (counted policy n) := by
  have hbegins : Video.Blanks (clock + 4 * naps) (clock + 4 * naps + 4) :=
    Video.blanks_of_mem (n := n) (by omega) (by omega)
  have hblank : Leads code ((asleep policy n clock).later (4 * naps))
      { asleep policy n (clock + 4 * naps + 4) with pending := true } :=
    leads_blank ⟨rfl, rfl⟩ rfl hbegins
  rw [hnaps] at hblank
  exact calc
    Leads code (asleep policy n clock) ((asleep policy n clock).later (4 * naps)) :=
      leads_wait ⟨rfl, rfl⟩ rfl naps ⟨Nat.dvd_mul_right 4 naps, hcalm⟩
    Leads code _ { asleep policy n (Video.blankTick n) with pending := true } := hblank
    Leads code _ (counted policy n) :=
      leads_handler ⟨rfl, rfl⟩ rfl rfl rfl rfl (decode_code 0x0040 0x0C rfl rfl rfl)
        (calm_after 0 (by decide) rfl (by decide))

/-- **The handler returns**, and the program goes to sleep again. -/
theorem leads_back (n : Nat) :
    Leads code (counted policy n) (asleep policy (n + 1) (Video.blankTick n + 56)) := by
  have htarget : (0x010B : UInt16) + 1 + 1 + signExtend 0xFD = 0x010A := by decide
  exact calc
    Leads code (counted policy n)
        { asleep policy (n + 1) (Video.blankTick n + 40) with
          cpu := { (asleep policy (n + 1) (Video.blankTick n + 40)).cpu with
            power := .running } } :=
      leads_reti (ready 0x0041 0xD9 rfl rfl rfl (by decide) (.inr rfl) rfl)
        (calm_after 24 (by decide) rfl (by decide)) rfl rfl
    Leads code _
        { asleep policy (n + 1) (Video.blankTick n + 52) with
          cpu := { (asleep policy (n + 1) (Video.blankTick n + 52)).cpu with
            regs := { (asleep policy (n + 1) (Video.blankTick n + 52)).cpu.regs with
              pc := 0x010A }
            power := .running } } :=
      leads_jump (ready 0x010B 0x18 rfl rfl rfl (by decide) (.inr rfl) rfl)
        (calm_after 40 (by decide) rfl (by decide)) (code_eq 0x010C rfl rfl) htarget
    Leads code _ (asleep policy (n + 1) (Video.blankTick n + 56)) :=
      leads_halt (ready 0x010A 0x76 rfl rfl rfl (by decide) (.inr rfl) rfl)
        (calm_after 52 (by decide) rfl (by decide))

/-- The clock when the program is asleep again after so many frames. -/
def asleepSince : Nat → Nat
  | 0 => 52
  | n + 1 => Video.blankTick n + 56

/-- **One frame more.** -/
theorem leads_frame (n : Nat) :
    Leads code (asleep policy n (asleepSince n)) (asleep policy (n + 1) (asleepSince (n + 1))) := by
  have hcounted : Leads code (asleep policy n (asleepSince n)) (counted policy n) := by
    cases n with
    | zero =>
      have hnaps : asleepSince 0 + 4 * 16402 + 4 = Video.blankTick 0 := by decide
      exact leads_counted policy 16402 hnaps (Video.not_blanks_of_lt (by omega))
    | succ n =>
      -- From one vertical blank to the next it is a frame, of which 56 ticks have gone.
      have hsince : asleepSince (n + 1) = Video.blankTick n + 56 := rfl
      have hframe : Video.blankTick (n + 1) = Video.blankTick n + 70224 := Video.blankTick_succ n
      have hnaps : asleepSince (n + 1) + 4 * 17541 + 4 = Video.blankTick (n + 1) := by omega
      have hcalm : ¬ Video.Blanks (asleepSince (n + 1)) (asleepSince (n + 1) + 4 * 17541) :=
        Video.not_blanks_between (n := n) (by omega) (by omega)
      exact leads_counted policy 17541 hnaps hcalm
  exact hcounted.trans (leads_back policy n)

/-- **Any number of frames.** -/
theorem leads_frames (n : Nat) : Leads code (start policy) (asleep policy n (asleepSince n)) := by
  induction n with
  | zero => exact leads_asleep policy
  | succ n ih => exact ih.trans (leads_frame policy n)

/-- Some time after a vertical blank. -/
theorem leads_slept (n : Nat) :
    Leads code (start policy) (asleep policy (n + 1) (Video.blankTick n + 1000)) :=
  (leads_frames policy (n + 1)).trans
    (leads_wait ⟨rfl, rfl⟩ rfl 236 (calm_after 56 (by decide) rfl (by decide)))

theorem shows_start (config : Config) :
    (start config.policy).Shows code ((Machine.powerOn config).loadRom rom) where
  cpu_eq := rfl
  outlook := {
    rom := ⟨fun _ ha ↦ get_loadRom_rom _ ha, fun _ hi ↦ nomatch hi⟩
    still := rfl
    enabled_eq := rfl
    pending_iff := (by decide : .vblank ∈ ({.vblank} : InterruptSet) ↔ true = true)
    undisturbed := Video.undisturbed_powerOn
    clock_eq := rfl
    stride_dvd := Nat.dvd_zero _
    saved := nofun }

/-- **Every frame is counted once.** However many frames the program runs for, up to some ticks
behind the beginning of a vertical blank: the run succeeds, the counter in register C is the number
of frames, as far as a byte can hold it, and the program is asleep, with interrupts enabled and
nothing on the stack. -/
theorem counts_frames (config : Config) {n : Nat} (hn : 1 ≤ n)
    (hticks : 144 * 456 + (n - 1) * 70224 + 1000 ≤ lastTick) :
    ∃ m, ((Machine.powerOn config).loadRom rom).runForTicks (144 * 456 + (n - 1) * 70224 + 1000) =
        (.ok (144 * 456 + (n - 1) * 70224 + 1000), m) ∧
      m.cpu.regs.c.toNat = n % 256 ∧ m.cpu.power = .halted ∧ m.cpu.ime = true ∧
      m.cpu.regs.sp = 0xFFFE := by
  obtain ⟨n, rfl⟩ := Nat.exists_eq_add_of_le' hn
  obtain ⟨m, hreaches, hm⟩ := leads_slept config.policy n _ (shows_start config)
  have htick : Video.blankTick n + 1000 = 144 * 456 + n * 70224 + 1000 := by
    rw [Video.blankTick, Nat.mul_comm]
    rfl
  have hclock : m.cpu.clock = 0 + (144 * 456 + n * 70224 + 1000) := by
    rw [hm.cpu_eq, Nat.zero_add, ← htick]
    rfl
  rw [Nat.add_sub_cancel] at hticks ⊢
  refine ⟨m, hreaches.runForTicks_eq hclock ?_, ?_⟩
  · exact (Nat.zero_add _).symm ▸ hticks
  · rw [hm.cpu_eq]
    exact ⟨toNat_count (n + 1), rfl, rfl, rfl⟩

theorem counts_frames_of_three :
    1 ≤ 3 ∧ 144 * 456 + (3 - 1) * 70224 + 1000 ≤ lastTick ∧
      ∃ m, ((Machine.powerOn {}).loadRom rom).runForTicks (144 * 456 + (3 - 1) * 70224 + 1000) =
          (.ok (144 * 456 + (3 - 1) * 70224 + 1000), m) ∧
        m.cpu.regs.c.toNat = 3 ∧ m.cpu.power = .halted ∧ m.cpu.ime = true ∧
        m.cpu.regs.sp = 0xFFFE := by
  have hticks : 144 * 456 + (3 - 1) * 70224 + 1000 ≤ lastTick := by decide
  have hn : 1 ≤ 3 := by decide
  obtain ⟨m, hrun, hcount, hasleep⟩ := counts_frames {} hn hticks
  exact ⟨hn, hticks, m, hrun, hcount, hasleep⟩

end FrameCounter

end GameBoy
