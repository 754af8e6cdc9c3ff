import GameBoy.Proofs.Machine.Recording
import GameBoy.Proofs.Program.Scene

/-!
# Printing by interrupts

A program that prints a text over the serial port. It sends the first byte and goes to sleep; each
time a byte is gone, the handler of the serial port sends the next one, until it comes to the zero
byte that ends the text. `Printer.prints`: whatever the text is, it is printed as it stands, in 4096
ticks for each byte at most.

What carries the proof is where the program sleeps (`Printer.asleep`). A round is eight strides of
the serial port, which are 4096 ticks. A transfer that begins in the first stride of a round is over
when the round is; the handler begins the next one within 76 ticks, and after 32 more the program is
asleep again. So a round leads from one sleep to the next, with one more byte sent
(`Printer.leads_next`), and a text is printed in as many rounds as it has bytes.
-/

namespace GameBoy

namespace Printer

/-! ### The program -/

/-- Enables the interrupt of the serial port, sends the first byte, and goes to sleep. -/
def main : List UInt8 :=
  [ 0x21, 0x00, 0x02, -- LD HL, 0x0200
    0x3E, 0x08,       -- LD A, 0x08
    0xE0, 0xFF,       -- LDH (0xFF), A
    0xAF,             -- XOR A
    0xE0, 0x0F,       -- LDH (0x0F), A
    0x2A,             -- LD A, (HL+)
    0xE0, 0x01,       -- LDH (0x01), A
    0x3E, 0x81,       -- LD A, 0x81
    0xE0, 0x02,       -- LDH (0x02), A
    0xFB,             -- EI
    0x76,             -- HALT
    0x18, 0xFD ]      -- JR -3

/-- Sends the next byte, unless that is zero. -/
def handler : List UInt8 :=
  [ 0x2A,             -- LD A, (HL+)
    0xB7,             -- OR A
    0x28, 0x06,       -- JR Z, +6
    0xE0, 0x01,       -- LDH (0x01), A
    0x3E, 0x81,       -- LD A, 0x81
    0xE0, 0x02,       -- LDH (0x02), A
    0xD9 ]            -- RETI

/-- The byte at an address of an image, which is made of pieces that start at given addresses and of
zeros in between. -/
def byteAt (pieces : List (Nat × List UInt8)) (a : Nat) : UInt8 :=
  match pieces with
  | [] => 0
  | (start, bytes) :: rest =>
    if start ≤ a ∧ a < start + bytes.length then bytes.getD (a - start) 0 else byteAt rest a

/-- The program, and the text that it prints with a zero byte behind it. -/
def pieces (text : List UInt8) : List (Nat × List UInt8) :=
  [(0x0100, main), (0x0058, handler), (0x0200, text ++ [0])]

/-- The program image. -/
def rom (text : List UInt8) : Array UInt8 :=
  Array.ofFn fun i : Fin Location.romSize ↦ byteAt (pieces text) i

/-- The byte of the image at an address. -/
def code (text : List UInt8) (a : UInt16) : UInt8 := byteAt (pieces text) a.toNat

variable {text : List UInt8}

/-! ### Reading the program -/

theorem byteAt_text {n : Nat} (h : n ≤ text.length) :
    byteAt (pieces text) (0x0200 + n) = (text ++ [0]).getD n 0 := by
  have hmain : main.length = 0x15 := rfl
  have hhandler : handler.length = 0x0B := rfl
  have hwhole : (text ++ [0]).length = text.length + 1 := List.length_append
  simp only [pieces, byteAt, hmain, hhandler, hwhole]
  rw [if_neg (by omega), if_neg (by omega), if_pos (by omega), Nat.add_sub_cancel_left]

/-- The byte that follows what has been sent. -/
theorem byteAt_of_eq_append {sent rest : List UInt8} {byte : UInt8}
    (h : text = sent ++ byte :: rest) : byteAt (pieces text) (0x0200 + sent.length) = byte := by
  have hle : sent.length ≤ text.length := by
    rw [h, List.length_append]
    exact Nat.le_add_right _ _
  rw [byteAt_text hle, h]
  simp

theorem byteAt_terminator : byteAt (pieces text) (0x0200 + text.length) = 0 := by
  rw [byteAt_text (Nat.le_refl _)]
  simp

/-- The program is what the machine reads in the lower half of memory. -/
theorem get_loadRom_rom (bus : Bus) {a : UInt16} (ha : a.toNat < Location.romSize) :
    (bus.loadRom (rom text)).memory.get a = code text a := by
  rw [Bus.get_memory_loadRom, if_pos ha, rom, Array.getElem?_ofFn, dif_pos ha]
  rfl

theorem code_eq {a : UInt16} {v : UInt8} (n : Nat) (ha : a.toNat = n)
    (hv : byteAt (pieces text) n = v) : code text a = v := by
  rw [code, ha, hv]

theorem decode_code {a : UInt16} {i : Instruction} (n : Nat) (opcode : UInt8) (ha : a.toNat = n)
    (hbyte : byteAt (pieces text) n = opcode) (hdecode : Opcode.decode opcode = .instruction i) :
    Opcode.decode (code text a) = .instruction i := by
  rw [code_eq n ha hbyte, hdecode]

/-- The next step performs the instruction at an address. -/
theorem ready {c : Scene} {i : Instruction} (n : Nat) (opcode : UInt8) (hpc : c.pc.toNat = n)
    (hbyte : byteAt (pieces text) n = opcode) (hdecode : Opcode.decode opcode = .instruction i)
    (hmapped : n + 2 < Location.romSize) (hquiet : c.pending = false)
    (hawake : c.power = .running) : c.Ready (code text) i where
  quiet := hquiet
  awake := hawake
  mapped := hpc ▸ hmapped
  opcode := decode_code n opcode hpc hbyte hdecode

/-! ### Where the program stands -/

/-- At power-on. -/
def start : Scene where
  listening := false
  pending := false
  line := .idle
  saved := none
  sent := []
  pc := 0x0100
  a := 0x01
  z := true
  hl := 0x014D
  clock := 0
  power := .running
  ime := true
  waiting := []

/-- With the interrupt of the serial port enabled and no request left. -/
def listening : Scene :=
  { start with listening := true, pc := 0x010A, a := 0, hl := 0x0200, clock := 48 }

/-- Asleep, while the last of the bytes sent so far is on its way. -/
def asleep (z : Bool) (sent : List UInt8) (clock : Nat) : Scene where
  listening := true
  pending := false
  line := .sending (4096 * sent.length)
  saved := none
  sent
  pc := 0x0113
  a := 0x81
  z
  hl := 0x0200 + sent.length
  clock
  power := .halted
  ime := true
  waiting := []

/-- Asleep still, but that byte is gone and its interrupt has been requested. -/
def notified (z : Bool) (sent : List UInt8) : Scene :=
  { asleep z sent (4096 * sent.length + 4) with line := .idle, pending := true }

/-- In the handler, with the next byte. -/
def handling (z : Bool) (sent : List UInt8) (byte : UInt8) : Scene :=
  { asleep z sent (4096 * sent.length + 32) with
    line := .idle, saved := some 0x0113, pc := 0x0059, a := byte
    hl := 0x0200 + sent.length + 1, power := .running, ime := false }

/-- At the end of the handler. -/
def returning (c : Scene) : Scene :=
  { c with
    pending := false, saved := some 0x0113, pc := 0x0062, power := .running, ime := false
    waiting := [] }

/-- Asleep for good, behind the zero byte. -/
def finished (sent : List UInt8) : Scene :=
  { asleep true sent (4096 * sent.length + 80) with
    line := .idle, a := 0, hl := 0x0200 + sent.length + 1 }

/-! ### Rounds -/

section

open Line Scene

/-- A transfer begins in the first stride of a round of eight. -/
theorem arrived_round (n k : Nat) (hpos : 0 < k) (hle : k ≤ Serial.stride) :
    Arrived Serial.stride (4096 * n + k) (4096 * n + Serial.stride) := by
  have hround : Serial.stride ∣ 4096 * n := Nat.dvd_mul_right_of_dvd (by decide) n
  refine NotAhead.arrived ⟨Nat.dvd_add hround (Nat.dvd_refl _), ?_⟩ (Nat.add_le_add_left hle _)
  omega

/-- It goes on until the round is over. -/
theorem until_round (n k : Nat) (hle : k ≤ 4096) :
    (sending (4096 * n + 4096)).Until (4096 * n + k) :=
  until_sending (Nat.add_le_add_left hle _)

theorem begins_control : Serial.begins 0x81 = true := by decide

/-! ### The first byte -/

theorem leads_listening : Leads (code text) start listening :=
  calc
    Leads (code text) start { start with pc := 0x0103, hl := 0x0200, clock := 12 } :=
      leads_loadHL (ready 0x0100 0x21 rfl rfl rfl (by decide) rfl rfl) (code_eq 0x0101 rfl rfl)
        (code_eq 0x0102 rfl rfl) (until_idle _)
    Leads (code text) _ { start with pc := 0x0105, a := 0x08, hl := 0x0200, clock := 20 } :=
      leads_loadA (ready 0x0103 0x3E rfl rfl rfl (by decide) rfl rfl) (code_eq 0x0104 rfl rfl)
        (until_idle _)
    Leads (code text) _
        { start with listening := true, pc := 0x0107, a := 0x08, hl := 0x0200, clock := 32 } :=
      leads_store (ready 0x0105 0xE0 rfl rfl rfl (by decide) rfl rfl) (code_eq 0x0106 rfl rfl) rfl
        (fun _ h ↦ h.write_enabled rfl) (until_idle _)
    Leads (code text) _
        { start with listening := true, pc := 0x0108, a := 0, hl := 0x0200, clock := 36 } :=
      leads_clearA (ready 0x0107 0xAF rfl rfl rfl (by decide) rfl rfl) (until_idle _)
    Leads (code text) _ listening :=
      leads_store (ready 0x0108 0xE0 rfl rfl rfl (by decide) rfl rfl) (code_eq 0x0109 rfl rfl) rfl
        (fun _ h ↦ h.write_requests (by decide)) (until_idle _)

/-- **The first byte is sent**, and the program goes to sleep. -/
theorem leads_first {byte : UInt8} (hbyte : byteAt (pieces text) 0x0200 = byte) :
    Leads (code text) listening (asleep true [byte] 96) :=
  calc
    Leads (code text) listening
        { listening with pc := 0x010B, a := byte, hl := 0x0201, clock := 56 } :=
      leads_loadNext (ready 0x010A 0x2A rfl rfl rfl (by decide) rfl rfl) (by decide)
        (code_eq 0x0200 rfl hbyte) (until_idle _)
    Leads (code text) _
        { listening with
          line := .loaded byte, pc := 0x010D, a := byte, hl := 0x0201, clock := 68 } :=
      leads_store (ready 0x010B 0xE0 rfl rfl rfl (by decide) rfl rfl) (code_eq 0x010C rfl rfl) rfl
        (fun _ h ↦ h.write_data rfl byte) (until_loaded _ _)
    Leads (code text) _
        { listening with
          line := .loaded byte, pc := 0x010F, a := 0x81, hl := 0x0201, clock := 76 } :=
      leads_loadA (ready 0x010D 0x3E rfl rfl rfl (by decide) rfl rfl) (code_eq 0x010E rfl rfl)
        (until_loaded _ _)
    Leads (code text) _
        { listening with
          line := .sending 4096, sent := [byte], pc := 0x0111, a := 0x81, hl := 0x0201
          clock := 88 } :=
      leads_store (ready 0x010F 0xE0 rfl rfl rfl (by decide) rfl rfl) (code_eq 0x0110 rfl rfl) rfl
        (fun _ h ↦ h.write_control rfl begins_control (arrived_round 0 76 (by decide) (by decide)))
        (until_round 0 88 (by decide))
    Leads (code text) _
        { listening with
          line := .sending 4096, sent := [byte], pc := 0x0112, a := 0x81, hl := 0x0201
          clock := 92, waiting := [{ enable := true, due := 93 }] } :=
      leads_ei (ready 0x0111 0xFB rfl rfl rfl (by decide) rfl rfl) rfl
        (until_round 0 92 (by decide))
    Leads (code text) _ (asleep true [byte] 96) :=
      leads_halt (ready 0x0112 0x76 rfl rfl rfl (by decide) rfl rfl) (until_round 0 96 (by decide))

/-! ### The next byte -/

/-- **Asleep until the byte is gone.** -/
theorem leads_notified {z : Bool} {sent : List UInt8} {clock naps : Nat}
    (hnaps : clock + 4 * naps = 4096 * sent.length) :
    Leads (code text) (asleep z sent clock) (notified z sent) :=
  calc
    Leads (code text) (asleep z sent clock) (asleep z sent (clock + 4 * naps)) :=
      leads_wait rfl rfl rfl naps (until_sending (Nat.le_of_eq hnaps))
    Leads (code text) _ (notified z sent) := by
      rw [hnaps]
      exact leads_sleep_sent rfl rfl rfl rfl (Nat.lt_add_of_pos_right (by decide))
        (Nat.add_le_add_left (by decide) _)

/-- The handler begins with the byte at HL, and looks whether that is zero. -/
theorem leads_handler {z : Bool} {sent : List UInt8} {byte : UInt8}
    (hbyte : byteAt (pieces text) (0x0200 + sent.length) = byte)
    (hroom : 0x0200 + sent.length < Location.romSize) {isZero : Bool} (hz : (byte == 0) = isZero) :
    Leads (code text) (notified z sent)
      { handling isZero sent byte with pc := 0x005A, clock := 4096 * sent.length + 36 } := by
  have hsize : 0x0200 + sent.length < UInt16.size := Nat.lt_trans hroom (by decide)
  exact calc
    Leads (code text) (notified z sent) (handling z sent byte) :=
      leads_interrupted rfl rfl rfl rfl rfl rfl (decode_code 0x0058 0x2A rfl rfl rfl)
        hroom (code_eq _ (UInt16.toNat_ofNat_of_lt' hsize) hbyte) (until_idle _)
    Leads (code text) _
        { handling isZero sent byte with pc := 0x005A, clock := 4096 * sent.length + 36 } :=
      leads_testA (ready 0x0059 0xB7 rfl rfl rfl (by decide) rfl rfl) hz (until_idle _)

/-- The handler returns, and the program goes to sleep again. -/
theorem leads_back (c : Scene) (huntil : c.line.Until (c.clock + 32)) :
    Leads (code text) (returning c)
      { returning c with
        saved := none, pc := 0x0113, clock := c.clock + 32, power := .halted, ime := true } := by
  have hbefore (k : Nat) (hk : k ≤ 32) : (returning c).line.Until ((returning c).clock + k) :=
    fun due hdue ↦ Nat.le_trans (Nat.add_le_add_left hk _) (huntil due hdue)
  have htarget : (0x0113 : UInt16) + 1 + 1 + signExtend 0xFD = 0x0112 := by decide
  exact calc
    Leads (code text) (returning c)
        { returning c with saved := none, pc := 0x0113, clock := c.clock + 16, ime := true } :=
      leads_reti (ready 0x0062 0xD9 rfl rfl rfl (by decide) rfl rfl) rfl (hbefore 16 (by decide))
    Leads (code text) _
        { returning c with saved := none, pc := 0x0112, clock := c.clock + 28, ime := true } :=
      leads_jump (e := 0xFD) (ready 0x0113 0x18 rfl rfl rfl (by decide) rfl rfl)
        (code_eq 0x0114 rfl rfl) htarget (hbefore 28 (by decide))
    Leads (code text) _
        { returning c with
          saved := none, pc := 0x0113, clock := c.clock + 32, power := .halted, ime := true } :=
      leads_halt (ready 0x0112 0x76 rfl rfl rfl (by decide) rfl rfl) (hbefore 32 (by decide))

/-- **Another byte is sent**, and the program is asleep as before. -/
theorem leads_next {z : Bool} {sent : List UInt8} {byte : UInt8}
    (hbyte : byteAt (pieces text) (0x0200 + sent.length) = byte) (hne : byte ≠ 0)
    (hroom : 0x0200 + sent.length < Location.romSize) :
    Leads (code text) (notified z sent)
      (asleep false (sent ++ [byte]) (4096 * sent.length + 108)) := by
  have hlength : (sent ++ [byte]).length = sent.length + 1 := List.length_append
  rw [asleep, hlength]
  exact calc
    Leads (code text) (notified z sent)
        { handling false sent byte with pc := 0x005A, clock := 4096 * sent.length + 36 } :=
      leads_handler hbyte hroom (beq_eq_false_iff_ne.mpr hne)
    Leads (code text) _
        { handling false sent byte with pc := 0x005C, clock := 4096 * sent.length + 44 } :=
      leads_passIfNotZero (ready 0x005A 0x28 rfl rfl rfl (by decide) rfl rfl) rfl (until_idle _)
    Leads (code text) _
        { handling false sent byte with
          line := .loaded byte, pc := 0x005E, clock := 4096 * sent.length + 56 } :=
      leads_store (ready 0x005C 0xE0 rfl rfl rfl (by decide) rfl rfl) (code_eq 0x005D rfl rfl) rfl
        (fun _ h ↦ h.write_data rfl byte) (until_loaded _ _)
    Leads (code text) _
        { handling false sent byte with
          line := .loaded byte, pc := 0x0060, a := 0x81, clock := 4096 * sent.length + 64 } :=
      leads_loadA (ready 0x005E 0x3E rfl rfl rfl (by decide) rfl rfl) (code_eq 0x005F rfl rfl)
        (until_loaded _ _)
    Leads (code text) _
        { handling false sent byte with
          line := .sending (4096 * sent.length + 4096), sent := sent ++ [byte], pc := 0x0062
          a := 0x81, clock := 4096 * sent.length + 76 } :=
      leads_store (ready 0x0060 0xE0 rfl rfl rfl (by decide) rfl rfl) (code_eq 0x0061 rfl rfl) rfl
        (fun _ h ↦ h.write_control rfl begins_control
          (arrived_round sent.length 64 (by decide) (by decide)))
        (until_round sent.length 76 (by decide))
    Leads (code text) _
        { handling false sent byte with
          line := .sending (4096 * sent.length + 4096), saved := none, sent := sent ++ [byte]
          pc := 0x0113, a := 0x81, clock := 4096 * sent.length + 108, power := .halted
          ime := true } :=
      leads_back
        { handling false sent byte with
          line := .sending (4096 * sent.length + 4096), sent := sent ++ [byte], a := 0x81
          clock := 4096 * sent.length + 76 }
        (until_round sent.length 108 (by decide))

/-- **At the zero byte nothing is sent**, and the program is asleep for good. -/
theorem leads_finished {z : Bool} {sent : List UInt8}
    (hbyte : byteAt (pieces text) (0x0200 + sent.length) = 0)
    (hroom : 0x0200 + sent.length < Location.romSize) :
    Leads (code text) (notified z sent) (finished sent) := by
  exact calc
    Leads (code text) (notified z sent)
        { handling true sent 0 with pc := 0x005A, clock := 4096 * sent.length + 36 } :=
      leads_handler hbyte hroom rfl
    Leads (code text) _
        { handling true sent 0 with pc := 0x0062, clock := 4096 * sent.length + 48 } :=
      leads_jumpIfZero (e := 0x06) (ready 0x005A 0x28 rfl rfl rfl (by decide) rfl rfl)
        (code_eq 0x005B rfl rfl) rfl rfl (until_idle _)
    Leads (code text) _ (finished sent) :=
      leads_back { handling true sent 0 with clock := 4096 * sent.length + 48 } (until_idle _)

/-! ### The whole text -/

/-- **Every byte is sent in its turn**, and none is gone before its round is over. -/
theorem leads_rest {rest : List UInt8} (hzero : ∀ byte ∈ rest, byte ≠ 0)
    (hlength : text.length ≤ 0x7DFF) {z : Bool} {sent : List UInt8} {clock naps : Nat}
    (htext : text = sent ++ rest) (hnaps : clock + 4 * naps = 4096 * sent.length) :
    ∃ z' clock' naps', clock' + 4 * naps' = 4096 * text.length ∧
      Leads (code text) (asleep z sent clock) (asleep z' text clock') := by
  induction rest generalizing z sent clock naps with
  | nil =>
    obtain rfl : text = sent := htext.trans (List.append_nil sent)
    exact ⟨z, clock, naps, hnaps, .refl _⟩
  | cons byte rest ih =>
    have hlen : text.length = sent.length + (rest.length + 1) := by
      rw [htext, List.length_append, List.length_cons]
    have hroom : 0x0200 + sent.length < Location.romSize := by
      rw [Location.romSize]
      omega
    have htext' : text = (sent ++ [byte]) ++ rest := by
      rw [htext, List.append_assoc]
      rfl
    -- The round began 108 ticks ago.
    have hround : 4096 * sent.length + 108 + 4 * 997 = 4096 * (sent ++ [byte]).length := by
      rw [List.length_append, List.length_singleton]
      omega
    have hbyte := byteAt_of_eq_append htext
    have hnext : Leads (code text) (asleep z sent clock)
        (asleep false (sent ++ [byte]) (4096 * sent.length + 108)) :=
      (leads_notified hnaps).trans (leads_next hbyte (hzero byte List.mem_cons_self) hroom)
    obtain ⟨z', clock', naps', hnaps', hrest⟩ :=
      ih (z := false) (fun b hb ↦ hzero b (List.mem_cons_of_mem _ hb)) htext' hround
    exact ⟨z', clock', naps', hnaps', hnext.trans hrest⟩

/-- The text has been sent before its last round is over. -/
theorem leads_text (hne : text ≠ []) (hzero : ∀ byte ∈ text, byte ≠ 0)
    (hlength : text.length ≤ 0x7DFF) :
    ∃ z clock naps, clock + 4 * naps = 4096 * text.length ∧
      Leads (code text) start (asleep z text clock) := by
  obtain ⟨byte, rest, htext⟩ := List.exists_cons_of_ne_nil hne
  have hnothing : text = [] ++ byte :: rest := htext
  have hfirst : byteAt (pieces text) 0x0200 = byte := byteAt_of_eq_append hnothing
  have hone : text = [byte] ++ rest := htext
  have hround : 96 + 4 * 1000 = 4096 * [byte].length := rfl
  have hrest : ∀ b ∈ rest, b ≠ 0 := fun b hb ↦ hzero b (htext ▸ List.mem_cons_of_mem _ hb)
  obtain ⟨z, clock, naps, hnaps, hsent⟩ := leads_rest (z := true) hrest hlength hone hround
  exact ⟨z, clock, naps, hnaps, (leads_listening.trans (leads_first hfirst)).trans hsent⟩

/-- When it is gone the program is asleep for good. -/
theorem leads_end (hlength : text.length ≤ 0x7DFF) {z : Bool} {clock naps : Nat}
    (hnaps : clock + 4 * naps = 4096 * text.length) :
    Leads (code text) (asleep z text clock) (finished text) := by
  have hroom : 0x0200 + text.length < Location.romSize := by
    rw [Location.romSize]
    omega
  exact (leads_notified hnaps).trans (leads_finished byteAt_terminator hroom)

end

/-- The scene at power-on. -/
theorem shows_start (policy : IllegalOpcodePolicy) :
    start.Shows (code text) ((Machine.powerOn { policy }).loadRom (rom text)) where
  fits :=
    { pc_eq := rfl, a_eq := rfl, z_eq := Cpu.z_initialRegisters, hl_eq := rfl, sp_eq := rfl
      clock_eq := rfl, power_eq := rfl, ime_eq := rfl, waiting_eq := rfl }
  wiring :=
    { rom := ⟨fun _ ha ↦ get_loadRom_rom _ ha, nofun⟩
      still := rfl
      enabled_eq := rfl
      pending_iff := (by decide : .serial ∈ ({.vblank} : InterruptSet) ↔ false = true)
      arrived := ⟨⟨Nat.dvd_zero _, Nat.le_refl _⟩, fun n _ ↦ Nat.zero_le n⟩
      line := rfl
      saved := nofun
      capture := rfl
      output_eq := rfl }

/-- **Every text is printed**, with no byte lost and none sent twice. That takes 4096 ticks for each
byte at most, and nothing is sent afterwards. -/
theorem prints (policy : IllegalOpcodePolicy) (hne : text ≠ []) (hzero : ∀ byte ∈ text, byte ≠ 0)
    (hlength : text.length ≤ 0x7DFF) {ticks : Nat} (hticks : 4096 * text.length ≤ ticks) :
    ∃ passed m,
      ((Machine.powerOn { policy }).loadRom (rom text)).runForTicks ticks = (.ok passed, m) ∧
        m.bus.serial.output.toList = text := by
  have hstart : start.Shows (code text) ((Machine.powerOn { policy }).loadRom (rom text)) :=
    shows_start policy
  generalize (Machine.powerOn { policy }).loadRom (rom text) = m at hstart ⊢
  obtain ⟨z, clock, naps, hnaps, htext⟩ := leads_text hne hzero hlength
  -- After `j` steps all of the text has been sent, and after `k` more nothing is left to do.
  obtain ⟨_, ⟨j, hj, rfl⟩, hsent⟩ := htext m hstart
  obtain ⟨_, ⟨k, hk, rfl⟩, hdone⟩ := leads_end hlength hnaps _ hsent
  have hafter (n : Nat) := hdone.sleeps rfl rfl rfl n (Line.until_idle _)
  have hmakes (n : Nat) : m.Makes (j + (k + n)) :=
    Machine.makes_add.mpr ⟨hj, Machine.makes_add.mpr ⟨hk, (hafter n).1⟩⟩
  have hall (n : Nat) : m.Makes n := (hmakes n).mono (by omega)
  obtain ⟨n, hrun, htarget⟩ := Machine.runForTicks_of_makes hall ticks
  refine ⟨_, _, hrun, ?_⟩
  have hreached : j ≤ n := by
    by_contra hlt
    have hbefore := hj.clock_lt (Nat.lt_of_not_le hlt)
    have hclock : (m.stepped j).cpu.clock = clock := hsent.fits.clock_eq
    have hrange : 4096 * text.length ≤ lastTick :=
      Nat.le_trans (Nat.mul_le_mul_left 4096 hlength) (by decide)
    omega
  have hlast : (m.stepped (j + (k + n))).bus.serial.output.toList = text := by
    rw [Machine.stepped_add, Machine.stepped_add]
    exact (hafter n).2.wiring.output_eq
  exact Machine.output_stepped_of_between hstart.wiring.capture hreached (by omega)
    hsent.wiring.output_eq hlast

/-- The word by which a program reports that it has passed, and a line feed. -/
def report : List UInt8 := [0x50, 0x61, 0x73, 0x73, 0x65, 0x64, 0x0A]

theorem prints_report :
    report ≠ [] ∧ (∀ byte ∈ report, byte ≠ 0) ∧ report.length ≤ 0x7DFF ∧
      4096 * report.length ≤ 28672 ∧
      ∃ passed m,
        ((Machine.powerOn {}).loadRom (rom report)).runForTicks 28672 = (.ok passed, m) ∧
          m.bus.serial.output.toList = report := by
  have hne : report ≠ [] := by decide
  have hzero : ∀ byte ∈ report, byte ≠ 0 := by simp [report]
  have hlength : report.length ≤ 0x7DFF := by decide
  have hticks : 4096 * report.length ≤ 28672 := by decide
  exact ⟨hne, hzero, hlength, hticks, prints .fatal hne hzero hlength hticks⟩

end Printer

end GameBoy
