import GameBoy.Proofs.Cpu.DeferredIme
import GameBoy.Proofs.Cpu.Faults
import GameBoy.Proofs.Cpu.WithControl

/-!
# The prefix 0xFD

0xFD passes decoding on to the byte behind it and owes four ticks for that. What is owed is charged
together with the instruction, after it, so the question is what the instruction behind 0xFD would
have done four ticks later.

Almost always it would have done the same, because instructions do not look at the clock
(`execute_elapse`). EI and DI are the exception: the tick from which on their change may be applied
is counted from the clock. Behind 0xFD it is counted from the prefix and not from EI or DI itself,
which is four ticks too early (`executeOne_prefixed`). A request without a prefix waits for another
instruction to complete; a request behind 0xFD is applied in its own step (`step_prefixed_request`).
-/

namespace GameBoy

/-- EI, with `enable`, or DI. -/
def Instruction.requesting (enable : Bool) : Instruction := if enable then .ei else .di

/-- The opcode of EI, with `enable`, or of DI. -/
def Opcode.requesting (enable : Bool) : UInt8 := if enable then 0xFB else 0xF3

theorem Opcode.decode_requesting (enable : Bool) :
    decode (requesting enable) = .instruction (.requesting enable) := by
  cases enable <;> decide

/-- No other byte means EI or DI. -/
theorem Opcode.eq_requesting_of_decode {opcode : UInt8} {enable : Bool}
    (h : decode opcode = .instruction (.requesting enable)) : opcode = requesting enable := by
  have hall : ∀ opcode : UInt8, ∀ enable : Bool,
      decode opcode = .instruction (.requesting enable) → opcode = requesting enable :=
    byte_all (by decide +kernel)
  exact hall opcode enable h

/-- The control part with the clock moved forward. -/
def Control.elapse (c : Control) (ticks : Nat) : Control := { c with clock := c.clock + ticks }

/-- Only EI and DI look at the clock. -/
theorem Control.execute_elapse (c : Control) (ticks : Nat) {i : Instruction}
    (hi : ∀ enable, i ≠ .requesting enable) :
    (c.elapse ticks).execute i = (c.execute i).elapse ticks := by
  cases i with
  | ei => exact absurd rfl (hi true)
  | di => exact absurd rfl (hi false)
  | _ => rfl

namespace Board

/-! ### Executing later -/

section Later

variable {M : Type} [Port M] (s : Board M) (ticks : Nat)

omit [Port M] in
theorem elapse_elapse (more : Nat) : (s.elapse ticks).elapse more = s.elapse (ticks + more) := by
  simp only [elapse, Nat.add_assoc]

omit [Port M] in
theorem elapse_eq_withControl : s.elapse ticks = s.withControl (s.cpu.control.elapse ticks) := rfl

/-- An instruction that requests no change of the master enable does the same at a later time. -/
theorem execute_elapse {i : Instruction} (hi : ∀ enable, i ≠ .requesting enable) :
    (s.elapse ticks).execute i = ((s.execute i).1, (s.execute i).2.elapse ticks) := by
  rw [elapse_eq_withControl, execute_withControl, Control.execute_elapse _ _ hi, ← control_execute]
  rfl

theorem executeBit_elapse (i : BitInstruction) :
    (s.elapse ticks).executeBit i = ((s.executeBit i).1, (s.executeBit i).2.elapse ticks) := by
  rw [elapse_eq_withControl, executeBit_withControl, ← control_executeBit s i]
  rfl

/-- What EI and DI do. -/
theorem execute_requesting (enable : Bool) :
    s.execute (.requesting enable) = (4, { s with cpu := s.cpu.requestIme enable }) := by
  cases enable <;> rfl

omit [Port M] in
/-- What is owed may be charged at the end. -/
theorem charge_elapse {t cost : Nat} {s' : Board M}
    (h : (s.elapse ticks).charge cost = (.ok t, s')) :
    s.charge (cost + ticks) = (.ok (t + ticks), s') := by
  obtain ⟨ht, rfl⟩ := Prod.mk.inj h
  obtain rfl := Except.ok.inj ht
  rw [elapse_elapse, Nat.add_comm ticks]
  rfl

/-- **An opcode that requests no change of the master enable** may be executed at once, with ticks
owed, or after these ticks. -/
theorem executeOpcode_owing {owed t : Nat} {opcode : UInt8} {pc : UInt16} {s' : Board M}
    (hopcode : ∀ enable, opcode ≠ Opcode.requesting enable)
    (h : (s.elapse ticks).executeOpcode owed opcode pc = (.ok t, s')) :
    s.executeOpcode (owed + ticks) opcode pc = (.ok (t + ticks), s') := by
  have hswap (cost : Nat) : owed + ticks + cost = owed + cost + ticks := by omega
  cases hdecoded : Opcode.decode opcode with
  | instruction i =>
    have hi (enable : Bool) : i ≠ .requesting enable := by
      rintro rfl
      exact hopcode enable (Opcode.eq_requesting_of_decode hdecoded)
    rw [executeOpcode_instruction _ hdecoded, execute_elapse s ticks hi] at h
    rw [executeOpcode_instruction s hdecoded, hswap]
    exact charge_elapse _ ticks h
  | extended =>
    have hfetch : (s.elapse ticks).fetch = (s.fetch.1, s.fetch.2.elapse ticks) := rfl
    rw [executeOpcode_extended _ hdecoded, hfetch, executeBit_elapse] at h
    rw [executeOpcode_extended s hdecoded, hswap]
    exact charge_elapse _ ticks h
  | again | hole =>
    have hpolicy : (s.elapse ticks).cpu.policy = s.cpu.policy := rfl
    rw [executeOpcode_hole _ (by simp [hdecoded]), meetHole, hpolicy] at h
    rw [executeOpcode_hole s (by simp [hdecoded]), meetHole]
    cases hcase : s.cpu.policy with
    | fatal => simp [hcase] at h
    | ignore =>
      simp only [hcase] at h ⊢
      rw [hswap]
      exact charge_elapse _ ticks h

/-- EI and DI put their request into the queue, whatever is owed. -/
theorem executeOpcode_requesting (enable : Bool) (owed : Nat) (pc : UInt16) :
    s.executeOpcode owed (Opcode.requesting enable) pc =
      ({ s with cpu := s.cpu.requestIme enable } : Board M).charge (owed + 4) := by
  rw [executeOpcode_instruction s (Opcode.decode_requesting enable), execute_requesting]

end Later

/-! ### Behind the prefix -/

variable {M : Type} [Port M] [Port.Passive M] (s : Board M)

/-- The board as the byte behind the prefix would find it on its own: one byte and four ticks
later. -/
def behindPrefix : Board M := (s.setPC (s.cpu.regs.pc + 1)).elapse 4

/-- The board with another queue of requests. -/
def setImeQueue (q : ImeQueue) : Board M := { s with cpu := { s.cpu with imeQueue := q } }

/-- **0xFD passes decoding on to the next byte and costs four ticks.** Let another byte than 0xFD
stand behind it. Then execution fails exactly if it fails at that byte on its own, and with the same
fault. If it succeeds, it takes four ticks more, and leaves the board that the byte on its own
leaves, one byte and four ticks later; but if the byte is EI or DI, the tick for which the change of
the master enable waits is counted from the prefix, and so is earlier by four. -/
theorem executeOne_prefixed (hprefixed : s.peek s.cpu.regs.pc = 0xFD)
    (hnext : s.peek (s.cpu.regs.pc + 1) ≠ 0xFD) :
    (∀ e, s.executeOne.1 = .error e ↔ s.behindPrefix.executeOne.1 = .error e) ∧
    ∀ t s', s.behindPrefix.executeOne = (.ok t, s') →
      (s.peek (s.cpu.regs.pc + 1) ∉ [0xF3, 0xFB] → s.executeOne = (.ok (t + 4), s')) ∧
      ∀ enable, s.peek (s.cpu.regs.pc + 1) = (if enable then 0xFB else 0xF3) →
        s'.cpu.imeQueue = s.cpu.imeQueue.push { enable, due := s.cpu.clock + 9 } ∧
        s.executeOne = (.ok (t + 4),
          s'.setImeQueue (s.cpu.imeQueue.push { enable, due := s.cpu.clock + 5 })) := by
  -- Both come to the same opcode with the program counter at the same place.
  have hone : s.executeOne =
      (s.setPC (s.cpu.regs.pc + 1 + 1)).executeOpcode 4
        (s.peek (s.cpu.regs.pc + 1)) (s.cpu.regs.pc + 1) := by
    rw [executeOne_eq, fetchOpcode_of_prefixed s hprefixed]
    rfl
  have hplain : s.behindPrefix.executeOne =
      ((s.setPC (s.cpu.regs.pc + 1 + 1)).elapse 4).executeOpcode 0
        (s.peek (s.cpu.regs.pc + 1)) (s.cpu.regs.pc + 1) := by
    rw [executeOne_eq, fetchOpcode_of_plain s.behindPrefix hnext]
    rfl
  rw [hone, hplain]
  generalize s.peek (s.cpu.regs.pc + 1) = opcode at hnext
  refine ⟨fun e ↦ ?_, fun t s' h ↦ ⟨fun hopcode ↦ ?_, fun enable hopcode ↦ ?_⟩⟩
  · rw [executeOpcode_fails_iff, executeOpcode_fails_iff]
    rfl
  · refine executeOpcode_owing _ 4 (fun enable heq ↦ hopcode ?_) h
    rw [heq]
    cases enable <;> decide
  · have hopcode : opcode = Opcode.requesting enable := hopcode
    rw [hopcode, executeOpcode_requesting] at h ⊢
    obtain ⟨ht, rfl⟩ := Prod.mk.inj h
    obtain rfl := Except.ok.inj ht
    exact ⟨rfl, rfl⟩

/-- A program that begins with 0xFD and EI. -/
def prefixedEi : Board Memory :=
  ⟨.powerOn .fatal, (Memory.fill 0).overwrite resetVector [0xFD, 0xFB]⟩

/-- EI on its own, four ticks later, waits for the clock to pass 9, and EI behind 0xFD waits for it
to pass 5. -/
theorem executeOne_prefixed_of_ei :
    prefixedEi.behindPrefix.executeOne.2.cpu.imeQueue.toList = [{ enable := true, due := 9 }] ∧
      prefixedEi.executeOne.2.cpu.imeQueue.toList = [{ enable := true, due := 5 }] := by
  obtain ⟨-, hsame⟩ := executeOne_prefixed prefixedEi (by decide) (by decide)
  have hplain : prefixedEi.behindPrefix.executeOne =
      (.ok 4, prefixedEi.behindPrefix.executeOne.2) := rfl
  obtain ⟨hlater, hearlier⟩ := (hsame _ _ hplain).2 true (by decide)
  rw [hlater, hearlier]
  decide

/-- So 0xFD is more than four ticks that pass before the next byte. -/
theorem prefix_counts_for_ei :
    prefixedEi.peek prefixedEi.cpu.regs.pc = 0xFD ∧
      prefixedEi.peek (prefixedEi.cpu.regs.pc + 1) ≠ 0xFD ∧
      ∃ t s', prefixedEi.behindPrefix.executeOne = (.ok t, s') ∧
        prefixedEi.executeOne ≠ (.ok (t + 4), s') := by
  refine ⟨by decide, by decide, 4, prefixedEi.behindPrefix.executeOne.2, rfl, fun h ↦ ?_⟩
  have hqueue : prefixedEi.executeOne.2.cpu.imeQueue =
      prefixedEi.behindPrefix.executeOne.2.cpu.imeQueue := congrArg (fun r ↦ r.2.cpu.imeQueue) h
  exact absurd hqueue (by decide)

/-- **A request behind 0xFD is applied in its own step**, if nothing was waiting before it and no
handler is called. -/
theorem step_prefixed_request {enable : Bool} (hpower : s.cpu.power = .running)
    (hquiet : s.cpu.ime = true → s.calling.highest? = none)
    (hwaiting : s.cpu.imeQueue.toList = []) (hprefixed : s.peek s.cpu.regs.pc = 0xFD)
    (hrequest : s.peek (s.cpu.regs.pc + 1) = Opcode.requesting enable) :
    ∃ s', s.step = (.ok 8, s') ∧ s'.cpu.ime = enable ∧ s'.cpu.imeQueue.toList = [] := by
  have hserved := serviceInterrupts_of_running s hpower hquiet
  have hfetched := fetchOpcode_of_prefixed s hprefixed
  rcases hstep : s.step with ⟨e | t, s'⟩
  · obtain ⟨-, hfailed⟩ := step_error_iff.mp hstep
    rw [hserved, executeOne_eq, hfetched, hrequest, executeOpcode_requesting] at hfailed
    simp [charge] at hfailed
  · obtain ⟨d, hd, ht, hcontrol⟩ := step_ok hstep
    obtain ⟨f, hnext, hasks, hpassed⟩ :
        ∃ f, s.upcoming = some f ∧ f.request? = some enable ∧ f.prefixed = true := by
      rw [upcoming, hserved, next?, if_pos hpower, hfetched, hrequest]
      exact ⟨_, rfl, Fetched.request?_eq_some_iff.mpr (Opcode.decode_requesting enable), rfl⟩
    rw [hserved, hnext] at hcontrol
    rw [hnext] at hd
    have hprompt : s.cpu.control.Prompt := .of_nil hwaiting
    obtain ⟨hime, hqueue⟩ :=
      Control.pass_of_prefixed_request hprompt hd hwaiting hasks hpassed
    have hclock : s'.cpu.clock = s.cpu.clock + d :=
      (congrArg Control.clock hcontrol).trans (Control.clock_pass ..)
    -- Four ticks for the prefix and four for the request.
    obtain ⟨cost, -, hsum, hcost⟩ := hd
    have hfour : cost = 4 := hcost (by simp [hasks])
    have howed : f.owed = 4 := by simp [Fetched.owed, hpassed]
    obtain rfl : t = 8 := by omega
    refine ⟨s', rfl, ?_, ?_⟩
    · exact (congrArg Control.ime hcontrol).trans hime
    · exact (congrArg (fun c ↦ c.imeQueue.toList) hcontrol).trans hqueue

end Board

end GameBoy
