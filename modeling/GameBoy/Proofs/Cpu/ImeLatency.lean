import GameBoy.Proofs.Cpu.DeferredIme

/-!
# When a change of the master enable takes effect

Two consequences of the promptness of requests (`Control.Prompt`), about runs in which the port may
change in any way between two steps.

* EI and DI take effect **exactly one step later** (`ime_latency`): not in their own step, and in
  the next one whatever it does.
* The master enable at the end of a step is decided by the request that was waiting when the step
  began, if one was. So a request **outlives what happens in the step that settles it**. A dispatch
  in that step has disabled interrupts, and RETI has enabled them, before the request is applied:
  after EI the first instruction of a handler leaves interrupts enabled, and after DI a RETI leaves
  them disabled. `ime_after_dispatch_or_reti` says that this happens in no other case.
-/

namespace GameBoy

/-- The changes of the master enable that are waiting, the oldest one first. -/
def Cpu.waitingIme (cpu : Cpu) : List Bool := cpu.imeQueue.toList.map (·.enable)

namespace Control

variable {c : Control} {next : Option Fetched} {d : Nat}

/-- An unprefixed request is left waiting by the step that makes it, whatever was waiting before. -/
theorem toList_pass_of_request (hc : c.Prompt) {f : Fetched} (hd : Board.IsOpcodeCost f d)
    {enable : Bool} (hf : f.request? = some enable) (hprefixed : f.prefixed = false) :
    (c.pass (some f) d).imeQueue.toList = [{ enable, due := c.clock + Cpu.imeDelay }] := by
  rcases hc.waiting with hwaiting | ⟨oldest, hwaiting⟩
  · rw [pass_of_request hc hd hwaiting hf hprefixed]
    exact toList_executeNext_of_request hc hwaiting hf
  · have hnext : (some f).bind Fetched.request? = some enable := hf
    have hd : Board.IsDuration (some f) d := hd
    rw [(pass_of_waiting hc hd hwaiting).2, requests_of_some hnext]

theorem ime_execute_of_ne_reti {i : Instruction} (hi : i ≠ .reti) : (c.execute i).ime = c.ime := by
  cases i <;> first | rfl | contradiction

theorem ime_executeNext_of_ne_reti
    (hnext : ∀ f, next = some f → f.decoded ≠ .instruction .reti) :
    (c.executeNext next).ime = c.ime := by
  cases next with
  | none => rfl
  | some f =>
    simp only [executeNext, executeOpcode]
    split
    · next i hdecoded =>
      refine ime_execute_of_ne_reti fun hi ↦ hnext f rfl ?_
      rw [hdecoded, hi]
    · rfl

/-- With interrupts disabled and nothing waiting, only RETI and EI can enable them. -/
theorem ime_pass_of_disabled (hc : c.Prompt) {f : Fetched} (hd : Board.IsOpcodeCost f d)
    (hime : c.ime = false) (hwaiting : c.imeQueue.toList = [])
    (hreti : f.decoded ≠ .instruction .reti) (hei : f.decoded ≠ .instruction .ei) :
    (c.pass (some f) d).ime = false := by
  have hexecuted : (c.executeNext (some f)).ime = false := by
    rw [ime_executeNext_of_ne_reti (by rintro _ ⟨⟩; exact hreti), hime]
  cases hf : f.request? with
  | none =>
    have hnext : (some f).bind Fetched.request? = none := hf
    rw [pass_of_quiet hwaiting hnext]
    exact hexecuted
  | some enable =>
    cases enable with
    | true => exact absurd (Fetched.request?_eq_some_iff.mp hf) hei
    | false =>
      cases hprefixed : f.prefixed with
      | true => exact (pass_of_prefixed_request hc hd hwaiting hf hprefixed).1
      | false =>
        rw [pass_of_request hc hd hwaiting hf hprefixed]
        exact hexecuted

/-- With nothing waiting, RETI leaves interrupts enabled. -/
theorem ime_pass_of_reti {f : Fetched} (hwaiting : c.imeQueue.toList = [])
    (hf : f.decoded = .instruction .reti) : (c.pass (some f) d).ime = true := by
  have hnext : (some f).bind Fetched.request? = none := by simp [Fetched.request?, hf]
  rw [pass_of_quiet hwaiting hnext]
  simp only [executeNext, executeOpcode, hf]
  rfl

end Control

namespace Board

variable {M : Type} [Port M] {s s' : Board M} {t : Nat}

theorem toList_serviceInterrupts (s : Board M) :
    s.serviceInterrupts.2.cpu.control.imeQueue.toList = s.cpu.imeQueue.toList :=
  congrArg ImeQueue.toList s.serviceInterrupts_attends.imeQueue_eq

/-- A dispatch wakes the CPU, so that it comes to an opcode, and disables interrupts. -/
theorem of_dispatched {source : Interrupt} (h : s.serviceInterrupts.1 = .dispatched source) :
    (∃ f, s.upcoming = some f) ∧ s.serviceInterrupts.2.cpu.control.ime = false := by
  have hattends := s.serviceInterrupts_attends
  rw [h] at hattends
  cases hafter : s.serviceInterrupts.2.cpu.control with
  | mk clock power ime imeQueue policy =>
    rw [hafter] at hattends
    cases hattends
    have hawake : s.serviceInterrupts.2.cpu.power = .running := congrArg Control.power hafter
    exact ⟨Option.isSome_iff_exists.mp (s.upcoming_isSome_iff.mpr hawake), rfl⟩

/-- A request that is waiting when a step begins decides the master enable at its end. -/
theorem step_of_waiting (hs : s.cpu.Reached) (h : s.step = (.ok t, s')) {oldest : ImeChange}
    (hwaiting : s.cpu.imeQueue.toList = [oldest]) :
    s'.cpu.ime = oldest.enable ∧
      s'.cpu.imeQueue.toList = s.serviceInterrupts.2.cpu.control.requests s.upcoming := by
  obtain ⟨d, hd, -, hcontrol⟩ := step_ok h
  have hserved := prompt_serviceInterrupts hs.prompt
  have hpass := Control.pass_of_waiting hserved hd ((toList_serviceInterrupts s).trans hwaiting)
  rw [← hcontrol] at hpass
  exact hpass

/-- **EI and DI take effect exactly one step later.** Let a step succeed and execute EI or DI
without the prefix 0xFD before it. Then the request is waiting when the step ends; and if the next
step succeeds, whatever is attached then and whatever the step does, interrupts are enabled or
disabled at its end as was requested, and requests are waiting again exactly if that step has made
one. -/
theorem ime_latency {f : Fetched} {enable : Bool} (hs : s.cpu.Reached) (h : s.step = (.ok t, s'))
    (hf : s.upcoming = some f)
    (hdecoded : f.decoded = .instruction (if enable then .ei else .di))
    (hprefixed : f.prefixed = false) :
    s'.cpu.imeQueue.length = 1 ∧ s'.cpu.waitingIme = [enable] ∧
      ∀ {N : Type} [Port N] (bus : N) (t' : Nat) (r : Board N),
        (Board.mk s'.cpu bus).step = (.ok t', r) →
          r.cpu.ime = enable ∧
            (0 < r.cpu.imeQueue.length ↔ ∃ g, (Board.mk s'.cpu bus).upcoming = some g ∧
              (g.decoded = .instruction .ei ∨ g.decoded = .instruction .di)) := by
  have hs' : s'.cpu.Reached := by
    have hreached := Cpu.Reached.step s hs
    rwa [h] at hreached
  obtain ⟨d, hd, -, hcontrol⟩ := step_ok h
  rw [hf] at hd hcontrol
  have hwaiting : s'.cpu.imeQueue.toList =
      [{ enable, due := s.serviceInterrupts.2.cpu.control.clock + Cpu.imeDelay }] := by
    refine (congrArg (fun c ↦ c.imeQueue.toList) hcontrol).trans ?_
    exact Control.toList_pass_of_request (prompt_serviceInterrupts hs.prompt) hd
      (Fetched.request?_eq_some_iff.mpr hdecoded) hprefixed
  refine ⟨?_, ?_, fun bus t' r hr ↦ ?_⟩
  · rw [← ImeQueue.length_toList, hwaiting, List.length_singleton]
  · rw [Cpu.waitingIme, hwaiting, List.map_singleton]
  · obtain ⟨hime, hlist⟩ := step_of_waiting (s := ⟨s'.cpu, bus⟩) hs' hr hwaiting
    refine ⟨hime, ?_⟩
    rw [← ImeQueue.length_toList, hlist, Control.length_requests_pos_iff]

/-- A program that begins with DI and RETI. -/
def diThenReti : Board Memory :=
  ⟨.powerOn .fatal, (Memory.fill 0).overwrite resetVector [0xF3, 0xD9]⟩

theorem ime_latency_of_diThenReti :
    diThenReti.step.2.cpu.waitingIme = [false] ∧
      diThenReti.step.2.step.1 = .ok 16 ∧ diThenReti.step.2.step.2.cpu.ime = false := by
  have h : diThenReti.step = (.ok 4, diThenReti.step.2) := rfl
  have hnext : diThenReti.step.2.step = (.ok 16, diThenReti.step.2.step.2) := rfl
  have hf : diThenReti.upcoming = some { opcode := 0xF3, pc := 0x0100, prefixed := false } := by
    decide
  have hdecoded : Opcode.decode 0xF3 = .instruction (if false then .ei else .di) := rfl
  obtain ⟨-, hwaiting, hlater⟩ := ime_latency (.powerOn .fatal) h hf hdecoded rfl
  exact ⟨hwaiting, rfl, (hlater diThenReti.step.2.bus 16 _ hnext).1⟩

/-- **A waiting request outlives a dispatch and RETI, and nothing else does.** If a step dispatches
an interrupt and then executes neither RETI nor EI, interrupts are disabled at its end, unless EI
was waiting when it began. If a step executes RETI, interrupts are enabled at its end, unless DI was
waiting when it began. -/
theorem ime_after_dispatch_or_reti (hs : s.cpu.Reached) (h : s.step = (.ok t, s')) :
    (∀ source, s.serviceInterrupts.1 = .dispatched source → ∃ f, s.upcoming = some f ∧
      (f.decoded ≠ .instruction .reti → f.decoded ≠ .instruction .ei →
        (s'.cpu.ime = true ↔ s.cpu.waitingIme = [true]))) ∧
    (∀ f, s.upcoming = some f → f.decoded = .instruction .reti →
      (s'.cpu.ime = false ↔ s.cpu.waitingIme = [false])) := by
  obtain ⟨d, hd, -, hcontrol⟩ := step_ok h
  have hserved := prompt_serviceInterrupts hs.prompt
  have hime : s'.cpu.ime = (s.serviceInterrupts.2.cpu.control.pass s.upcoming d).ime :=
    congrArg Control.ime hcontrol
  -- If a request was waiting, it decides; otherwise the stages of the step do.
  rcases hs.prompt.waiting with hwaiting | ⟨oldest, hwaiting⟩
  · have hnone : s.cpu.waitingIme = [] := congrArg (List.map _) hwaiting
    have hwaiting := (toList_serviceInterrupts s).trans hwaiting
    refine ⟨fun source hsource ↦ ?_, fun f hf hreti ↦ ?_⟩
    · obtain ⟨⟨f, hf⟩, hdisabled⟩ := of_dispatched hsource
      refine ⟨f, hf, fun hreti hei ↦ ?_⟩
      rw [hf] at hd hime
      simp [hime, hnone, Control.ime_pass_of_disabled hserved hd hdisabled hwaiting hreti hei]
    · rw [hf] at hime
      simp [hime, hnone, Control.ime_pass_of_reti hwaiting hreti]
  · have hone : s.cpu.waitingIme = [oldest.enable] := congrArg (List.map _) hwaiting
    have hdecides := (step_of_waiting hs h hwaiting).1
    refine ⟨fun source hsource ↦ ?_, fun f hf hreti ↦ ?_⟩
    · obtain ⟨⟨f, hf⟩, -⟩ := of_dispatched hsource
      exact ⟨f, hf, fun _ _ ↦ by simp [hdecides, hone]⟩
    · simp [hdecides, hone]

/-- EI has been executed at the beginning of a program, and a request for the vertical blank arrives
before the next step. -/
def requestAfterEi : Board Memory where
  cpu := (step ⟨.powerOn .fatal, (Memory.fill 0).set resetVector 0xFB⟩).2.cpu
  bus := ((Memory.fill 0).set requestAddress 1).set enableAddress 1

theorem reached_requestAfterEi : requestAfterEi.cpu.Reached := .step _ (.powerOn .fatal)

theorem reached_diThenReti : diThenReti.step.2.cpu.Reached := .step _ (.powerOn .fatal)

/-- A handler can begin with interrupts enabled, and RETI can leave them disabled. -/
theorem waiting_request_overrides :
    (requestAfterEi.cpu.Reached ∧ requestAfterEi.serviceInterrupts.1 = .dispatched .vblank ∧
      (∃ f, requestAfterEi.upcoming = some f ∧ f.decoded = .instruction .nop) ∧
      ∃ s', requestAfterEi.step = (.ok 24, s') ∧ s'.cpu.ime = true) ∧
    (diThenReti.step.2.cpu.Reached ∧
      (∃ f, diThenReti.step.2.upcoming = some f ∧ f.decoded = .instruction .reti) ∧
      ∃ s', diThenReti.step.2.step = (.ok 16, s') ∧ s'.cpu.ime = false) := by
  refine ⟨⟨reached_requestAfterEi, by decide, ?_, _, rfl, by decide⟩,
    ⟨reached_diThenReti, ?_, _, rfl, by decide⟩⟩
  · exact ⟨{ opcode := 0x00, pc := 0x0040, prefixed := false }, by decide, by decide⟩
  · exact ⟨{ opcode := 0xD9, pc := 0x0101, prefixed := false }, by decide, by decide⟩

theorem ime_after_dispatch_or_reti_of_requestAfterEi :
    requestAfterEi.cpu.waitingIme = [true] ∧ requestAfterEi.step.2.cpu.ime = true := by
  have h : requestAfterEi.step = (.ok 24, requestAfterEi.step.2) := rfl
  have hf : requestAfterEi.upcoming = some { opcode := 0x00, pc := 0x0040, prefixed := false } := by
    decide
  have hwaiting : requestAfterEi.cpu.waitingIme = [true] := by decide
  obtain ⟨f, hf', hlaw⟩ :=
    (ime_after_dispatch_or_reti reached_requestAfterEi h).1 .vblank (by decide)
  obtain rfl := Option.some.inj (hf.symm.trans hf')
  exact ⟨hwaiting, (hlaw (by decide) (by decide)).mpr hwaiting⟩

end Board

end GameBoy
