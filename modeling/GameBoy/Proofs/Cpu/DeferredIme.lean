import GameBoy.Proofs.Cpu.ImeQueue
import GameBoy.Proofs.Cpu.Stages

/-!
# Deferred changes of the master enable

EI and DI put a request into a ring of four slots, and every step takes at most one request out
again. Nothing in the definitions keeps the ring from filling up, and a full ring drops a request.
That it never comes to this rests on an invariant, `Control.Prompt`: between two steps at most one
request is waiting, it is due at the next tick at the latest, and a CPU that sleeps waits for none.

The arithmetic behind it is short. A request is due five ticks after the start of the instruction
that made it, and EI and DI take four. So it stays behind when its own step ends, one tick short of
its time; and the next step takes at least four ticks, whatever it does, and applies it. The prefix
0xFD is the exception: its four ticks are charged together with those of the instruction, and then
the request is applied by the step that made it.

`Cpu.Reached` is the set of CPUs for which the invariant is shown. Each step may be made on a port
of its own, so memory and the two interrupt registers may change in any way from one step to the
next, and steps may fail.
-/

namespace GameBoy

/-! ### Requests and their application -/

namespace Control

variable {c : Control} {next : Option Fetched} {d : Nat}

/-- The changes of the master enable that the opcode of a step requests: one or none. -/
def requests (c : Control) (next : Option Fetched) : List ImeChange :=
  (next.bind Fetched.request?).toList.map fun enable ↦ { enable, due := c.clock + Cpu.imeDelay }

theorem requests_of_none (h : next.bind Fetched.request? = none) : c.requests next = [] := by
  simp [requests, h]

/-- EI and DI request one change, which is due so many ticks later. -/
theorem requests_of_some {enable : Bool} (h : next.bind Fetched.request? = some enable) :
    c.requests next = [{ enable, due := c.clock + Cpu.imeDelay }] := by
  simp [requests, h]

theorem length_requests_le (c : Control) (next : Option Fetched) :
    (c.requests next).length ≤ 1 := by
  cases h : next.bind Fetched.request? with
  | none => simp [requests_of_none h]
  | some enable => simp [requests_of_some h]

/-- The opcodes that request a change are EI and DI. -/
theorem length_requests_pos_iff :
    0 < (c.requests next).length ↔
      ∃ f, next = some f ∧ (f.decoded = .instruction .ei ∨ f.decoded = .instruction .di) := by
  have hasks (f : Fetched) : f.decoded = .instruction .ei ∨ f.decoded = .instruction .di ↔
      f.request?.isSome := by
    simp [Option.isSome_iff_exists, Bool.exists_bool, Fetched.request?_eq_some_iff, or_comm]
  cases next with
  | none => simp [requests]
  | some f => cases hf : f.request? <;> simp [requests, hasks, hf]

theorem due_of_mem_requests {change : ImeChange} (h : change ∈ c.requests next) :
    change.due = c.clock + Cpu.imeDelay := by
  obtain ⟨enable, -, rfl⟩ := List.mem_map.mp h
  rfl

/-- EI and DI put their request into the queue and do nothing else. -/
theorem executeNext_of_some {enable : Bool} (h : next.bind Fetched.request? = some enable) :
    c.executeNext next = c.request enable := by
  obtain ⟨f, rfl, hf⟩ := Option.bind_eq_some_iff.mp h
  have hdecoded := Fetched.request?_eq_some_iff.mp hf
  simp only [executeNext, executeOpcode, hdecoded]
  cases enable <;> rfl

theorem imeQueue_execute_of_ne {i : Instruction} (hei : i ≠ .ei) (hdi : i ≠ .di) :
    (c.execute i).imeQueue = c.imeQueue := by
  cases i <;> first | rfl | contradiction

/-- Every other opcode leaves the queue alone. -/
theorem imeQueue_executeNext_of_none (h : next.bind Fetched.request? = none) :
    (c.executeNext next).imeQueue = c.imeQueue := by
  cases next with
  | none => rfl
  | some f =>
    have hf : ∀ enable : Bool, f.decoded ≠ .instruction (if enable then .ei else .di) := by
      intro enable hdecoded
      have hrequest := Fetched.request?_eq_some_iff.mpr hdecoded
      simp [hrequest] at h
    simp only [executeNext, executeOpcode]
    split
    · next i hdecoded =>
      refine imeQueue_execute_of_ne (fun hi ↦ hf true ?_) (fun hi ↦ hf false ?_)
      · rw [hdecoded, hi, if_pos rfl]
      · rw [hdecoded, hi]
        rfl
    · rfl

/-- **Nothing is dropped while a slot is free**: a request is appended to those that wait. -/
theorem toList_executeNext (next : Option Fetched) (h : c.imeQueue.length < ImeQueue.capacity) :
    (c.executeNext next).imeQueue.toList = c.imeQueue.toList ++ c.requests next := by
  cases hnext : next.bind Fetched.request? with
  | none => rw [imeQueue_executeNext_of_none hnext, requests_of_none hnext, List.append_nil]
  | some enable =>
    rw [executeNext_of_some hnext, requests_of_some hnext]
    exact ImeQueue.toList_push _ _ h

/-! ### Applying what is due -/

section ApplyDue

variable {oldest : ImeChange} {rest : List ImeChange}

theorem power_applyDue (c : Control) : c.applyDue.power = c.power := by
  unfold applyDue
  split <;> rfl

theorem pass_of_nil (h : (c.executeNext next).imeQueue.toList = []) :
    c.pass next d = { c.executeNext next with clock := c.clock + d } := by
  simp only [pass, applyDue, ImeQueue.popDue_of_nil h]

theorem pass_of_le (h : (c.executeNext next).imeQueue.toList = oldest :: rest)
    (hdue : c.clock + d ≤ oldest.due) :
    c.pass next d = { c.executeNext next with clock := c.clock + d } := by
  simp only [pass, applyDue, ImeQueue.popDue_of_le h hdue]

theorem pass_of_lt (h : (c.executeNext next).imeQueue.toList = oldest :: rest)
    (hdue : oldest.due < c.clock + d) :
    (c.pass next d).ime = oldest.enable ∧ (c.pass next d).imeQueue.toList = rest := by
  simp only [pass, applyDue, ImeQueue.popDue_of_lt h hdue]
  exact ⟨trivial, by rw [ImeQueue.toList_drop, h, List.tail_cons]⟩

end ApplyDue

/-! ### The invariant -/

/-- **A request is applied promptly**: what holds of the queue between two steps. -/
structure Prompt (c : Control) : Prop where
  /-- At most one request is waiting. -/
  length_le : c.imeQueue.length ≤ 1
  /-- It is due at the next tick at the latest. -/
  due_le : ∀ change ∈ c.imeQueue.toList, change.due ≤ c.clock + 1
  /-- A CPU that sleeps waits for no request. -/
  empty_of_asleep : c.power ≠ .running → c.imeQueue.toList = []

/-- Between two steps there is one request at most. -/
theorem Prompt.waiting (h : c.Prompt) :
    c.imeQueue.toList = [] ∨ ∃ oldest : ImeChange, c.imeQueue.toList = [oldest] := by
  rcases Nat.le_one_iff_eq_zero_or_eq_one.mp h.length_le with hlen | hlen
  · exact .inl (ImeQueue.toList_eq_nil_iff.mpr hlen)
  · exact .inr (List.length_eq_one_iff.mp (c.imeQueue.length_toList.trans hlen))

theorem Prompt.length_lt_capacity (h : c.Prompt) : c.imeQueue.length < ImeQueue.capacity :=
  Nat.lt_of_le_of_lt h.length_le (by decide)

/-- Where there is no request there is none too late. -/
theorem Prompt.of_nil (h : c.imeQueue.toList = []) : c.Prompt where
  length_le := by simp [ImeQueue.toList_eq_nil_iff.mp h]
  due_le := by simp [h]
  empty_of_asleep _ := h

section Pass

variable (hc : c.Prompt)
include hc

/-- A request that was waiting when the step began is applied, whatever the step does, and what the
step itself requests is left waiting. -/
theorem pass_of_waiting (hd : Board.IsDuration next d) {oldest : ImeChange}
    (hwaiting : c.imeQueue.toList = [oldest]) :
    (c.pass next d).ime = oldest.enable ∧ (c.pass next d).imeQueue.toList = c.requests next := by
  have hlist := toList_executeNext next hc.length_lt_capacity
  rw [hwaiting, List.singleton_append] at hlist
  have hlate := hc.due_le oldest (by simp [hwaiting])
  have hlong := (Board.isDuration_bounds hd).2.1
  exact pass_of_lt hlist (by omega)

omit hc in
/-- With nothing waiting and nothing requested, the instruction has the last word. -/
theorem pass_of_quiet (hwaiting : c.imeQueue.toList = [])
    (hnext : next.bind Fetched.request? = none) :
    c.pass next d = { c.executeNext next with clock := c.clock + d } := by
  refine pass_of_nil ?_
  rw [imeQueue_executeNext_of_none hnext, hwaiting]

/-- The request of an opcode that finds the queue empty is alone in it. -/
theorem toList_executeNext_of_request {f : Fetched} (hwaiting : c.imeQueue.toList = [])
    {enable : Bool} (hf : f.request? = some enable) :
    (c.executeNext (some f)).imeQueue.toList =
      [{ enable, due := c.clock + Cpu.imeDelay }] := by
  have hnext : (some f).bind Fetched.request? = some enable := hf
  rw [toList_executeNext _ hc.length_lt_capacity, hwaiting, List.nil_append, requests_of_some hnext]

/-- With nothing waiting, a request is left waiting by the step that makes it. -/
theorem pass_of_request {f : Fetched} (hd : Board.IsOpcodeCost f d)
    (hwaiting : c.imeQueue.toList = []) {enable : Bool} (hf : f.request? = some enable)
    (hprefixed : f.prefixed = false) :
    c.pass (some f) d = { c.executeNext (some f) with clock := c.clock + d } := by
  obtain ⟨cost, -, rfl, hcost⟩ := hd
  obtain rfl : cost = 4 := hcost (by simp [hf])
  refine pass_of_le (toList_executeNext_of_request hc hwaiting hf) ?_
  simp [Fetched.owed, hprefixed, Cpu.imeDelay]

/-- With nothing waiting, a request behind 0xFD is applied by the step that makes it. -/
theorem pass_of_prefixed_request {f : Fetched} (hd : Board.IsOpcodeCost f d)
    (hwaiting : c.imeQueue.toList = []) {enable : Bool} (hf : f.request? = some enable)
    (hprefixed : f.prefixed = true) :
    (c.pass (some f) d).ime = enable ∧ (c.pass (some f) d).imeQueue.toList = [] := by
  obtain ⟨cost, -, rfl, hcost⟩ := hd
  obtain rfl : cost = 4 := hcost (by simp [hf])
  refine pass_of_lt (toList_executeNext_of_request hc hwaiting hf) ?_
  simp [Fetched.owed, hprefixed, Cpu.imeDelay]

/-- What is left waiting was requested by the step itself. -/
theorem toList_pass (hd : Board.IsDuration next d) :
    (c.pass next d).imeQueue.toList = [] ∨
      (c.pass next d).imeQueue.toList = c.requests next := by
  rcases hc.waiting with hwaiting | ⟨oldest, hwaiting⟩
  · cases hnext : next.bind Fetched.request? with
    | none =>
      rw [pass_of_quiet hwaiting hnext]
      exact .inl ((congrArg _ (imeQueue_executeNext_of_none hnext)).trans hwaiting)
    | some enable =>
      obtain ⟨f, rfl, hf⟩ := Option.bind_eq_some_iff.mp hnext
      cases hprefixed : f.prefixed with
      | false =>
        rw [pass_of_request hc hd hwaiting hf hprefixed, requests_of_some hnext]
        exact .inr (toList_executeNext_of_request hc hwaiting hf)
      | true => exact .inl (pass_of_prefixed_request hc hd hwaiting hf hprefixed).2
  · exact .inr (pass_of_waiting hc hd hwaiting).2

theorem Prompt.pass (hd : Board.IsDuration next d) (hpower : next.isSome ↔ c.power = .running) :
    (c.pass next d).Prompt := by
  rcases toList_pass hc hd with hnil | hlist
  · exact .of_nil hnil
  · refine ⟨?_, ?_, ?_⟩
    · rw [← ImeQueue.length_toList, hlist]
      exact length_requests_le c next
    · intro change hchange
      rw [hlist] at hchange
      have hdue := due_of_mem_requests hchange
      have hlong := (Board.isDuration_bounds hd).2.1
      have hclock := clock_pass c next d
      simp only [Cpu.imeDelay] at hdue
      omega
    · intro hasleep
      rw [hlist]
      cases hnext : next.bind Fetched.request? with
      | none => exact requests_of_none hnext
      | some enable =>
        -- EI and DI leave the CPU awake.
        obtain ⟨f, rfl, -⟩ := Option.bind_eq_some_iff.mp hnext
        refine absurd ?_ hasleep
        calc (c.pass (some f) d).power
            = (c.executeNext (some f)).power := power_applyDue _
          _ = (c.request enable).power := by rw [executeNext_of_some hnext]
          _ = .running := hpower.mp rfl

end Pass

end Control

/-! ### Runs -/

/-- **The CPUs that a run leads to.** A run begins at power-on or with a reset and goes on in steps,
whether they succeed or fail. Every step has a port of its own: what is attached may change between
two steps, and may answer anything. -/
inductive Cpu.Reached : Cpu → Prop
  /-- A run begins at power-on. -/
  | powerOn (policy : IllegalOpcodePolicy) : Reached (.powerOn policy)
  /-- A run begins with a reset. -/
  | reset (cpu : Cpu) : Reached cpu.reset
  /-- A run goes on by a step. -/
  | step {M : Type} [Port M] (s : Board M) : Reached s.cpu → Reached s.step.2.cpu

namespace Board

theorem Attends.prompt {a : Attention} {c c' : Control} (h : Attends a c c') (hc : c.Prompt) :
    c'.Prompt := by
  have hqueue := h.imeQueue_eq
  refine ⟨hqueue ▸ hc.length_le, fun change hchange ↦ ?_, fun hasleep ↦ ?_⟩
  · have hdue := hc.due_le change (hqueue ▸ hchange)
    cases h with
    | idle | stopEnded | haltEnded => exact hdue
    | dispatched => exact Nat.le_trans hdue (by simp [dispatchTicks])
  · cases h with
    | idle => exact hc.empty_of_asleep hasleep
    | stopEnded | haltEnded | dispatched => exact absurd rfl hasleep

variable {M : Type} [Port M] {s : Board M}

/-- Looking at the interrupts leaves the requests as they are. -/
theorem prompt_serviceInterrupts (h : s.cpu.control.Prompt) :
    s.serviceInterrupts.2.cpu.control.Prompt :=
  s.serviceInterrupts_attends.prompt h

/-- Every step keeps the invariant, whether it succeeds or fails. -/
theorem prompt_step (h : s.cpu.control.Prompt) : s.step.2.cpu.control.Prompt := by
  have hserved := prompt_serviceInterrupts h
  rcases hstep : s.step with ⟨_ | t, s'⟩
  · rw [(step_error hstep).1]
    exact hserved
  · obtain ⟨d, hd, -, hcontrol⟩ := step_ok hstep
    rw [hcontrol]
    exact hserved.pass hd s.upcoming_isSome_iff

/-- What an opcode requests is appended to what is waiting. -/
theorem toList_executeOrSleep (h : s.cpu.control.Prompt) :
    s.executeOrSleep.2.cpu.imeQueue.toList =
      s.cpu.imeQueue.toList ++ s.cpu.control.requests s.next? := by
  rcases hrun : s.executeOrSleep with ⟨_ | t, s'⟩
  · obtain ⟨-, hnext, hcontrol⟩ := executeOrSleep_error hrun
    rw [Control.requests_of_none hnext, List.append_nil]
    exact congrArg (fun c ↦ c.imeQueue.toList) hcontrol
  · obtain ⟨-, hcontrol⟩ := executeOrSleep_ok hrun
    have hqueue : s'.cpu.imeQueue = (s.cpu.control.executeNext s.next?).imeQueue :=
      congrArg Control.imeQueue hcontrol
    rw [hqueue]
    exact Control.toList_executeNext _ h.length_lt_capacity

end Board

/-- **The invariant holds along every run.** -/
theorem Cpu.Reached.prompt {cpu : Cpu} (h : cpu.Reached) : cpu.control.Prompt := by
  induction h with
  | powerOn policy => exact .of_nil rfl
  | reset cpu => exact .of_nil (ImeQueue.toList_clear cpu.imeQueue)
  | step s _ ih => exact Board.prompt_step ih

/-! ### What the runs show -/

namespace Board

variable {M : Type} [Port M]

/-- **No request is ever dropped.** Between two steps at most one request is waiting, and none if
the CPU sleeps. Looking at the interrupts leaves the requests alone; what the opcode then requests
is appended to them, so that there are never more than two. -/
theorem ime_requests_kept (s : Board M) (h : s.cpu.Reached) :
    s.cpu.imeQueue.length ≤ 1 ∧
      (s.cpu.power ≠ .running → s.cpu.imeQueue.length = 0) ∧
      s.serviceInterrupts.2.cpu.imeQueue = s.cpu.imeQueue ∧
      s.serviceInterrupts.2.executeOrSleep.2.cpu.imeQueue.toList =
        s.cpu.imeQueue.toList ++ s.serviceInterrupts.2.cpu.control.requests s.upcoming ∧
      s.serviceInterrupts.2.executeOrSleep.2.cpu.imeQueue.length ≤ 2 := by
  have hprompt := h.prompt
  have hserved := prompt_serviceInterrupts hprompt
  have hqueue : s.serviceInterrupts.2.cpu.imeQueue = s.cpu.imeQueue :=
    s.serviceInterrupts_attends.imeQueue_eq
  have hkept : s.serviceInterrupts.2.executeOrSleep.2.cpu.imeQueue.toList =
      s.cpu.imeQueue.toList ++ s.serviceInterrupts.2.cpu.control.requests s.upcoming := by
    rw [← hqueue]
    exact toList_executeOrSleep hserved
  have hlen : s.cpu.imeQueue.length ≤ 1 := hprompt.length_le
  refine ⟨hlen, fun hasleep ↦ ?_, hqueue, hkept, ?_⟩
  · exact ImeQueue.toList_eq_nil_iff.mp (hprompt.empty_of_asleep hasleep)
  · have hmost := Control.length_requests_le s.serviceInterrupts.2.cpu.control s.upcoming
    rw [← ImeQueue.length_toList, hkept, List.length_append, ImeQueue.length_toList]
    omega

/-- A program that begins with EI twice. -/
def eiTwice : Board Memory := ⟨.powerOn .fatal, (Memory.fill 0).overwrite resetVector [0xFB, 0xFB]⟩

theorem ime_requests_kept_of_eiTwice :
    eiTwice.step.2.cpu.Reached ∧
      eiTwice.step.2.serviceInterrupts.2.executeOrSleep.2.cpu.imeQueue.toList =
        [{ enable := true, due := 5 }, { enable := true, due := 9 }] := by
  have hs : eiTwice.step.2.cpu.Reached := .step _ (.powerOn .fatal)
  have hkept := (ime_requests_kept eiTwice.step.2 hs).2.2.2.1
  exact ⟨hs, hkept.trans (by decide)⟩

end Board

end GameBoy
