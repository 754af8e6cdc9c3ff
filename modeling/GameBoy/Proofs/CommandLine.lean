import GameBoy.CommandLine
import GameBoy.Proofs.Text.Numeral

/-!
# What a call comes to

Arguments are read one by one, and the first that is not accepted ends the call. The switch is
accepted anywhere and takes no position. So it does not matter where it stands, how often, and
whether it is read at all before another argument ends the call: reading is reading the other
arguments, with the switch looked for apart (`Arguments.read_eq`).

The other arguments decide what is to be done by their number, and by whether the second one is a
numeral (`plan_eq`). A file is looked at only when there is nothing wrong with any of them, and
`respond_cases` says what each kind of call comes to, down to the exit code and to what is written.
-/

namespace GameBoy.CommandLine

/-! ### The switch -/

/-- The arguments other than the switch, in order. -/
def positional (arguments : List String) : List String := arguments.filter (· ≠ "--lenient")

/-- Whether the switch is among the arguments. -/
def switched (arguments : List String) : Bool := decide ("--lenient" ∈ arguments)

namespace Arguments

/-- The arguments read so far, and the switch if it is given. -/
def switch (given : Bool) (args : Arguments) : Arguments :=
  { args with lenient := args.lenient || given }

variable (args : Arguments) {argument : String}

theorem switch_false : args.switch false = args := by
  simp [switch]

theorem switch_switch (given given' : Bool) :
    (args.switch given).switch given' = args.switch (given || given') := by
  simp [switch, Bool.or_assoc]

theorem add_lenientSwitch : args.add lenientSwitch = .ok (args.switch true) := by
  simp [add, switch]

/-- Any other argument is taken alike, whether the switch has come before it or not. -/
theorem add_switch (given : Bool) (h : argument ≠ lenientSwitch) :
    (args.switch given).add argument = (args.add argument).map (switch given) := by
  obtain ⟨path, maxSteps, lenient⟩ := args
  simp only [add, switch, if_neg h]
  match path, maxSteps with
  | none, _ => rfl
  | some path, none => cases Text.readBounded maxBudget argument <;> rfl
  | some path, some maxSteps => rfl

variable {arguments : List String}

theorem read_switch (given : Bool) (h : lenientSwitch ∉ arguments) :
    (args.switch given).read arguments = (args.read arguments).map (switch given) := by
  induction arguments generalizing args with
  | nil => rfl
  | cons argument rest ih =>
    rw [List.mem_cons, not_or] at h
    obtain ⟨hargument, hrest⟩ := h
    rw [read, read, add_switch args given (Ne.symm hargument)]
    cases args.add argument with
    | error e => rfl
    | ok args => exact ih args hrest

theorem not_mem_positional : lenientSwitch ∉ positional arguments := by
  simp [positional, lenientSwitch]

/-- **The switch may stand anywhere.** -/
theorem read_eq (arguments : List String) :
    args.read arguments =
      (args.read (positional arguments)).map (switch (switched arguments)) := by
  induction arguments generalizing args with
  | nil =>
    show Except.ok args = .ok (args.switch false)
    rw [switch_false]
  | cons argument rest ih =>
    by_cases hargument : argument = lenientSwitch
    · subst hargument
      have hpositional : positional (lenientSwitch :: rest) = positional rest := by
        simp [positional, lenientSwitch]
      have hswitched : switched (lenientSwitch :: rest) = true := by
        simp [switched, lenientSwitch]
      rw [hpositional, hswitched, read, add_lenientSwitch]
      dsimp only
      rw [ih, read_switch args true not_mem_positional]
      cases args.read (positional rest) with
      | error e => rfl
      | ok args => exact congrArg Except.ok (args.switch_switch true _)
    · rw [lenientSwitch] at hargument
      have hpositional : positional (argument :: rest) = argument :: positional rest := by
        simp [positional, hargument]
      have hswitched : switched (argument :: rest) = switched rest := by
        simp [switched, Ne.symm hargument]
      rw [hpositional, hswitched, read, read]
      cases args.add argument with
      | error e => rfl
      | ok args => exact ih args

end Arguments

/-! ### The other arguments -/

/-- **What is to be done**, told by the arguments other than the switch. -/
def planned (lenient : Bool) : List String → Plan
  | [] => .stop { exitCode := 2, stderr := s!"{usage}\n" }
  | [path] => .run path { lenient }
  | path :: steps :: rest =>
    match Text.readBounded maxBudget steps with
    | .error cause => .stop (ArgumentError.invalidSteps steps cause).outcome
    | .ok maxSteps =>
      match rest with
      | [] => .run path { maxSteps, lenient }
      | third :: _ => .stop (ArgumentError.unexpected third).outcome

/-- **What is planned depends on the other arguments**, and on whether the switch is given. -/
theorem plan_eq (arguments : List String) :
    plan arguments = planned (switched arguments) (positional arguments) := by
  have hother : ∀ argument ∈ positional arguments, argument ≠ lenientSwitch := by
    simp [positional, lenientSwitch]
  rw [plan, Arguments.read_eq]
  generalize positional arguments = others at hother
  cases others with
  | nil => rfl
  | cons path others =>
    rw [List.forall_mem_cons] at hother
    obtain ⟨hpath, hother⟩ := hother
    cases others with
    | nil =>
      simp only [Arguments.read, Arguments.add, if_neg hpath]
      rfl
    | cons steps rest =>
      rw [List.forall_mem_cons] at hother
      obtain ⟨hsteps, hrest⟩ := hother
      simp only [planned, Arguments.read, Arguments.add, if_neg hpath, if_neg hsteps]
      cases Text.readBounded maxBudget steps with
      | error cause => rfl
      | ok maxSteps =>
        cases rest with
        | nil => rfl
        | cons third rest =>
          have hthird : third ≠ lenientSwitch := hrest third List.mem_cons_self
          simp only [Option.isNone_none, Arguments.read, Arguments.add, if_neg hthird]
          rfl

/-- A budget of steps that is accepted: a numeral whose number fits in 64 bits. -/
def AcceptsSteps (steps : String) (n : Nat) : Prop := Text.IsNumeral steps n ∧ n < UInt64.size

theorem acceptsSteps_iff {steps : String} {n : Nat} :
    AcceptsSteps steps n ↔ Text.readBounded maxBudget steps = .ok n := by
  rw [Text.readBounded_eq_ok_iff]
  exact and_congr_right fun _ ↦ Nat.lt_iff_le_pred (by decide)

/-- **Why a budget of steps is not accepted**, in words. Digits that run beyond 64 bits are blamed
also if something else stands behind them. -/
structure IsBlamed (steps cause : String) : Prop where
  /-- There is nothing to read. -/
  empty : steps = "" → cause = "cannot parse integer from empty string"
  /-- The number is too great, as far as it has been read. -/
  tooLarge : Text.RunsBeyond (UInt64.size - 1) 0 (Text.unsigned steps.toList) →
    cause = "number too large to fit in target type"
  /-- There is something else than digits. -/
  invalidDigit : steps ≠ "" →
    ¬ Text.RunsBeyond (UInt64.size - 1) 0 (Text.unsigned steps.toList) →
    cause = "invalid digit found in string"

theorem isBlamed_message {steps : String} {cause : Text.NumeralError}
    (h : Text.readBounded maxBudget steps = .error cause) : IsBlamed steps cause.message := by
  obtain ⟨hempty, htooLarge, hinvalidDigit⟩ := Text.readBounded_eq_error h
  exact ⟨fun hnone ↦ congrArg Text.NumeralError.message (hempty hnone),
    fun hbeyond ↦ congrArg Text.NumeralError.message (htooLarge hbeyond),
    fun hsome hwithin ↦ congrArg Text.NumeralError.message (hinvalidDigit hsome hwithin)⟩

/-- **A run is asked for**: by a path, and perhaps by a budget of steps. -/
def Requests (others : List String) (path : String) (maxSteps : Nat) : Prop :=
  others = [path] ∧ maxSteps = 100000000 ∨
    ∃ steps, others = [path, steps] ∧ AcceptsSteps steps maxSteps

section Planned

variable {lenient : Bool} {others : List String}

/-- Nothing but a request leads to a run, and it leads to the run that it asks for. -/
theorem planned_eq_run_iff {path : String} {options : RunOptions} :
    planned lenient others = .run path options ↔
      Requests others path options.maxSteps ∧ options.lenient = lenient := by
  obtain ⟨maxSteps, lenient'⟩ := options
  match others with
  | [] => grind [planned, Requests]
  | [path'] => grind [planned, Requests]
  | path' :: steps :: rest =>
    simp only [planned, Requests, acceptsSteps_iff]
    cases hread : Text.readBounded maxBudget steps with
    | error cause => grind
    | ok n => cases rest <;> grind

/-- A call that runs nothing prints nothing but its error. -/
theorem stdout_of_planned_eq_stop {outcome : Outcome} (h : planned lenient others = .stop outcome) :
    outcome.stdout = "" := by
  unfold planned at h
  split at h
  · cases h
    rfl
  · cases h
  · split at h
    · cases h
      rfl
    · split at h <;> cases h
      rfl

end Planned

/-! ### The outcome -/

/-- A failure with a cause: the exit code is 1, and nothing is written to standard output. -/
theorem failure_eq (message cause : String) :
    failure message (some cause) =
      { exitCode := 1, stdout := ""
        stderr := s!"Error: {message}\n\nCaused by:\n    {cause}\n" } := by
  have htext : "Error: " ++ message ++ ("\n\nCaused by:\n    " ++ cause) ++ "\n" =
      "Error: " ++ message ++ "\n\nCaused by:\n    " ++ cause ++ "\n" := by
    simp only [String.append_assoc]
  exact congrArg (Outcome.mk 1 "") htext

/-- An argument too many has no cause, and the usage is written behind it. -/
theorem outcome_unexpected (argument : String) :
    (ArgumentError.unexpected argument).outcome =
      { exitCode := 1, stdout := ""
        stderr := s!"Error: unexpected argument '{argument}'\n{usage}\n" } := by
  simp only [ArgumentError.outcome, failure, Outcome.mk.injEq, true_and]
  apply String.toList_inj.mp
  simp [toString]

variable (file : String → Except FileError (Array UInt8)) (arguments : List String)

/-- The outcome of what has been planned. -/
def Plan.outcome : Plan → Outcome
  | stop outcome => outcome
  | run path options => finish path options (file path)

theorem respond_eq :
    respond file arguments =
      (planned (switched arguments) (positional arguments)).outcome file := by
  rw [← plan_eq]
  rfl

variable {path : String} {maxSteps : Nat}

/-- What is requested is run. -/
theorem respond_of_requests (h : Requests (positional arguments) path maxSteps) :
    respond file arguments =
      finish path { maxSteps, lenient := switched arguments } (file path) := by
  have hplanned : planned (switched arguments) (positional arguments) =
      .run path { maxSteps, lenient := switched arguments } := planned_eq_run_iff.mpr ⟨h, rfl⟩
  rw [respond_eq, hplanned]
  rfl

/-- Only a run that succeeds prints anything. -/
theorem run_of_stdout_finish {options : RunOptions} {contents : Except FileError (Array UInt8)}
    (h : (finish path options contents).stdout ≠ "") :
    ∃ rom report, contents = .ok rom ∧ run rom options = .ok report := by
  cases contents with
  | error e => exact absurd rfl h
  | ok rom =>
    cases hrun : run rom options with
    | error e =>
      rw [finish, hrun] at h
      exact absurd rfl h
    | ok report => exact ⟨rom, report, rfl, hrun⟩

theorem run_of_stdout_respond (h : (respond file arguments).stdout ≠ "") :
    ∃ path maxSteps rom report, Requests (positional arguments) path maxSteps ∧
      file path = .ok rom ∧
      run rom { maxSteps, lenient := switched arguments } = .ok report := by
  rw [respond_eq] at h
  cases hplanned : planned (switched arguments) (positional arguments) with
  | stop outcome =>
    rw [hplanned] at h
    exact absurd (stdout_of_planned_eq_stop hplanned) h
  | run path options =>
    obtain ⟨hrequest, hlenient⟩ := planned_eq_run_iff.mp hplanned
    rw [hplanned] at h
    obtain ⟨rom, report, hrom, hreport⟩ := run_of_stdout_finish h
    rw [← hlenient]
    exact ⟨path, options.maxSteps, rom, report, hrequest, hrom, hreport⟩

/-- **What a call comes to**, for any files. It does not matter where the switch stands. Without any
other argument the usage is printed. A budget that is no numeral, or one too great, is reported
before a third argument is looked at, and that before the file is. Arguments that are not accepted, a
file that cannot be read and a run that meets a fault are failures: the exit code is 1, the message
and its cause are written to standard error, and nothing to standard output. Any other run leaves
its transcript and a line with its verdict, its steps and its ticks there, and an exit code that
tells whether it has passed. -/
theorem respond_cases (file : String → Except FileError (Array UInt8))
    (arguments : List String) :
    let others := positional arguments
    let lenient := switched arguments
    let outcome := respond file arguments
    let help := "usage: dmgboy <rom> [max_steps] [--lenient]"
    let failed (message cause : String) : Outcome :=
      { exitCode := 1, stdout := ""
        stderr := s!"Error: {message}\n\nCaused by:\n    {cause}\n" }
    (∀ arguments', positional arguments' = others → switched arguments' = lenient →
      respond file arguments' = outcome) ∧
    (others = [] → outcome = { exitCode := 2, stdout := "", stderr := s!"{help}\n" }) ∧
    (∀ path steps rest, others = path :: steps :: rest → (∀ n, ¬ AcceptsSteps steps n) →
      ∃ cause, IsBlamed steps cause ∧ outcome = failed s!"invalid step count '{steps}'" cause) ∧
    (∀ path steps n third rest, others = path :: steps :: third :: rest → AcceptsSteps steps n →
      outcome =
        { exitCode := 1, stdout := ""
          stderr := s!"Error: unexpected argument '{third}'\n{help}\n" }) ∧
    (∀ path maxSteps, Requests others path maxSteps →
      (∀ e, file path = .error e →
        outcome = failed s!"failed to read ROM '{path}'" e.message) ∧
      ∀ rom, file path = .ok rom →
        (∀ e, run rom { maxSteps, lenient } = .error e →
          let opcode := Text.hexByte e.cause.opcode
          let pc := Text.hexWord e.cause.pc
          outcome = failed
            s!"execution stopped after {e.steps} steps (clock={e.clock}, SP={Text.hexWord e.sp})"
            s!"undecodable {e.cause.table.name} opcode {opcode} at PC={pc}") ∧
        ∀ report, run rom { maxSteps, lenient } = .ok report →
          let words :=
            match report.verdict with
            | .passed => "passed"
            | .failed => "failed"
            | .stepLimit => "step limit reached"
          let emulated := Text.fixed 3 report.ticks 4194304
          let line := s!"{words}: {report.steps} steps, {report.ticks} ticks, {emulated} s emulated"
          outcome =
            { exitCode := if report.verdict = .passed then 0 else 1
              stdout := s!"{Text.readUtf8 report.serial.toList}\n{line}\n"
              stderr := "" }) ∧
    (outcome.stdout ≠ "" → ∃ path maxSteps rom report, Requests others path maxSteps ∧
      file path = .ok rom ∧ run rom { maxSteps, lenient } = .ok report) := by
  intro others lenient outcome help failed
  have houtcome : outcome = (planned lenient others).outcome file := respond_eq file arguments
  refine ⟨fun arguments' hothers hlenient ↦ ?_, fun h ↦ ?_, fun path steps rest h hnone ↦ ?_,
    fun path steps n third rest h hn ↦ ?_, fun path maxSteps hrequest ↦ ?_, fun hprinted ↦ ?_⟩
  · rw [respond_eq, hothers, hlenient, houtcome]
  · rw [houtcome, h]
    rfl
  · cases hread : Text.readBounded maxBudget steps with
    | ok n => exact absurd (acceptsSteps_iff.mpr hread) (hnone n)
    | error cause =>
      refine ⟨cause.message, isBlamed_message hread, ?_⟩
      rw [houtcome, h, planned, hread]
      exact failure_eq ..
  · rw [houtcome, h, planned, acceptsSteps_iff.mp hn]
    exact outcome_unexpected third
  · have hfinish : outcome = finish path { maxSteps, lenient } (file path) :=
      respond_of_requests file arguments hrequest
    refine ⟨fun e he ↦ ?_, fun rom hrom ↦ ⟨fun e he ↦ ?_, fun report hreport ↦ ?_⟩⟩
    · rw [hfinish, he]
      exact failure_eq ..
    · rw [hfinish, hrom, finish, he]
      exact failure_eq ..
    · obtain ⟨verdict, steps, ticks, serial⟩ := report
      rw [hfinish, hrom, finish, hreport]
      cases verdict <;> rfl
  · exact run_of_stdout_respond file arguments hprinted

/-- A directory with one program image in it, which is empty. -/
def oneFile (path : String) : Except FileError (Array UInt8) :=
  if path = "idle.gb" then .ok #[] else .error (.other "nothing there")

/-- A run with no steps to make, a file that does not exist, and a call that is ended by its second
argument. -/
theorem respond_cases_of_oneFile :
    respond oneFile ["idle.gb", "--lenient", "+0"] =
      { exitCode := 1
        stdout := "\nstep limit reached: 0 steps, 0 ticks, 0.000 s emulated\n" } ∧
    respond oneFile ["absent.gb"] =
      { exitCode := 1
        stderr := "Error: failed to read ROM 'absent.gb'\n\nCaused by:\n    nothing there\n" } ∧
    respond oneFile ["absent.gb", "ten", "--lenient", "more"] =
      { exitCode := 1
        stderr :=
          "Error: invalid step count 'ten'\n\nCaused by:\n    invalid digit found in string\n" } := by
  obtain ⟨-, -, -, -, hrun, -⟩ := respond_cases oneFile ["idle.gb", "--lenient", "+0"]
  have hzero : AcceptsSteps "+0" 0 :=
    ⟨⟨List.cons_ne_nil _ _, List.forall_mem_singleton.mpr rfl, rfl⟩, by decide⟩
  have hten (n : Nat) : ¬ AcceptsSteps "ten" n := by
    rintro ⟨⟨-, hdigits, -⟩, -⟩
    exact absurd (hdigits 't' List.mem_cons_self) (by decide)
  have hwithin : ¬ Text.RunsBeyond (UInt64.size - 1) 0 (Text.unsigned "ten".toList) := by
    rw [show Text.unsigned "ten".toList = ['t', 'e', 'n'] from rfl,
      Text.runsBeyond_cons (Nat.zero_le _)]
    exact fun h ↦ absurd h.1 (by decide)
  obtain ⟨-, hcontents⟩ := hrun "idle.gb" 0 (.inr ⟨"+0", by decide, hzero⟩)
  obtain ⟨-, hreport⟩ := hcontents #[] rfl
  obtain ⟨-, -, -, -, habsent, -⟩ := respond_cases oneFile ["absent.gb"]
  obtain ⟨hunread, -⟩ := habsent "absent.gb" 100000000 (.inl ⟨by decide, rfl⟩)
  obtain ⟨-, -, hinvalid, -⟩ := respond_cases oneFile ["absent.gb", "ten", "--lenient", "more"]
  obtain ⟨cause, hblamed, hrejected⟩ := hinvalid "absent.gb" "ten" ["more"] (by decide) hten
  rw [hblamed.invalidDigit (by decide) hwithin] at hrejected
  exact ⟨hreport _ rfl, hunread _ rfl, hrejected⟩

end GameBoy.CommandLine
