import GameBoy.Proofs.Machine.Call

/-!
# A reset forgets everything but the program image

What a reset keeps is on purpose: the program image, the policy, whether bytes sent are recorded,
and the buttons that are held, which count as sampled. Everything else is as on a machine that has
just been switched on, but for the ring of deferred changes, in which the remains of earlier
requests stay behind. Nothing shows of those (`GameBoy.Proofs.Cpu.Alike`), so the two machines
cannot be told apart from then on: `reset_forgets`.

A button that is held during a reset pulls its line low from the first sample on, so it makes no
request. Generally the joypad remembers the lines of some moment since the reset
(`Remembers`), and requests its interrupt only if a line has gone low that was high at that moment.
-/

namespace GameBoy

/-- The joypad with buttons held as on another one, and its lines sampled as they are then. -/
def Joypad.holdAs (j other : Joypad) : Joypad :=
  let held := { j with directions := other.directions, actions := other.actions }
  { held with sampled := held.lines }

namespace Machine

/-- The bytes at the addresses of the program image. -/
def image (m : Machine) : Array UInt8 :=
  Array.ofFn fun i : Fin Location.romSize ↦ m.bus.read (UInt16.ofNat i)

/-- The machine with buttons held, and already sampled. -/
def holdAs (m : Machine) (other : Joypad) : Machine :=
  { m with bus := { m.bus with joypad := m.bus.joypad.holdAs other } }

/-- A machine that has just been switched on, with the policy and the program image of `m`. -/
def renewed (m : Machine) (capture : Bool) : Machine :=
  (powerOn { policy := m.cpu.policy, capture }).loadRom m.image

/-! ### What a reset restores -/

theorem getElem?_image (m : Machine) {a : UInt16} (ha : a.toNat < Location.romSize) :
    m.image[a.toNat]? = some (m.bus.memory.get a) := by
  rw [← m.bus.read_eq_get ha]
  simp [image, ha]

theorem memory_reset (m : Machine) (capture : Bool) :
    m.bus.reset.memory = (m.renewed capture).bus.memory := by
  apply Memory.ext
  intro a
  have hrenewed : (m.renewed capture).bus = (Bus.powerOn capture).loadRom m.image := rfl
  have hinitial : (Bus.powerOn capture).memory = Bus.initialMemory := rfl
  rw [Bus.get_memory_reset, hrenewed, Bus.get_memory_loadRom, hinitial, Bus.get_initialMemory]
  split
  · next ha =>
    rw [m.getElem?_image ha]
    rfl
  · rfl

/-- **A reset restores everything** but the program image, the buttons and the remains in the
ring. -/
theorem reset_alike (m : Machine) :
    Board.Alike m.reset ((m.renewed m.bus.serial.capture).holdAs m.bus.joypad) := by
  have hbus : m.bus.reset = ((m.renewed m.bus.serial.capture).holdAs m.bus.joypad).bus :=
    (Bus.mk.injEq ..).mpr ⟨m.memory_reset _, rfl, rfl, rfl, rfl, rfl, rfl, rfl⟩
  refine ⟨(Cpu.powerOn m.cpu.policy).control, ⟨rfl, rfl, rfl, rfl, rfl, Nat.zero_le _⟩, ?_⟩
  rw [reset, hbus]
  rfl

/-- A joypad on which no button is held has nothing to hand over. -/
theorem holdAs_eq_self {j : Joypad} (h : ∀ button, j.isHeld button = false) (m : Machine)
    (hjoypad : m.bus.joypad = {}) : m.holdAs j = m := by
  have hgroup : j.directions = 0 ∧ j.actions = 0 := by
    constructor
    · refine BitVec.eq_of_getLsbD_eq fun line hline ↦ ?_
      match line, hline with
      | 0, _ => exact h .right
      | 1, _ => exact h .left
      | 2, _ => exact h .up
      | 3, _ => exact h .down
    · refine BitVec.eq_of_getLsbD_eq fun line hline ↦ ?_
      match line, hline with
      | 0, _ => exact h .a
      | 1, _ => exact h .b
      | 2, _ => exact h .select
      | 3, _ => exact h .start
  have hhold : ({} : Joypad).holdAs j = {} := by
    rw [Joypad.holdAs, hgroup.1, hgroup.2]
    rfl
  rw [holdAs, hjoypad, hhold, ← hjoypad]

/-! ### What the joypad remembers since a reset -/

end Machine

theorem Bus.sampled_write (bus : Bus) (a : UInt16) (v : UInt8) :
    (bus.write a v).joypad.sampled = bus.joypad.sampled := by
  refine bus.write_induction (motive := fun b ↦ b.joypad.sampled = bus.joypad.sampled)
    (fun _ _ ↦ rfl) (fun r _ ↦ ?_) rfl
  cases r <;> rfl

/-- Whatever the CPU does, nothing is sampled meanwhile. -/
theorem Bus.invariant_sampled (sampled : BitVec 4) :
    Port.Invariant fun bus : Bus ↦ bus.joypad.sampled = sampled where
  read _ _ h := h
  write bus a v h := (bus.sampled_write a v).trans h
  note _ _ h := h

/-- The joypad has not sampled its lines, or the lines are still as they were then. -/
def Bus.Resampled (before after : Bus) : Prop :=
  after.joypad.sampled = before.joypad.sampled ∨ after.joypad.sampled = after.joypad.lines

theorem Bus.resampled_catchUp (bus : Bus) (target : Nat) :
    bus.Resampled (bus.catchUp target) := by
  obtain ⟨hlines, hsampled⟩ := Joypad.sampled_catchUp bus.joypad target
    (Peripheral.catchUp target bus.serial (Peripheral.catchUp target bus.timer bus.requests).2.2).2.2
  exact hsampled.imp_right fun h ↦ h.trans hlines.symm

namespace Machine

theorem sampled_boardStep (m : Machine) :
    (Board.step m).2.bus.joypad.sampled = m.bus.joypad.sampled :=
  (Bus.invariant_sampled m.bus.joypad.sampled).step m rfl

theorem resampled_step (m : Machine) : m.bus.Resampled (step m).2.bus := by
  have hsampled := sampled_boardStep m
  rcases hstep : step m with ⟨_ | t, m'⟩
  · rw [step_error hstep] at hsampled
    exact .inl hsampled
  · obtain ⟨s, hrun, rfl⟩ := step_ok hstep
    rw [hrun] at hsampled
    exact (s.bus.resampled_catchUp s.cpu.clock).imp_left fun h ↦ h.trans hsampled

theorem resampled_apply (m : Machine) (call : Call)
    (hrun : ∀ ticks, call ≠ .op (.runForTicks ticks)) : m.bus.Resampled (call.apply m).bus := by
  cases call with
  | op o =>
    cases o with
    | step => exact resampled_step m
    | runForTicks ticks => exact absurd rfl (hrun ticks)
    | setButton button held =>
      refine .inl ?_
      cases button <;> rfl
    | reset => exact .inr rfl
    | write a v => exact .inl (m.bus.sampled_write a v)
    | loadRom | read | request => exact .inl rfl
  | writeWord a w => exact .inl ((Bus.sampled_write ..).trans (Bus.sampled_write ..))
  | catchUp target => exact m.bus.resampled_catchUp target
  | resetBus => exact .inr rfl
  | stepCpu => exact .inl (sampled_boardStep m)
  | executeOne =>
    exact .inl ((Bus.invariant_sampled m.bus.joypad.sampled).of_map Board.executeOne
      Board.map_executeOne m rfl)
  | takeSerialOutput | readWord | resetCpu | set => exact .inl rfl

/-- What the joypad has sampled last are the lines of one of these moments. -/
def Remembers (moments : List Machine) (m : Machine) : Prop :=
  ∃ moment ∈ moments, moment.bus.joypad.lines = m.bus.joypad.sampled

/-- Moments one after the other, at each of which the joypad remembers the lines of that moment or of
an earlier one; and the machine as it is then. -/
structure Follows (moments : List Machine) (m : Machine) : Prop where
  /-- So it has been at all moments. -/
  remembered : ∀ past s future, moments = past ++ s :: future → Remembers (past ++ [s]) s
  /-- So it is now. -/
  remembers : Remembers moments m

theorem follows_singleton {m : Machine} (h : m.bus.joypad.sampled = m.bus.joypad.lines) :
    Follows [m] m where
  remembered past s future heq := by
    cases past with
    | nil =>
      obtain ⟨rfl, -⟩ := List.cons.inj heq
      exact ⟨m, List.mem_singleton_self m, h.symm⟩
    | cons _ past => simp at heq
  remembers := ⟨m, List.mem_singleton_self m, h.symm⟩

variable {moments : List Machine} {m m' : Machine}

/-- One more moment. -/
theorem Follows.next (h : Follows moments m) (hnext : m.bus.Resampled m'.bus) :
    Follows (moments ++ [m']) m' := by
  have hremembers : Remembers (moments ++ [m']) m' := by
    rcases hnext with hkept | hsampled
    · obtain ⟨moment, hmem, hlines⟩ := h.remembers
      exact ⟨moment, List.mem_append_left _ hmem, hlines.trans hkept.symm⟩
    · exact ⟨m', List.mem_append_right _ (List.mem_singleton_self m'), hsampled.symm⟩
  refine ⟨fun past s future heq ↦ ?_, hremembers⟩
  rcases List.eq_nil_or_concat future with rfl | ⟨future, last, rfl⟩
  · obtain ⟨rfl, hlast⟩ := List.append_inj' heq rfl
    obtain rfl : m' = s := List.cons.inj hlast |>.1
    exact hremembers
  · have hsplit : moments ++ [m'] = (past ++ s :: future) ++ [last] := by
      rw [heq, List.concat_eq_append, List.append_assoc, List.cons_append]
    exact h.remembered past s future (List.append_inj' hsplit rfl).1

theorem Follows.stepsUntil (target fuel : Nat) (s : Session) (h : Follows moments s.machine) :
    Follows (moments ++ (Session.stepsUntil target fuel s).map fun r ↦ r.2.machine)
      (s.last (Session.stepsUntil target fuel s)).machine := by
  induction fuel generalizing s moments with
  | zero =>
    simpa only [Session.stepsUntil, Session.last, List.map_nil, List.append_nil] using h
  | succ fuel ih =>
    rw [Session.stepsUntil]
    split
    · have hnext : Follows (moments ++ [s.step.2.machine]) s.step.2.machine :=
        h.next (resampled_step s.machine)
      rcases hstep : s.step with ⟨_ | t, s'⟩
      · rw [hstep] at hnext
        exact hnext
      · rw [hstep] at hnext
        have hrest := ih s' hnext
        rw [List.append_assoc] at hrest
        exact hrest
    · simpa only [Session.last, List.map_nil, List.append_nil] using h

theorem Follows.call (h : Follows moments m) (call : Call) :
    Follows (moments ++ call.passes m) (call.apply m) := by
  by_cases hrun : ∃ ticks, call = .op (.runForTicks ticks)
  · obtain ⟨ticks, rfl⟩ := hrun
    have hsteps : Follows (moments ++ (Call.op (.runForTicks ticks)).passes m)
        (Session.last ⟨m, []⟩ (Session.steps ⟨m, []⟩ (.runForTicks ticks))).machine :=
      Follows.stepsUntil (min (m.cpu.clock + ticks) lastTick)
        (min (m.cpu.clock + ticks) lastTick - m.cpu.clock) ⟨m, []⟩ h
    rw [← Session.apply_runForTicks] at hsteps
    exact hsteps
  · have hrun : ∀ ticks, call ≠ .op (.runForTicks ticks) := fun ticks hcall ↦ hrun ⟨ticks, hcall⟩
    rw [call.passes_of_ne_run m hrun]
    exact h.next (resampled_apply m call hrun)

theorem Follows.passed (h : Follows moments m) (calls : List Call) :
    Follows (moments ++ m.passed calls) (m.after calls) := by
  induction calls generalizing moments m with
  | nil => simpa only [Machine.passed, Machine.after, List.foldl_nil, List.append_nil] using h
  | cons call calls ih =>
    rw [Machine.passed, ← List.append_assoc]
    exact ih (h.call call)

/-- The joypad requests its interrupt only if a line has gone low that was high at some moment. -/
theorem Follows.fallen {s : Machine} (h : Remembers moments s) {bus : Bus}
    (hbus : bus = s.bus ∨ bus = (Board.step s).2.bus) {n : Device → Nat}
    (hrequested : .joypad ∈ bus.requested n) :
    ∃ moment ∈ moments, moment.bus.joypad.lines &&& ~~~ bus.joypad.lines ≠ 0 := by
  obtain ⟨moment, hmem, hlines⟩ := h
  have hsampled : bus.joypad.sampled = s.bus.joypad.sampled := by
    rcases hbus with rfl | rfl
    · rfl
    · exact sampled_boardStep s
  refine ⟨moment, hmem, fun hnone ↦ bus.joypad_not_mem_requested ?_ n hrequested⟩
  rw [Joypad.fallen, hsampled, ← hlines]
  exact hnone

/-! ### A reset and what comes after it -/

/-- Without an image that has been mapped, its place is empty. -/
theorem image_of_holdsRom {m : Machine} (h : m.bus.HoldsRom fun _ ↦ 0) :
    m.image = Array.replicate Location.romSize 0 := by
  apply Array.ext
  · simp [image]
  · intro i hi _
    have hi : i < Location.romSize := by simpa [image] using hi
    have ha : (UInt16.ofNat i).toNat = i :=
      UInt16.toNat_ofNat_of_lt (Nat.lt_trans hi (by decide))
    have hlt : (UInt16.ofNat i).toNat < Location.romSize := by
      rw [ha]
      exact hi
    have hread : m.bus.read (UInt16.ofNat i) = 0 := (Bus.read_eq_get hlt).trans (h.get_eq _ hlt)
    simpa [image] using hread

/-- **A reset forgets everything but the program image.** After any calls at all, and then a reset,
the machine gives the same answers to all further calls as one that has just been switched on with
the policy and the image as they are and with recording as it was chosen at the beginning, and it
looks the same after them. That is so if no button is held. If some are, they are still held, and
the machine that it is the same as is one on which they are held and have been sampled; so nothing
is requested for them. Generally, at every moment after the reset, whether the devices catch up then
or after the CPU has made its step, the joypad requests its interrupt only if a selected line is low
that was high at some moment since the reset. -/
theorem reset_forgets (config : Config) (before : List Call) :
    let m := (powerOn config).after before
    ((∀ rom, .op (.loadRom rom) ∉ before) → m.image = Array.replicate 0x8000 0) ∧
    ((∀ button, m.bus.joypad.isHeld button = false) → ∀ later,
      m.reset.answers later = (m.renewed config.capture).answers later ∧
        (m.reset.after later).view = ((m.renewed config.capture).after later).view) ∧
    (m.reset.view.held = m.view.held ∧ ∀ later,
      m.reset.answers later =
          ((m.renewed config.capture).holdAs m.bus.joypad).answers later ∧
        (m.reset.after later).view =
          (((m.renewed config.capture).holdAs m.bus.joypad).after later).view) ∧
    (∀ later past s future, m.reset :: m.reset.passed later = past ++ s :: future →
      ∀ bus, bus = s.bus ∨ bus = (Board.step s).2.bus → ∀ target,
        .joypad ∈ bus.requested (bus.advances target) →
          ∃ moment ∈ past ++ [s], moment.bus.joypad.lines &&& ~~~ bus.joypad.lines ≠ 0) := by
  intro m
  have hcapture : m.bus.serial.capture = config.capture :=
    after_induction (Bus.kept_capture config.capture) _ before (fun _ _ _ h ↦ h) rfl
  have halike := m.reset_alike
  rw [hcapture] at halike
  refine ⟨fun hnone ↦ ?_, fun hheld later ↦ ?_, ⟨rfl, fun later ↦ halike.answers_eq later⟩, ?_⟩
  · refine image_of_holdsRom (after_induction (Bus.kept_holdsRom fun _ ↦ 0) _ before ?_
      (Bus.holdsRom_powerOn config.capture))
    exact fun rom hrom ↦ absurd hrom (hnone rom)
  · rw [holdAs_eq_self hheld _ rfl] at halike
    exact halike.answers_eq later
  · intro later past s future hsplit bus hbus target hrequested
    have hfollows : Follows ([m.reset] ++ m.reset.passed later) (m.reset.after later) :=
      (follows_singleton (m := m.reset) rfl).passed later
    exact Follows.fallen (hfollows.remembered past s future hsplit) hbus hrequested

/-- EI is stored in work memory and executed there, so that a request waits in the ring. -/
def requesting : List Call := [.op (.write 0xC000 0xFB), .set (.regs { pc := 0xC000 }), .executeOne]

/-- The remains of the request survive the reset and do not show; and a button that is pressed
afterwards pulls a line low that was high. -/
theorem reset_forgets_of_requesting :
    let m := (powerOn {}).after requesting
    m.image = Array.replicate 0x8000 0 ∧ m.reset.cpu ≠ (m.renewed true).cpu ∧
      m.reset.answers [.op .step, .stepCpu] = (m.renewed true).answers [.op .step, .stepCpu] ∧
      ∃ moment ∈ [m.reset, m.reset.after [.op (.setButton .start true)]],
        moment.bus.joypad.lines &&& 0x8 ≠ 0 := by
  intro m
  obtain ⟨himage, hfree, -, hlines⟩ := reset_forgets {} requesting
  have hanswers := hfree (fun button ↦ by cases button <;> rfl) [.op .step, .stepCpu]
  refine ⟨himage fun rom hrom ↦ by simp [requesting] at hrom, by decide, hanswers.1, ?_⟩
  exact hlines [.op (.setButton .start true)] [m.reset] _ [] rfl _ (.inl rfl) 4 (by decide)

end Machine

end GameBoy
