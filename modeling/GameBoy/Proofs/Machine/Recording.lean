import GameBoy.Proofs.Bus.Sent
import GameBoy.Proofs.Machine.Call
import GameBoy.Proofs.Machine.Steps

/-!
# Recording what is sent

Two machines that differ in what they have recorded, and in whether they record, behave alike: they
are the same once both are muted, and every call respects that (`Call.apply_muted`). All that can
tell them apart is to look at the record or to take it.

The record itself is what has been sent since it was last dropped, by a reset or because it was
taken (`Machine.output_after`). Which bytes a call sends is told by the accesses it makes:
`Call.sends` reads them off, and for a run it does so step by step, as the devices catch up in
between.
-/

namespace GameBoy

/-! ### The bytes sent -/

namespace Board

variable (s : Board Bus) (hcapture : s.bus.serial.capture = true)
include hcapture

/-- What is recorded during a stage is what its accesses send. -/
theorem output_of_map {α : Type} (stage : {N : Type} → [Port N] → Board N → α × Board N)
    (hstage : ∀ {N N' : Type} [Port N] [Port N'] {f : N → N'}, Port.Hom f → ∀ s : Board N,
      stage (s.map f) = mapResult f (stage s)) :
    (stage s).2.bus.serial.output.toList =
      s.bus.serial.output.toList ++ s.bus.sent (stage s.traced).2.bus.accesses := by
  have hinner : (stage s).2.bus = (stage s.traced).2.bus.inner :=
    congrArg (fun r ↦ r.2.bus) (hstage Traced.hom_inner s.traced)
  have happlied := (Traced.invariant_apply (fun _ _ ↦ rfl) s.bus).of_map stage hstage s.traced rfl
  rw [hinner, happlied]
  exact s.bus.output_foldl_apply hcapture _

theorem output_step :
    s.step.2.bus.serial.output.toList =
      s.bus.serial.output.toList ++ s.bus.sent s.traced.step.2.bus.accesses :=
  s.output_of_map hcapture step map_step

theorem output_executeOne :
    s.executeOne.2.bus.serial.output.toList =
      s.bus.serial.output.toList ++ s.bus.sent s.traced.executeOne.2.bus.accesses :=
  s.output_of_map hcapture executeOne map_executeOne

end Board

namespace Machine

/-- The bytes sent in a step. -/
def sentByStep (m : Machine) : List UInt8 := m.bus.sent (Board.traced m).step.2.bus.accesses

/-- The bytes sent in the steps that are made until the clock has reached `target`, and at most
`fuel` of them. -/
def sentUntil (target : Nat) : (fuel : Nat) → Machine → List UInt8
  | 0, _ => []
  | fuel + 1, m =>
    if m.cpu.clock < target then
      match step m with
      | (.error _, _) => m.sentByStep
      | (.ok _, m') => m.sentByStep ++ sentUntil target fuel m'
    else []

variable {m : Machine}

theorem output_step (hcapture : m.bus.serial.capture = true) :
    (step m).2.bus.serial.output.toList = m.bus.serial.output.toList ++ m.sentByStep := by
  have hran := Board.output_step m hcapture
  rcases hstep : step m with ⟨_ | t, m'⟩
  · rwa [step_error hstep] at hran
  · obtain ⟨s, hok, rfl⟩ := step_ok hstep
    rw [hok] at hran
    show (s.bus.catchUp s.cpu.clock).serial.output.toList = _
    rw [Bus.output_catchUp]
    exact hran

theorem capture_stepped (hcapture : m.bus.serial.capture = true) (n : Nat) :
    (m.stepped n).bus.serial.capture = true := by
  induction n with
  | zero => exact hcapture
  | succ n ih =>
    rw [stepped_succ]
    exact step_kept (Bus.kept_capture true) _ ih

/-- The output grows by what each step sends. -/
theorem output_stepped_succ (hcapture : m.bus.serial.capture = true) (n : Nat) :
    (m.stepped (n + 1)).bus.serial.output.toList =
      (m.stepped n).bus.serial.output.toList ++ (m.stepped n).sentByStep := by
  rw [stepped_succ]
  exact output_step (capture_stepped hcapture n)

/-- The record only grows. -/
theorem output_stepped_prefix (hcapture : m.bus.serial.capture = true) {j k : Nat} (hle : j ≤ k) :
    (m.stepped j).bus.serial.output.toList <+: (m.stepped k).bus.serial.output.toList := by
  induction hle with
  | refl => exact List.prefix_rfl
  | @step k _ ih =>
    rw [output_stepped_succ hcapture]
    exact ih.trans (List.prefix_append _ _)

/-- In between, nothing has been sent that had not been sent before or is gone after. -/
theorem output_stepped_of_between (hcapture : m.bus.serial.capture = true) {j n k : Nat}
    (hjn : j ≤ n) (hnk : n ≤ k) {bytes : List UInt8}
    (hj : (m.stepped j).bus.serial.output.toList = bytes)
    (hk : (m.stepped k).bus.serial.output.toList = bytes) :
    (m.stepped n).bus.serial.output.toList = bytes := by
  have hlower := output_stepped_prefix hcapture hjn
  have hupper := output_stepped_prefix hcapture hnk
  rw [hj] at hlower
  rw [hk] at hupper
  exact (hlower.eq_of_length_le hupper.length_le).symm

theorem output_runUntil (target fuel : Nat) (hcapture : m.bus.serial.capture = true) :
    (runUntil target fuel m).2.bus.serial.output.toList =
      m.bus.serial.output.toList ++ m.sentUntil target fuel := by
  induction fuel generalizing m with
  | zero => exact (List.append_nil _).symm
  | succ fuel ih =>
    have hsent := output_step hcapture
    have hkept := step_kept (Bus.kept_capture true) m hcapture
    rw [runUntil, sentUntil]
    split
    · rcases hstep : step m with ⟨_ | t, m'⟩
      · rwa [hstep] at hsent
      · rw [hstep] at hsent hkept
        rw [← List.append_assoc, ← hsent]
        exact ih hkept
    · exact (List.append_nil _).symm

theorem output_runForTicks (ticks : Nat) (hcapture : m.bus.serial.capture = true) :
    (runForTicks m ticks).2.bus.serial.output.toList =
      m.bus.serial.output.toList ++ m.sentUntil (min (m.cpu.clock + ticks) lastTick)
        (min (m.cpu.clock + ticks) lastTick - m.cpu.clock) := by
  rw [← output_runUntil _ _ hcapture]
  simp only [runForTicks]
  split <;> simp_all

end Machine

namespace Call

/-- The bytes that a call sends. -/
def sends (m : Machine) : Call → List UInt8
  | .op .step | .stepCpu => m.sentByStep
  | .op (.runForTicks ticks) =>
    let target := min (m.cpu.clock + ticks) lastTick
    m.sentUntil target (target - m.cpu.clock)
  | .executeOne => m.bus.sent (Board.traced m).executeOne.2.bus.accesses
  | .op (.write a v) => m.bus.sent [.write a v]
  | .writeWord a w => m.bus.sent [.write a (lowByte w), .write (a + 1) (highByte w)]
  | _ => []

/-- Whether a call drops what has been recorded. -/
def drops : Call → Bool
  | .op .reset | .resetBus | .takeSerialOutput => true
  | _ => false

/-- **What a call does to the record**: it drops it, or adds what it sends. -/
theorem output_apply (m : Machine) (call : Call) (hcapture : m.bus.serial.capture = true) :
    (call.apply m).bus.serial.output.toList =
      if call.drops then [] else m.bus.serial.output.toList ++ call.sends m := by
  have hsilent : m.bus.serial.output.toList = m.bus.serial.output.toList ++ [] :=
    (List.append_nil _).symm
  cases call with
  | op o =>
    cases o with
    | step => exact Machine.output_step hcapture
    | runForTicks ticks => exact Machine.output_runForTicks ticks hcapture
    | write a v => exact m.bus.output_foldl_apply hcapture [.write a v]
    | reset => rfl
    | setButton | loadRom | read | request => exact hsilent
  | stepCpu => exact Board.output_step m hcapture
  | executeOne => exact Board.output_executeOne m hcapture
  | writeWord a w =>
    exact m.bus.output_foldl_apply hcapture [.write a (lowByte w), .write (a + 1) (highByte w)]
  | catchUp target =>
    rw [apply, Bus.output_catchUp]
    exact hsilent
  | takeSerialOutput | resetBus => rfl
  | readWord | resetCpu | set => exact hsilent

end Call

namespace Machine

/-- The bytes that some calls have sent since the record was last dropped, behind those that were
there to begin with. -/
def sentSince (m : Machine) (before : List UInt8) : List Call → List UInt8
  | [] => before
  | call :: calls =>
    (call.apply m).sentSince (if call.drops then [] else before ++ call.sends m) calls

/-- **A machine that records has recorded what was sent** since the record was last dropped. -/
theorem output_after (m : Machine) (calls : List Call) (hcapture : m.bus.serial.capture = true) :
    (m.after calls).bus.serial.output.toList =
      m.sentSince m.bus.serial.output.toList calls := by
  induction calls generalizing m with
  | nil => rfl
  | cons call calls ih =>
    have hkept : (call.apply m).bus.serial.capture = true :=
      Call.apply_kept (Bus.kept_capture true) m call (fun _ _ ↦ hcapture) hcapture
    rw [sentSince, ← call.output_apply m hcapture]
    exact ih (call.apply m) hkept

/-! ### Leaving the record away -/

/-- The machine without a record of the bytes sent, and keeping none. -/
def muted (m : Machine) : Machine := Board.map Bus.muted m

theorem step_muted (m : Machine) : step m.muted = ((step m).1, (step m).2.muted) := by
  have hran : Board.step m.muted = Board.mapResult Bus.muted (Board.step m) :=
    Board.map_step Bus.hom_muted m
  simp only [step, hran, Board.mapResult]
  rcases Board.step m with ⟨_ | t, s⟩
  · rfl
  · exact congrArg (fun bus ↦ (Except.ok t, Board.mk s.cpu bus)) (s.bus.catchUp_muted s.cpu.clock)

theorem runUntil_muted (target fuel : Nat) (m : Machine) :
    runUntil target fuel m.muted =
      ((runUntil target fuel m).1, (runUntil target fuel m).2.muted) := by
  induction fuel generalizing m with
  | zero => rfl
  | succ fuel ih =>
    have hclock : m.muted.cpu.clock = m.cpu.clock := rfl
    rw [runUntil, runUntil, step_muted, hclock]
    split
    · rcases step m with ⟨_ | t, m'⟩
      · rfl
      · exact ih m'
    · rfl

theorem runForTicks_muted (m : Machine) (ticks : Nat) :
    runForTicks m.muted ticks = ((runForTicks m ticks).1, (runForTicks m ticks).2.muted) := by
  have hclock : m.muted.cpu.clock = m.cpu.clock := rfl
  simp only [runForTicks, hclock, runUntil_muted]
  rcases runUntil _ _ m with ⟨_ | u, m'⟩ <;> rfl

/-- The record is all that is lost to the eye. -/
theorem view_muted (m : Machine) : m.muted.view = { m.view with output := #[] } := by
  have hread : m.muted.bus.read = m.bus.read := funext m.bus.read_muted
  have hview : m.muted.view = { m.view with memory := m.muted.bus.read, output := #[] } := rfl
  rw [hview, hread]
  rfl

end Machine

namespace Call

/-- **A call does the same without a record.** -/
theorem apply_muted (m : Machine) (call : Call) : call.apply m.muted = (call.apply m).muted := by
  cases call with
  | op o =>
    cases o with
    | step => exact congrArg Prod.snd m.step_muted
    | runForTicks ticks => exact congrArg Prod.snd (m.runForTicks_muted ticks)
    | write a v => exact congrArg (Board.mk m.cpu) (m.bus.write_muted a v)
    | setButton | loadRom | reset | read | request => rfl
  | writeWord a w => exact congrArg (Board.mk m.cpu) (Board.map_writeWord Bus.hom_muted m a w)
  | catchUp target => exact congrArg (Board.mk m.cpu) (m.bus.catchUp_muted target)
  | stepCpu => exact congrArg Prod.snd (Board.map_step Bus.hom_muted m)
  | executeOne => exact congrArg Prod.snd (Board.map_executeOne Bus.hom_muted m)
  | takeSerialOutput | readWord | resetBus | resetCpu | set => rfl

/-- A call has the same answer without a record, unless the record is the answer. -/
theorem answer_muted (m : Machine) {call : Call} (htake : call ≠ .takeSerialOutput) :
    call.answer m.muted = call.answer m := by
  cases call with
  | op o =>
    cases o with
    | step => exact congrArg (fun r ↦ Answer.ticks r.1) m.step_muted
    | runForTicks ticks => exact congrArg (fun r ↦ Answer.ticks r.1) (m.runForTicks_muted ticks)
    | read a => exact congrArg Answer.byte (m.bus.read_muted a)
    | setButton | loadRom | reset | write | request => rfl
  | readWord a =>
    have hword : (Port.readWord m.muted.bus a).1 = (Port.readWord m.bus a).1 :=
      congrArg₂ (fun low high ↦ GameBoy.word high low) (m.bus.read_muted a)
        (m.bus.read_muted (a + 1))
    exact congrArg Answer.word hword
  | stepCpu => exact congrArg (fun r ↦ Answer.ticks r.1) (Board.map_step Bus.hom_muted m)
  | executeOne =>
    exact congrArg (fun r ↦ Answer.ticks r.1) (Board.map_executeOne Bus.hom_muted m)
  | takeSerialOutput => exact absurd rfl htake
  | writeWord | catchUp | resetBus | resetCpu | set => rfl

end Call

namespace Machine

theorem after_muted (m : Machine) (calls : List Call) :
    m.muted.after calls = (m.after calls).muted := by
  induction calls generalizing m with
  | nil => rfl
  | cons call calls ih =>
    show (call.apply m.muted).after calls = _
    rw [call.apply_muted]
    exact ih (call.apply m)

/-- **Recording only looks on.** Whatever is called on two machines that differ in what they have
recorded and in whether they record, they go on to differ in nothing else: they look the same but
for the record, and every further call has the same answer on both, unless it takes the record. And
the record of a machine that records is what it has sent since the record was last dropped. -/
theorem recording_looks_on {m m' : Machine} (h : m.muted = m'.muted) (calls : List Call) :
    (m.after calls).muted = (m'.after calls).muted ∧
      { (m.after calls).view with output := #[] } = { (m'.after calls).view with output := #[] } ∧
      (∀ call : Call, call ≠ .takeSerialOutput →
        call.answer (m.after calls) = call.answer (m'.after calls)) ∧
      (m.bus.serial.capture = true →
        (m.after calls).bus.serial.output.toList =
          m.sentSince m.bus.serial.output.toList calls) := by
  have hmuted : (m.after calls).muted = (m'.after calls).muted := by
    rw [← after_muted, h, after_muted]
  refine ⟨hmuted, ?_, fun call htake ↦ ?_, m.output_after calls⟩
  · rw [← view_muted, hmuted, view_muted]
  · rw [← Call.answer_muted _ htake, hmuted, Call.answer_muted _ htake]

/-- One byte is sent and taken, and then another one is sent by a word that reaches both registers
of the serial port. -/
def sendingTwice : List Call :=
  [.op (.write 0xFF01 0x48), .op (.write 0xFF02 0x81), .takeSerialOutput, .writeWord 0xFF01 0x8149]

/-- Only one of the two machines has recorded the second byte, and the next step of both is the
same. -/
theorem recording_looks_on_of_sendingTwice :
    let recording := powerOn {}
    let deaf := powerOn { capture := false }
    (deaf.after sendingTwice).bus.serial.output = #[] ∧
      (recording.after sendingTwice).bus.serial.output.toList = [0x49] ∧
      Call.stepCpu.answer (recording.after sendingTwice) =
        Call.stepCpu.answer (deaf.after sendingTwice) := by
  intro recording deaf
  have hmuted : recording.muted = deaf.muted := rfl
  obtain ⟨-, -, hanswers, hrecord⟩ := recording_looks_on hmuted sendingTwice
  exact ⟨rfl, hrecord rfl, hanswers .stepCpu (by simp)⟩

end Machine

end GameBoy
