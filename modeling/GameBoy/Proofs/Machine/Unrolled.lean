import GameBoy.Proofs.Machine.Session

/-!
# Sessions step by step

A run for some time is one call that makes many steps. `Session.unrolled` lists the steps in its
place, so that a session becomes a list of calls none of which makes more than one step; it is the
same session (`run_unrolled`). What is between two calls of such a list is between two steps or next
to none, and every moment that a statement about steps may be about lies there.

The record of writes only grows until a reset (`writes_prefix_run`). `Session.ends` are the clocks
at which the steps of some calls have ended, those that fail left out.
-/

namespace GameBoy.Session

/-- Operations may be made in two parts. -/
theorem run_append (s : Session) (ops ops' : List Operation) :
    s.run (ops ++ ops') = (s.run ops).run ops' :=
  List.foldl_append

/-! ### Runs step by step -/

/-- A call as a list of calls none of which makes more than one step. -/
def unroll (s : Session) : Operation → List Operation
  | .runForTicks ticks => (s.steps (.runForTicks ticks)).map fun _ ↦ .step
  | op => [op]

/-- Some calls, made one after the other, none of which makes more than one step. -/
def unrolled (s : Session) : List Operation → List Operation
  | [] => []
  | op :: ops => s.unroll op ++ (s.apply op).unrolled ops

theorem run_steps (target fuel : Nat) (s : Session) :
    s.run ((stepsUntil target fuel s).map fun _ ↦ .step) = s.last (stepsUntil target fuel s) := by
  induction fuel generalizing s with
  | zero => rfl
  | succ fuel ih =>
    rw [stepsUntil]
    split
    · rcases hs : s.step with ⟨_ | t, s'⟩
      · exact congrArg Prod.snd hs
      · have hstep : s.apply .step = s' := congrArg Prod.snd hs
        show (s.apply .step).run _ = _
        rw [hstep]
        exact ih s'
    · rfl

theorem run_unroll (s : Session) (op : Operation) : s.run (s.unroll op) = s.apply op := by
  cases op with
  | runForTicks ticks => exact (run_steps _ _ s).trans (s.apply_runForTicks ticks).symm
  | _ => rfl

/-- **Step by step, a session is the same.** -/
theorem run_unrolled (s : Session) (ops : List Operation) : s.run (s.unrolled ops) = s.run ops := by
  induction ops generalizing s with
  | nil => rfl
  | cons op ops ih =>
    rw [unrolled, run_append, run_unroll, ih]
    rfl

/-- There is no run left when all runs have been unrolled. -/
theorem not_mem_unrolled (s : Session) (ops : List Operation) (ticks : Nat) :
    .runForTicks ticks ∉ s.unrolled ops := by
  induction ops generalizing s with
  | nil => exact List.not_mem_nil
  | cons op ops ih =>
    rw [unrolled, List.mem_append]
    rintro (hop | hops)
    · cases op with
      | runForTicks ticks =>
        obtain ⟨_, -, hstep⟩ := List.mem_map.mp hop
        cases hstep
      | _ => cases List.mem_singleton.mp hop
    · exact ih _ hops

/-! ### Writes -/

theorem writes_prefix_apply (s : Session) {op : Operation} (hop : op ≠ .reset) :
    s.writes <+: (s.apply op).writes := by
  have hsteps := (steps_induction (P := fun s' : Session ↦ s.writes <+: s'.writes)
    (fun s' hs' ↦ hs'.trans (List.prefix_append ..)) s op List.prefix_rfl).1
  cases op with
  | reset => exact absurd rfl hop
  | write a v => exact List.prefix_append ..
  | _ => exact hsteps

/-- Until a reset the record only grows. -/
theorem writes_prefix_run (s : Session) {ops : List Operation} (h : .reset ∉ ops) :
    s.writes <+: (s.run ops).writes := by
  induction ops generalizing s with
  | nil => exact List.prefix_rfl
  | cons op ops ih =>
    obtain ⟨hop, hops⟩ := not_or.mp (mt List.mem_cons.mpr h)
    exact (s.writes_prefix_apply (Ne.symm hop)).trans (ih (s.apply op) hops)

/-- What has been written over some calls has been written in the first of them, or in the others. -/
theorem writes_run_cons {s : Session} {op : Operation} {ops : List Operation} {late : List Write}
    (hreset : .reset ∉ op :: ops) (hwrites : (s.run (op :: ops)).writes = s.writes ++ late) :
    ∃ now rest, late = now ++ rest ∧ (s.apply op).writes = s.writes ++ now ∧
      ((s.apply op).run ops).writes = (s.apply op).writes ++ rest := by
  obtain ⟨hop, hops⟩ := not_or.mp (mt List.mem_cons.mpr hreset)
  obtain ⟨now, hnow⟩ := s.writes_prefix_apply (Ne.symm hop)
  obtain ⟨rest, hrest⟩ := (s.apply op).writes_prefix_run hops
  have hlist : s.writes ++ late = s.writes ++ (now ++ rest) := by
    rw [← List.append_assoc, hnow, hrest, ← hwrites]
    rfl
  exact ⟨now, rest, List.append_cancel_left hlist, hnow.symm, hrest.symm⟩

/-! ### Steps that succeed -/

/-- The clock at which a step has ended, if it has succeeded. -/
def endOf : Except Fault Nat × Session → Option Nat
  | (.ok _, s) => some s.machine.cpu.clock
  | (.error _, _) => none

/-- **The clocks at which the steps of some calls have ended**, if they have succeeded. -/
def ends (s : Session) : List Operation → List Nat
  | [] => []
  | op :: ops => (s.steps op).filterMap endOf ++ (s.apply op).ends ops

variable {s s' : Session} {t : Nat} (hstep : s.step = (.ok t, s'))
include hstep

/-- A session goes on after its first step. -/
theorem run_step_cons (ops : List Operation) : s.run (.step :: ops) = s'.run ops :=
  congrArg (fun r ↦ r.2.run ops) hstep

/-- The times at which steps end, the first of them in front. -/
theorem ends_step_cons (ops : List Operation) :
    s.ends (.step :: ops) = s'.machine.cpu.clock :: s'.ends ops := by
  rw [ends, steps, hstep]
  exact congrArg (fun r ↦ s'.machine.cpu.clock :: r.2.ends ops) hstep

omit hstep in
/-- The times are those of the two parts. -/
theorem ends_append (s : Session) (ops ops' : List Operation) :
    s.ends (ops ++ ops') = s.ends ops ++ (s.run ops).ends ops' := by
  induction ops generalizing s with
  | nil => rfl
  | cons op ops ih =>
    rw [List.cons_append, ends, ends, ih, List.append_assoc]
    rfl

end GameBoy.Session
