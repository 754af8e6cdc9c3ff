import GameBoy.Proofs.Cpu.Interrupts

/-!
# What the CPU can know of its port

The CPU meets its port through three operations and looks at nothing else. So a map between ports
that respects the three — a **port homomorphism** — cannot be noticed by any instruction, and a step
on the image of a board is the image of the step:

```
(s.map f).step = (s.step.1, s.step.2.map f)
```

`map_step` is that statement, and the lemmas before it are the same statement for the moves out of
which a step is made. It is proved by one pass over the instructions, and the pass need not be made
again: whatever is asked about the port side of a step is asked of a homomorphism.

* Records are **erased** by a homomorphism that forgets them, so a board with a recording port makes
  the same step as the board without.
* A property that the three operations keep holds after a step if it held before
  (`step_invariant`): the ports with the property form a port, and its inclusion is a homomorphism.
  No second pass over the instructions is made for this.

Nothing here says that reading is free of effects, or that what is written can be read back.
-/

namespace GameBoy

/-- A map between ports that respects reading, writing and being told of events. -/
structure Port.Hom {M N : Type} [Port M] [Port N] (f : M → N) : Prop where
  /-- Both ports answer a read alike, and stay related. -/
  map_read : ∀ m a, Port.read (f m) a = ((Port.read m a).1, f (Port.read m a).2)
  /-- Both ports stay related after a write. -/
  map_write : ∀ m a v, Port.write (f m) a v = f (Port.write m a v)
  /-- Both ports stay related after an event. -/
  map_note : ∀ m e, Port.note (f m) e = f (Port.note m e)

namespace Board

variable {M N : Type}

/-- The board with its port replaced by the image of it. -/
def map (f : M → N) (s : Board M) : Board N := ⟨s.cpu, f s.bus⟩

/-- What a move delivers, with the port replaced by the image of it. -/
def mapResult {α : Type} (f : M → N) (r : α × Board M) : α × Board N := (r.1, r.2.map f)

@[simp] theorem map_cpu (f : M → N) (s : Board M) : (s.map f).cpu = s.cpu := rfl

@[simp] theorem map_bus (f : M → N) (s : Board M) : (s.map f).bus = f s.bus := rfl

/-! ### Moves that leave the port alone -/

section Cpu

variable (f : M → N) (s : Board M)

@[simp] theorem map_setRegs (r : Registers) : (s.map f).setRegs r = (s.setRegs r).map f := rfl

@[simp] theorem map_setPC (pc : UInt16) : (s.map f).setPC pc = (s.setPC pc).map f := rfl

@[simp] theorem map_setSP (sp : UInt16) : (s.map f).setSP sp = (s.setSP sp).map f := rfl

@[simp] theorem map_setA (a : UInt8) : (s.map f).setA a = (s.setA a).map f := rfl

@[simp] theorem map_setFlags (fs : Flags) : (s.map f).setFlags fs = (s.setFlags fs).map f := rfl

@[simp] theorem map_setPower (p : Power) : (s.map f).setPower p = (s.setPower p).map f := rfl

@[simp] theorem map_setIme (ime : Bool) : (s.map f).setIme ime = (s.setIme ime).map f := rfl

@[simp] theorem map_elapse (ticks : Nat) : (s.map f).elapse ticks = (s.elapse ticks).map f := rfl

@[simp] theorem map_pair (p : Pair) : (s.map f).pair p = s.pair p := by
  cases p <;> rfl

@[simp] theorem map_stackPair (p : StackPair) : (s.map f).stackPair p = s.stackPair p := by
  cases p <;> rfl

@[simp] theorem map_setPair (p : Pair) (w : UInt16) :
    (s.map f).setPair p w = (s.setPair p w).map f := by
  cases p <;> rfl

@[simp] theorem map_setStackPair (p : StackPair) (w : UInt16) :
    (s.map f).setStackPair p w = (s.setStackPair p w).map f := by
  cases p <;> rfl

@[simp] theorem map_follow (p : Pointer) : (s.map f).follow p = mapResult f (s.follow p) := by
  cases p <;> rfl

@[simp] theorem map_alu (op : AluOp) (v : UInt8) : (s.map f).alu op v = (s.alu op v).map f := rfl

@[simp] theorem map_rollBack (attention : Attention) (pc : UInt16) :
    (s.map f).rollBack attention pc = (s.rollBack attention pc).map f := by
  cases attention <;> rfl

end Cpu

/-! ### Moves that reach the port -/

variable [Port M] [Port N] {f : M → N} (hf : Port.Hom f) (s : Board M)
include hf

theorem map_read (a : UInt16) : (s.map f).read a = mapResult f (s.read a) := by
  simp only [read, map, mapResult, hf.map_read]

theorem map_write (a : UInt16) (v : UInt8) : (s.map f).write a v = (s.write a v).map f := by
  simp only [write, map, hf.map_write]

/-- An event is told on both sides. -/
theorem map_note (e : Event) : (s.map f).note e = (s.note e).map f := by
  simp only [note, map, hf.map_note]

/-- The same byte is fetched on both sides. -/
theorem map_fetch : (s.map f).fetch = mapResult f s.fetch := by
  simp only [fetch, map_read hf, mapResult, map_cpu, map_setPC]

theorem map_fetchWord : (s.map f).fetchWord = mapResult f s.fetchWord := by
  simp only [fetchWord, map_fetch hf, mapResult]

theorem map_pushWord (w : UInt16) : (s.map f).pushWord w = (s.pushWord w).map f := by
  simp only [pushWord, map_cpu, map_setSP, map_write hf]

theorem map_popWord : (s.map f).popWord = mapResult f s.popWord := by
  simp only [popWord, map_read hf, mapResult, map_cpu, map_setSP]

theorem map_readOperand (src : Operand) :
    (s.map f).readOperand src = mapResult f (s.readOperand src) := by
  cases src with
  | atHL => exact map_read hf s _
  | _ => rfl

theorem map_writeOperand (dst : Operand) (v : UInt8) :
    (s.map f).writeOperand dst v = (s.writeOperand dst v).map f := by
  cases dst with
  | atHL => exact map_write hf s _ v
  | _ => rfl

/-- A word is written alike on both sides. -/
theorem map_writeWord (a w : UInt16) :
    Port.writeWord (f s.bus) a w = f (Port.writeWord s.bus a w) := by
  simp only [Port.writeWord, hf.map_write]

/-! ### Instructions -/

theorem map_modify (dst : Operand) (g : UInt8 → Flags → UInt8 × Flags) :
    (s.map f).modify dst g = (s.modify dst g).map f := by
  simp only [modify, map_readOperand hf, mapResult, map_cpu, map_setFlags, map_writeOperand hf]

theorem map_jumpRelative (taken : Bool) :
    (s.map f).jumpRelative taken = mapResult f (s.jumpRelative taken) := by
  cases taken <;> simp only [jumpRelative, map_fetch hf, mapResult, map_cpu, map_setPC] <;> rfl

theorem map_jump (taken : Bool) : (s.map f).jump taken = mapResult f (s.jump taken) := by
  cases taken <;> simp only [jump, map_fetchWord hf, mapResult, map_setPC] <;> rfl

theorem map_call (taken : Bool) : (s.map f).call taken = mapResult f (s.call taken) := by
  cases taken <;>
    simp only [call, map_fetchWord hf, mapResult, map_cpu, map_pushWord hf, map_setPC] <;> rfl

theorem map_ret : (s.map f).ret = s.ret.map f := by
  simp only [ret, map_popWord hf, mapResult, map_setPC]

theorem map_execute (i : Instruction) : (s.map f).execute i = mapResult f (s.execute i) := by
  cases i with
  | di | ei => rfl
  | retIf guard =>
    simp only [execute, map_cpu, map_ret hf]
    split <;> rfl
  | storeSP =>
    simp only [execute, map_fetchWord hf, mapResult, map_bus, map_cpu, map_writeWord hf]
    rfl
  | _ =>
    simp only [execute, mapResult, map_cpu, map_setRegs, map_setPC, map_setSP, map_setA,
      map_setFlags, map_setPower, map_setIme, map_pair, map_stackPair, map_setPair,
      map_setStackPair, map_follow, map_alu, map_read hf, map_write hf, map_fetch hf,
      map_fetchWord hf, map_pushWord hf, map_popWord hf, map_readOperand hf, map_writeOperand hf,
      map_modify hf, map_jumpRelative hf, map_jump hf, map_call hf, map_ret hf]

theorem map_executeBit (i : BitInstruction) :
    (s.map f).executeBit i = mapResult f (s.executeBit i) := by
  cases i <;>
    simp only [executeBit, mapResult, map_cpu, map_setFlags, map_readOperand hf, map_modify hf]

/-! ### Steps -/

omit [Port M] [Port N] hf in
theorem map_charge (ticks : Nat) : (s.map f).charge ticks = mapResult f (s.charge ticks) := rfl

theorem map_meetHole (owed : Nat) (opcode : UInt8) (pc : UInt16) :
    (s.map f).meetHole owed opcode pc = mapResult f (s.meetHole owed opcode pc) := by
  simp only [meetHole, map_cpu, map_setPC, map_note hf, map_charge]
  split <;> rfl

theorem map_executeOpcode (owed : Nat) (opcode : UInt8) (pc : UInt16) :
    (s.map f).executeOpcode owed opcode pc = mapResult f (s.executeOpcode owed opcode pc) := by
  simp only [executeOpcode]
  split
  · simp only [map_execute hf, mapResult, map_charge]
  · simp only [map_fetch hf, mapResult, map_executeBit hf, map_charge]
  · exact map_meetHole hf s owed opcode pc
  · exact map_meetHole hf s owed opcode pc

/-- **An instruction does the same on both sides.** -/
theorem map_executeOne : (s.map f).executeOne = mapResult f s.executeOne := by
  simp only [executeOne, map_cpu, map_fetch hf, mapResult, map_note hf, map_executeOpcode hf]
  split <;> rfl

theorem map_dispatch (source : Interrupt) (pending enabled : InterruptSet) :
    (s.map f).dispatch source pending enabled = (s.dispatch source pending enabled).map f := by
  simp only [dispatch, map_cpu, map_write hf, map_setIme, map_pushWord hf, map_setPC, map_elapse,
    map_note hf]

theorem map_urgent? (pending : InterruptSet) : (s.map f).urgent? pending = s.urgent? pending := by
  simp only [urgent?, map_read hf, mapResult]

omit [Port M] [Port N] hf in
theorem map_endHalt : (s.map f).endHalt = s.endHalt.map f := by
  by_cases hpower : s.cpu.power = .halted <;> simp [endHalt, hpower]

/-- The same source is attended to on both sides. -/
theorem map_attend (pending : InterruptSet) :
    (s.map f).attend pending = mapResult f (s.attend pending) := by
  have hurgent := map_urgent? hf s pending
  cases hsource : s.urgent? pending with
  | none =>
    by_cases hlook : s.cpu.ime = true ∨ s.cpu.power = .halted
    · rw [attend_of_none s pending hlook hsource,
        attend_of_none (s.map f) pending hlook (hurgent.trans hsource), map_read hf]
      rfl
    · obtain ⟨hime, hpower⟩ := not_or.mp hlook
      rw [attend_of_unheeded s pending (by simpa using hime) hpower,
        attend_of_unheeded (s.map f) pending (by simpa using hime) hpower]
      rfl
  | some source =>
    by_cases hime : s.cpu.ime = true
    · rw [attend_of_dispatched s pending hime hsource,
        attend_of_dispatched (s.map f) pending hime (hurgent.trans hsource)]
      simp only [map_read hf, mapResult, map_endHalt, map_dispatch hf]
    · have hime : s.cpu.ime = false := by simpa using hime
      by_cases hpower : s.cpu.power = .halted
      · rw [attend_of_haltEnded s pending hime hpower hsource,
          attend_of_haltEnded (s.map f) pending hime hpower (hurgent.trans hsource)]
        simp only [map_read hf, mapResult, map_setPower, map_note hf, map_cpu]
      · rw [attend_of_unheeded s pending hime hpower,
          attend_of_unheeded (s.map f) pending hime hpower]
        rfl

/-- **Interrupts are looked at alike on both sides.** -/
theorem map_serviceInterrupts :
    (s.map f).serviceInterrupts = mapResult f s.serviceInterrupts := by
  simp only [serviceInterrupts, map_read hf, mapResult, map_cpu, map_note hf, map_setPower,
    map_attend hf]
  split
  · split <;> rfl
  · rfl

theorem map_executeOrSleep : (s.map f).executeOrSleep = mapResult f s.executeOrSleep := by
  simp only [executeOrSleep, map_cpu, map_executeOne hf, map_charge]
  split <;> rfl

theorem map_applyDueIme : (s.map f).applyDueIme = s.applyDueIme.map f := by
  simp only [applyDueIme, map_cpu, map_note hf]
  split <;> rfl

/-- What follows the interrupts in a step is the same on both sides. -/
theorem map_finish (attention : Attention) (start : Cpu) :
    (s.map f).finish attention start = mapResult f (s.finish attention start) := by
  simp only [finish, map_executeOrSleep hf, mapResult]
  rcases s.executeOrSleep with ⟨_ | _, s'⟩
  · rfl
  · simp only [map_applyDueIme hf, map_rollBack, map_cpu]

/-- **A step cannot tell a port from its image.** -/
theorem map_step : (s.map f).step = mapResult f s.step := by
  rw [step_eq_finish, step_eq_finish, map_serviceInterrupts hf, map_cpu]
  exact map_finish hf s.serviceInterrupts.2 s.serviceInterrupts.1 s.cpu

end Board

/-! ### Properties that accesses keep -/

/-- A property of ports that reading, writing and being told of events keep. -/
structure Port.Invariant {M : Type} [Port M] (P : M → Prop) : Prop where
  /-- A read keeps it. -/
  read : ∀ m a, P m → P (Port.read m a).2
  /-- A write keeps it. -/
  write : ∀ m a v, P m → P (Port.write m a v)
  /-- An event keeps it. -/
  note : ∀ m e, P m → P (Port.note m e)

namespace Port.Invariant

variable {M : Type} [Port M] {P : M → Prop}

/-- The ports with the property, as a port. -/
@[reducible] def port (h : Port.Invariant P) : Port { m // P m } where
  read m a := ((Port.read m.1 a).1, ⟨(Port.read m.1 a).2, h.read m.1 a m.2⟩)
  write m a v := ⟨Port.write m.1 a v, h.write m.1 a v m.2⟩
  note m e := ⟨Port.note m.1 e, h.note m.1 e m.2⟩

theorem hom_val (h : Port.Invariant P) :
    let _ := h.port
    Port.Hom (Subtype.val : { m // P m } → M) :=
  let _ := h.port
  ⟨fun _ _ ↦ rfl, fun _ _ _ ↦ rfl, fun _ _ ↦ rfl⟩

/-- What accesses keep, every stage keeps that cannot tell a port from its image. -/
theorem of_map (h : Port.Invariant P) {α : Type}
    (stage : {N : Type} → [Port N] → Board N → α × Board N)
    (hstage : ∀ {N N' : Type} [Port N] [Port N'] {f : N → N'}, Port.Hom f → ∀ s : Board N,
      stage (s.map f) = Board.mapResult f (stage s))
    (s : Board M) (hs : P s.bus) : P (stage s).2.bus := by
  let _ := h.port
  have hmap := hstage h.hom_val ⟨s.cpu, ⟨s.bus, hs⟩⟩
  have hbus : (stage s).2.bus = (stage ⟨s.cpu, (⟨s.bus, hs⟩ : { m // P m })⟩).2.bus.1 :=
    congrArg (fun r ↦ r.2.bus) hmap
  rw [hbus]
  exact Subtype.property _

/-- **What accesses keep, a step keeps**, whether it succeeds or not. -/
theorem step (h : Port.Invariant P) (s : Board M) (hs : P s.bus) : P s.step.2.bus :=
  h.of_map Board.step Board.map_step s hs

end Port.Invariant

end GameBoy
