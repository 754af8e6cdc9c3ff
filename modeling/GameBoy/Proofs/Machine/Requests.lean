import GameBoy.Proofs.Bus.CatchUp
import GameBoy.Proofs.Cpu.InterruptPhase
import GameBoy.Proofs.Machine.Session

/-!
# No request is lost or invented

The pending requests change in two ways during a step of the machine. First the CPU moves, and all
it can do is store bytes in the request register: what is pending then is what the last of them
says, or what was pending before if there is none (`requests_bus_step`). The acknowledgement of a
source that is dispatched is one of these stores, and it is the first. Then the devices catch up,
and all they can do is add to what is pending.

Nothing comes between a read of the register by the CPU and the store that follows from it, as the
devices stand still until the CPU has finished. So a request is withdrawn only by the CPU, and what
the devices add does not depend on what is pending (`requests_step`).
-/

namespace GameBoy

/-! ### The CPU -/

theorem Bus.requests_write (bus : Bus) (a : UInt16) (v : UInt8) :
    (bus.write a v).requests = if a = requestAddress then .ofByte v else bus.requests := by
  by_cases ha : a = requestAddress
  · subst ha
    rfl
  · rw [if_neg ha]
    refine bus.write_induction (motive := fun b ↦ b.requests = bus.requests) (fun _ _ ↦ rfl)
      (fun r hr ↦ ?_) rfl
    cases r with
    | requests => exact absurd hr ha
    | _ => rfl

/-- What is pending once some bytes have been stored in the request register. -/
def requestsAfter (before : InterruptSet) (stored : List UInt8) : InterruptSet :=
  stored.getLast?.elim before .ofByte

/-- The requests are those that the accesses made so far have left. -/
theorem invariant_requests (before : InterruptSet) :
    Port.Invariant fun t : Traced Bus ↦
      t.inner.requests = requestsAfter before (storedAt requestAddress t.accesses) where
  read t a h := by
    rw [Traced.accesses_read, storedAt_append, storedAt_cons_read]
    exact h.trans (by simp [storedAt])
  write t a v h := by
    have hrequests : (Port.write t a v).inner.requests =
        if a = requestAddress then .ofByte v else t.inner.requests :=
      t.inner.requests_write a v
    rw [Traced.accesses_write, storedAt_append, storedAt_cons_write, hrequests]
    by_cases ha : a = requestAddress
    · simp [ha, storedAt, requestsAfter]
    · simpa [ha, storedAt] using h
  note _ _ h := h

namespace Board

variable (m : Board Bus)

/-- **What the CPU leaves pending** is what it has stored last. -/
theorem requests_bus_step :
    m.step.2.bus.requests = requestsAfter m.bus.requests (m.stored requestAddress) := by
  rw [bus_step_traced]
  exact (invariant_requests m.bus.requests).step m.traced rfl

theorem ofByte_requestByte : InterruptSet.ofByte m.requestByte = m.bus.requests :=
  InterruptSet.ofByte_toByte_or m.bus.requests

/-- **A dispatch begins with its acknowledgement**, which withdraws the request of one source that
was pending. -/
theorem stored_of_dispatched {source : Interrupt}
    (h : m.serviceInterrupts.1 = .dispatched source) :
    source ∈ m.bus.requests ∧
      ∃ rest, m.stored requestAddress = (m.bus.requests.erase source).toByte :: rest := by
  obtain ⟨hawake, hime, hsource⟩ := (dispatched_iff m).mp h
  have hpending : source ∈ m.bus.requests := by
    have hurgent := InterruptSet.mem_of_highest? hsource
    rw [InterruptSet.mem_inter, ofByte_requestByte] at hurgent
    exact hurgent.2
  have hphase : m.traced.serviceInterrupts.2.bus.accesses = m.interruptPhase.2.2 := rfl
  have hbyte : m.pendingBits &&& ~~~ source.mask = (m.bus.requests.erase source).toByte := by
    rw [InterruptSet.toByte_erase, ← ofByte_requestByte, toByte_pending]
  rw [stored, accesses_step, hphase, interruptPhase_of_dispatched hawake hime hsource, hbyte]
  simp only [List.cons_append, storedAt_cons_read]
  rw [storedAt_cons_write, if_pos rfl]
  exact ⟨hpending, _, rfl⟩

end Board

/-! ### The devices -/

/-- Whatever is pending, catching up adds the same requests to it and does the same besides. -/
theorem Bus.catchUp_setRequests (bus : Bus) (requests : InterruptSet) (target : Nat) :
    { bus with requests }.catchUp target =
      { bus.catchUp target with requests := requests ∪ bus.requested (bus.advances target) } := by
  rw [catchUp_eq_advanced, catchUp_eq_advanced]
  rfl

/-! ### Steps of the machine -/

namespace Machine

/-- **No request is lost or invented.** What is pending after a step that succeeds is what the CPU
has left pending, together with what the devices have requested while they caught up; and what they
request does not depend on what is pending. The CPU has left what it stored in the request register
last, or what was pending before if it has stored nothing there. If it has stored nothing there but
the acknowledgement of a source, it has withdrawn the request of that source, and no other. -/
theorem requests_step {m m' : Machine} {t : Nat} (h : step m = (.ok t, m')) :
    ∃ raised : InterruptSet,
      (∀ source, source ∈ raised ↔ ∃ d : Device, source ∈ (Board.step m).2.bus.requestedBy
        ((Board.step m).2.bus.advances m'.cpu.clock d) d) ∧
      (∀ requests, { (Board.step m).2.bus with requests }.catchUp m'.cpu.clock =
        { m'.bus with requests := requests ∪ raised }) ∧
      (Board.stored m 0xFF0F = [] → m'.bus.requests = m.bus.requests ∪ raised) ∧
      (∀ v, (Board.stored m 0xFF0F).getLast? = some v →
        m'.bus.requests = .ofByte (v &&& 0x1F) ∪ raised) ∧
      (∀ source, (Board.serviceInterrupts m).1 = .dispatched source →
        source ∈ m.bus.requests ∧
          ((Board.stored m 0xFF0F).length = 1 →
            m'.bus.requests = m.bus.requests.erase source ∪ raised)) := by
  have hbus : m'.bus = (Board.step m).2.bus.catchUp m'.cpu.clock := by
    obtain ⟨s, hrun, rfl⟩ := step_ok h
    rw [hrun]
  have hpending : m'.bus.requests = requestsAfter m.bus.requests (Board.stored m requestAddress) ∪
      (Board.step m).2.bus.requested ((Board.step m).2.bus.advances m'.cpu.clock) := by
    rw [hbus, Bus.catchUp_eq_advanced, ← Board.requests_bus_step]
    rfl
  refine ⟨_, fun _ ↦ Bus.mem_requested _, fun requests ↦ ?_, fun hnone ↦ ?_, fun v hlast ↦ ?_,
    fun source hsource ↦ ?_⟩
  · rw [hbus]
    exact Bus.catchUp_setRequests ..
  · have hkept : requestsAfter m.bus.requests (Board.stored m requestAddress) = m.bus.requests :=
      congrArg (requestsAfter m.bus.requests) hnone
    rw [hpending, hkept]
  · have hstored : (Board.stored m requestAddress).getLast? = some v := hlast
    rw [hpending, requestsAfter, hstored, InterruptSet.ofByte_and]
    rfl
  · obtain ⟨hmem, rest, hstored⟩ := Board.stored_of_dispatched m hsource
    refine ⟨hmem, fun honly ↦ ?_⟩
    have honly : (Board.stored m requestAddress).length = 1 := honly
    have hrest : rest = [] := by simpa [hstored] using honly
    rw [hpending, hstored, hrest, requestsAfter, List.getLast?_singleton, Option.elim_some,
      InterruptSet.ofByte_toByte]

/-- At power-on a request is pending. Here the vertical blank is enabled and the timer has just
overflowed. -/
def overflowing : Machine :=
  let m := powerOn {}
  let timer := { m.bus.timer with overflowed := true }
  { m with bus := { m.bus with enabled := 0x01, timer := timer } }

/-- The vertical blank is dispatched, and afterwards the timer adds a request. -/
theorem requests_step_of_overflowing :
    (step overflowing).1 = .ok 24 ∧ Board.stored overflowing 0xFF0F = [0x00] ∧
      ∃ raised : InterruptSet, .timer ∈ raised ∧
        (step overflowing).2.bus.requests = overflowing.bus.requests.erase .vblank ∪ raised := by
  have hstep : step overflowing = (.ok 24, (step overflowing).2) := rfl
  have hstored : Board.stored overflowing 0xFF0F = [0x00] := rfl
  obtain ⟨raised, hraised, -, -, -, hdispatched⟩ := requests_step hstep
  obtain ⟨-, hpending⟩ := hdispatched .vblank rfl
  exact ⟨rfl, hstored, raised, (hraised .timer).mpr ⟨.timer, by decide⟩,
    hpending (congrArg List.length hstored)⟩

end Machine

end GameBoy
