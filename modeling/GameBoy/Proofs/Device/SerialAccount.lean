import GameBoy.Proofs.Bus.Sent
import GameBoy.Proofs.Device.Shifting
import GameBoy.Proofs.History

/-!
# Transfers that begin and transfers that end

A transfer of the serial port ends in one of two ways. Its last bit is shifted, and the interrupt is
requested; or it is cut short, by another write to the control register or by a reset. Whatever is
done with the port, one use begins a transfer at most and ends one at most, and what it ends was
going on before (`account_use`). So nothing gets lost over any number of uses: the transfers that
have begun are those that have been completed, those that have been cut short, and the one that is
going on (`account_used`).

Whether one is going on is told by the bits that are left, and by two bits of the control register
as well. That these agree is kept by every use (`Consistent`).
-/

namespace GameBoy.Serial

open Peripheral

/-! ### Uses -/

/-- Something that is done with a serial port. -/
inductive Use where
  /-- It advances. -/
  | advance
  /-- The data register is written. -/
  | setData (v : UInt8)
  /-- The control register is written. -/
  | setControl (v : UInt8)
  /-- The bytes that have been recorded are taken. -/
  | takeOutput
  /-- A reset. -/
  | reset
deriving DecidableEq

/-- The port after a use. -/
def use (p : Serial) : Use → Serial
  | .advance => (Peripheral.advance p ∅).1
  | .setData v => p.setData v
  | .setControl v => p.setControl v
  | .takeOutput => p.takeOutput.2
  | .reset => p.reset

/-- The port after some uses, one after the other. -/
def used (p : Serial) (uses : List Use) : Serial := uses.foldl use p

/-- The use begins a transfer. -/
def Use.begins : Use → Bool
  | .setControl v => Serial.begins v
  | _ => false

/-- The use completes a transfer: it is an advance in which the interrupt is requested. -/
def completes (p : Serial) : Use → Bool
  | .advance => decide (Requests .serial p)
  | _ => false

/-- The use cuts a transfer short: it is a write to the control register, or a reset, while a
transfer is going on. -/
def cutsShort (p : Serial) : Use → Bool
  | .setControl _ | .reset => p.active
  | _ => false

/-- In how many of some uses something happens to the port, as it is by then. -/
def occurrences (happens : Serial → Use → Bool) (p : Serial) : List Use → Nat
  | [] => 0
  | u :: uses => (happens p u).toNat + occurrences happens (p.use u) uses

/-! ### One use -/

section Use

variable (p : Serial)

theorem advance_eq_after :
    p.advance ∅ =
      (p.after 1, if p.bitsLeft = 1 then InterruptSet.insert ∅ .serial else ∅) := by
  have hadvance := p.advance_after 0 ∅
  rwa [after_zero] at hadvance

/-- The interrupt is requested when the last bit is shifted. -/
theorem requests_iff : Requests .serial p ↔ p.bitsLeft = 1 := by
  show .serial ∈ (p.advance ∅).2 ↔ _
  rw [advance_eq_after]
  split
  · next hlast => exact iff_of_true (InterruptSet.mem_insert.mpr (.inr rfl)) hlast
  · next hmore => exact iff_of_false InterruptSet.not_mem_empty hmore

theorem use_advance : p.use .advance = p.after 1 := congrArg Prod.fst p.advance_eq_after

/-- A write to the control register begins a transfer, or no transfer is going on afterwards. -/
theorem active_setControl (v : UInt8) : (p.setControl v).active = begins v := by
  cases hbegins : begins v <;> simp [setControl, active, hbegins]

/-- **What a use does to the account.** A transfer that begins, or has been going on before, is
completed, cut short, or going on afterwards. -/
theorem account_use (u : Use) :
    u.begins.toNat + p.active.toNat =
      (p.completes u).toNat + (p.cutsShort u).toNat + (p.use u).active.toNat := by
  cases u with
  | advance =>
    have hlast : decide (Requests .serial p) = decide (p.bitsLeft = 1) :=
      decide_eq_decide.mpr p.requests_iff
    have hnext : (p.use .advance).active = (p.bitsLeft - 1 != 0) := by
      rw [use_advance]
      rfl
    show 0 + (p.bitsLeft != 0).toNat =
      (decide (Requests .serial p)).toNat + 0 + (p.use .advance).active.toNat
    rw [hlast, hnext]
    -- There is no bit left, one, or more than one.
    rcases p.bitsLeft with _ | _ | left <;> rfl
  | setData | takeOutput => rfl
  | setControl v =>
    show (begins v).toNat + p.active.toNat = 0 + p.active.toNat + (p.setControl v).active.toNat
    rw [active_setControl, Nat.zero_add, Nat.add_comm]
  | reset => rfl

/-- What a use does to the record. -/
theorem output_use (u : Use) :
    (p.use u).output =
      if u = .takeOutput ∨ u = .reset then #[]
      else if u.begins = true ∧ p.capture = true then p.output.push p.data else p.output := by
  cases u with
  | advance => exact p.output_advance ∅
  | setData v => rfl
  | setControl v =>
    show (p.setControl v).output =
      if begins v = true ∧ p.capture = true then p.output.push p.data else p.output
    simp only [setControl]
    split
    · next hbegins => simp only [hbegins, true_and]
    · next hnone => rw [if_neg fun h ↦ hnone h.1]
  | takeOutput => rfl
  | reset => rfl

/-- The bits that are left and the control register agree on whether a transfer is going on. -/
structure Consistent (p : Serial) : Prop where
  /-- There are no more bits than a byte has. -/
  bitsLeft_le : p.bitsLeft ≤ 8
  /-- The control register tells whether some are left. -/
  active_iff : p.active = true ↔ p.requested = true ∧ p.internalClock = true

theorem testBit_control :
    p.control.toNat.testBit 7 = p.requested ∧ p.control.toNat.testBit 0 = p.internalClock := by
  rw [control]
  cases p.requested <;> cases p.internalClock <;> exact ⟨rfl, rfl⟩

theorem Consistent.use {p : Serial} (h : p.Consistent) (u : Use) : (p.use u).Consistent := by
  obtain ⟨hbits, hactive⟩ := h
  cases u with
  | advance =>
    show (p.advance ∅).1.Consistent
    rcases hleft : p.bitsLeft with _ | _ | left
    · rw [advance_of_idle ∅ hleft]
      exact ⟨hbits, hactive⟩
    · rw [advance_of_last ∅ hleft]
      exact ⟨Nat.zero_le 8, iff_of_false Bool.false_ne_true fun h ↦ Bool.false_ne_true h.1⟩
    · rw [advance_of_more ∅ hleft (Nat.succ_ne_zero left)]
      have hbusy : p.active = true := by
        rw [active, hleft]
        rfl
      refine ⟨?_, iff_of_true rfl (hactive.mp hbusy)⟩
      show left + 1 ≤ 8
      omega
  | setControl v =>
    show (p.setControl v).Consistent
    refine ⟨?_, ?_⟩
    · simp only [setControl]
      split
      · exact Nat.le_refl 8
      · exact Nat.zero_le 8
    · rw [active_setControl, begins, Bool.and_eq_true]
      simp only [setControl]
      split <;> rfl
  | setData | takeOutput => exact ⟨hbits, hactive⟩
  | reset => exact ⟨Nat.zero_le 8, iff_of_false Bool.false_ne_true fun h ↦ Bool.false_ne_true h.1⟩

/-- Whether the port records is not changed by any use. -/
theorem capture_use (u : Use) : (p.use u).capture = p.capture := by
  cases u with
  | advance => exact p.capture_advance ∅
  | setControl v => exact p.capture_setControl v
  | setData | takeOutput | reset => rfl

end Use

/-! ### Any number of uses -/

/-- **The account over some uses**, whatever the port is like at first. -/
theorem account_used (p : Serial) (uses : List Use) :
    uses.countP Use.begins + p.active.toNat =
      occurrences completes p uses + occurrences cutsShort p uses + (p.used uses).active.toNat := by
  induction uses generalizing p with
  | nil => exact (Nat.zero_add _).trans (Nat.zero_add _).symm
  | cons u uses ih =>
    have hfirst := p.account_use u
    have hrest := ih (p.use u)
    have hbegins : (u :: uses).countP Use.begins = uses.countP Use.begins + u.begins.toNat := by
      rw [List.countP_cons]
      cases u.begins <;> rfl
    rw [hbegins, occurrences, occurrences]
    show _ = _ + _ + ((p.use u).used uses).active.toNat
    omega

theorem used_induction {motive : Serial → Prop} (huse : ∀ p u, motive p → motive (p.use u))
    {p : Serial} (h : motive p) (uses : List Use) : motive (p.used uses) := by
  induction uses generalizing p with
  | nil => exact h
  | cons u uses ih => exact ih (huse p u h)

/-- **Nothing is lost between the beginning of a transfer and its end.** Whatever has been done with
a serial port since power-on, there are 8 bits left at most, and some are left if and only if the
control register shows bits 7 and 0. The transfers that have begun are as many as the interrupts
that have been requested and the transfers that have been cut short, together with the one that may
be going on. If the port records, each use that begins a transfer adds the byte in the data register
to what has been recorded; and no other use adds anything, though taking the bytes and a reset leave
none. -/
theorem transfers_account (capture : Bool) (uses : List Use) :
    let start : Serial := { capture }
    let p := start.used uses
    p.bitsLeft ≤ 8 ∧
      (p.active = true ↔
        p.control.toNat.testBit 7 = true ∧ p.control.toNat.testBit 0 = true) ∧
      uses.countP Use.begins =
        occurrences completes start uses + occurrences cutsShort start uses + p.active.toNat ∧
      ∀ u : Use, (p.use u).output =
        if u = .takeOutput ∨ u = .reset then #[]
        else if u.begins = true ∧ capture = true then p.output.push p.data else p.output := by
  intro start p
  have hconsistent : p.Consistent := by
    refine used_induction (fun _ u h ↦ h.use u) ⟨Nat.zero_le 8, ?_⟩ uses
    exact iff_of_false Bool.false_ne_true fun h ↦ Bool.false_ne_true h.1
  have hcapture : p.capture = capture :=
    used_induction (motive := fun p ↦ p.capture = capture)
      (fun p u h ↦ (p.capture_use u).trans h) rfl uses
  refine ⟨hconsistent.bitsLeft_le, ?_, ?_, fun u ↦ ?_⟩
  · rw [p.testBit_control.1, p.testBit_control.2]
    exact hconsistent.active_iff
  · exact start.account_used uses
  · rw [← hcapture]
    exact p.output_use u

/-- A transfer is begun, cut short by a second one, and that one is completed. -/
example :
    let start : Serial := { capture := false }
    let uses : List Use :=
      [.setData 0x42, .setControl 0x81, .advance, .setControl 0x81] ++ List.replicate 8 .advance
    uses.countP Use.begins = 2 ∧ occurrences cutsShort start uses = 1 ∧
      occurrences completes start uses = 1 := by
  decide

end GameBoy.Serial
