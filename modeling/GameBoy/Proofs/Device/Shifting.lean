import GameBoy.Proofs.Bus.CatchUp
import GameBoy.Proofs.Device.SerialLine
import GameBoy.Word
import Mathlib.Algebra.Group.Nat.Defs

/-!
# Shifting a byte out

What so many advances make of the serial port, in one equation (`Serial.advanced_eq`): the bits that
are left go one by one and ones come in for them, and when the last one has gone the port is idle.
The interrupt is requested in the advance that shifts the last bit.

A port that is left to itself is caught up again and again, each time to a later tick.
`Serial.Ran` describes it by the number of advances it has made by then: there have been enough of
them for every one of these ticks, and one less would not have been enough for the latest. So the
number depends on the latest tick only, and the tick is late enough for the last bit when no earlier
one has been (`Serial.Ran.lt_eight_iff`).
-/

namespace GameBoy.Serial

open Peripheral

/-! ### So many advances -/

/-- A byte after so many shifts, each of which brings in a one. -/
def shifted (v : UInt8) : Nat → UInt8
  | 0 => v
  | n + 1 => (shifted v n <<< 1) ||| 1

theorem toNat_shifted (v : UInt8) {n : Nat} (h : n ≤ 8) :
    (shifted v n).toNat = v.toNat * 2 ^ n % 256 + 2 ^ n - 1 := by
  have hall : ∀ n ≤ 8, ∀ m < 256,
      (shifted (UInt8.ofNat m) n).toNat = (UInt8.ofNat m).toNat * 2 ^ n % 256 + 2 ^ n - 1 := by
    decide +kernel
  exact byte_all (P := fun v ↦ (shifted v n).toNat = v.toNat * 2 ^ n % 256 + 2 ^ n - 1) (hall n h) v

/-- The port after `n` advances, if it is left to itself. -/
def after (p : Serial) (n : Nat) : Serial :=
  { p with
    clock := p.clock + stride * n
    data := shifted p.data (min n p.bitsLeft)
    bitsLeft := p.bitsLeft - n
    requested := if 0 < p.bitsLeft ∧ p.bitsLeft ≤ n then false else p.requested }

/-- One more advance. -/
theorem advance_after (p : Serial) (n : Nat) (requests : InterruptSet) :
    (p.after n).advance requests =
      (p.after (n + 1), if p.bitsLeft = n + 1 then requests.insert .serial else requests) := by
  have hclock : p.clock + stride * n + stride = p.clock + stride * (n + 1) := by
    rw [Nat.mul_succ, Nat.add_assoc]
  rcases Nat.lt_trichotomy (n + 1) p.bitsLeft with hmore | hlast | hdone
  · have hleft : (p.after n).bitsLeft = (p.bitsLeft - (n + 1)) + 1 := by
      show p.bitsLeft - n = _
      omega
    have hmin : min n p.bitsLeft = n ∧ min (n + 1) p.bitsLeft = n + 1 := by omega
    have hbusy : ¬ p.bitsLeft ≤ n ∧ ¬ p.bitsLeft ≤ n + 1 := by omega
    rw [advance_of_more requests hleft (by omega), if_neg (by omega)]
    simp only [after, hclock, hmin, hbusy, shifted, and_false, if_false]
  · have hleft : (p.after n).bitsLeft = 1 := by
      show p.bitsLeft - n = 1
      omega
    have hmin : min n p.bitsLeft = n ∧ min (n + 1) p.bitsLeft = n + 1 := by omega
    have hgone : p.bitsLeft - (n + 1) = 0 ∧ 0 < p.bitsLeft ∧ p.bitsLeft ≤ n + 1 := by omega
    rw [advance_of_last requests hleft, if_pos hlast.symm]
    simp only [after, hclock, hmin, hgone, shifted, and_self, if_true]
  · have hleft : (p.after n).bitsLeft = 0 := by
      show p.bitsLeft - n = 0
      omega
    have hmin : min n p.bitsLeft = p.bitsLeft ∧ min (n + 1) p.bitsLeft = p.bitsLeft := by omega
    have hidle : p.bitsLeft ≤ n ∧ p.bitsLeft ≤ n + 1 ∧ p.bitsLeft - n = p.bitsLeft - (n + 1) := by
      omega
    rw [advance_of_idle requests hleft, if_neg (by omega)]
    simp only [after, hclock, hmin, hidle]

/-- **What `n` advances make of the port**, and whether the interrupt is requested in one of
them. -/
theorem advanced_eq (p : Serial) (n : Nat) :
    (advanced n p).1 = p.after n ∧
      (.serial ∈ (advanced n p).2 ↔ 0 < p.bitsLeft ∧ p.bitsLeft ≤ n) := by
  induction n with
  | zero =>
    refine ⟨?_, ?_⟩
    · have hbusy : ¬ (0 < p.bitsLeft ∧ p.bitsLeft ≤ 0) := by omega
      show p = p.after 0
      simp only [after, if_neg hbusy, Nat.mul_zero, Nat.zero_min, shifted, Nat.add_zero,
        Nat.sub_zero]
    · refine iff_of_false InterruptSet.not_mem_empty ?_
      omega
  | succ n ih =>
    obtain ⟨hport, hrequests⟩ := ih
    have hturn : advanced (n + 1) p = (advanced n p).1.advance (advanced n p).2 :=
      Function.iterate_succ_apply' ..
    rw [hturn, hport, advance_after]
    refine ⟨rfl, ?_⟩
    by_cases hlast : p.bitsLeft = n + 1
    · rw [if_pos hlast]
      refine iff_of_true (InterruptSet.mem_insert.mpr (.inr rfl)) ?_
      omega
    · rw [if_neg hlast, hrequests]
      omega

/-- No advance has been made. -/
theorem after_zero (p : Serial) : p.after 0 = p := (p.advanced_eq 0).1.symm

theorem after_add (p : Serial) (n m : Nat) : p.after (n + m) = (p.after n).after m := by
  rw [← (p.advanced_eq (n + m)).1, advanced_add, (p.advanced_eq n).1, (advanced_eq _ m).1]

/-- **What can be seen of a transfer** when so many advances have been made since it began. -/
theorem after_of_begun {p : Serial} (hbits : p.bitsLeft = 8) (hrequested : p.requested = true)
    (hinternal : p.internalClock = true) (k : Nat) :
    let n := min 8 k
    (p.after k).bitsLeft = 8 - n ∧
      (p.after k).data.toNat = p.data.toNat * 2 ^ n % 256 + 2 ^ n - 1 ∧
      ((p.after k).active = true ↔ k < 8) ∧
      (p.after k).control = if k < 8 then 0xFF else 0x7F := by
  intro n
  have hleft : (p.after k).bitsLeft = 8 - k := congrArg (· - k) hbits
  have hdata : (p.after k).data = shifted p.data n := by
    rw [after, hbits, Nat.min_comm]
  have hbusy : (p.after k).requested = decide (k < 8) := by
    simp only [after, hbits, hrequested]
    by_cases hk : k < 8
    · simp [hk]
    · simp [hk, Nat.le_of_not_lt hk]
  refine ⟨by omega, ?_, ?_, ?_⟩
  · rw [hdata]
    exact toNat_shifted p.data (Nat.min_le_left 8 k)
  · rw [active, hleft, bne_iff_ne]
    omega
  · have hclock : (p.after k).internalClock = true := hinternal
    rw [control, hbusy, hclock]
    by_cases hk : k < 8 <;> simp [hk]

/-! ### A port that is left to itself -/

/-- Since it was `start`, the port has been left to itself but for being caught up to some ticks,
and has made `n` advances. -/
structure Ran (start : Serial) (ticks : List Nat) (n : Nat) (p : Serial) : Prop where
  /-- So it is what it becomes by `n` advances. -/
  eq_after : p = start.after n
  /-- It is not behind any of the ticks. -/
  le : ∀ u ∈ ticks, u ≤ start.clock + stride * n
  /-- It has advanced no further than it takes to reach one of them. -/
  lt : n = 0 ∨ ∃ u ∈ ticks, start.clock + stride * n < u + stride

variable {start p : Serial} {ticks : List Nat} {n : Nat}

/-- A transfer runs from where it starts. -/
theorem ran_refl (start : Serial) : start.Ran [] 0 start where
  eq_after := start.after_zero.symm
  le _ hu := absurd hu List.not_mem_nil
  lt := .inl rfl

/-- The port is caught up once more. -/
theorem Ran.catchUp (h : start.Ran ticks n p) {u m : Nat}
    (harrived : Arrived stride u (p.after m).clock) :
    start.Ran (ticks ++ [u]) (n + m) (p.after m) := by
  have hafter : p.after m = start.after (n + m) := by rw [h.eq_after, after_add]
  rw [hafter] at harrived ⊢
  have hreached : u ≤ start.clock + stride * (n + m) := harrived.1.2
  have hclose : start.clock + stride * (n + m) < u + stride := (harrived.notAhead (by decide)).2
  refine ⟨rfl, fun v hv ↦ ?_, .inr ⟨u, List.mem_append_right _ (List.mem_singleton_self u), hclose⟩⟩
  rcases List.mem_append.mp hv with hv | hv
  · have hbefore := h.le v hv
    rw [Nat.mul_add]
    omega
  · rw [List.mem_singleton.mp hv]
    exact hreached

/-- **Eight bits have not gone before a tick is late enough for the eighth.** -/
theorem Ran.lt_eight_iff (h : start.Ran ticks n p) :
    n < 8 ↔ ∀ u ∈ ticks, u ≤ start.clock + 7 * stride := by
  unfold stride
  constructor
  · intro hn u hu
    have hle := h.le u hu
    unfold stride at hle
    omega
  · intro hall
    rcases h.lt with rfl | ⟨u, hu, hlt⟩
    · decide
    · have hle := hall u hu
      unfold stride at hlt
      omega

/-- The number of advances is told by the latest tick. -/
theorem Ran.eq_of_arrived (h : start.Ran ticks n p) {u : Nat}
    (harrived : Arrived stride u p.clock) :
    n = if u ≤ start.clock then 0 else (u - start.clock + 511) / 512 := by
  rw [h.eq_after] at harrived
  have hreached : u ≤ start.clock + 512 * n := harrived.1.2
  have hclose : start.clock + 512 * n < u + 512 := (harrived.notAhead (by decide)).2
  split <;> omega

/-- **A transfer to which nothing happens** but that it is caught up to some ticks, the latest of
which is `u`. -/
theorem Ran.transfer (h : start.Ran ticks n p) (hbits : start.bitsLeft = 8)
    (hrequested : start.requested = true) (hinternal : start.internalClock = true) {u m : Nat}
    (harrived : Arrived stride u (p.after m).clock) :
    let S := start.clock
    let shifts := if u ≤ S then 0 else min 8 ((u - S + 511) / 512)
    (p.after m).bitsLeft = 8 - shifts ∧
      (p.after m).data.toNat = start.data.toNat * 2 ^ shifts % 256 + 2 ^ shifts - 1 ∧
      ((p.after m).active = true ↔ u ≤ S + 3584) ∧
      (p.after m).control = (if u ≤ S + 3584 then 0xFF else 0x7F) ∧
      (.serial ∈ (advanced m p).2 ↔ S + 3584 < u ∧ ∀ v ∈ ticks, v ≤ S + 3584) := by
  intro S shifts
  have hcaughtUp := h.catchUp harrived
  have hcount : n + m = if u ≤ S then 0 else (u - S + 511) / 512 :=
    hcaughtUp.eq_of_arrived harrived
  have hshifts : min 8 (n + m) = shifts := by
    rw [hcount]
    show _ = if u ≤ S then 0 else _
    split <;> rfl
  have hdone : n + m < 8 ↔ u ≤ S + 3584 := by
    rw [hcount]
    split <;> omega
  have hbefore : n < 8 ↔ ∀ v ∈ ticks, v ≤ S + 3584 := h.lt_eight_iff
  have hafter : p.after m = start.after (n + m) := hcaughtUp.eq_after
  obtain ⟨hleft, hdata, hactive, hcontrol⟩ := after_of_begun hbits hrequested hinternal (n + m)
  rw [← hafter, hshifts] at hleft hdata
  rw [← hafter] at hactive hcontrol
  refine ⟨hleft, hdata, hactive.trans hdone, ?_, ?_⟩
  · rw [hcontrol]
    exact if_congr hdone rfl rfl
  · have hleft : p.bitsLeft = 8 - n := by
      rw [h.eq_after]
      exact congrArg (· - n) hbits
    rw [(p.advanced_eq m).2, hleft, ← hbefore]
    omega

end GameBoy.Serial
