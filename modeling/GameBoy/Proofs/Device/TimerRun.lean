import GameBoy.Proofs.Device.Latching
import GameBoy.Proofs.Device.TimerOverflow
import Mathlib.Algebra.Order.Group.Nat

/-!
# A timer that is left to itself

No register is written, so the only thing that happens to a timer that is switched on is that it
counts whenever the hidden counter passes a multiple of its period (`falls_iff`). Where it has come
to is told by the number of counts (`Phase`): it counts from what the register holds first, and then
goes round and round, each lap beginning with a load from the modulo register. One advance lies
between the overflow and the load, and no count can fall into it, for a period is longer than one
advance; so no count is lost, and the laps are counted with a division (`advanced_closed_form`).
-/

namespace GameBoy.Timer

open Peripheral

/-! ### The frequency -/

/-- The advances from one count to the next at a frequency. -/
def period : Fin 4 → Nat
  | 0 => 256
  | 1 => 4
  | 2 => 16
  | 3 => 64

theorem one_lt_period (rate : Fin 4) : 1 < period rate := by
  revert rate
  decide

/-- The hidden counter wraps round at a multiple of every period. -/
theorem period_dvd (rate : Fin 4) : period rate ∣ 65536 := by
  revert rate
  decide

/-- **The signal falls when the counter reaches a multiple of the period.** -/
theorem falls_iff {t : Timer} (henabled : t.enabled = true) :
    t.signal = true ∧ t.move.signal = false ↔ period t.rate ∣ t.counter.toNat + 1 := by
  have hmoved : t.move.counter.toNat = (t.counter.toNat + 1) % 65536 := UInt16.toNat_add ..
  have hbefore : t.signal = t.counter.toNat.testBit (watchedBit t.rate) := by
    rw [signal, henabled, Bool.true_and]
  have hafter : t.move.signal = t.move.counter.toNat.testBit (watchedBit t.rate) := by
    show (t.enabled && _) = _
    rw [henabled, Bool.true_and]
    rfl
  have hlt : t.counter.toNat < 65536 := t.counter.toNat_lt
  rw [hbefore, hafter, hmoved, Nat.testBit_eq_decide_div_mod_eq, Nat.testBit_eq_decide_div_mod_eq,
    decide_eq_true_eq, decide_eq_false_iff_not]
  match t.rate with
  | 0 | 1 | 2 | 3 =>
    simp only [watchedBit, period]
    omega

/-! ### One advance -/

section Advance

variable (t : Timer)

/-- No advance changes the settings. -/
theorem settings_advance (pending : InterruptSet) :
    (t.advance pending).1.enabled = t.enabled ∧ (t.advance pending).1.rate = t.rate ∧
      (t.advance pending).1.modulo = t.modulo := by
  cases h : t.overflowed with
  | true =>
    rw [t.advance_of_overflowed h]
    exact ⟨rfl, rfl, rfl⟩
  | false =>
    rw [t.advance_of_not_overflowed h]
    exact ⟨t.whileCounting_apply enabled (fun _ ↦ rfl) move,
      t.whileCounting_apply rate (fun _ ↦ rfl) move,
      t.whileCounting_apply modulo (fun _ ↦ rfl) move⟩

/-- **An advance of a timer that is switched on**, if no load is due: nothing is counted, or
something is, or the register overflows. -/
theorem advance_cases {t : Timer} (henabled : t.enabled = true) (hnone : t.overflowed = false) :
    let s := (t.advance ∅).1
    let counts := period t.rate ∣ t.counter.toNat + 1
    (¬ counts ∧ s.count.toNat = t.count.toNat ∧ s.overflowed = false) ∨
    (counts ∧ t.count.toNat < 255 ∧ s.count.toNat = t.count.toNat + 1 ∧ s.overflowed = false) ∨
    (counts ∧ t.count.toNat = 255 ∧ s.count.toNat = 0 ∧ s.overflowed = true) := by
  intro s counts
  have hs : s = t.whileCounting move := congrArg Prod.fst (t.advance_of_not_overflowed hnone ∅)
  have hkept : t.move.count = t.count ∧ t.move.overflowed = t.overflowed := ⟨rfl, rfl⟩
  have hcount := count_whileCounting hkept.1
  have hoverflowed := overflowed_whileCounting hkept.1 hkept.2
  rw [← hs] at hcount hoverflowed
  simp only [falls_iff henabled, hnone, Bool.false_eq_true, false_or] at hcount hoverflowed
  rw [← UInt8.toNat_inj] at hoverflowed
  have hlt := t.count.toNat_lt
  by_cases hcounts : counts
  · rw [if_pos hcounts] at hcount
    have hnext : s.count.toNat = (t.count.toNat + 1) % 256 := by
      rw [hcount]
      exact UInt8.toNat_add ..
    right
    by_cases hlast : t.count.toNat = 255
    · exact .inr ⟨hcounts, hlast, by omega, hoverflowed.mpr ⟨hlast, hcounts⟩⟩
    · refine .inl ⟨hcounts, by omega, by omega, ?_⟩
      rw [← Bool.not_eq_true, hoverflowed]
      exact fun h ↦ hlast h.1
  · rw [if_neg hcounts, UInt8.add_zero] at hcount
    refine .inl ⟨hcounts, by rw [hcount], ?_⟩
    rw [← Bool.not_eq_true, hoverflowed]
    exact fun h ↦ hcounts h.2

end Advance

/-! ### Any number of advances -/

section Advanced

variable (t : Timer)

theorem settings_advanced (n : Nat) :
    (advanced n t).1.enabled = t.enabled ∧ (advanced n t).1.rate = t.rate ∧
      (advanced n t).1.modulo = t.modulo :=
  advanced_induction (P := Timer)
    (motive := fun s _ ↦ s.enabled = t.enabled ∧ s.rate = t.rate ∧ s.modulo = t.modulo)
    (fun s pending h ↦ by
      obtain ⟨henabled, hrate, hmodulo⟩ := s.settings_advance pending
      exact ⟨henabled.trans h.1, hrate.trans h.2.1, hmodulo.trans h.2.2⟩)
    ⟨rfl, rfl, rfl⟩ n

theorem counter_advanced (n : Nat) :
    (advanced n t).1.counter.toNat = (t.counter.toNat + n) % 65536 := by
  induction n with
  | zero => exact (Nat.mod_eq_of_lt t.counter.toNat_lt).symm
  | succ n ih =>
    rw [fst_advanced_succ]
    show ((advanced n t).1.advance ∅).1.counter.toNat = _
    rw [counter_advance, UInt16.toNat_add, ih]
    exact (Nat.mod_add_mod ..).trans rfl

/-- The next advance counts if it takes the counter, had it never wrapped round, to a multiple of
the period. -/
theorem counts_advanced_iff (n : Nat) :
    period (advanced n t).1.rate ∣ (advanced n t).1.counter.toNat + 1 ↔
      period t.rate ∣ t.counter.toNat + n + 1 := by
  rw [(t.settings_advanced n).2.1, counter_advanced]
  have hwraps := period_dvd t.rate
  rw [Nat.dvd_iff_mod_eq_zero, Nat.dvd_iff_mod_eq_zero, ← Nat.mod_add_mod,
    Nat.mod_mod_of_dvd _ hwraps, Nat.mod_add_mod]

end Advanced

/-! ### Laps -/

/-- Where a timer is that has counted `k` times, first from `x` and then in laps that begin with a
load of `m`, and that has requested the interrupt so many times. `now` says that the latest advance
has counted. -/
inductive Phase (x m k : Nat) (now : Prop) (t : Timer) (requested : Nat) : Prop where
  /-- The register has not overflowed yet. -/
  | first (below : k < 256 - x) (count : t.count.toNat = x + k) (clear : t.overflowed = false)
      (never : requested = 0)
  /-- The register has just overflowed, after so many laps. -/
  | overflow (laps : Nat) (counts : k = 256 - x + laps * (256 - m)) (now : now)
      (count : t.count.toNat = 0) (due : t.overflowed = true) (once : requested = laps)
  /-- The register has been loaded, after so many laps, and there have been `r` counts since. -/
  | lap (laps r : Nat) (below : r < 256 - m) (counts : k = 256 - x + laps * (256 - m) + r)
      (loaded : r = 0 → ¬ now) (count : t.count.toNat = m + r) (clear : t.overflowed = false)
      (once : requested = laps + 1)

namespace Phase

variable {x m k c n requested : Nat} {now : Prop} {t : Timer}

theorem count_of_overflowed (h : Phase x m k now t requested) (hdue : t.overflowed = true) :
    t.count.toNat = 0 := by
  cases h with
  | first _ _ clear => exact absurd (clear.symm.trans hdue) Bool.false_ne_true
  | overflow _ _ _ count => exact count
  | lap _ _ _ _ _ _ clear => exact absurd (clear.symm.trans hdue) Bool.false_ne_true

/-- Before the first overflow. -/
theorem of_lt (h : Phase x m k now t requested) (hbelow : k < 256 - x) :
    t.count.toNat = x + k ∧ requested = 0 := by
  cases h with
  | first _ count _ never => exact ⟨count, never⟩
  | overflow laps counts => omega
  | lap laps r _ counts => omega

/-- From the first overflow on, the laps are counted with a division. -/
theorem of_le (h : Phase x m k now t requested) (hm : m < 256) (habove : 256 - x ≤ k) :
    let j := k - (256 - x)
    let r := j % (256 - m)
    (r = 0 → now → t.count = 0 ∧ t.overflowed = true ∧ requested = j / (256 - m)) ∧
    (¬ (r = 0 ∧ now) → t.count.toNat = m + r ∧ requested = j / (256 - m) + 1) := by
  intro j r
  cases h with
  | first below => omega
  | overflow laps counts now' count due once =>
    have hj : j = laps * (256 - m) := Nat.sub_eq_of_eq_add' counts
    have hr : r = 0 := by
      show j % (256 - m) = 0
      rw [hj, Nat.mul_mod_left]
    have hlaps : j / (256 - m) = laps := by
      rw [hj]
      exact Nat.mul_div_cancel laps (Nat.sub_pos_of_lt hm)
    rw [hlaps]
    exact ⟨fun _ _ ↦ ⟨UInt8.toNat_inj.mp count, due, once⟩, fun hnever ↦ absurd ⟨hr, now'⟩ hnever⟩
  | lap laps r' below counts loaded count _ once =>
    have hj : j = laps * (256 - m) + r' :=
      Nat.sub_eq_of_eq_add' (counts.trans (Nat.add_assoc ..))
    have hr : r = r' := by
      show j % (256 - m) = r'
      rw [hj, Nat.mul_add_mod', Nat.mod_eq_of_lt below]
    have hlaps : j / (256 - m) = laps := by
      rw [hj, Nat.mul_comm, Nat.mul_add_div (Nat.sub_pos_of_lt hm), Nat.div_eq_of_lt below,
        Nat.add_zero]
    rw [hlaps, hr]
    exact ⟨fun hzero hnow ↦ absurd hnow (loaded hzero), fun _ ↦ ⟨count, once⟩⟩

/-- **One advance.** -/
theorem advance (h : Phase x m k (period t.rate ∣ n) t requested) (hx : x < 256)
    (henabled : t.enabled = true) (hmodulo : t.modulo.toNat = m)
    (hcounter : period t.rate ∣ t.counter.toNat + 1 ↔ period t.rate ∣ n + 1) :
    Phase x m (k + if period t.rate ∣ n + 1 then 1 else 0) (period t.rate ∣ n + 1)
      (t.advance ∅).1 (requested + if t.overflowed = true then 1 else 0) := by
  have hm : m < 256 := hmodulo ▸ t.modulo.toNat_lt
  have hcases (clear : t.overflowed = false) := advance_cases henabled clear
  simp only [hcounter] at hcases
  cases h with
  | first below count clear never =>
    simp only [clear, Bool.false_eq_true, if_false, Nat.add_zero]
    rcases hcases clear with ⟨hno, hcount, hnone⟩ | ⟨hcounts, hlt, hcount, hnone⟩ |
      ⟨hcounts, hlast, hcount, hdue⟩
    · rw [if_neg hno]
      exact .first below (hcount.trans count) hnone never
    · rw [if_pos hcounts]
      exact .first (by omega) (by omega) hnone never
    · rw [if_pos hcounts]
      exact .overflow 0 (by omega) hcounts hcount hdue never
  | overflow laps counts now count due once =>
    -- The advance after a count does not count.
    have hno : ¬ period t.rate ∣ n + 1 := by
      rw [Nat.dvd_add_right now, Nat.dvd_one]
      exact (one_lt_period t.rate).ne'
    rw [if_neg hno, if_pos due, t.advance_of_overflowed due]
    exact .lap laps 0 (by omega) counts (fun _ ↦ hno) hmodulo rfl (by rw [once])
  | lap laps r below counts loaded count clear once =>
    simp only [clear, Bool.false_eq_true, if_false, Nat.add_zero]
    rcases hcases clear with ⟨hno, hcount, hnone⟩ | ⟨hcounts, hlt, hcount, hnone⟩ |
      ⟨hcounts, hlast, hcount, hdue⟩
    · rw [if_neg hno]
      exact .lap laps r below counts (fun _ ↦ hno) (hcount.trans count) hnone once
    · rw [if_pos hcounts]
      exact .lap laps (r + 1) (by omega) (by omega) (fun h ↦ absurd h r.succ_ne_zero) (by omega)
        hnone once
    · rw [if_pos hcounts]
      have hlap : k + 1 = 256 - x + (laps + 1) * (256 - m) := by
        rw [Nat.succ_mul]
        omega
      exact .overflow (laps + 1) hlap hcounts hcount hdue once

end Phase

/-- **Any number of advances.** -/
theorem phase_advanced {t : Timer} (henabled : t.enabled = true) (hnone : t.overflowed = false)
    (n : Nat) :
    Phase t.count.toNat t.modulo.toNat
      ((t.counter.toNat + n) / period t.rate - t.counter.toNat / period t.rate)
      (period t.rate ∣ t.counter.toNat + n) (advanced n t).1 (requestCount .timer n t) := by
  have hlt := t.count.toNat_lt
  induction n with
  | zero =>
    refine .first ?_ ?_ hnone rfl
    · rw [Nat.add_zero, Nat.sub_self]
      omega
    · rw [Nat.add_zero, Nat.sub_self]
      rfl
  | succ n ih =>
    obtain ⟨henabled', hrate, hmodulo⟩ := t.settings_advanced n
    have hle : t.counter.toNat / period t.rate ≤ (t.counter.toNat + n) / period t.rate :=
      Nat.div_le_div_right (Nat.le_add_right _ n)
    rw [← Nat.add_assoc, Nat.succ_div, Nat.sub_add_comm hle, requestCount_succ, fst_advanced_succ]
    simp only [requests_iff]
    rw [← hrate] at ih ⊢
    refine ih.advance hlt (henabled'.trans henabled) (congrArg UInt8.toNat hmodulo) ?_
    rw [counts_advanced_iff, hrate]

/-! ### The closed form -/

section ClosedForm

variable {t : Timer}

/-- **A request follows an overflow**, and every overflow is followed by one. -/
theorem requests_advanced_iff (henabled : t.enabled = true) (hnone : t.overflowed = false)
    (n : Nat) :
    Requests .timer (advanced n t).1 ↔ ∃ before, n = before + 1 ∧
      (advanced before t).1.count = 0xFF ∧ (advanced n t).1.count = 0 := by
  rw [requests_iff]
  cases n with
  | zero =>
    refine iff_of_false (fun hdue ↦ absurd (hnone.symm.trans hdue) Bool.false_ne_true) ?_
    rintro ⟨before, hnever, -⟩
    exact absurd hnever.symm before.succ_ne_zero
  | succ n =>
    have hnext : (advanced (n + 1) t).1 = (advanced n t).1.use .advance := fst_advanced_succ n t
    rw [hnext, overflowed_use]
    constructor
    · rintro (⟨-, -, hlast, hzero⟩ | ⟨⟨hother, -⟩, -⟩)
      · exact ⟨n, rfl, hlast, hzero⟩
      · exact absurd rfl hother
    · rintro ⟨before, hbefore, hlast, hzero⟩
      obtain rfl := Nat.succ.inj hbefore
      refine .inl ⟨id, fun hloads ↦ ?_, hlast, hzero⟩
      -- The register reads zero while a load is due.
      have hempty := (phase_advanced henabled hnone n).count_of_overflowed
        ((requests_iff _).mp hloads.2)
      rw [hlast] at hempty
      exact absurd hempty (by decide)

/-- A timer that is switched off does not count. -/
theorem advanced_of_disabled (hdisabled : t.enabled = false) (hnone : t.overflowed = false)
    (n : Nat) : (advanced n t).1.count = t.count ∧ (advanced n t).1.overflowed = false := by
  induction n with
  | zero => exact ⟨rfl, hnone⟩
  | succ n ih =>
    obtain ⟨hcount, hclear⟩ := ih
    have hlow : ¬ ((advanced n t).1.signal = true ∧ (advanced n t).1.move.signal = false) := by
      rw [signal, (t.settings_advanced n).1, hdisabled]
      exact fun h ↦ Bool.false_ne_true h.1
    rw [fst_advanced_succ]
    show ((advanced n t).1.advance ∅).1.count = _ ∧ ((advanced n t).1.advance ∅).1.overflowed = _
    rw [advance_of_not_overflowed _ hclear, whileCounting_eq, if_neg hlow]
    exact ⟨hcount, hclear⟩

/-- **A timer that is left to itself**, no load being due: what it has come to after `n` advances,
and in how many of them it has requested its interrupt. -/
theorem advanced_closed_form (t : Timer) (hnone : t.overflowed = false) (n : Nat) :
    let c := t.counter.toNat
    let x := t.count.toNat
    let m := t.modulo.toNat
    let P := period t.rate
    let s := (advanced n t).1
    let requested := requestCount .timer n t
    (t.enabled = true →
      let k := (c + n) / P - c / P
      s.counter.toNat = (c + n) % 65536 ∧
      (k < 256 - x → s.count.toNat = x + k ∧ requested = 0) ∧
      (256 - x ≤ k →
        let j := k - (256 - x)
        let r := j % (256 - m)
        if r = 0 ∧ (c + n) % P = 0 then
          s.count = 0 ∧ s.overflowed = true ∧ requested = j / (256 - m)
        else s.count.toNat = m + r ∧ requested = j / (256 - m) + 1) ∧
      ∀ i, Requests .timer (advanced i t).1 ↔ ∃ before, i = before + 1 ∧
        (advanced before t).1.count = 0xFF ∧ (advanced i t).1.count = 0) ∧
    (t.enabled = false → s.count = t.count ∧ requested = 0) := by
  intro c x m P s requested
  refine ⟨fun henabled ↦ ?_, fun hdisabled ↦ ?_⟩
  · intro k
    have hm : m < 256 := t.modulo.toNat_lt
    have hphase : Phase x m k (P ∣ c + n) s requested := phase_advanced henabled hnone n
    refine ⟨t.counter_advanced n, fun hbelow ↦ ?_, fun habove ↦ ?_,
      requests_advanced_iff henabled hnone⟩
    · exact hphase.of_lt hbelow
    · intro j r
      obtain ⟨hoverflow, hlap⟩ := hphase.of_le hm habove
      rw [Nat.dvd_iff_mod_eq_zero] at hoverflow hlap
      split
      · next h => exact hoverflow h.1 h.2
      · next h => exact hlap h
  · refine ⟨(advanced_of_disabled hdisabled hnone n).1, requestCount_eq_zero (fun i ↦ ?_) n⟩
    rw [requests_iff, (advanced_of_disabled hdisabled hnone i).2]
    exact Bool.false_ne_true

/-- A timer that is about to overflow, and whose hidden counter is about to wrap round. -/
def aboutToOverflow : Timer :=
  { full with counter := 0xFFFE, modulo := 0xFF }

/-- It overflows with the second advance and, having been loaded with 0xFF, with the very next
count, four advances later. -/
theorem advanced_closed_form_of_aboutToOverflow :
    (advanced 7 aboutToOverflow).1.count.toNat = 0xFF ∧
      requestCount .timer 7 aboutToOverflow = 2 ∧
      (advanced 6 aboutToOverflow).1.count = 0 ∧ requestCount .timer 6 aboutToOverflow = 1 ∧
      requestCount .timer 6 { aboutToOverflow with enabled := false } = 0 := by
  obtain ⟨hseven, -⟩ := advanced_closed_form aboutToOverflow rfl 7
  obtain ⟨-, -, habove, -⟩ := hseven rfl
  obtain ⟨hcount, hrequested⟩ := habove (by decide)
  obtain ⟨hsix, -⟩ := advanced_closed_form aboutToOverflow rfl 6
  obtain ⟨-, -, habove', -⟩ := hsix rfl
  obtain ⟨hzero, -, honce⟩ := habove' (by decide)
  obtain ⟨-, hoff⟩ := advanced_closed_form { aboutToOverflow with enabled := false } rfl 6
  exact ⟨hcount, hrequested, hzero, honce, (hoff rfl).2⟩

end ClosedForm

end GameBoy.Timer
