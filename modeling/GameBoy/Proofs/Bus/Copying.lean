import GameBoy.Proofs.Bus.MemoryMap
import GameBoy.Proofs.Bus.Uses

/-!
# How a copy goes on

A copy goes on whatever is done with the bus, unless the copy register is written again or there is
a reset: only the number of advances of the engine counts (`Bus.begun_after`).

A byte is taken from memory when its turn comes, and not before. The engine looks into memory and
not through the memory map, but its source lies below the addresses at which work memory is seen
again, and there the two agree. So the byte that is copied is the one that the bus reads at that
moment (`Bus.Copying`).
-/

namespace GameBoy.Bus

open ObjectCopy

/-! ### The engine on the bus -/

/-- The engine is written to at its register only. -/
theorem objectCopy_write {a : UInt16} (h : a ≠ 0xFF46) (bus : Bus) (v : UInt8) :
    (bus.write a v).objectCopy = bus.objectCopy := by
  refine bus.write_induction (motive := fun b ↦ b.objectCopy = bus.objectCopy) (fun _ _ ↦ rfl)
    (fun r hr ↦ ?_) rfl
  cases r with
  | objectCopy => exact absurd hr h
  | _ => rfl

/-- A use that leaves a copy alone: it does not begin another one, and is no reset. -/
def Use.LeavesCopy : Use → Prop
  | .write a _ => a ≠ 0xFF46
  | .reset => False
  | _ => True

section Begun

variable {bus : Bus} {v : UInt8} {start i : Nat}

/-- A write to the register of the object copy begins a copy from the page that is written. -/
theorem begun_write (bus : Bus) (v : UInt8) :
    Begun v (bus.clock .objectCopy) 0 (bus.write 0xFF46 v).objectCopy := by
  have hwrite : bus.write 0xFF46 v = bus.writeRegister .objectCopy v :=
    bus.write_address .objectCopy v
  rw [hwrite]
  exact begun_start bus.objectCopy v

theorem begun_advanced (h : Begun v start i bus.objectCopy) (n : Device → Nat) :
    Begun v start (i + n .objectCopy) (bus.advanced n).objectCopy :=
  Peripheral.advanced_counting (motive := fun i (c : Channel) ↦ Begun v start i c.engine)
    (fun _ _ requests hc ↦ hc.advance requests) (p := bus.channel) h (n .objectCopy)

/-- A use that leaves the register alone carries on with the copy as far as the time allows. -/
theorem begun_use (h : Begun v start i bus.objectCopy) {use : Use} (huse : use.LeavesCopy) :
    Begun v start (i + use.advances bus .objectCopy) (bus.use use).objectCopy := by
  cases use with
  | read a => exact h
  | write a byte =>
    show Begun v start i (bus.write a byte).objectCopy
    rw [objectCopy_write huse]
    exact h
  | catchUp target =>
    show Begun v start _ (bus.catchUp target).objectCopy
    rw [catchUp_eq_advanced]
    exact begun_advanced h (bus.advances target)
  | reset => exact huse.elim

/-- **A copy goes on** whatever is done with the bus. -/
theorem begun_after (h : Begun v start i bus.objectCopy) {uses : List Use}
    (huses : ∀ use ∈ uses, use.LeavesCopy) :
    Begun v start (i + bus.advancesIn .objectCopy uses) (bus.after uses).objectCopy :=
  after_counting (motive := fun i bus ↦ Begun v start i bus.objectCopy)
    (fun _ _ use huse hbus ↦ begun_use hbus (huses use huse)) h

end Begun

/-! ### What is copied -/

/-- What lies below the addresses where work memory is seen again is read from memory. -/
theorem read_of_lt (bus : Bus) {a : UInt16} (h : a < 0xE000) : bus.read a = bus.memory.get a := by
  by_cases hrom : a < 0x8000
  · have hlocation : Location.ofAddress a = .rom a := if_pos hrom
    simp only [read, hlocation]
  · have hlocation : Location.ofAddress a = .cell a := (if_neg hrom).trans (if_pos h)
    exact bus.read_of_cell hlocation

/-- Up to page 0xFD the page that is selected shows what is copied. -/
theorem read_pageStart (bus : Bus) {v : UInt8} (hv : v ≤ 0xFD) {i : Nat} (hi : i < 160) :
    bus.read (UInt16.ofNat (pageStart v + i)) = bus.read (UInt16.ofNat (256 * v.toNat + i)) := by
  unfold pageStart
  split
  · rfl
  · next hhigh =>
    have hhigh : 0xE0 ≤ v.toNat := UInt8.le_iff_toNat_le.mp (UInt8.not_lt.mp hhigh)
    have hv : v.toNat ≤ 0xFD := UInt8.le_iff_toNat_le.mp hv
    have haddress : (UInt16.ofNat (256 * v.toNat + i)).toNat = 256 * v.toNat + i := by
      rw [UInt16.toNat_ofNat']
      omega
    have hlow : 0xE000 ≤ UInt16.ofNat (256 * v.toNat + i) := by
      rw [UInt16.le_iff_toNat_le, haddress]
      show 0xE000 ≤ _
      omega
    have hbelow : UInt16.ofNat (256 * v.toNat + i) < 0xFE00 := by
      rw [UInt16.lt_iff_toNat_lt, haddress]
      show _ < 0xFE00
      omega
    have hback : UInt16.ofNat (256 * v.toNat + i) - 0x2000 =
        UInt16.ofNat (256 * (v.toNat - 0x20) + i) := by
      have hle : (0x2000 : UInt16) ≤ UInt16.ofNat (256 * v.toNat + i) :=
        UInt16.le_trans (by decide) hlow
      have hsub := UInt16.toNat_sub_of_le _ _ hle
      have hpage : (0x2000 : UInt16).toNat = 0x2000 := rfl
      rw [← UInt16.toNat_inj, hsub, haddress, hpage, UInt16.toNat_ofNat']
      omega
    rw [bus.read_of_echo hlow hbelow, hback]

/-- What the engine and the memory map call a byte of object memory. -/
theorem target_add (i : Nat) : target + UInt16.ofNat i = UInt16.ofNat (0xFE00 + i) := by
  rw [UInt16.ofNat_add]
  rfl

/-- Object memory is plain memory, and it is seen at its own addresses only. -/
theorem cell_target {i : Nat} (hi : i < length) :
    Location.ofAddress (target + UInt16.ofNat i) = .cell (target + UInt16.ofNat i) ∧
      ∀ a, ¬ EchoPair (target + UInt16.ofNat i) a := by
  have hplace := toNat_target_add hi
  have hlength : length = 160 := rfl
  refine ⟨?_, fun a hecho ↦ ?_⟩
  · have hplaces : ∀ i < length,
        Location.ofAddress (target + UInt16.ofNat i) = .cell (target + UInt16.ofNat i) := by
      decide +kernel
    exact hplaces i hi
  · rcases hecho with ⟨-, hhigh, -⟩ | ⟨hlow, hhigh, heq⟩
    · rw [UInt16.lt_iff_toNat_lt, hplace] at hhigh
      exact absurd hhigh (Nat.not_lt.mpr (Nat.le_add_right 0xFE00 i))
    · have hback : (a - 0x2000).toNat = a.toNat - 0x2000 :=
        UInt16.toNat_sub_of_le _ _ (UInt16.le_trans (by decide) hlow)
      have hhigh : a.toNat < 0xFE00 := UInt16.lt_iff_toNat_lt.mp hhigh
      rw [heq, hback] at hplace
      omega

section Advance

variable {bus : Bus} {v : UInt8} {start i : Nat} (h : Begun v start i bus.objectCopy)
include h

/-- **Copying is writing**: the byte that is read in the source is stored in object memory. -/
theorem advance_eq_write (hi : i < length) :
    bus.advance .objectCopy =
      { bus.write (target + UInt16.ofNat i) (bus.read (UInt16.ofNat (pageStart v + i))) with
        objectCopy := (bus.channel.advance bus.requests).1.engine } := by
  have hsource : UInt16.ofNat (pageStart v + i) < 0xE000 := by
    have hpage := pageStart_le v
    have hlength : length = 160 := rfl
    rw [UInt16.lt_iff_toNat_lt, UInt16.toNat_ofNat']
    show _ < 0xE000
    omega
  have hmemory := Begun.memory_advance (c := bus.channel) h bus.requests hi
  rw [sourceOf_add] at hmemory
  have hrequests : (bus.channel.advance bus.requests).2 = bus.requests := by
    simp only [Channel.advance]
    split <;> rfl
  rw [bus.write_of_cell (cell_target hi).1, bus.read_of_lt hsource]
  show ({ bus with
    memory := (bus.channel.advance bus.requests).1.memory
    objectCopy := (bus.channel.advance bus.requests).1.engine
    requests := (bus.channel.advance bus.requests).2 } : Bus) = _
  rw [hmemory, hrequests]
  rfl

/-- **What is seen of an advance** that copies a byte. -/
theorem read_advance (hi : i < length) (a : UInt16) :
    (bus.advance .objectCopy).read a =
      if a = target + UInt16.ofNat i then bus.read (UInt16.ofNat (pageStart v + i))
      else bus.read a := by
  obtain ⟨hcell, halone⟩ := cell_target hi
  have hwrite := advance_eq_write h hi
  generalize bus.read (UInt16.ofNat (pageStart v + i)) = byte at hwrite ⊢
  -- The register of the engine is all that is seen of it.
  have hread : (bus.advance .objectCopy).read a =
      (bus.write (target + UInt16.ofNat i) byte).read a := by
    have hregister : (bus.channel.advance bus.requests).1.engine.register =
        bus.objectCopy.register := by
      simp only [Channel.advance]
      split <;> rfl
    rw [hwrite, bus.write_of_cell hcell]
    unfold read
    split <;> try rfl
    next r _ =>
      cases r with
      | objectCopy => exact hregister
      | _ => rfl
  rw [hread]
  split
  · next hplace => rw [hplace, read_write_self, bus.readBack_of_cell hcell]
  · next hother => exact bus.read_write_cell_of_ne hcell hother (halone a) byte

end Advance

/-- **The next advance of the engine**, where `i` of them have been made since the byte `v` was
written to its register. -/
structure Copying (v : UInt8) (i : Nat) (bus : Bus) : Prop where
  /-- The copy is in progress until 160 bytes have been copied. -/
  active_iff : bus.objectCopy.active = true ↔ i < 160
  /-- The engine reads and writes within memory. -/
  in_bounds : i < 160 → bus.objectCopy.next = some i ∧ bus.objectCopy.source.toNat = pageStart v ∧
    pageStart v + i < 0x10000 ∧ 0xFE00 + i < 0x10000
  /-- The byte that is read in the source at this moment is stored in object memory. -/
  memory_eq : i < 160 → (bus.advance .objectCopy).memory =
    bus.memory.set (UInt16.ofNat (0xFE00 + i)) (bus.read (UInt16.ofNat (pageStart v + i)))
  /-- It is seen there, and nothing else is seen to change. -/
  read_eq : i < 160 → ∀ a, (bus.advance .objectCopy).read a =
    if a = UInt16.ofNat (0xFE00 + i) then bus.read (UInt16.ofNat (pageStart v + i)) else bus.read a
  /-- The same byte is read on the page that was written, if that page belongs to memory. -/
  read_source : i < 160 → v ≤ 0xFD →
    bus.read (UInt16.ofNat (pageStart v + i)) = bus.read (UInt16.ofNat (256 * v.toNat + i))
  /-- When all bytes have been copied, nothing more is. -/
  memory_eq_of_le : 160 ≤ i → (bus.advance .objectCopy).memory = bus.memory

/-- **What an engine does** that has made so many advances. -/
theorem copying_of_begun {bus : Bus} {v : UInt8} {start i : Nat}
    (h : Begun v start i bus.objectCopy) : Copying v i bus where
  active_iff := h.active_iff
  in_bounds hi := by
    have hpage := pageStart_le v
    refine ⟨h.next_eq.trans (if_pos hi), ?_, by omega, by omega⟩
    rw [h.source_eq, toNat_sourceOf]
  memory_eq hi := by
    rw [advance_eq_write h hi, bus.write_of_cell (cell_target hi).1, target_add]
  read_eq hi a := by
    rw [← target_add]
    exact read_advance h hi a
  read_source hi hv := bus.read_pageStart hv hi
  memory_eq_of_le hdone := Begun.memory_advance_of_le (c := bus.channel) h bus.requests hdone

/-- **A copy and what is done meanwhile.** A byte is written to the copy register, and the bus is
used in whatever way that does not begin another copy and is no reset. At every moment from there
on, one in the middle of a catch-up included, the next advance of the engine is the one that belongs
to the number of advances that it has made. -/
theorem copying_after_write (bus : Bus) (v : UInt8) {later : List Use}
    (h : ∀ use ∈ later, use.LeavesCopy) (n : Device → Nat) :
    let begun := bus.write 0xFF46 v
    Copying v (begun.advancesIn .objectCopy later + n .objectCopy)
      ((begun.after later).advanced n) := by
  intro begun
  have hbegun := begun_advanced (begun_after (bus.begun_write v) h) n
  rw [Nat.zero_add] at hbegun
  exact copying_of_begun hbegun

end GameBoy.Bus
