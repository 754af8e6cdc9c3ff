import GameBoy.Proofs.Bus.CatchUp
import GameBoy.Proofs.Device.ObjectCopy

/-!
# What is kept on the bus

A property of the bus that a write, catching up, buttons, requests, taking what has been sent, and a
reset keep (`Bus.Kept`) is kept by everything, mapping a program image apart.

The program image itself is such a property. Two things store bytes in memory: a write, and the
copying engine. No write reaches the cells of the image, from whichever address, and the engine
keeps to the 160 bytes of object memory, as long as it is never further on than that.
`Bus.HoldsRom` says both. Other ones are that the engine is in range, and whether the bytes sent are
recorded.
-/

namespace GameBoy

/-- A property that everything done to a bus keeps, but for mapping a program image. -/
structure Bus.Kept (P : Bus → Prop) : Prop where
  /-- A write keeps it. -/
  write : ∀ bus a v, P bus → P (bus.write a v)
  /-- Catching up keeps it. -/
  catchUp : ∀ bus target, P bus → P (bus.catchUp target)
  /-- A button that is pressed or released keeps it. -/
  setButton : ∀ bus button held, P bus → P (bus.setButton button held)
  /-- A request from outside keeps it. -/
  request : ∀ bus sources, P bus → P (bus.request sources)
  /-- Taking what has been sent keeps it. -/
  takeSerialOutput : ∀ bus, P bus → P bus.takeSerialOutput.2
  /-- A reset keeps it. -/
  reset : ∀ bus, P bus → P bus.reset

/-- A write to the control register does not change whether bytes are recorded. -/
theorem Serial.capture_setControl (p : Serial) (v : UInt8) :
    (p.setControl v).capture = p.capture := by
  simp only [setControl]
  split <;> rfl

/-- Nor does time. -/
theorem Serial.capture_advance (p : Serial) (requests : InterruptSet) :
    (p.advance requests).1.capture = p.capture := by
  simp only [advance]
  split
  · rfl
  · split <;> rfl

/-- The program image is the given one, and the copying engine has not gone beyond what it has to
copy. -/
structure ObjectCopy.Channel.HoldsRom (image : UInt16 → UInt8) (c : Channel) : Prop where
  /-- The image is what is read from the lower half of memory. -/
  get_eq : ∀ a : UInt16, a.toNat < Location.romSize → c.memory.get a = image a
  /-- The next byte to copy is one of those to be copied. -/
  next_lt : ∀ i, c.engine.next = some i → i < ObjectCopy.length

namespace ObjectCopy.Channel

variable {image : UInt16 → UInt8} {c : Channel}

/-- A byte that is stored above the program image leaves the image alone. -/
theorem get_set_of_lt {memory : Memory} {a b : UInt16} (ha : Location.romSize ≤ a.toNat)
    (hb : b.toNat < Location.romSize) (v : UInt8) : (memory.set a v).get b = memory.get b := by
  refine Memory.get_set_of_ne _ _ ?_
  rintro rfl
  exact Nat.not_lt_of_le ha hb

/-- A byte that is copied is copied to object memory. -/
theorem HoldsRom.advance (h : c.HoldsRom image) (requests : InterruptSet) :
    (c.advance requests).1.HoldsRom image where
  get_eq a ha := by
    rcases c.get_advance requests a with hsame | ⟨i, hnext, rfl, -⟩
    · exact hsame.trans (h.get_eq a ha)
    · rw [toNat_target_add (h.next_lt i hnext), Location.romSize] at ha
      omega
  next_lt _ hj := (c.next_advance requests hj).1

end ObjectCopy.Channel

namespace Bus

/-- The bus has the given program image, for good. -/
def HoldsRom (image : UInt16 → UInt8) (bus : Bus) : Prop := bus.channel.HoldsRom image

variable {image : UInt16 → UInt8} {bus : Bus}

/-- **No write changes the program image.** -/
theorem HoldsRom.write (h : bus.HoldsRom image) (a : UInt16) (v : UInt8) :
    (bus.write a v).HoldsRom image := by
  obtain ⟨hget, hnext⟩ := h
  refine bus.write_induction (motive := HoldsRom image) (fun b hb ↦ ?_) (fun r _ ↦ ?_)
    ⟨hget, hnext⟩
  · exact ⟨fun a ha ↦ (ObjectCopy.Channel.get_set_of_lt hb ha v).trans (hget a ha), hnext⟩
  · cases r with
    | objectCopy =>
      refine ⟨hget, fun i hi ↦ ?_⟩
      obtain rfl : 0 = i := Option.some.inj hi
      decide
    | _ => exact ⟨hget, hnext⟩

/-- Nor does anything that the devices do in time. -/
theorem HoldsRom.catchUp (h : bus.HoldsRom image) (target : Nat) :
    (bus.catchUp target).HoldsRom image :=
  Peripheral.catchUp_induction (P := ObjectCopy.Channel) (motive := fun c _ ↦ c.HoldsRom image)
    (fun _ requests _ hc ↦ hc.advance requests) (p := bus.channel) h

/-- The first contents of memory, byte by byte. -/
theorem get_initialMemory (a : UInt16) : initialMemory.get a = PowerOn.byte a := by
  rw [initialMemory, Memory.get_ofFn]

/-- A reset keeps the program image and renews everything above it. -/
theorem get_memory_reset (bus : Bus) (a : UInt16) :
    bus.reset.memory.get a =
      if a.toNat < Location.romSize then bus.memory.get a else PowerOn.byte a := by
  rw [Bus.reset, Memory.get_ofFn]

/-- A program image that is loaded fills the lower half of memory, to the end with 0xFF. -/
theorem get_memory_loadRom (bus : Bus) (rom : Array UInt8) (a : UInt16) :
    (bus.loadRom rom).memory.get a =
      if a.toNat < Location.romSize then rom[a.toNat]?.getD 0xFF else bus.memory.get a := by
  rw [Bus.loadRom, Memory.get_ofFn]

theorem HoldsRom.reset (h : bus.HoldsRom image) : bus.reset.HoldsRom image where
  get_eq a ha := by
    have hget := bus.get_memory_reset a
    rw [if_pos ha] at hget
    exact hget.trans (h.get_eq a ha)
  next_lt i hi := nomatch hi

/-- At power-on there is no image, and its place is empty. -/
theorem holdsRom_powerOn (capture : Bool) : (powerOn capture).HoldsRom fun _ ↦ 0 where
  get_eq a ha := by
    have hlow : a < 0xC000 :=
      UInt16.lt_iff_toNat_lt.mpr (Nat.lt_of_lt_of_le ha (by decide))
    refine (get_initialMemory a).trans ?_
    rw [PowerOn.byte, if_pos hlow]
  next_lt i hi := nomatch hi

/-- **Everything done to a bus keeps its program image.** -/
theorem kept_holdsRom (image : UInt16 → UInt8) : Kept (HoldsRom image) where
  write _ a v h := h.write a v
  catchUp _ target h := h.catchUp target
  setButton _ _ _ h := ⟨h.get_eq, h.next_lt⟩
  request _ _ h := ⟨h.get_eq, h.next_lt⟩
  takeSerialOutput _ h := ⟨h.get_eq, h.next_lt⟩
  reset _ h := h.reset

/-- Everything done to a bus leaves the copying engine in range. -/
theorem kept_inRange : Kept fun bus ↦ bus.objectCopy.InRange where
  write bus a v h := by
    refine bus.write_induction (motive := fun bus ↦ bus.objectCopy.InRange) (fun _ _ ↦ h)
      (fun r _ ↦ ?_) h
    cases r with
    | objectCopy => exact bus.objectCopy.inRange_start v
    | _ => exact h
  catchUp bus target h :=
    Peripheral.catchUp_induction (P := ObjectCopy.Channel)
      (motive := fun c _ ↦ c.engine.InRange) (fun _ requests _ hc ↦ hc.advance requests)
      (p := bus.channel) h
  setButton _ _ _ h := h
  request _ _ h := h
  takeSerialOutput _ h := h
  reset _ _ := ObjectCopy.inRange_powerOn

/-- A bus whose copying engine is in range has the image that it shows, for good. -/
theorem holdsRom_self {bus : Bus} (h : bus.objectCopy.InRange) :
    bus.HoldsRom bus.memory.get where
  get_eq _ _ := rfl
  next_lt := h.next_lt

/-- Whether the bytes sent are recorded is settled once and for all. -/
theorem kept_capture (capture : Bool) : Kept fun bus ↦ bus.serial.capture = capture where
  write bus a v h := by
    refine bus.write_induction (motive := fun bus ↦ bus.serial.capture = capture) (fun _ _ ↦ h)
      (fun r _ ↦ ?_) h
    cases r with
    | serialControl => exact (bus.serial.capture_setControl v).trans h
    | _ => exact h
  catchUp bus target h :=
    Peripheral.catchUp_induction (P := Serial) (motive := fun p _ ↦ p.capture = capture)
      (fun p requests _ hp ↦ (p.capture_advance requests).trans hp) (p := bus.serial) h
  setButton _ _ _ h := h
  request _ _ h := h
  takeSerialOutput _ h := h
  reset _ h := h

/-- The image is what is read at its addresses. -/
theorem read_eq_get {a : UInt16} (ha : a.toNat < Location.romSize) :
    bus.read a = bus.memory.get a := by
  have hrom : Location.ofAddress a = .rom a := if_pos (UInt16.lt_iff_toNat_lt.mpr ha)
  simp only [read, hrom]

end Bus

end GameBoy
