import GameBoy.Proofs.Bus.Time
import GameBoy.Proofs.Device.Joypad

/-!
# The devices catch up independently of each other

The five devices share the pending requests, and the copying engine works in the memory of the bus.
Neither lets one of them notice another: a device does not look at the requests, and no other device
reaches memory. So what the bus becomes depends on **how many** advances each device has made and
not on their order. `Bus.advanced` is the bus after given numbers of advances, each device taken by
itself; single advances, whole schedules of them (`foldl_advance`) and catching up
(`catchUp_eq_advanced`) all come to it.

So time may be cut anywhere, and the advances on the way may be made in any order
(`catchUp_in_any_order`).
-/

namespace GameBoy

/-- The sources that a device can request. -/
def Device.sources : Device → InterruptSet
  | .timer => {.timer}
  | .serial => {.serial}
  | .joypad => {.joypad}
  | .video => {.vblank} ∪ {.lcdStat}
  | .objectCopy => ∅

/-- No two devices share a source. -/
theorem Device.eq_of_mem_sources {d e : Device} {i : Interrupt} (hd : i ∈ d.sources)
    (he : i ∈ e.sources) : d = e := by
  cases d <;> cases e <;> cases i <;> first | rfl | exact absurd hd (by decide) |
    exact absurd he (by decide)

namespace Bus

open Peripheral

/-- The copying engine with the memory it works in. -/
def channel (bus : Bus) : ObjectCopy.Channel := { engine := bus.objectCopy, memory := bus.memory }

/-- One advance of one device. -/
def advance (bus : Bus) : Device → Bus
  | .timer =>
    let (timer, requests) := Peripheral.advance bus.timer bus.requests
    { bus with timer, requests }
  | .serial =>
    let (serial, requests) := Peripheral.advance bus.serial bus.requests
    { bus with serial, requests }
  | .joypad =>
    let (joypad, requests) := Peripheral.advance bus.joypad bus.requests
    { bus with joypad, requests }
  | .video =>
    let (video, requests) := Peripheral.advance bus.video bus.requests
    { bus with video, requests }
  | .objectCopy =>
    let (channel, requests) := Peripheral.advance bus.channel bus.requests
    { bus with memory := channel.memory, objectCopy := channel.engine, requests }

/-- The number of advances with which a device catches up. What is pending has no part in it
(`Peripheral.advances_eq`). -/
def advances (bus : Bus) (target : Nat) : Device → Nat
  | .timer => (Peripheral.catchUp target bus.timer ∅).1
  | .serial => (Peripheral.catchUp target bus.serial ∅).1
  | .joypad => (Peripheral.catchUp target bus.joypad ∅).1
  | .video => (Peripheral.catchUp target bus.video ∅).1
  | .objectCopy => (Peripheral.catchUp target bus.channel ∅).1

/-! ### Each device by itself -/

/-- What a device requests in its next `n` advances. -/
def requestedBy (bus : Bus) (n : Nat) : Device → InterruptSet
  | .timer => (Peripheral.advanced n bus.timer).2
  | .serial => (Peripheral.advanced n bus.serial).2
  | .joypad => (Peripheral.advanced n bus.joypad).2
  | .video => (Peripheral.advanced n bus.video).2
  | .objectCopy => (Peripheral.advanced n bus.channel).2

/-- What the devices request in so many advances of each. -/
def requested (bus : Bus) (n : Device → Nat) : InterruptSet :=
  bus.requestedBy (n .timer) .timer ∪ bus.requestedBy (n .serial) .serial ∪
    bus.requestedBy (n .joypad) .joypad ∪ bus.requestedBy (n .video) .video ∪
    bus.requestedBy (n .objectCopy) .objectCopy

/-- The bus after so many advances of each device. -/
def advanced (bus : Bus) (n : Device → Nat) : Bus where
  memory := (Peripheral.advanced (n .objectCopy) bus.channel).1.memory
  requests := bus.requests ∪ bus.requested n
  enabled := bus.enabled
  timer := (Peripheral.advanced (n .timer) bus.timer).1
  serial := (Peripheral.advanced (n .serial) bus.serial).1
  joypad := (Peripheral.advanced (n .joypad) bus.joypad).1
  video := (Peripheral.advanced (n .video) bus.video).1
  objectCopy := (Peripheral.advanced (n .objectCopy) bus.channel).1.engine

variable (bus : Bus)

/-- What is requested is requested by one of the devices. -/
theorem mem_requested {n : Device → Nat} {i : Interrupt} :
    i ∈ bus.requested n ↔ ∃ d, i ∈ bus.requestedBy (n d) d := by
  simp only [requested, InterruptSet.mem_union]
  constructor
  · rintro ((((h | h) | h) | h) | h) <;> exact ⟨_, h⟩
  · rintro ⟨d, h⟩
    cases d <;> simp [h]

/-- **Each device requests its own sources only.** -/
theorem mem_sources_of_mem_requestedBy {n : Nat} {d : Device} {i : Interrupt}
    (h : i ∈ bus.requestedBy n d) : i ∈ d.sources := by
  -- What it can request in one advance is all that it can request.
  cases d with
  | timer =>
    refine of_mem_advanced (fun _ _ hi ↦ ?_) h
    simpa [Device.sources] using Timer.eq_of_mem_advance hi
  | serial =>
    refine of_mem_advanced (fun _ _ hi ↦ ?_) h
    simpa [Device.sources] using Serial.eq_of_mem_advance hi
  | joypad =>
    refine of_mem_advanced (fun _ _ hi ↦ ?_) h
    simpa [Device.sources] using Joypad.eq_of_mem_advance hi
  | video =>
    refine of_mem_advanced (fun _ _ hi ↦ ?_) h
    simpa [Device.sources] using Video.eq_of_mem_advance hi
  | objectCopy =>
    refine of_mem_advanced (fun _ _ hi ↦ ?_) h
    exact absurd hi ObjectCopy.Channel.not_mem_advance

/-- **A source is requested by its own device or not at all.** -/
theorem mem_requested_iff_of_source {n : Device → Nat} {d : Device} {i : Interrupt}
    (hi : i ∈ d.sources) : i ∈ bus.requested n ↔ i ∈ bus.requestedBy (n d) d := by
  refine ⟨fun h ↦ ?_, fun h ↦ bus.mem_requested.mpr ⟨d, h⟩⟩
  obtain ⟨e, he⟩ := bus.mem_requested.mp h
  obtain rfl := Device.eq_of_mem_sources hi (bus.mem_sources_of_mem_requestedBy he)
  exact he

/-- The joypad requests nothing unless a line has fallen. -/
theorem joypad_not_mem_requested (h : bus.joypad.fallen = 0) (n : Device → Nat) :
    .joypad ∉ bus.requested n := by
  have hempty : bus.requestedBy (n .joypad) .joypad = ∅ :=
    Joypad.advanced_of_fallen_eq_zero h (n .joypad)
  rw [bus.mem_requested_iff_of_source (d := .joypad) (by decide), hempty]
  exact InterruptSet.not_mem_empty

/-- What a device requests in a row of advances it requests in the first or in the second part. -/
theorem requestedBy_add (n m : Device → Nat) (d : Device) :
    bus.requestedBy (n d + m d) d =
      bus.requestedBy (n d) d ∪ (bus.advanced n).requestedBy (m d) d := by
  cases d <;> exact congrArg Prod.snd (Peripheral.advanced_add ..)

/-- **Advances add up.** -/
theorem advanced_advanced (n m : Device → Nat) :
    (bus.advanced n).advanced m = bus.advanced fun d ↦ n d + m d := by
  have htimer := congrArg Prod.fst (Peripheral.advanced_add (n .timer) (m .timer) bus.timer)
  have hserial := congrArg Prod.fst (Peripheral.advanced_add (n .serial) (m .serial) bus.serial)
  have hjoypad := congrArg Prod.fst (Peripheral.advanced_add (n .joypad) (m .joypad) bus.joypad)
  have hvideo := congrArg Prod.fst (Peripheral.advanced_add (n .video) (m .video) bus.video)
  have hchannel := congrArg Prod.fst
    (Peripheral.advanced_add (n .objectCopy) (m .objectCopy) bus.channel)
  have hrequests : bus.requests ∪ bus.requested n ∪ (bus.advanced n).requested m =
      bus.requests ∪ bus.requested fun d ↦ n d + m d := by
    rw [InterruptSet.union_assoc]
    congr 1
    apply InterruptSet.ext
    intro i
    simp only [InterruptSet.mem_union, mem_requested, requestedBy_add, exists_or]
  rw [advanced, advanced.eq_1 bus fun d ↦ n d + m d, htimer, hserial, hjoypad, hvideo, hchannel,
    ← hrequests]
  rfl

/-! ### Schedules -/

theorem requestedBy_zero (d : Device) : bus.requestedBy 0 d = ∅ := by
  cases d <;> rfl

/-- A bus on which no device advances stays as it is. -/
theorem advanced_zero : (bus.advanced fun _ ↦ 0) = bus := by
  have hrequested : (bus.requested fun _ ↦ 0) = ∅ := by
    apply InterruptSet.ext
    simp [mem_requested, requestedBy_zero]
  rw [advanced, hrequested, InterruptSet.union_empty]
  rfl

theorem requested_single (d : Device) :
    (bus.requested fun e ↦ [d].count e) = bus.requestedBy 1 d := by
  apply InterruptSet.ext
  intro i
  rw [mem_requested]
  constructor
  · rintro ⟨e, he⟩
    by_cases hde : d = e
    · subst hde
      simpa using he
    · simp [hde, requestedBy_zero] at he
  · intro h
    exact ⟨d, by simpa using h⟩

/-- A single advance is one advance of that device and none of the others. -/
theorem advance_eq_advanced (d : Device) :
    bus.advance d = bus.advanced fun e ↦ [d].count e := by
  cases d <;>
    simp only [advance, advanced, requested_single,
      LatchingPeripheral.advance_eq_union _ bus.requests] <;> rfl

/-- **A schedule comes down to its counts.** -/
theorem foldl_advance (schedule : List Device) :
    schedule.foldl advance bus = bus.advanced fun d ↦ schedule.count d := by
  induction schedule generalizing bus with
  | nil => exact bus.advanced_zero.symm
  | cons d schedule ih =>
    rw [List.foldl_cons, ih, advance_eq_advanced, advanced_advanced]
    congr 1
    funext e
    rw [← List.count_append, List.singleton_append]

/-! ### Catching up -/

/-- **Catching up is advancing each device by itself.** -/
theorem catchUp_eq_advanced (target : Nat) :
    bus.catchUp target = bus.advanced (bus.advances target) := by
  have hrequests : bus.requests ∪ bus.requested (bus.advances target) =
      bus.requests ∪ bus.requestedBy (bus.advances target .timer) .timer ∪
        bus.requestedBy (bus.advances target .serial) .serial ∪
        bus.requestedBy (bus.advances target .joypad) .joypad ∪
        bus.requestedBy (bus.advances target .video) .video ∪
        bus.requestedBy (bus.advances target .objectCopy) .objectCopy := by
    simp only [requested, InterruptSet.union_assoc]
  rw [advanced, hrequests]
  simp only [catchUp, Peripheral.catchUp_eq_advanced]
  rfl

/-- What is pending after catching up has been pending before, or its own device has requested it. -/
theorem mem_requests_catchUp (target : Nat) {d : Device} {i : Interrupt} (hi : i ∈ d.sources) :
    i ∈ (bus.catchUp target).requests ↔
      i ∈ bus.requests ∨ i ∈ bus.requestedBy (bus.advances target d) d := by
  have hall : (bus.catchUp target).requests =
      bus.requests ∪ bus.requested (bus.advances target) := by
    rw [catchUp_eq_advanced]
    rfl
  rw [hall, InterruptSet.mem_union, bus.mem_requested_iff_of_source hi]

/-- The advances up to the later of two ticks can be counted in two parts. -/
theorem advances_add (first second : Nat) (d : Device) :
    bus.advances first d + (bus.catchUp first).advances second d =
      bus.advances (max first second) d := by
  rw [catchUp_eq_advanced]
  cases d with
  | timer => exact advances_advanced bus.timer first second
  | serial => exact advances_advanced bus.serial first second
  | joypad => exact advances_advanced bus.joypad first second
  | video => exact advances_advanced bus.video first second
  | objectCopy => exact advances_advanced bus.channel first second

/-- **Time can be cut anywhere.** -/
theorem catchUp_catchUp (first second : Nat) :
    (bus.catchUp first).catchUp second = bus.catchUp (max first second) := by
  rw [catchUp_eq_advanced _ second, catchUp_eq_advanced bus first, advanced_advanced,
    ← catchUp_eq_advanced bus first, catchUp_eq_advanced bus (max first second)]
  congr 1
  funext d
  exact bus.advances_add first second d

theorem foldl_catchUp (first : Nat) (rest : List Nat) :
    (first :: rest).foldl catchUp bus = bus.catchUp (rest.foldl max first) := by
  induction rest generalizing first with
  | nil => rfl
  | cons second rest ih =>
    rw [List.foldl_cons, List.foldl_cons, catchUp_catchUp]
    exact ih (max first second)

/-- **It does not matter how time is cut, nor in which order the devices advance.** Catching up to
one tick after another is catching up to the latest of them, and so is every schedule in which each
device makes as many advances as catching up takes it. -/
theorem catchUp_in_any_order (bus : Bus) {targets : List Nat} {target : Nat}
    (htarget : IsGreatest { t | t ∈ targets } target) :
    targets.foldl catchUp bus = bus.catchUp target ∧
      ∀ schedule : List Device, (∀ d, schedule.count d = bus.advances target d) →
        schedule.foldl advance bus = bus.catchUp target := by
  refine ⟨?_, fun schedule hcounts ↦ ?_⟩
  · obtain ⟨hmem, hgreatest⟩ := htarget
    have hmax : targets.max? = some target :=
      List.max?_eq_some_iff.mpr ⟨hmem, fun t ht ↦ hgreatest ht⟩
    cases targets with
    | nil => exact absurd hmem List.not_mem_nil
    | cons first rest =>
      rw [List.max?_cons'] at hmax
      rw [foldl_catchUp, Option.some.inj hmax]
  · rw [foldl_advance, catchUp_eq_advanced]
    congr 1
    funext d
    exact hcounts d

/-- A bus on which a copy from work memory has begun and a byte is being sent. -/
def copyingAndSending : Bus := ((powerOn true).write 0xFF46 0xC0).write 0xFF02 0x81

/-- Two advances each, except that the serial port needs one only. -/
theorem catchUp_in_any_order_of_copyingAndSending :
    [4, 8, 4].foldl catchUp copyingAndSending = copyingAndSending.catchUp 8 ∧
      [.objectCopy, .serial, .video, .timer, .joypad, .video, .joypad, .timer, .objectCopy].foldl
        advance copyingAndSending = copyingAndSending.catchUp 8 := by
  have hgreatest : IsGreatest { t | t ∈ [4, 8, 4] } 8 := ⟨by decide, by simp [upperBounds]⟩
  obtain ⟨htargets, hschedules⟩ := catchUp_in_any_order copyingAndSending hgreatest
  refine ⟨htargets, hschedules _ fun d ↦ ?_⟩
  cases d <;> rfl

end Bus

end GameBoy
