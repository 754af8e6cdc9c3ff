import GameBoy.Proofs.Bus.Uses
import GameBoy.Proofs.Device.VideoFrame

/-!
# The display seen from the bus

Three registers reach the display, and of these only the control register moves it, to the beginning
of a frame, and only by switching it on or off. So whatever is done to a bus, its display is regular
(`kept_regular`), and a display that is off shows the beginning of a frame for as long as it is off
(`catchUp_of_off`).

How far a display has come since it was switched on is a matter of counting its advances, over all
the ticks that the bus has caught up to (`Bus.videoAdvances`). Whatever happens on the way, the
display is no further on than its advances can take it (`within_after`): switching it off and on
again, or a reset, only takes it back. If nothing of the kind happens it is exactly there
(`counts_after`). The one bounds the vertical blank from below, the other tells when it comes; both
go from one use to the next.
-/

namespace GameBoy.Bus

/-! ### The display on the bus -/

/-- A write moves the display only if it is one to the control register. -/
theorem video_write (bus : Bus) (a : UInt16) (byte : UInt8) :
    (bus.write a byte).video.SamePlace bus.video ∨
      a = 0xFF40 ∧ (bus.write a byte).video = bus.video.setControl byte := by
  have hsame {w : Video} (hon : w.on = bus.video.on) (hline : w.line = bus.video.line)
      (hdot : w.dot = bus.video.dot) :
      w.SamePlace bus.video ∨ a = 0xFF40 ∧ w = bus.video.setControl byte :=
    .inl ⟨hon, hline, hdot⟩
  refine bus.write_induction (motive := fun b ↦ b.video.SamePlace bus.video ∨
    a = 0xFF40 ∧ b.video = bus.video.setControl byte) (fun _ _ ↦ hsame rfl rfl rfl) (fun r hr ↦ ?_)
    (hsame rfl rfl rfl)
  cases r with
  | displayControl => exact .inr ⟨hr, rfl⟩
  | _ => exact hsame rfl rfl rfl

/-- To the display, a bus that catches up is so many advances of its own. -/
theorem video_catchUp (bus : Bus) (target : Nat) :
    (bus.catchUp target).video =
      (Peripheral.advanced (bus.advances target .video) bus.video).1 := by
  rw [catchUp_eq_advanced]
  rfl

/-- **The display is regular, whatever is done to the bus.** -/
theorem kept_regular : Kept fun bus ↦ bus.video.Regular where
  write bus a v h := by
    rcases bus.video_write a v with hsame | ⟨-, hcontrol⟩
    · exact hsame.regular h
    · rw [hcontrol]
      exact h.setControl v
  catchUp bus _ h :=
    Peripheral.catchUp_induction (P := Video) (motive := fun v _ ↦ v.Regular)
      (fun _ requests _ hv ↦ hv.advance requests) (p := bus.video) h
  setButton _ _ _ h := h
  request _ _ h := h
  takeSerialOutput _ h := h
  reset _ _ := ⟨Video.inFrame_of_zero rfl rfl, fun _ ↦ rfl⟩

/-! ### Counting advances -/

/-- The advances that the display makes in a use. -/
def Use.videoAdvances (bus : Bus) : Use → Nat
  | .catchUp target => bus.advances target .video
  | _ => 0

/-- The advances that the display makes in some uses. -/
def videoAdvances (bus : Bus) : List Use → Nat
  | [] => 0
  | use :: uses => use.videoAdvances bus + (bus.use use).videoAdvances uses

/-- A use that does not switch the display off, and does not take it back to the beginning as a
reset does. -/
def Use.LeavesOn : Use → Prop
  | .write a v => a = 0xFF40 → Video.switchesOn v = true
  | .reset => False
  | _ => True

theorem videoAdvances_eq (bus : Bus) (uses : List Use) :
    bus.videoAdvances uses = bus.advancesIn .video uses := by
  induction uses generalizing bus with
  | nil => rfl
  | cons use uses ih =>
    rw [videoAdvances, advancesIn, ih]
    cases use <;> rfl

section Counting

open Video

variable {bus : Bus} {n : Nat}

theorem within_use (h : Within n bus.video) (use : Use) :
    Within (n + use.advances bus .video) (bus.use use).video := by
  cases use with
  | read a => exact h
  | write a v =>
    show Within n (bus.write a v).video
    rcases bus.video_write a v with hsame | ⟨-, hcontrol⟩
    · exact hsame.within h
    · rw [hcontrol]
      exact h.setControl v
  | catchUp target =>
    show Within _ (bus.catchUp target).video
    rw [video_catchUp]
    exact Peripheral.advanced_counting (motive := Within) (fun _ _ requests hv ↦ hv.advance requests) h _
  | reset => exact ⟨inFrame_of_zero rfl rfl, Nat.zero_le _⟩

/-- **No use takes the display further than its advances do.** -/
theorem within_after (h : Within n bus.video) (uses : List Use) :
    Within (n + bus.videoAdvances uses) (bus.after uses).video := by
  rw [videoAdvances_eq]
  exact after_counting (motive := fun n bus ↦ Within n bus.video)
    (fun _ _ use _ hbus ↦ within_use hbus use) h

theorem counts_use (h : Counts n bus.video) {use : Use} (hon : use.LeavesOn) :
    Counts (n + use.advances bus .video) (bus.use use).video := by
  cases use with
  | read a => exact h
  | write a v =>
    show Counts n (bus.write a v).video
    rcases bus.video_write a v with hsame | ⟨ha, hcontrol⟩
    · exact hsame.counts h
    · rw [hcontrol]
      exact h.setControl (hon ha)
  | catchUp target =>
    show Counts _ (bus.catchUp target).video
    rw [video_catchUp]
    exact Peripheral.advanced_counting (motive := Counts) (fun _ _ requests hv ↦ hv.advance requests) h _
  | reset => exact hon.elim

/-- **While it stays on, the display is where its advances have taken it.** -/
theorem counts_after (h : Counts n bus.video) {uses : List Use}
    (hon : ∀ use ∈ uses, use.LeavesOn) :
    Counts (n + bus.videoAdvances uses) (bus.after uses).video := by
  rw [videoAdvances_eq]
  exact after_counting (motive := fun n bus ↦ Counts n bus.video)
    (fun _ _ use huse hbus ↦ counts_use hbus (hon use huse)) h

end Counting

/-! ### The timetable -/

section Timetable

variable {bus : Bus}

theorem toNat_read_line (h : bus.video.InFrame) : (bus.read 0xFF44).toNat = bus.video.line := by
  have hread : bus.read 0xFF44 = UInt8.ofNat bus.video.line := bus.read_address .line
  have hline : bus.video.line < 154 := h.line_lt
  rw [hread, UInt8.toNat_ofNat']
  omega

theorem mode_eq (bus : Bus) : bus.read 0xFF41 &&& 0x03 = UInt8.ofNat bus.video.mode.number := by
  rw [← bus.video.status_and_three]
  exact congrArg (· &&& 0x03) (bus.read_address .displayStatus)

theorem line_le (h : bus.video.InFrame) : (bus.read 0xFF44).toNat ≤ 153 := by
  rw [toNat_read_line h]
  exact Nat.le_of_lt_succ h.line_lt

/-- **What a display that is on shows** of where it is. -/
theorem mode_of_on (h : bus.video.InFrame) (hon : bus.video.on = true) :
    bus.read 0xFF41 &&& 0x03 =
      if 144 ≤ (bus.read 0xFF44).toNat then 1 else if bus.video.dot < 80 then 2
      else if bus.video.dot < 252 then 3 else 0 := by
  rw [mode_eq, Video.number_mode_of_on hon, toNat_read_line h]
  simp only [apply_ite UInt8.ofNat]
  rfl

/-- **A display that is off** shows the beginning of a frame, goes on showing it, and requests
nothing. -/
theorem catchUp_of_off (h : bus.video.Regular) (hoff : bus.video.on = false) :
    bus.read 0xFF44 = 0 ∧ bus.read 0xFF41 &&& 0x03 = 0 ∧
      ∀ target, (bus.catchUp target).read 0xFF44 = bus.read 0xFF44 ∧
        (bus.catchUp target).read 0xFF41 = bus.read 0xFF41 ∧
        .vblank ∉ bus.requested (bus.advances target) ∧
        .lcdStat ∉ bus.requested (bus.advances target) := by
  have hline : bus.video.line = 0 := by
    have hposition := h.position_eq hoff
    simp only [Video.position, Video.lineTicks] at hposition
    omega
  refine ⟨?_, ?_, fun target ↦ ?_⟩
  · calc bus.read 0xFF44 = UInt8.ofNat bus.video.line := bus.read_address .line
      _ = 0 := congrArg UInt8.ofNat hline
  · rw [mode_eq, Video.mode_of_off hoff]
    rfl
  · obtain ⟨hvideo, hnone⟩ := Video.advanced_of_off hoff (bus.advances target .video)
    rw [← video_catchUp] at hvideo
    have hrequests : bus.requestedBy (bus.advances target .video) .video = ∅ := hnone
    refine ⟨?_, ?_, ?_, ?_⟩
    · calc (bus.catchUp target).read 0xFF44
          = (bus.catchUp target).video.lineRegister := read_address _ .line
        _ = bus.video.lineRegister := by
          rw [hvideo]
          rfl
        _ = bus.read 0xFF44 := (bus.read_address .line).symm
    · calc (bus.catchUp target).read 0xFF41
          = (bus.catchUp target).video.status := read_address _ .displayStatus
        _ = bus.video.status := by
          rw [hvideo]
          rfl
        _ = bus.read 0xFF41 := (bus.read_address .displayStatus).symm
    · rw [bus.mem_requested_iff_of_source (d := .video) (by decide), hrequests]
      exact InterruptSet.not_mem_empty
    · rw [bus.mem_requested_iff_of_source (d := .video) (by decide), hrequests]
      exact InterruptSet.not_mem_empty

/-- **A display that is switched on** begins a frame. -/
theorem vblank_of_switchedOn (hoff : bus.video.on = false) {byte : UInt8}
    (hon : Video.switchesOn byte = true) (later : List Use) :
    let begun := bus.write 0xFF40 byte
    let bus' := begun.after later
    let count := begun.videoAdvances later
    ((∀ use ∈ later, use.LeavesOn) →
        456 * (bus'.read 0xFF44).toNat + bus'.video.dot = 4 * count % 70224) ∧
      ∀ k,
        let video := (Peripheral.advanced k bus'.video).1
        (count + k + 1 ≤ 16415 → .vblank ∉ (Peripheral.advance video ∅).2) ∧
          (count + k + 1 = 16416 → (∀ use ∈ later, use.LeavesOn) →
            .vblank ∈ (Peripheral.advance video ∅).2) := by
  intro begun bus' count
  have hbegun : Video.Counts 0 begun.video := Video.counts_setControl_of_off hoff hon
  refine ⟨fun hstays ↦ ?_, fun k ↦ ⟨fun hfew ↦ ?_, fun hlast hstays ↦ ?_⟩⟩
  · have hcounts := counts_after hbegun hstays
    rw [Nat.zero_add] at hcounts
    rw [toNat_read_line hcounts.inFrame]
    exact hcounts.position_eq
  · have hwithin := Peripheral.advanced_counting (motive := Video.Within)
      (fun _ _ requests hv ↦ hv.advance requests) (within_after hbegun.within later) k
    exact hwithin.vblank_not_mem (by omega)
  · have hcounts := Peripheral.advanced_counting (motive := Video.Counts)
      (fun _ _ requests hv ↦ hv.advance requests) (counts_after hbegun hstays) k
    have hnumber : 0 + begun.videoAdvances later + k = 16415 := by omega
    rw [hnumber] at hcounts
    exact hcounts.vblank_mem

end Timetable

/-- **The timetable of the display.** Whatever has been read from and written to a bus since
power-on, whatever ticks it has caught up to and however often it has been reset: the line register
shows a line of the frame, and the status register of a display that is on shows the mode that
belongs to the line and to the ticks spent on it.

A display that is off shows line 0 and mode 0. It goes on doing so whatever the bus catches up to,
and requests no interrupt. When it is switched on, a frame begins, wherever it was when it was
switched off: however the bus is used from there on, the vertical blank is not requested by the next
16415 advances, and it is requested by the one after them if the display is left on meanwhile. -/
theorem display_timetable (capture : Bool) (uses : List Use) :
    let bus := (powerOn capture).after uses
    let line := (bus.read 0xFF44).toNat
    let dot := bus.video.dot
    let mode := bus.read 0xFF41 &&& 0x03
    let on := Video.switchesOn (bus.read 0xFF40)
    (line ≤ 153 ∧ dot < 456 ∧
      (on = true →
        mode = if 144 ≤ line then 1 else if dot < 80 then 2 else if dot < 252 then 3 else 0)) ∧
    (on = false →
      (bus.read 0xFF44 = 0 ∧ mode = 0 ∧
        ∀ target, (bus.catchUp target).read 0xFF44 = bus.read 0xFF44 ∧
          (bus.catchUp target).read 0xFF41 = bus.read 0xFF41 ∧
          .vblank ∉ bus.requested (bus.advances target) ∧
          .lcdStat ∉ bus.requested (bus.advances target)) ∧
      ∀ byte later, Video.switchesOn byte = true →
        let begun := bus.write 0xFF40 byte
        let bus' := begun.after later
        let count := begun.videoAdvances later
        ((∀ use ∈ later, use.LeavesOn) →
          456 * (bus'.read 0xFF44).toNat + bus'.video.dot = 4 * count % 70224) ∧
        ∀ k,
          let video := (Peripheral.advanced k bus'.video).1
          (count + k + 1 ≤ 16415 → .vblank ∉ (Peripheral.advance video ∅).2) ∧
          (count + k + 1 = 16416 → (∀ use ∈ later, use.LeavesOn) →
            .vblank ∈ (Peripheral.advance video ∅).2)) := by
  intro bus line dot mode on
  have hregular : bus.video.Regular :=
    kept_regular.after ⟨Video.inFrame_of_zero rfl rfl, fun _ ↦ rfl⟩ uses
  have hcontrol : on = bus.video.on := congrArg Video.switchesOn (bus.read_address .displayControl)
  refine ⟨⟨line_le hregular.inFrame, hregular.inFrame.dot_lt, fun hon ↦ ?_⟩, fun hoff ↦ ?_⟩
  · exact mode_of_on hregular.inFrame (hcontrol ▸ hon)
  · have hoff : bus.video.on = false := hcontrol ▸ hoff
    exact ⟨catchUp_of_off hregular hoff, fun byte later hon ↦ vblank_of_switchedOn hoff hon later⟩

/-- Some way into the first line the display is switched off. -/
def switchedOff : List Use := [.catchUp 8, .write 0xFF40 0x11]

theorem display_timetable_of_switchedOff :
    ((powerOn true).after [.catchUp 8]).read 0xFF41 &&& 0x03 = 2 ∧
      ((powerOn true).after switchedOff).read 0xFF44 = 0 ∧
      (((powerOn true).after switchedOff).catchUp 5000).read 0xFF44 = 0 ∧
      .vblank ∈ (Peripheral.advance (Peripheral.advanced 16415
        (((powerOn true).after switchedOff).write 0xFF40 0x91).video).1 ∅).2 := by
  obtain ⟨⟨-, -, hon⟩, -⟩ := display_timetable true [.catchUp 8]
  obtain ⟨-, hoff⟩ := display_timetable true switchedOff
  obtain ⟨⟨hline, -, hstays⟩, hswitched⟩ := hoff (by decide)
  obtain ⟨-, hvblank⟩ := hswitched 0x91 [] (by decide)
  have hlast := (hvblank 16415).2 rfl (fun _ huse ↦ absurd huse List.not_mem_nil)
  rw [after, List.foldl_nil] at hlast
  exact ⟨(hon (by decide)).trans (by decide), hline, (hstays 5000).1.trans hline, hlast⟩

end GameBoy.Bus
