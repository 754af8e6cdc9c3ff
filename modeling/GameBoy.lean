import GameBoy.Directory
import GameBoy.Main
import GameBoy.Port.Trace
import GameBoy.Proofs.Bus.Display
import GameBoy.Proofs.CommandLine
import GameBoy.Proofs.Cpu.BitTable
import GameBoy.Proofs.Cpu.Decimal
import GameBoy.Proofs.Cpu.HaltEnd
import GameBoy.Proofs.Cpu.ImeFifo
import GameBoy.Proofs.Cpu.ImeLatency
import GameBoy.Proofs.Cpu.NestedCalls
import GameBoy.Proofs.Cpu.Prefix
import GameBoy.Proofs.Cpu.Serving
import GameBoy.Proofs.Cpu.WordAddition
import GameBoy.Proofs.Device.JoypadMatrix
import GameBoy.Proofs.Device.SerialAccount
import GameBoy.Proofs.Device.StatFrame
import GameBoy.Proofs.Device.TimerRun
import GameBoy.Proofs.Headless.Leniency
import GameBoy.Proofs.Headless.Run
import GameBoy.Proofs.Machine.Boundary
import GameBoy.Proofs.Machine.Copying
import GameBoy.Proofs.Machine.Faults
import GameBoy.Proofs.Machine.Requests
import GameBoy.Proofs.Machine.Reset
import GameBoy.Proofs.Machine.Sleep
import GameBoy.Proofs.Machine.Transfer
import GameBoy.Proofs.Program.FrameCounter
