import Chip8.Monitor
import Chip8.RegisterDump
import Chip8.Trace
import Chip8.Progress.Floating
import Chip8.Display.Text
import Chip8.Display.Raster
import Chip8.Display.Plot
import Chip8.Operation.Grammar
import Chip8.Text.Integer
import Chip8.CommandLine.Performance
import Chip8.Main
import Chip8.Proofs.Machine.Perform
import Chip8.Proofs.Machine.WriteSet
import Chip8.Proofs.Display.Plot
import Chip8.Proofs.Machine.Drawing
import Chip8.Proofs.Machine.Run
import Chip8.Proofs.CallStack.Frames
import Chip8.Proofs.Machine.Subroutine
import Chip8.Proofs.Machine.KeyWait
import Chip8.Proofs.Machine.Fault
import Chip8.Proofs.Machine.Checked
import Chip8.Proofs.Machine.History
import Chip8.Proofs.Machine.WaitStart
import Chip8.Proofs.Machine.Step
import Chip8.Proofs.Monitor.Session
import Chip8.Proofs.Machine.Draws
import Chip8.Proofs.Monitor.Stepping
import Chip8.Proofs.Machine.Restart
import Chip8.Proofs.Machine.Driven
import Chip8.Proofs.Machine.Events
import Chip8.Proofs.Machine.HostEvents
import Chip8.Proofs.Machine.Timers
import Chip8.Proofs.Text.Numeral
import Chip8.Proofs.Text.Integer
import Chip8.Proofs.Listing
import Chip8.Proofs.CommandLine.Request
import Chip8.Proofs.Progress
import Chip8.Proofs.CommandLine.Performance
import Chip8.Proofs.Monitor.Moments
import Chip8.Proofs.Monitor.Tracing
import Chip8.Proofs.Monitor.Waits
import Chip8.Proofs.Display.Pixels
import Chip8.Proofs.Machine.Redraw
import Chip8.Proofs.Monitor.Levels
import Chip8.Proofs.CallStack.Bounded
import Chip8.Proofs.Machine.Arithmetic
import Chip8.Proofs.Machine.Loading
import Chip8.Proofs.Machine.SavedRegisters
import Chip8.Proofs.Operation.Grammar
import Chip8.Proofs.Monitor.Frame
import Chip8.Proofs.Machine.Keys
import Chip8.Proofs.Listing.Range
import Chip8.Proofs.Display.Exports
import Chip8.Proofs.RegisterDump
