import PackagePower.Binary64.Arithmetic
import PackagePower.Binary64.Basic
import PackagePower.Binary64.Fixed
import PackagePower.Binary64.Reading
import PackagePower.Binary64.Shortest
import PackagePower.Command
import PackagePower.CommandLine.Invocation
import PackagePower.CommandLine.LimitPanel
import PackagePower.CommandLine.LimitWriter
import PackagePower.CommandLine.Options
import PackagePower.CommandLine.Plan
import PackagePower.CommandLine.Terminal
import PackagePower.CommandLine.WindowReader
import PackagePower.CommandLine.WindowScanner
import PackagePower.Device.Bridge
import PackagePower.Device.Cell
import PackagePower.Device.Devices
import PackagePower.Device.RegisterFile
import PackagePower.Device.Window
import PackagePower.Device.Zone
import PackagePower.Fault
import PackagePower.Host.Basic
import PackagePower.Host.Contents
import PackagePower.Host.Layout
import PackagePower.Main
import PackagePower.OneShot
import PackagePower.Program.Basic
import PackagePower.Program.Run
import PackagePower.Program.Station
import PackagePower.Quantity
import PackagePower.Register.ChipsetWindow
import PackagePower.Register.LimitUnits
import PackagePower.Register.PowerLimit
import PackagePower.Register.PowerUnit
import PackagePower.Register.Word
import PackagePower.Report
import PackagePower.Scan
import PackagePower.Session.Menu
import PackagePower.Session.Step
import PackagePower.Snapshot
import PackagePower.Text.Blank
import PackagePower.Text.Digits
import PackagePower.Text.Numeral
import PackagePower.Proofs.Program.Attempt
import PackagePower.Proofs.Program.Only
import PackagePower.Proofs.Session.Trace
import PackagePower.Proofs.Session.Course
import PackagePower.Proofs.Session.Confirmation
import PackagePower.Proofs.Device.Bench
import PackagePower.Proofs.Device.StuckBits
import PackagePower.Proofs.Session.Queue
import PackagePower.Proofs.Register.PowerLimit
import PackagePower.Proofs.Session.Registers
import PackagePower.Proofs.Quantity
import PackagePower.Proofs.Device.Discovery
import PackagePower.Proofs.Host.Contents
import PackagePower.Proofs.OneShot
import PackagePower.Proofs.CommandLine.Written
import PackagePower.Proofs.CommandLine.Understood
import PackagePower.Proofs.CommandLine.Pairs
import PackagePower.Proofs.CommandLine.Restore
import PackagePower.Proofs.Binary64.Fixed
import PackagePower.Proofs.Binary64.Exact
import PackagePower.Proofs.Binary64.Nearest
import PackagePower.Proofs.Register.PowerUnit
import PackagePower.Proofs.Snapshot
import PackagePower.Proofs.Snapshot.Arrangement
import PackagePower.Proofs.Program.Cut
import PackagePower.Proofs.Program.Moment
import PackagePower.Proofs.Program.Outcome
import PackagePower.Proofs.Program.Simulation
import PackagePower.Proofs.Program.Sound
import PackagePower.Proofs.Session.Fault
import PackagePower.Proofs.Session.Cut
import PackagePower.Proofs.OneShot.Exits
import PackagePower.Proofs.OneShot.Undo
import PackagePower.Proofs.Text.ByteOrder
import PackagePower.Proofs.Text.Solid
import PackagePower.Proofs.Text.Span
import PackagePower.Proofs.Device.Zone
import PackagePower.Proofs.Host.Agree
import PackagePower.Proofs.Host.Reach
import PackagePower.Proofs.Device.Reach
import PackagePower.Proofs.Device.Bridge
import PackagePower.Proofs.Device.Listing
import PackagePower.Proofs.Device.SameWindow
import PackagePower.Proofs.Device.Cells
import PackagePower.Proofs.Session.Ending
import PackagePower.Proofs.Session.Settle
import PackagePower.Proofs.Session.Fold
import PackagePower.Proofs.Session.Answers
import PackagePower.Proofs.Session.Offer
import PackagePower.Proofs.Session.Microwatts
import PackagePower.Proofs.Device.Simulation
import PackagePower.Proofs.Session.Reach
import PackagePower.Proofs.CommandLine.Ending
import PackagePower.Proofs.CommandLine.Reach
import PackagePower.Proofs.CommandLine.RawValues
import PackagePower.Proofs.Program.Fault
import PackagePower.Proofs.Device.Fault
import PackagePower.Proofs.Device.Alike
import PackagePower.Proofs.Scan
import PackagePower.Proofs.OneShot.Found
import PackagePower.Proofs.CommandLine.Status
import PackagePower.Proofs.Command.Independence
import PackagePower.Proofs.Command.WriteBack
import PackagePower.Proofs.Device.Overlap
import PackagePower.Proofs.Register.Encoding
import PackagePower.Proofs.Text.Spelling
import PackagePower.Proofs.Quantity.HexWord
