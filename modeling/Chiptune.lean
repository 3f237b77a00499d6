import Chiptune.Accuracy
import Chiptune.Analysis.Analyze
import Chiptune.Analysis.Completion
import Chiptune.Analysis.Extraction
import Chiptune.Analysis.Identify
import Chiptune.Analysis.Pattern
import Chiptune.Analysis.Performance
import Chiptune.Analysis.Profile
import Chiptune.Analysis.Reconstruction
import Chiptune.Analysis.Repetition
import Chiptune.Analysis.Scanner
import Chiptune.Byte
import Chiptune.Character.Extending
import Chiptune.Character.Ignorable
import Chiptune.Character.Printable
import Chiptune.Character.Quoted
import Chiptune.Character.Range
import Chiptune.Conversion
import Chiptune.Decimal
import Chiptune.Failure
import Chiptune.File.Container
import Chiptune.File.Folder
import Chiptune.File.Reader
import Chiptune.File.Source
import Chiptune.File.Tune
import Chiptune.Job
import Chiptune.Json.Decode
import Chiptune.Json.File
import Chiptune.Json.Listing
import Chiptune.Json.Playback
import Chiptune.Json.Profile
import Chiptune.Json.Reader
import Chiptune.Json.Report
import Chiptune.Json.Settings
import Chiptune.Json.Song
import Chiptune.Json.Template
import Chiptune.Json.Value
import Chiptune.Json.Writer
import Chiptune.Library
import Chiptune.Machine.Arithmetic
import Chiptune.Machine.Computer
import Chiptune.Machine.Memory
import Chiptune.Machine.Opcode
import Chiptune.Machine.Registers
import Chiptune.Machine.RunError
import Chiptune.Machine.Step
import Chiptune.Playback.Program
import Chiptune.Playback.Session
import Chiptune.Player.Assembly
import Chiptune.Player.Columns
import Chiptune.Player.Decode
import Chiptune.Player.Encode
import Chiptune.Player.Fit
import Chiptune.Player.Layout
import Chiptune.Player.Minimal.Listing
import Chiptune.Player.Minimal.Template
import Chiptune.Player.Music
import Chiptune.Player.Patch
import Chiptune.Player.Rows
import Chiptune.Player.Slot
import Chiptune.Player.Template
import Chiptune.Settings
import Chiptune.Song.Basic
import Chiptune.Song.Fault
import Chiptune.Song.Sequence
import Chiptune.Song.Table
import Chiptune.Sound.Pitch
import Chiptune.Sound.Register
import Chiptune.Sound.Trace
import Chiptune.Proofs.Outcome
import Chiptune.Proofs.File.Container
import Chiptune.Proofs.Player.Columns
import Chiptune.Proofs.Player.Rows
import Chiptune.Proofs.File.Image
import Chiptune.Proofs.File.Plain
import Chiptune.Proofs.File.Rewriting
import Chiptune.Proofs.Player.Foreign
import Chiptune.Proofs.Player.Fit
import Chiptune.Proofs.Player.Music
import Chiptune.Proofs.Player.Schema
import Chiptune.Proofs.Player.Encode
import Chiptune.Proofs.Player.Memory
import Chiptune.Proofs.Song.Normal
import Chiptune.Proofs.Player.Lossless
import Chiptune.Proofs.Player.Relocation
import Chiptune.Proofs.Player.Patching
import Chiptune.Proofs.Accuracy
import Chiptune.Proofs.Analysis.Performance
import Chiptune.Proofs.Analysis.Score
import Chiptune.Proofs.Analysis.Grid
import Chiptune.Proofs.Analysis.Reconstruction
import Chiptune.Proofs.Analysis.OwnRows
import Chiptune.Proofs.Analysis.Repetition
import Chiptune.Proofs.Song.Walk
import Chiptune.Proofs.Analysis.Programs
import Chiptune.Proofs.Analysis.Instruments
import Chiptune.Proofs.Analysis.Replay
import Chiptune.Proofs.Playback.Recording
import Chiptune.Proofs.Playback.Order
import Chiptune.Proofs.Playback.Shorter
import Chiptune.Proofs.Machine.Instruction
import Chiptune.Proofs.Song.Alike
import Chiptune.Proofs.Player.Legible
import Chiptune.Proofs.Player.Stable
import Chiptune.Proofs.Player.Truncation
import Chiptune.Proofs.Player.Minimal
import Chiptune.Proofs.Player.Header
import Chiptune.Proofs.Player.Refusal
import Chiptune.Proofs.Analysis.Donor
import Chiptune.Proofs.Analysis.Completion
import Chiptune.Proofs.Analysis.Gaps
import Chiptune.Proofs.Analysis.Authority
import Chiptune.Proofs.Player.Capacity
import Chiptune.Proofs.Analysis.Validity
import Chiptune.Proofs.Playback.Execution
import Chiptune.Proofs.Player.Fetch
import Chiptune.Proofs.Player.Minimal.Blocks
import Chiptune.Proofs.Player.Minimal.Frame
import Chiptune.Proofs.Player.Minimal.Play
import Chiptune.Proofs.Player.Minimal.Simulation
import Chiptune.Proofs.Player.Minimal.Start
import Chiptune.Proofs.Playback.Frames
import Chiptune.Proofs.Playback.Tape
import Chiptune.Proofs.Player.Packed
import Chiptune.Proofs.Player.Minimal.Image
import Chiptune.Proofs.Player.Minimal.Session
import Chiptune.Proofs.Player.Minimal.Encoded
import Chiptune.Proofs.Player.Minimal.Rendition
import Chiptune.Proofs.Player.Minimal.Endless
import Chiptune.Proofs.Player.Minimal.Carried
import Chiptune.Proofs.Player.Minimal.Tracks
import Chiptune.Proofs.Player.Minimal.Programs
import Chiptune.Proofs.Player.Minimal.Voicing
import Chiptune.Proofs.Player.Minimal.Events
import Chiptune.Proofs.Player.Minimal.Reading
import Chiptune.Proofs.Player.Minimal.Rendering
import Chiptune.Proofs.Player.Minimal.Opening
import Chiptune.Proofs.Player.Kept
import Chiptune.Proofs.Player.Decoded
import Chiptune.Proofs.Player.Minimal.Stock
import Chiptune.Proofs.Player.Minimal.Performing
import Chiptune.Proofs.Player.Minimal.Lookup
import Chiptune.Proofs.Player.Minimal.Positions
import Chiptune.Proofs.Player.Minimal.Returns
import Chiptune.Proofs.Player.Minimal.Responsive
import Chiptune.Proofs.File.Tune
import Chiptune.Proofs.Playback.Reuse
import Chiptune.Proofs.Player.Sections
import Chiptune.Proofs.Player.Remapping
import Chiptune.Proofs.Machine.Footprint
import Chiptune.Proofs.Playback.Budget
import Chiptune.Proofs.Playback.Returning
import Chiptune.Proofs.Playback.Overruns
import Chiptune.Proofs.Player.Disassembly
import Chiptune.Proofs.Machine.Combined
import Chiptune.Proofs.Analysis.Copying
import Chiptune.Proofs.Analysis.Stream
import Chiptune.Proofs.Player.Window
import Chiptune.Proofs.Machine.Decimal
import Chiptune.Proofs.Analysis.Shortest
import Chiptune.Proofs.Player.Markers
import Chiptune.Proofs.Song.Rounds
import Chiptune.Proofs.Player.Minimal.Contained
