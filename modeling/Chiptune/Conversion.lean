/-
Converting a file: analyse it, put the song into a player and compare what
the two play.
-/
import Chiptune.Analysis.Identify
import Chiptune.Library

namespace Chiptune

open Analysis File Playback Player

/-! ## Comparing programs -/

/-- Run two programs and compare what they do. -/
def scorePrograms (source converted : Program) (frames : Nat) (s : Settings) :
    Job Accuracy.Report := do
  let run (p : Program) : Job Sound.Trace := do
    match ← runProgram p frames s.limits false with
    | .ok trace => return trace
    | .error e => throw (.run e)
  let a ← run source
  let b ← run converted
  return Accuracy.compare a b s.weights s.maxReportedFrames

/-- Run the programs of two files and compare what they do. -/
def validate (source converted : Bytes) (frames : Nat) : Job Accuracy.Report := do
  let source ← Job.ofExcept (Source.parse source)
  let converted ← Job.ofExcept (Source.parse converted)
  scorePrograms source.program converted.program frames {}

/-! ## Converting -/

/-- What a conversion starts from beside the file. -/
structure Converter where
  profiles : Profiles := .standard
  /-- The profile's name for a file. -/
  identify : Bytes → String := Analysis.identify profiles
  /-- The template of a name. -/
  template : String → Except Failure Template := Template.standard
  /-- The job was asked to stop. -/
  cancelled : Bool := false

/-- A converted file. -/
structure Conversion where
  /-- The name of the profile the file was read with. -/
  profile : String
  song : Song
  encoded : Encoded
  /-- The comparison, if both programs ran. -/
  accuracy : Option Accuracy.Report
  /-- All that was given up, the analysis first. -/
  degradations : List Degradation

/-- Whether the result differs audibly from the song. -/
def Conversion.isLossy (c : Conversion) : Bool := c.degradations.any (·.isLossy)

namespace Converter

/-- Compare a conversion with its source. A comparison that cannot be made is given up. -/
def validate? (source : Source) (encoded : Encoded) (s : Settings) :
    Job (Option Accuracy.Report) := do
  match ← Job.outcome
      (scorePrograms source.program encoded.container.program s.comparedFrames s) with
  | .ok report => return some report
  | .error e =>
    Job.notice (.validationSkipped e)
    Job.degrade (.validationFailed e)
    return none

/-- Convert a file with a template. The profile is the one named, or the one its bytes tell. -/
def convert (c : Converter) (bytes : Bytes) (hint : Option String) (template : String)
    (s : Settings) : Job Conversion := do
  let source ← Job.ofExcept (Source.parse bytes)
  let profile ← Job.ofExcept (c.profiles.get (hint.getD (c.identify bytes)))
  let template ← Job.ofExcept (c.template template)
  Job.ofExcept (precheck source profile template)
  let ((song, encoded, accuracy), degradations) ← Job.collecting do
    let song ← analyze source profile (s.request c.cancelled)
    let encoded ← encode song template s.encodeOptions
    encoded.degradations.forM Job.degrade
    if c.cancelled then throw (.run .cancelled)
    let accuracy ← validate? source encoded s
    return (song, encoded, accuracy)
  return { profile := profile.name, song, encoded, accuracy, degradations }

end Converter

end Chiptune
