/-
Settings as JSON. Whatever is missing has its default.
-/
import Chiptune.Json.Decode
import Chiptune.Json.Reader
import Chiptune.Json.Writer
import Chiptune.Settings

namespace Chiptune

open Analysis Json Playback Player

namespace Playback

def Clock.name : Clock → String
  | .pal => "pal"
  | .ntsc => "ntsc"

def Limits.toJson (l : Limits) : Json :=
  ofMembers [("clock", text l.clock.name), ("cycle_budget_frames", nat l.initFrames),
    ("max_call_cycles", nat l.callCycles)]

def Limits.ofJson? : Decode Limits := fun j => do
  let default : Limits := {}
  let fs ← j.fields? ["clock", "cycle_budget_frames", "max_call_cycles"]
  return {
    clock := ← fs.withDefault "clock" (toChoice? Clock.name [.pal, .ntsc]) default.clock
    initFrames := ← fs.withDefault "cycle_budget_frames" toLong? default.initFrames
    callCycles := ← fs.withDefault "max_call_cycles" toSize? default.callCycles }

end Playback

namespace Analysis

def AnalysisOptions.toJson (o : AnalysisOptions) : Json :=
  ofMembers [("dynamic_frames", nat o.frames), ("rows_per_sequence", nat o.rowsPerSequence),
    ("max_tempo", byte o.maxTempo)]

def AnalysisOptions.ofJson? : Decode AnalysisOptions := fun j => do
  let default : AnalysisOptions := {}
  let fs ← j.fields? ["dynamic_frames", "rows_per_sequence", "max_tempo"]
  return {
    frames := ← fs.withDefault "dynamic_frames" toLong? default.frames
    rowsPerSequence := ← fs.withDefault "rows_per_sequence" toSize? default.rowsPerSequence
    maxTempo := ← fs.withDefault "max_tempo" toByte? default.maxTempo }

end Analysis

namespace Player

def Policy.name : Policy → String
  | .fail => "fail"
  | .truncate => "truncate"

def Policy.ofJson? : Decode Policy := toChoice? Policy.name [.fail, .truncate]

end Player

namespace Accuracy

def Weights.toJson (w : Weights) : Json :=
  ofMembers [("frame", float w.frame), ("voice", float w.voice), ("register", float w.register),
    ("filter", float w.filter)]

def Weights.ofJson? : Decode Weights := fun j => do
  let default : Weights := {}
  let fs ← j.fields? ["frame", "voice", "register", "filter"]
  return {
    frame := ← fs.withDefault "frame" toFloat? default.frame
    voice := ← fs.withDefault "voice" toFloat? default.voice
    register := ← fs.withDefault "register" toFloat? default.register
    filter := ← fs.withDefault "filter" toFloat? default.filter }

end Accuracy

namespace Settings

def toJson (s : Settings) : Json :=
  ofMembers [("emulation", s.limits.toJson), ("analysis", s.analysis.toJson),
    ("capacity_policy", text s.policy.name),
    ("validation_frames", nullable nat s.validationFrames), ("weights", s.weights.toJson),
    ("max_reported_frames", nat s.maxReportedFrames), ("base_address", nullable word s.base)]

def ofJson? : Decode Settings := fun j => do
  let default : Settings := {}
  let fs ← j.fields? ["emulation", "analysis", "capacity_policy", "validation_frames", "weights",
    "max_reported_frames", "base_address"]
  return {
    limits := ← fs.withDefault "emulation" Limits.ofJson? default.limits
    analysis := ← fs.withDefault "analysis" AnalysisOptions.ofJson? default.analysis
    policy := ← fs.withDefault "capacity_policy" Policy.ofJson? default.policy
    validationFrames := ← fs.optional "validation_frames" toLong?
    weights := ← fs.withDefault "weights" Accuracy.Weights.ofJson? default.weights
    maxReportedFrames := ← fs.withDefault "max_reported_frames" toSize? default.maxReportedFrames
    base := ← fs.optional "base_address" toWord? }

/-- Read settings. -/
def parse (source : String) : Except Failure Settings :=
  match (parse? source).bind ofJson? with
  | some s => .ok s
  | none => .error .malformedText

/-- Settings as text, one to a line. -/
def print (s : Settings) : String := s.toJson.pretty

end Settings

end Chiptune
