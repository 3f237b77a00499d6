/-
From a file to the song in it.

A container says what it holds. A range-coded player's data are read and, if
they refer to what is not there, completed; if they cannot be read, or nothing
is known about the player, the song is rebuilt from what the player does.
-/
import Chiptune.Analysis.Completion
import Chiptune.File.Source
import Chiptune.Player.Decode
import Chiptune.Player.Template

namespace Chiptune.Analysis

open File Machine Playback Song

/-- How to analyse a file. -/
structure Request where
  limits : Limits := {}
  options : AnalysisOptions := {}
  /-- The job was asked to stop. -/
  cancelled : Bool := false
deriving DecidableEq, Repr

/-- Refuse a file that cannot be converted, before any work is done. -/
def precheck (source : Source) (profile : Profile) (template : Player.Template) :
    Except Failure Unit :=
  if 1 < source.chipCount then
    .error (.incompatible (.chipCount source.chipCount template.name))
  else if !template.accepts profile.family then
    .error (.incompatible (.family template.name profile.family))
  else if !profile.isStatic && !profile.emulated then
    .error (.incompatible (.noAnalysis profile.name))
  else if profile.decoder = .native ∧ source.container?.isNone then
    .error (.incompatible (.needsContainer profile.name))
  else .ok ()

/-- Run a program in a job, which tells of an overrun. -/
def runProgram (program : Program) (frames : Nat) (limits : Limits) (cancelled : Bool) :
    Job (Except RunError Sound.Trace) := do
  match record program frames limits cancelled with
  | .error e => return .error e
  | .ok recording =>
    if let some calls := recording.overrun then Job.notice (.overrun calls)
    return .ok recording.trace

/-- What the player of a file does. -/
def runSource (source : Source) (r : Request) : Job (Except RunError Sound.Trace) :=
  runProgram source.program r.options.frames r.limits r.cancelled

/-- The song rebuilt from what a file's player does, if the profile allows it, the player runs
and a song can be made of it. -/
def emulatedSong? (source : Source) (profile : Profile) (r : Request) : Job (Option Song) := do
  if !profile.emulated then return none
  match ← runSource source r with
  | .ok trace =>
    match ← Job.outcome (reconstruct trace r.options) with
    | .ok song => return some song
    | .error _ => return none
  | .error e =>
    if !e.isRecoverable then throw (.run e)
    Job.notice (.emulationFailed e)
    Job.degrade (.emulationFailed e)
    return none

/-- The song in a range-coded player's file. -/
def readRangeCoded (source : Source) (profile : Profile) (layout : RangeCoded) (r : Request) :
    Job Song := do
  let memory ← Job.ofExcept source.image
  let scanner : Scanner :=
    { memory, loadAddress := source.program.loadAddress, length := source.program.data.length }
  match ← Job.outcome (extract scanner layout) with
  | .ok extraction =>
    let emulated ←
      if hasGaps extraction.song then emulatedSong? source profile r else pure none
    Completion.complete { scanner, layout, emulated } extraction
  | .error cause =>
    Job.notice (.extractionFailed profile.name cause)
    match ← emulatedSong? source profile r with
    | some song =>
      Job.degrade (.rebuiltFromEmulation cause)
      return song
    | none => throw (.extractionAbandoned cause)

/-- The song in a file, as its profile reads it. -/
def readSong (source : Source) (profile : Profile) (r : Request) : Job Song := do
  match profile.decoder with
  | .native =>
    match source.container? with
    | some container => Job.ofExcept (Player.decode container)
    | none => throw (.incompatible (.needsContainer profile.name))
  | .rangeCoded layout => readRangeCoded source profile layout r
  | .none =>
    if profile.emulated then
      match ← runSource source r with
      | .ok trace => reconstruct trace r.options
      | .error e => throw (.run e)
    else throw (.incompatible (.noAnalysis profile.name))

/-- A text, or another one if it is empty. -/
def orElse (text other : String) : String := if text.isEmpty then other else text

/-- A song with the texts it does not have. -/
def withInfo (s : Song) (info : SongInfo) : Song :=
  { s with
    title := orElse s.title info.title
    author := orElse s.author info.author
    released := orElse s.released info.released }

/-- Recover the song in a file. It is one without faults. -/
def analyze (source : Source) (profile : Profile) (r : Request) : Job Song := do
  let song := withInfo (← readSong source profile r) source.info
  match song.faults with
  | [] => return song
  | faults => throw (.malformedSong faults)

end Chiptune.Analysis
