/-
The settings of a conversion.
-/
import Chiptune.Accuracy
import Chiptune.Analysis.Analyze
import Chiptune.Player.Encode

namespace Chiptune

open Analysis Playback Player

structure Settings where
  limits : Limits := {}
  analysis : AnalysisOptions := {}
  policy : Policy := .fail
  /-- Frames to compare; as many as the analysis runs if it is not said. -/
  validationFrames : Option Nat := none
  weights : Accuracy.Weights := {}
  /-- Frames that differ listed in a report. -/
  maxReportedFrames : Nat := 16
  /-- Where the converted player goes; its template says it if this does not. -/
  base : Option UInt16 := none

namespace Settings

/-- Frames to compare. -/
def comparedFrames (s : Settings) : Nat := s.validationFrames.getD s.analysis.frames

/-- How to analyse a file under the settings. -/
def request (s : Settings) (cancelled : Bool) : Request :=
  { limits := s.limits, options := s.analysis, cancelled }

/-- How to encode a song under the settings. -/
def encodeOptions (s : Settings) : EncodeOptions := { base := s.base, policy := s.policy }

end Settings

end Chiptune
