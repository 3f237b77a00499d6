/-
Telling by a file's bytes which profile it is read with.
-/
import Chiptune.Analysis.Pattern
import Chiptune.Analysis.Profile
import Chiptune.File.Container
import Chiptune.File.Tune

namespace Chiptune.Analysis

open File

/-- The pattern of a profile's signature, if it has one that can be read. -/
def Profile.pattern? (p : Profile) : Option Pattern :=
  match p.signature with
  | none => none
  | some text => (Pattern.parse text).toOption

/-- The bytes of a file that signatures are looked for in: a tune's data, or the whole of a file
that is none. -/
def signedBytes? (bytes : Bytes) : Option Bytes :=
  if Tune.detect bytes then (Tune.parse bytes).toOption.map (·.data) else some bytes

/-- The name of the profile for a file: containers have their own, other files get the first
one whose signature matches. -/
def identify (profiles : Profiles) (bytes : Bytes) : String :=
  if Container.detect bytes then Profile.container.name
  else
    let found := (signedBytes? bytes).bind fun data =>
      List.find? (fun p => p.pattern?.any fun pattern => (pattern.find? data).isSome) profiles
    (found.getD .generic).name

end Chiptune.Analysis
