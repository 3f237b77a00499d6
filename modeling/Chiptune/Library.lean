/-
Where settings, profiles and templates come from: those that are always there,
and files. A template is two files, its manifest and its code.
-/
import Chiptune.File.Folder
import Chiptune.Json.Profile
import Chiptune.Json.Settings
import Chiptune.Json.Template
import Chiptune.Player.Minimal.Template

namespace Chiptune

open Analysis File Player

/-- Read settings from a file. -/
def Settings.load (f : Folder) (name : String) : Except Failure Settings := do
  Settings.parse (← f.readText name)

namespace Analysis.Profiles

/-- Add the profile in a file. -/
def load (ps : Profiles) (f : Folder) (name : String) : Except Failure Profiles := do
  return insert (← Profile.parse (← f.readText name)) ps

/-- The profile of a name, which has to be there. -/
def get (ps : Profiles) (name : String) : Except Failure Profile :=
  match ps.find? name with
  | some p => .ok p
  | none => .error (.unknownProfile name)

end Analysis.Profiles

namespace Player.Template

/-- The names of the templates that are always there. -/
def standardNames : List String := [Minimal.name]

/-- The template of a name among those that are always there. -/
def standard (name : String) : Except Failure Template :=
  if name = Minimal.name then .ok Minimal.template else .error (.unknownTemplate name)

/-- The file of a template's manifest. -/
def manifestFile (name : String) : String := name ++ ".json"

/-- The file of a template's code. -/
def codeFile (name : String) : String := name ++ ".bin"

/-- The names of the templates in a folder. -/
def namesIn (f : Folder) : List String := f.stems ".json"

/-- Read a template from a folder. -/
def load (f : Folder) (name : String) : Except Failure Template := do
  match f.find? (manifestFile name) with
  | none => throw (.unknownTemplate name)
  | some _ =>
    let template ← Template.parse (← f.readText (manifestFile name))
    let code ← f.read (codeFile name)
    let template := { template with code }
    template.check
    return template

/-- Write a template to a folder. -/
def save (t : Template) (f : Folder) : Folder :=
  (f.write (manifestFile t.name) (Folder.encode t.print)).write (codeFile t.name) t.code

end Player.Template

end Chiptune
