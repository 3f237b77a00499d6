/-
Folders: files by name.
-/
import Chiptune.Failure

namespace Chiptune.File

/-- A folder's files. -/
structure Folder where
  files : List (String × Bytes) := []

namespace Folder

/-- The folder with a file put into it, in place of one of the same name. -/
def write (f : Folder) (name : String) (contents : Bytes) : Folder :=
  { files := (name, contents) :: f.files.filter (·.1 != name) }

/-- The contents of a file, if it is there. -/
def find? (f : Folder) (name : String) : Option Bytes := f.files.lookup name

/-- The bytes of a text. -/
def encode (text : String) : Bytes := text.toUTF8.toList

/-- The text that bytes encode. -/
def decode? (bytes : Bytes) : Option String := String.fromUTF8? ⟨bytes.toArray⟩

/-- The contents of a file. -/
def read (f : Folder) (name : String) : Except Failure Bytes :=
  match f.find? name with
  | some bytes => .ok bytes
  | none => .error .unreadable

/-- The text in a file. -/
def readText (f : Folder) (name : String) : Except Failure String := do
  match decode? (← f.read name) with
  | some text => return text
  | none => throw .unreadable

/-- What a name has in front of an ending, if it ends so. -/
def stem? (ending name : String) : Option String :=
  let cs := name.toList
  let front := cs.take (cs.length - ending.length)
  if front.isEmpty ∨ front.contains '/' then none
  else if cs.drop front.length = ending.toList then some (String.ofList front)
  else none

/-- The names of the files with an ending, without it and in order. -/
def stems (f : Folder) (ending : String) : List String :=
  (f.files.filterMap fun (name, _) => stem? ending name).mergeSort fun a b => a ≤ b

/-- A folder within the folder; the folder itself is called `.` within itself. -/
def within (f : Folder) (name : String) : Folder :=
  if name = "" ∨ name = "." then f
  else
    let path := (name ++ "/").toList
    { files := f.files.filterMap fun (file, contents) =>
        if path.isPrefixOf file.toList then
          some (String.ofList (file.toList.drop path.length), contents)
        else none }

end Folder

end Chiptune.File
