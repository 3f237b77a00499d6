/-
Files that songs are recovered from: tunes and containers.
-/
import Chiptune.File.Container
import Chiptune.File.Tune

namespace Chiptune.File

open Machine Playback

/-- A file that was read. -/
inductive Source where
  | tune (tune : Tune)
  | container (container : Container)
deriving DecidableEq, Repr

namespace Source

/-- Read a file of either format. -/
def parse (bytes : Bytes) : Except Failure Source := do
  if Tune.detect bytes then return .tune (← Tune.parse bytes)
  else if Container.detect bytes then return .container (← Container.parse bytes)
  else throw (.invalidSource .unknownFormat)

/-- The program in the file. -/
def program : Source → Program
  | .tune t => t.program
  | .container c => c.program

/-- The song's title, author and release. -/
def info : Source → SongInfo
  | .tune t => { title := t.header.name, author := t.header.author, released := t.header.released }
  | .container c => c.info

/-- Chips the program drives. -/
def chipCount : Source → Nat
  | .tune t => t.chipCount
  | .container _ => 1

/-- The file's container, if it is one. -/
def container? : Source → Option Container
  | .tune _ => none
  | .container c => some c

/-- Memory with the program loaded. -/
def image (s : Source) : Except Failure Memory :=
  match s.program.image with
  | .ok m => .ok m
  | .error e => .error (.run e)

end Source

end Chiptune.File
