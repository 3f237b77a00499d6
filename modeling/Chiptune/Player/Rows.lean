/-
The rows of a player's slots: programs, instruments and commands.

A row of a program table says with its first byte whether it is a step, a loop
or an end; a step whose first byte looks like a marker gets another one. An
arpeggio row is a single byte, which leaves seven bits for a loop's target.
-/
import Chiptune.Failure

namespace Chiptune.Player

open Song

namespace Rows

/-- First byte of a loop row; the target is the second byte. -/
def loopMark : UInt8 := 0x7F

/-- First byte of an end row. -/
def endMark : UInt8 := 0x7E

/-- What replaces the first byte of a step that looks like a marker. -/
def substitute : UInt8 := 0x7D

/-- The byte of an arpeggio's end. -/
def arpeggioEnd : UInt8 := 0x7F

/-- The bit that makes an arpeggio's byte a loop. -/
def arpeggioLoop : UInt8 := 0x80

/-- Rows that an arpeggio's loop can name. -/
def arpeggioRows : Nat := 0x80

/-- The end of a program in a table of a kind. -/
def endOf : TableKind → UInt8
  | .arpeggio => arpeggioEnd
  | .wave | .pulse | .filter => endMark

/-! ## Programs -/

/-- Whether a step with this first byte would read back as something else. -/
def isMarker (kind : TableKind) (first : UInt8) : Bool :=
  match kind with
  | .arpeggio => arpeggioEnd ≤ first
  | .wave | .pulse | .filter => first == loopMark || first == endMark

/-- Whether a row is a step that would read back as something else. -/
def collides (kind : TableKind) : Row → Bool
  | .step (first :: _) => isMarker kind first
  | .step [] | .loop _ | .stop => false

/-- Bytes cut or filled with zeros to a length. -/
def fill (length : Nat) (bytes : Bytes) : Bytes :=
  bytes.take length ++ List.replicate (length - bytes.length) 0

/-- The bytes of a step, with a first byte that reads back. -/
def stepBytes (kind : TableKind) (bytes : Bytes) : Bytes :=
  match bytes with
  | first :: rest => if isMarker kind first then substitute :: rest else bytes
  | [] => []

/-- A row of a program as `columns` bytes. -/
def encodeRow (kind : TableKind) (columns : Nat) (row : Row) : Except Failure Bytes :=
  match kind, row with
  | .arpeggio, .step bytes => .ok (fill columns ((stepBytes .arpeggio bytes).take 1))
  | .arpeggio, .loop target =>
    if target.toNat < arpeggioRows then .ok (fill columns [arpeggioLoop ||| target])
    else .error (.capacityExceeded .arpeggioLoop (target.toNat + 1) arpeggioRows)
  | .arpeggio, .stop => .ok (fill columns [arpeggioEnd])
  | kind, .step bytes => .ok (fill columns (stepBytes kind bytes))
  | _, .loop target => .ok (fill columns [loopMark, target])
  | _, .stop => .ok (fill columns [endMark])

/-- A table as rows of `columns` bytes. -/
def encodeTable (t : Table) (columns : Nat) : Except Failure (List Bytes) :=
  t.rows.mapM (encodeRow t.kind columns)

/-- What encoding a table gives up. -/
def tableLoss? (t : Table) : Option Degradation :=
  let count := t.rows.countP (collides t.kind)
  if count = 0 then none else some (.markerCollisions t.kind count)

/-- The row of a program in some bytes. -/
def decodeRow (kind : TableKind) (bytes : Bytes) : Row :=
  let first := bytes.headD 0
  match kind with
  | .arpeggio =>
    if first = arpeggioEnd then .stop
    else if first &&& arpeggioLoop != 0 then .loop (first &&& 0x7F)
    else .step [first]
  | .wave | .pulse | .filter =>
    if first = loopMark then .loop (bytes[1]?.getD 0)
    else if first = endMark then .stop
    else .step (fill kind.width bytes)

/-- The table in some rows. -/
def decodeTable (kind : TableKind) (rows : List Bytes) : Table where
  kind
  rows := rows.map (decodeRow kind)

/-! ## Instruments -/

/-- What an instrument has in place of the row of a program it does without. -/
def noProgram : UInt8 := 0xFF

/-- The flag of an instrument that clears the envelope before each note. -/
def hardRestartFlag : UInt8 := 0x01

/-- An instrument's row: envelope, flags and the rows of its programs. -/
def encodeInstrument (i : Instrument) : Bytes :=
  [i.attackDecay, i.sustainRelease, if i.hardRestart then hardRestartFlag else 0, i.wave,
    i.pulse.getD noProgram, i.filter.getD noProgram]

/-- The row of a program an instrument may do without. -/
def program? (byte : UInt8) : Option UInt8 := if byte = noProgram then none else some byte

/-- The instrument in a row; missing columns read as `$FF`. -/
def decodeInstrument (row : Bytes) : Instrument :=
  let column (n : Nat) : UInt8 := row[n]?.getD 0xFF
  { attackDecay := column 0
    sustainRelease := column 1
    wave := column 3
    pulse := program? (column 4)
    filter := program? (column 5)
    hardRestart := column 2 &&& hardRestartFlag != 0 }

/-! ## Commands -/

/-- A command's row: its kind and its arguments. -/
def encodeCommand (c : Command) : Bytes := [c.kind.id, c.first, c.second]

/-- The command in a row; missing arguments read as zero. -/
def decodeCommand (row : Bytes) : Except Failure Command :=
  let id := row.headD 0xFF
  match CommandKind.ofId? id with
  | some kind => .ok { kind, first := row[1]?.getD 0, second := row[2]?.getD 0 }
  | none => .error (.invalidData (.commandKind id))

end Rows

end Chiptune.Player
