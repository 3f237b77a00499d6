/-
What makes a song unplayable.

`Song.faults` lists every violation in a fixed order: tempo and voices, then
the tables, the instruments, the events and the order lists. A song without
faults is `WellFormed`: whatever it refers to exists, every table and every
order loop can be walked for ever, and every note it plays is a pitch.
-/
import Chiptune.Song.Basic
import Chiptune.Sound.Pitch

namespace Chiptune.Song

/-- What is wrong with a command. -/
inductive CommandFault where
  /-- A tempo of no frames per row. -/
  | zeroTempo
  /-- A filter row that does not exist. -/
  | filterRow (row : UInt8) (length : Nat)
deriving DecidableEq, Repr

def CommandFault.message : CommandFault → String
  | .zeroTempo => "tempo command with zero frames per row"
  | .filterRow row length =>
    let row := row.toNat
    s!"filter program row {row} outside table of {length} rows"

/-- A violation. -/
inductive Fault where
  | voiceCount (found : Nat)
  | zeroTempo
  | duplicateTable (kind : TableKind)
  | missingSequence (voice entry : Nat) (sequence : UInt8)
  | orderLoopOutOfBounds (voice : Nat) (target : UInt8) (length : Nat)
  | transposeOutOfRange (voice entry : Nat) (transpose : Int8)
  | pitchOutOfRange (voice entry : Nat) (pitch : Int)
  | missingInstrument (sequence event : Nat) (instrument : UInt8)
  | zeroRest (sequence event : Nat)
  | invalidCommand (sequence event : Nat) (fault : CommandFault)
  | tableIndexOutOfBounds (instrument : Nat) (kind : TableKind) (index : UInt8) (length : Nat)
  | tableLoopOutOfBounds (kind : TableKind) (row : Nat) (target : UInt8)
  | loopToLoop (kind : TableKind) (row : Nat) (target : UInt8)
  /-- A program was to be appended past the last row a byte can number. -/
  | tableOverflow (kind : TableKind) (rows : Nat)
  | unterminatedTable (kind : TableKind)
  /-- The looping part of an order list plays no rows. -/
  | emptyOrderLoop (voice : Nat) (target : UInt8)
  | stepWidth (kind : TableKind) (row expected found : Nat)
deriving DecidableEq, Repr

def Fault.message : Fault → String
  | .voiceCount found => s!"expected 3 order lists, found {found}"
  | .zeroTempo => "tempo must be at least 1"
  | .duplicateTable kind => "duplicate " ++ kind.name ++ " table"
  | .missingSequence voice entry sequence =>
    let sequence := sequence.toNat
    s!"voice {voice} entry {entry} references missing sequence {sequence}"
  | .orderLoopOutOfBounds voice target length =>
    let target := target.toNat
    s!"voice {voice} loops to entry {target} of {length}"
  | .transposeOutOfRange voice entry transpose =>
    let transpose := transpose.toInt
    s!"voice {voice} entry {entry} transpose {transpose} out of range"
  | .pitchOutOfRange voice entry pitch => s!"voice {voice} entry {entry} plays pitch {pitch}"
  | .missingInstrument sequence event instrument =>
    let instrument := instrument.toNat
    s!"sequence {sequence} event {event} selects missing instrument {instrument}"
  | .zeroRest sequence event => s!"sequence {sequence} event {event} rests for zero rows"
  | .invalidCommand sequence event fault =>
    s!"sequence {sequence} event {event}: " ++ fault.message
  | .tableIndexOutOfBounds instrument kind index length =>
    let index := index.toNat
    s!"instrument {instrument} " ++ kind.name ++
      s!" index {index} outside table of {length} rows"
  | .tableLoopOutOfBounds kind row target =>
    let target := target.toNat
    kind.name ++ s!" table row {row} loops to {target} outside the table"
  | .loopToLoop kind row target =>
    let target := target.toNat
    kind.name ++ s!" table row {row} loops to another loop at {target}"
  | .tableOverflow kind rows =>
    kind.name ++ s!" table needs {rows} rows, indices stop at 255"
  | .unterminatedTable kind => kind.name ++ " table does not end with an end or loop row"
  | .emptyOrderLoop voice target =>
    let target := target.toNat
    s!"voice {voice} loops from entry {target} over sequences without rows"
  | .stepWidth kind row expected found =>
    kind.name ++ s!" table row {row} has {found} bytes, expected {expected}"

/-! ## Tables and instruments -/

/-- What is wrong with one row of a table. -/
def rowFaults (t : Table) (index : Nat) (row : Row) : List Fault :=
  match row with
  | .step bytes =>
    if bytes.length = t.kind.width then []
    else [.stepWidth t.kind index t.kind.width bytes.length]
  | .loop target =>
    match t.rows[target.toNat]? with
    | none => [.tableLoopOutOfBounds t.kind index target]
    | some (.loop _) => [.loopToLoop t.kind index target]
    | some _ => []
  | .stop => []

/-- What is wrong with a table, given the tables before it. -/
def tableFaults (earlier : List Table) (t : Table) : List Fault :=
  (if earlier.any (·.kind == t.kind) then [.duplicateTable t.kind] else []) ++
    (if t.isOpen then [.unterminatedTable t.kind] else []) ++
    t.rows.zipIdx.flatMap fun (row, i) => rowFaults t i row

/-- What is wrong with where an instrument's programs start. -/
def instrumentFaults (s : Song) (index : Nat) (i : Instrument) : List Fault :=
  [TableKind.wave, .pulse, .filter].filterMap fun kind =>
    match i.start? kind with
    | none => none
    | some start =>
      if start.toNat < s.tableLength kind then none
      else some (.tableIndexOutOfBounds index kind start (s.tableLength kind))

/-! ## Sequences -/

/-- What is wrong with a command. -/
def commandFault? (filterLength : Nat) (c : Command) : Option CommandFault :=
  match c.kind with
  | .setTempo => if c.first = 0 then some .zeroTempo else none
  | .filterProgram =>
    if c.first.toNat < filterLength then none else some (.filterRow c.first filterLength)
  | _ => none

/-- What is wrong with an event of a sequence. -/
def eventFault? (instruments filterLength sequence index : Nat) : Event → Option Fault
  | .setInstrument id =>
    if id.toNat < instruments then none else some (.missingInstrument sequence index id)
  | .rest n => if n = 0 then some (.zeroRest sequence index) else none
  | .setCommand c => (commandFault? filterLength c).map (.invalidCommand sequence index)
  | .noteOn _ | .noteOff | .tie => none

/-- What is wrong with the events of a sequence. -/
def sequenceFaults (s : Song) (index : Nat) (q : Sequence) : List Fault :=
  q.events.zipIdx.filterMap fun (e, i) =>
    eventFault? s.instruments.length (s.tableLength .filter) index i e

/-! ## Order lists -/

/-- Whether an entry names a sequence that takes no rows. -/
def playsNothing (s : Song) (e : OrderEntry) : Bool :=
  match s.sequences[e.sequence.toNat]? with
  | some q => q.rowCount == 0
  | none => false

/-- What is wrong with the end of an order list. -/
def orderEndFaults (s : Song) (voice : Nat) (l : OrderList) : List Fault :=
  match l.finish with
  | .stop => []
  | .loop target =>
    if l.entries.length ≤ target.toNat then
      [.orderLoopOutOfBounds voice target l.entries.length]
    else if (l.entries.drop target.toNat).all (playsNothing s) then
      [.emptyOrderLoop voice target]
    else []

/-- The pitch a note sounds at under a transposition. -/
def sounding (transpose : Int8) (pitch : UInt8) : Int := pitch.toNat + transpose.toInt

/-- Whether a sounding pitch is one the chip plays in tune. -/
def inRange (pitch : Int) : Bool := 0 ≤ pitch && pitch ≤ Sound.Pitch.highest

/-- What is wrong with an entry of an order list. -/
def entryFault? (s : Song) (voice index : Nat) (e : OrderEntry) : Option Fault :=
  if Sound.Pitch.highest < e.transpose.toInt.natAbs then
    some (.transposeOutOfRange voice index e.transpose)
  else
    match s.sequences[e.sequence.toNat]? with
    | none => some (.missingSequence voice index e.sequence)
    | some q =>
      ((q.pitches.map (sounding e.transpose)).find? (!inRange ·)).map
        (.pitchOutOfRange voice index)

/-- What is wrong with an order list. -/
def orderFaults (s : Song) (voice : Nat) (l : OrderList) : List Fault :=
  orderEndFaults s voice l ++ l.entries.zipIdx.filterMap fun (e, i) => entryFault? s voice i e

/-! ## Songs -/

/-- Every violation of a song. -/
def faults (s : Song) : List Fault :=
  (if s.tempo = 0 then [.zeroTempo] else []) ++
    (if s.orderLists.length = voiceCount then [] else [.voiceCount s.orderLists.length]) ++
    (s.tables.zipIdx.flatMap fun (t, i) => tableFaults (s.tables.take i) t) ++
    (s.instruments.zipIdx.flatMap fun (x, i) => instrumentFaults s i x) ++
    (s.sequences.zipIdx.flatMap fun (q, i) => sequenceFaults s i q) ++
    (s.orderLists.zipIdx.flatMap fun (l, i) => orderFaults s i l)

/-- A song without violations. -/
def WellFormed (s : Song) : Prop := s.faults = []

instance (s : Song) : Decidable s.WellFormed := inferInstanceAs (Decidable (s.faults = []))

end Chiptune.Song
