/-
Completing an extraction: whatever a song refers to has to be there.

A player's tables may be longer than they look, because the byte that ends
them may also be data. What lies past the end is taken from a song rebuilt
from the player's run, if there is one, and read on in memory otherwise. What
was extracted stays as it is.
-/
import Chiptune.Analysis.Extraction
import Chiptune.Analysis.Reconstruction

namespace Chiptune.Analysis

open Song

/-! ## Gaps -/

/-- The instruments a song's sequences select. -/
def instrumentRefs (s : Song) : List Nat := s.events.filterMap fun e => e.instrument?.map (·.toNat)

/-- The rows of a kind of table where a song's instruments and commands start programs. -/
def tableRefs (s : Song) (kind : TableKind) : List Nat :=
  (s.instruments.filterMap fun i => (i.start? kind).map (·.toNat)) ++
    if kind = .filter then s.events.filterMap fun e => e.filterRow?.map (·.toNat) else []

/-- Whether a song refers to instruments or rows it does not have. -/
def hasGaps (s : Song) : Bool :=
  (instrumentRefs s).any (s.instruments.length ≤ ·) ||
    TableKind.all.any fun kind => (tableRefs s kind).any (s.tableLength kind ≤ ·)

/-! ## Programs of another song -/

/-- The rows of a program up to its end, with loops counted from its first row, which is row
`start` of its table; `steps` steps of it came before. -/
def programRows (start steps : Nat) : List Row → List Row
  | .step bytes :: rest => .step bytes :: programRows start (steps + 1) rest
  | .loop target :: _ => [.loop (UInt8.ofNat (min (target.toNat - start) (steps - 1)))]
  | .stop :: _ | [] => [.stop]

/-- The program at a row of a table. -/
def programAt (t : Table) (start : Nat) : List Row := programRows start 0 (t.rows.drop start)

/-- A song that has a table of a kind. -/
def withTable (s : Song) (kind : TableKind) : Song :=
  match s.table? kind with
  | some _ => s
  | none => { s with tables := sortTables (s.tables ++ [{ kind, rows := [] }]) }

/-- Append a program to a song's table of a kind: its first row, and the song. -/
def addProgram (s : Song) (kind : TableKind) (program : List Row) :
    Except Failure (UInt8 × Song) := do
  let s := withTable s kind
  match s.table? kind with
  | none => return (0, s)
  | some table =>
    let (start, table) ← { table with provenance := .merged }.append program
    return (start, s.updateTable kind fun _ => table)

/-- Copy the program of a kind that another song's instrument starts at a row, if it does and
the other song has such a table. -/
def importProgram (other : Song) (s : Song) (kind : TableKind) (start : Option UInt8) :
    Except Failure (Option UInt8 × Song) := do
  match start, other.table? kind with
  | some start, some table =>
    let (row, s) ← addProgram s kind (programAt table start.toNat)
    return (some row, s)
  | _, _ => return (none, s)

/-- Copy an instrument of another song with its programs. -/
def importInstrument (other : Song) (s : Song) (i : Instrument) : Except Failure Song := do
  let (wave, s) ← importProgram other s .wave (some i.wave)
  let (pulse, s) ← importProgram other s .pulse i.pulse
  let (filter, s) ← importProgram other s .filter i.filter
  let copy := { i with wave := wave.getD 0, pulse, filter }
  return { s with instruments := s.instruments ++ [copy] }

/-! ## Completing -/

/-- What completes a song. -/
structure Completion where
  scanner : Scanner
  layout : RangeCoded
  /-- The song rebuilt from the player's run. -/
  emulated : Option Song

namespace Completion

/-- The rebuilt song, if it has instruments. -/
def instrumentDonor? (c : Completion) : Option Song :=
  c.emulated.filter fun s => !s.instruments.isEmpty

/-- The donor's instrument of a number, or its last one. -/
def donated? (donor : Song) (index : Nat) : Option Instrument :=
  donor.instruments[index]? <|> donor.instruments.getLast?

/-- Take an instrument from the donor. -/
def takeInstrument (donor : Song) (s : Song) (index : Nat) : Except Failure Song :=
  match donated? donor index with
  | some i => importInstrument donor s i
  | none => .ok s

/-- Read an instrument on in memory. -/
def readInstrument (c : Completion) (block : RecordBlock) (row : Nat) : Instrument :=
  let source := c.layout.instruments
  Scanner.instrument source
    (c.scanner.record block.address source.records.arrangement source.records.columns row)

/-- Add the instruments that are referred to and missing. -/
def completeInstruments (c : Completion) (s : Song) (block : RecordBlock) : Job Song := do
  let extracted := s.instruments.length
  let needed := (instrumentRefs s).foldl (fun n id => max n (id + 1)) 0
  if needed ≤ extracted then return s
  let missing := List.range' extracted (needed - extracted)
  let (s, origin) ←
    match c.instrumentDonor? with
    | some donor => do
      let s ← Job.ofExcept (missing.foldlM (takeInstrument donor) s)
      pure (s, Substitute.emulation)
    | none => do
      let read := missing.map (c.readInstrument block)
      pure ({ s with instruments := s.instruments ++ read }, Substitute.rawMemory)
  Job.report (.instrumentsCompleted extracted needed origin)
  return { s with instrumentProvenance := .merged }

/-- The rows that replace missing ones: each start of a program in the rebuilt song, with the
row of its copy. -/
abbrev Copies := List (Nat × UInt8)

/-- Copy the program at a row of a table, once. -/
def copyProgram (source : Table) (s : Song) (copies : Copies) (start : Nat) :
    Except Failure (UInt8 × Song × Copies) := do
  match copies.find? (·.1 == start) with
  | some (_, row) => return (row, s, copies)
  | none =>
    let (row, s) ← addProgram s source.kind (programAt source start)
    return (row, s, copies ++ [(start, row)])

/-- Where an instrument's program starts in the rebuilt song: that of the first instrument with
the same envelope, or of the first one. -/
def donorStart (donor : Song) (kind : TableKind) (i : Instrument) : Nat :=
  let same := donor.instruments.find? fun d =>
    d.attackDecay == i.attackDecay && d.sustainRelease == i.sustainRelease
  match (same <|> donor.instruments.head?).bind (·.start? kind) with
  | some row => row.toNat
  | none => 0

/-- An instrument whose program of a kind starts at another row. -/
def redirected (kind : TableKind) (row : UInt8) (i : Instrument) : Instrument :=
  match kind with
  | .wave => { i with wave := row }
  | .pulse => { i with pulse := some row }
  | .filter => { i with filter := some row }
  | .arpeggio => i

/-- Replace the program of instrument number `index` if it starts past the first `extracted`
rows. -/
def retargetInstrument (donor : Song) (source : Table) (extracted : Nat)
    (state : Song × Copies) (index : Nat) : Except Failure (Song × Copies) := do
  let (s, copies) := state
  match s.instruments[index]? with
  | none => return (s, copies)
  | some i =>
    match i.start? source.kind with
    | none => return (s, copies)
    | some row =>
      if row.toNat < extracted then return (s, copies)
      let (row, s, copies) ← copyProgram source s copies (donorStart donor source.kind i)
      return ({ s with instruments := s.instruments.modify index (redirected source.kind row) },
        copies)

/-- Whether an event starts the filter program past the first `extracted` rows. -/
def isStale (extracted : Nat) (e : Event) : Bool := e.filterRow?.any (extracted ≤ ·.toNat)

/-- A command that started the filter program past the extracted rows, starting another one. -/
def retargetEvent (extracted : Nat) (row : UInt8) (e : Event) : Event :=
  match e with
  | .setCommand c => if isStale extracted e then .setCommand { c with first := row } else e
  | _ => e

/-- Replace every program that starts past the first `extracted` rows by a copy of one of the
rebuilt song's. -/
def retarget (donor : Song) (source : Table) (extracted : Nat) (s : Song) :
    Except Failure Song := do
  let (s, copies) ← (List.range s.instruments.length).foldlM
    (retargetInstrument donor source extracted) (withTable s source.kind, [])
  if source.kind = .filter ∧ s.events.any (isStale extracted) then
    let (row, s, _) ← copyProgram source s copies 0
    return s.mapSequences (·.mapEvents (retargetEvent extracted row))
  return s

/-- Rows read on in memory from `row` up to a row past `needed` that ends a program, `fuel` of
them at most. -/
def readRows (c : Completion) (source : TableSource) (address : UInt16) (needed : Nat) :
    (fuel row : Nat) → List Row
  | 0, _ => []
  | fuel + 1, row =>
    let records := source.records
    let read := Scanner.tableRow source
      (c.scanner.record address records.arrangement records.columns row)
    if needed ≤ row ∧ !read.isStep then [read]
    else read :: readRows c source address needed fuel (row + 1)

/-- A table read on in memory behind the records that were read already, and how many records
have been read then. -/
def readOn (c : Completion) (source : TableSource) (block : RecordBlock) (needed : Nat)
    (t : Table) : Table × Nat :=
  let more := c.readRows source block.address needed (source.records.maxRows - block.rows)
    block.rows
  let rows := t.rows.take block.rows ++ more
  ({ t with rows, provenance := .merged }.closed, block.rows + more.length)

/-- Add the rows of a kind of table that are referred to and missing. -/
def completeTable (c : Completion) (s : Song) (kind : TableKind) (block : Option RecordBlock) :
    Job Song := do
  let extracted := s.tableLength kind
  match ((tableRefs s kind).filter (extracted ≤ ·)).max? with
  | none => return s
  | some needed =>
    match c.emulated with
    | some donor =>
      match donor.table? kind with
      | some source =>
        let s ← Job.ofExcept (retarget donor source extracted s)
        Job.report (.programsImported kind needed extracted)
        return s
      | none => fromMemory s needed
    | none => fromMemory s needed
where
  /-- Read the table on in memory. -/
  fromMemory (s : Song) (needed : Nat) : Job Song := do
    match block, c.layout.tables.find? (·.kind == kind) with
    | some block, some source =>
      let s := withTable s kind
      match s.table? kind with
      | none => return s
      | some table =>
        match c.readOn source block needed table with
        | (_, 0) => throw (.incompleteExtraction (.nothingRead kind))
        | (table, last + 1) =>
          Job.report (.rowsReadOn kind needed block.rows last)
          return s.updateTable kind fun _ => table
    | _, _ => throw (.incompleteExtraction (.tableWithoutData kind needed))

/-- Add whatever an extracted song refers to and does not have. -/
def complete (c : Completion) (e : Extraction) : Job Song := do
  let s ← c.completeInstruments e.song e.instruments
  TableKind.all.foldlM
    (fun s kind => c.completeTable s kind ((e.tables.find? (·.1 == kind)).map (·.2))) s

end Completion

end Chiptune.Analysis
