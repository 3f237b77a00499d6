/-
Songs, free of any player's way to store them.
-/
import Chiptune.Song.Sequence

namespace Chiptune

namespace Song

/-- A sound: an envelope and the rows where its programs start. -/
structure Instrument where
  attackDecay : UInt8
  sustainRelease : UInt8
  /-- Row of the wave table. -/
  wave : UInt8
  /-- Row of the pulse table, if the instrument has a pulse program. -/
  pulse : Option UInt8 := none
  /-- Row of the filter table, if the instrument starts a filter program. -/
  filter : Option UInt8 := none
  /-- Clear the envelope before each note. -/
  hardRestart : Bool := false
deriving DecidableEq, Repr

/-- The row where an instrument's program of a kind starts. -/
def Instrument.start? (i : Instrument) : TableKind → Option UInt8
  | .wave => some i.wave
  | .pulse => i.pulse
  | .filter => i.filter
  | .arpeggio => none

/-- Voices of the chip, and so order lists of a song. -/
def voiceCount : Nat := 3

end Song

open Song

structure Song where
  title : String := ""
  author : String := ""
  released : String := ""
  /-- Frames per row. -/
  tempo : UInt8
  instruments : List Instrument := []
  tables : List Table := []
  sequences : List Sequence := []
  /-- What each voice plays. -/
  orderLists : List OrderList := List.replicate voiceCount {}
  instrumentProvenance : Provenance := .static
deriving DecidableEq, Repr

namespace Song

/-- The first table of a kind. -/
def table? (s : Song) (kind : TableKind) : Option Table := s.tables.find? (·.kind == kind)

/-- Rows of the table of a kind, none if there is no such table. -/
def tableLength (s : Song) (kind : TableKind) : Nat :=
  match s.table? kind with
  | some t => t.rows.length
  | none => 0

/-- Replace the first element that satisfies `p`. -/
def replaceFirst {α : Type} (p : α → Bool) (f : α → α) : List α → List α
  | [] => []
  | x :: xs => if p x then f x :: xs else x :: replaceFirst p f xs

/-- The song with its first table of a kind replaced. -/
def updateTable (s : Song) (kind : TableKind) (f : Table → Table) : Song :=
  { s with tables := replaceFirst (·.kind == kind) f s.tables }

/-- Tables in the canonical order of their kinds. -/
def sortTables (tables : List Table) : List Table :=
  tables.mergeSort fun a b => a.kind.rank ≤ b.kind.rank

/-- The song with every sequence replaced. -/
def mapSequences (s : Song) (f : Sequence → Sequence) : Song :=
  { s with sequences := s.sequences.map f }

/-- All events of all sequences, in order. -/
def events (s : Song) : List Event := s.sequences.flatMap (·.events)

/-- Rows each voice plays before its order list stops or loops; entries without a sequence
play none. -/
def rowsPerVoice (s : Song) : List Nat :=
  s.orderLists.map fun list =>
    (list.entries.filterMap fun e => s.sequences[e.sequence.toNat]?).foldr
      (fun q rows => q.rowCount + rows) 0

/-- Where the parts of a song were found. -/
structure Origins where
  instruments : Provenance
  tables : List (TableKind × Provenance)
  staticSequences : Nat
  dynamicSequences : Nat
  mergedSequences : Nat
deriving DecidableEq, Repr

/-- Where the parts of the song were found. -/
def origins (s : Song) : Origins :=
  let count (p : Provenance) : Nat := s.sequences.countP (·.provenance == p)
  { instruments := s.instrumentProvenance
    tables := s.tables.map fun t => (t.kind, t.provenance)
    staticSequences := count .static
    dynamicSequences := count .dynamic
    mergedSequences := count .merged }

end Song

end Chiptune
