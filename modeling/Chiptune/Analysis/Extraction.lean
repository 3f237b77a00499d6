/-
The song in a range-coded player's data, as far as the data hold it.
-/
import Chiptune.Analysis.Scanner
import Chiptune.Song.Basic

namespace Chiptune.Analysis

open Song

/-- What was found in a player's data. -/
structure Extraction where
  song : Song
  /-- Where the program tables were read. -/
  tables : List (TableKind × RecordBlock)
  /-- Where the instruments were read. -/
  instruments : RecordBlock

namespace Extraction

/-- A program table, with an end if its last record is a step. -/
def readTable (s : Scanner) (source : TableSource) : Job (RecordBlock × Table) := do
  let (block, records) ← s.records source.records source.kind.name
  let table : Table := { kind := source.kind, rows := records.map (Scanner.tableRow source) }
  return (block, table.closed)

/-- The sequence whose pointer is number `index`. -/
def readSequence (s : Scanner) (code : SequenceCode) (lo hi : UInt16) (index : Nat) :
    Except Failure Sequence :=
  let offset := UInt16.ofNat index
  let address := Word.ofBytes (s.memory.read (lo + offset)) (s.memory.read (hi + offset))
  Scanner.sequence s.memory address code

def readSequences (s : Scanner) (layout : RangeCoded) : Except Failure (List Sequence) := do
  let lo ← s.resolve layout.sequences.lo
  let hi ← s.resolve layout.sequences.hi
  (List.range layout.sequences.count).mapM (readSequence s layout.sequenceCode lo hi)

/-- The order list at a location. -/
def readOrderList (s : Scanner) (code : OrderCode) (location : Location) :
    Except Failure OrderList := do
  Scanner.orderList s.memory (← s.resolve location) code

/-- The order lists of all voices. -/
def readOrderLists (s : Scanner) (layout : RangeCoded) : Except Failure (List OrderList) := do
  if layout.orderLists.length ≠ voiceCount then
    throw (.invalidData (.orderListCount layout.orderLists.length voiceCount))
  layout.orderLists.mapM (readOrderList s layout.orderCode)

/-- The initial tempo, which is at least one frame. -/
def readTempo (s : Scanner) (source : TempoSource) : Except Failure UInt8 := do
  let tempo ←
    match source with
    | .fixed tempo => pure tempo
    | .byte location => do pure (s.memory.read (← s.resolve location))
  return max tempo 1

end Extraction

/-- The program tables of a layout in the canonical order of their kinds. -/
def RangeCoded.sortedTables (layout : RangeCoded) : List TableSource :=
  layout.tables.mergeSort fun a b => a.kind.rank ≤ b.kind.rank

/-- Read a range-coded player's data. Tables without records are left out of the song. -/
def extract (s : Scanner) (layout : RangeCoded) : Job Extraction := do
  let found ← layout.sortedTables.mapM (Extraction.readTable s)
  let (block, records) ← s.records layout.instruments.records "instruments"
  let sequences ← Job.ofExcept (Extraction.readSequences s layout)
  let orderLists ← Job.ofExcept (Extraction.readOrderLists s layout)
  let tempo ← Job.ofExcept (Extraction.readTempo s layout.tempo)
  return {
    song :=
      { tempo
        instruments := records.map (Scanner.instrument layout.instruments)
        tables := (found.map (·.2)).filter fun t => !t.rows.isEmpty
        sequences, orderLists }
    tables := found.map fun (block, table) => (table.kind, block)
    instruments := block }

end Chiptune.Analysis
