/-
Reading a range-coded player's data in memory, without running it.
-/
import Chiptune.Analysis.Pattern
import Chiptune.Analysis.Profile
import Chiptune.Job
import Chiptune.Machine.Memory

namespace Chiptune.Analysis

open Machine Song

/-- Memory with a program in it. -/
structure Scanner where
  memory : Memory
  loadAddress : UInt16
  /-- Bytes of the program. -/
  length : Nat

/-- Records that were read. -/
structure RecordBlock where
  /-- Where the first record is. -/
  address : UInt16
  /-- How many there are. -/
  rows : Nat
deriving DecidableEq, Repr

namespace Scanner

/-! ## Records -/

/-- The address so far from an offset of the address space, if it is one. -/
def displaced? (start : Nat) (offset : Int) : Option UInt16 :=
  let address := (start : Int) + offset
  if 0 ≤ address ∧ address < addressSpace then some (UInt16.ofNat address.toNat) else none

/-- Where a pattern matches in the program. -/
def search (s : Scanner) (pattern : String) : Except Failure Nat := do
  let start := s.loadAddress.toNat
  let wanted ← Pattern.parse pattern
  match wanted.find? (s.memory.slice start (start + s.length)) with
  | some offset => return start + offset
  | none => throw (.incompleteExtraction (.signatureNotFound pattern))

/-- The address of a location. -/
def resolve (s : Scanner) : Location → Except Failure UInt16
  | .fixed address => .ok address
  | .relative offset => .ok (s.loadAddress + offset)
  | .pointer address => .ok (s.memory.readWord address)
  | .signature pattern offset deref => do
    match displaced? (← s.search pattern) offset with
    | some address => return if deref then s.memory.readWord address else address
    | none => throw (.invalidData (.signatureOutside pattern))

/-- How far a record's byte of a column is from the first record. -/
def recordOffset (arrangement : Arrangement) (columns row column : Nat) : Nat :=
  match arrangement with
  | .rowMajor => row * columns + column
  | .columnMajor stride => column * stride.toNat + row

/-- A record of a block at an address. -/
def record (s : Scanner) (address : UInt16) (arrangement : Arrangement) (columns : UInt8)
    (row : Nat) : Bytes :=
  (List.range columns.toNat).map fun column =>
    s.memory.read (address + UInt16.ofNat (recordOffset arrangement columns.toNat row column))

/-- The records from `row` on before one with a value in a column, and the number of that one
if it is among the next `fuel`. -/
def recordsBefore (record : Nat → Bytes) (column : Nat) (value : UInt8) :
    (fuel row : Nat) → List Bytes × Option Nat
  | 0, _ => ([], none)
  | fuel + 1, row =>
    let bytes := record row
    if bytes[column]? = some value then ([], some row)
    else
      let (rest, found) := recordsBefore record column value fuel (row + 1)
      (bytes :: rest, found)

/-- The records of a block. -/
def records (s : Scanner) (source : RecordSource) (what : String) :
    Job (RecordBlock × List Bytes) := do
  let address ← Job.ofExcept (s.resolve source.location)
  let record := s.record address source.arrangement source.columns
  let rows ←
    match source.finish with
    | .count n => pure ((List.range (min n source.maxRows)).map record)
    | .terminator column value ambiguousZero => do
      let (rows, found) := recordsBefore record column.toNat value source.maxRows 0
      match found with
      | some row =>
        if value = 0 ∧ ambiguousZero then
          Job.notice (.ambiguousTerminator what column.toNat row address)
      | none => pure ()
      pure rows
  return (⟨address, rows.length⟩, rows)

/-! ## What records mean -/

/-- A byte of a record; there is a zero in every column past its end. -/
def column (record : Bytes) (index : Nat) : UInt8 := record[index]?.getD 0

/-- The row of a program in a record. -/
def tableRow (t : TableSource) (record : Bytes) : Row :=
  let first := column record 0
  if t.loopMarker = some first then .loop (column record 1)
  else if t.endMarker = some first then .stop
  else .step ((List.range t.kind.width).map fun c =>
    column record (((t.mapping[c]?).map (·.toNat)).getD c))

/-- The instrument in a record. -/
def instrument (i : InstrumentSource) (record : Bytes) : Instrument :=
  let byte (c : UInt8) : UInt8 := column record c.toNat
  let program (c : Option UInt8) : Option UInt8 := (c.map byte).filter (· != i.noneValue)
  { attackDecay := byte i.attackDecay
    sustainRelease := byte i.sustainRelease
    wave := byte i.wave
    pulse := program i.pulse
    filter := program i.filter
    hardRestart := i.flags.any fun c => byte c &&& i.hardRestartMask != 0 }

/-! ## Sequences -/

/-- What a byte of a sequence is. -/
inductive Token where
  | finish
  | note (index : UInt8)
  | instrument (id : UInt8)
  | duration (index : UInt8)
  | command (kind : UInt8)
  | gateOff | tie | rest
  | unknown
deriving DecidableEq, Repr

/-- What a byte of a sequence is; the first meaning it has counts. -/
def token (code : SequenceCode) (byte : UInt8) : Token :=
  let within (range : Option ByteRange) : Option UInt8 := range.bind (·.index? byte)
  if byte = code.finish then .finish
  else if let some i := code.note.index? byte then .note i
  else if let some i := within code.instrument then .instrument i
  else if let some i := within code.duration then .duration i
  else if let some i := within code.command then .command i
  else if code.gateOff = some byte then .gateOff
  else if code.tie = some byte then .tie
  else if code.rest = some byte then .rest
  else .unknown

/-- The sum of two bytes, at most 255. -/
def saturatingAdd (a b : UInt8) : UInt8 := UInt8.ofNat (min (a.toNat + b.toNat) 255)

/-- An event that lasts `duration` rows, of which it takes one itself. -/
def held (e : Event) (duration : UInt8) : List Event :=
  if 1 < duration then [e, .rest (duration - 1)] else [e]

/-- Longest sequence or order list in tokens. -/
def maxTokens : Nat := 4096

/-- The events from an address on, up to `fuel` tokens of the sequence at `start`. -/
def eventsFrom (m : Memory) (code : SequenceCode) (start : UInt16) :
    (fuel : Nat) → (address : UInt16) → (duration : UInt8) → Except Failure (List Event)
  | 0, _, _ => .error (.incompleteExtraction (.sequenceUnending start))
  | fuel + 1, address, duration =>
    let byte := m.read address
    let go (events : List Event) (next : UInt16) (duration : UInt8) : Except Failure (List Event) :=
      return events ++ (← eventsFrom m code start fuel next duration)
    match token code byte with
    | .finish => .ok []
    | .note i => go (held (.noteOn (saturatingAdd i code.noteBase)) duration) (address + 1) duration
    | .instrument id => go [.setInstrument id] (address + 1) duration
    | .duration i => go [] (address + 1) (saturatingAdd i 1)
    | .command id =>
      match CommandKind.ofId? id with
      | some kind =>
        go [.setCommand ⟨kind, m.read (address + 1), m.read (address + 2)⟩] (address + 3) duration
      | none => .error (.invalidData (.commandKindAt id start))
    | .gateOff => go (held .noteOff duration) (address + 1) duration
    | .tie => go [.tie] (address + 1) duration
    | .rest => go [.rest duration] (address + 1) duration
    | .unknown => .error (.incompleteExtraction (.sequenceByte byte start))

/-- The sequence at an address. -/
def sequence (m : Memory) (address : UInt16) (code : SequenceCode) : Except Failure Sequence := do
  return { events := ← eventsFrom m code address maxTokens address 1 }

/-! ## Order lists -/

/-- The transposition of a byte, as far as a signed byte holds it. -/
def transposition (code : OrderCode) (byte : UInt8) : Int8 :=
  Int8.ofInt (max (-128) (min 127 ((byte.toNat : Int) - code.center.toNat)))

/-- The entries from an address on and the end after them, up to `fuel` bytes of the order list
at `start`. -/
def entriesFrom (m : Memory) (code : OrderCode) (start : UInt16) :
    (fuel : Nat) → (address : UInt16) → (transpose : Int8) → Except Failure OrderList
  | 0, _, _ => .error (.incompleteExtraction (.orderListUnending start))
  | fuel + 1, address, transpose =>
    let byte := m.read address
    if byte = code.stop then .ok {}
    else if byte = code.loop then .ok { finish := .loop (m.read (address + 1)) }
    else if (code.transpose.index? byte).isSome then
      entriesFrom m code start fuel (address + 1) (transposition code byte)
    else do
      let list ← entriesFrom m code start fuel (address + 1) transpose
      return { list with entries := ⟨transpose, byte⟩ :: list.entries }

/-- The order list at an address. -/
def orderList (m : Memory) (address : UInt16) (code : OrderCode) : Except Failure OrderList :=
  entriesFrom m code address maxTokens address 0

end Scanner

end Chiptune.Analysis
