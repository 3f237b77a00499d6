/-
Profiles: how to read the songs of one family of players.

A profile is data. It says where a range-coded player keeps its records,
sequences and order lists and what their bytes mean, or that the file is a
container, or that only running the player tells what it plays.
-/
import Chiptune.Song.Table

namespace Chiptune.Analysis

open Song

/-! ## Where things are -/

/-- How to find an address in memory. -/
inductive Location where
  | fixed (address : UInt16)
  /-- So far from the load address. -/
  | relative (offset : UInt16)
  /-- What the word at an address points to. -/
  | pointer (address : UInt16)
  /-- So far from where the program's bytes match a pattern, or what the word there points to. -/
  | signature (pattern : String) (offset : Int) (deref : Bool)
deriving DecidableEq, Repr

/-- How records lie in memory. -/
inductive Arrangement where
  /-- Record after record. -/
  | rowMajor
  /-- Column after column, `stride` bytes apart. -/
  | columnMajor (stride : UInt16)
deriving DecidableEq, Repr

/-- Where a block of records ends. -/
inductive BlockEnd where
  /-- Before a record with a value in a column. A zero may also be data there. -/
  | terminator (column value : UInt8) (ambiguousZero : Bool)
  /-- After so many records. -/
  | count (records : Nat)
deriving DecidableEq, Repr

/-- A block of records. -/
structure RecordSource where
  /-- Where the first record is. -/
  location : Location
  /-- Bytes of a record. -/
  columns : UInt8
  arrangement : Arrangement := .rowMajor
  finish : BlockEnd
  /-- Records read at most. -/
  maxRows : Nat := 256
deriving DecidableEq, Repr

/-- A program table. -/
structure TableSource where
  kind : TableKind
  records : RecordSource
  /-- The record's column for each column of a step; the same one where it says nothing. -/
  mapping : List UInt8 := []
  /-- First byte of a loop, whose target is the second byte. -/
  loopMarker : Option UInt8 := none
  /-- First byte of an end. -/
  endMarker : Option UInt8 := none
deriving DecidableEq, Repr

/-- The instruments, with the columns of their parts. -/
structure InstrumentSource where
  records : RecordSource
  attackDecay : UInt8
  sustainRelease : UInt8
  wave : UInt8
  pulse : Option UInt8 := none
  filter : Option UInt8 := none
  flags : Option UInt8 := none
  /-- The row that stands for no program. -/
  noneValue : UInt8 := 0xFF
  /-- The flags that ask for a cleared envelope. -/
  hardRestartMask : UInt8 := 0x01
deriving DecidableEq, Repr

/-- The pointers to the sequences, low and high bytes apart. -/
structure SequenceSource where
  lo : Location
  hi : Location
  count : Nat
deriving DecidableEq, Repr

/-- Where the initial tempo is. -/
inductive TempoSource where
  | fixed (tempo : UInt8)
  | byte (location : Location)
deriving DecidableEq, Repr

/-! ## What bytes mean -/

/-- The bytes from `first` to `last`. -/
structure ByteRange where
  first : UInt8
  last : UInt8
deriving DecidableEq, Repr

/-- A byte's place in a range. -/
def ByteRange.index? (r : ByteRange) (value : UInt8) : Option UInt8 :=
  if r.first ≤ value ∧ value ≤ r.last then some (value - r.first) else none

/-- The meaning of a sequence's bytes. -/
structure SequenceCode where
  note : ByteRange
  /-- Pitch of the first note byte. -/
  noteBase : UInt8 := 0
  instrument : Option ByteRange := none
  /-- The rows of every later note, gate-off and rest, from one up. -/
  duration : Option ByteRange := none
  /-- Commands by their number; two arguments follow. -/
  command : Option ByteRange := none
  gateOff : Option UInt8 := none
  tie : Option UInt8 := none
  rest : Option UInt8 := none
  finish : UInt8
deriving DecidableEq, Repr

/-- The meaning of an order list's bytes. Those with no other meaning are sequences. -/
structure OrderCode where
  /-- The transposition of every later sequence. -/
  transpose : ByteRange
  /-- The byte of no transposition. -/
  center : UInt8
  stop : UInt8
  /-- A loop; the entry's number follows. -/
  loop : UInt8
deriving DecidableEq, Repr

/-! ## Profiles -/

/-- Where a range-coded player keeps its song. -/
structure RangeCoded where
  tables : List TableSource := []
  instruments : InstrumentSource
  sequences : SequenceSource
  /-- Where each voice's order list is. -/
  orderLists : List Location
  sequenceCode : SequenceCode
  orderCode : OrderCode
  tempo : TempoSource
deriving DecidableEq, Repr

/-- How a player's data are read. -/
inductive Decoder where
  /-- As a container. -/
  | native
  | rangeCoded (layout : RangeCoded)
  /-- Not at all. -/
  | none
deriving DecidableEq, Repr

structure Profile where
  name : String
  family : String
  /-- A pattern that the programs of the family hold. -/
  signature : Option String := .none
  /-- Whether running the player may tell what it plays. -/
  emulated : Bool := false
  decoder : Decoder := .none
deriving DecidableEq, Repr

namespace Profile

/-- The profile of containers. -/
def container : Profile := { name := "sf2-native", family := "sf2", decoder := .native }

/-- The profile of players nothing is known about. -/
def generic : Profile := { name := "generic", family := "generic", emulated := true }

/-- Whether a player's data can be read. -/
def isStatic (p : Profile) : Bool :=
  match p.decoder with
  | .none => false
  | .native | .rangeCoded _ => true

end Profile

/-- Known profiles in the order of their names. -/
abbrev Profiles := List Profile

namespace Profiles

/-- Add a profile, or replace the one of the same name. -/
def insert (p : Profile) : Profiles → Profiles
  | [] => [p]
  | q :: rest =>
    if p.name = q.name then p :: rest
    else if p.name < q.name then p :: q :: rest
    else q :: insert p rest

/-- The profiles that are always there. -/
def standard : Profiles := insert .generic (insert .container [])

/-- The profile of a name. -/
def find? (ps : Profiles) (name : String) : Option Profile := List.find? (·.name == name) ps

end Profiles

end Chiptune.Analysis
