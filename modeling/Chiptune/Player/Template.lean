/-
Player templates: a player as data.

A template is machine code assembled for one address, the slots its data has
room for, and the list of operands that change when it goes elsewhere.
-/
import Chiptune.Failure

namespace Chiptune.Player

open Song

/-- A slot with room for `capacity` rows of `columns` bytes. -/
structure SlotSpec where
  slot : Slot
  columns : UInt8
  capacity : UInt8
  name : String
deriving DecidableEq, Repr

/-- Bytes of a slot. -/
def SlotSpec.size (s : SlotSpec) : Nat := s.columns.toNat * s.capacity.toNat

/-- A two-byte operand of the code that holds an address: a symbol's, plus `addend`. -/
structure Relocation where
  /-- Where the operand is in the code. -/
  offset : UInt16
  symbol : Symbol
  addend : UInt16
deriving DecidableEq, Repr

/-- The ways into the code, as offsets. -/
structure EntryPoints where
  init : UInt16
  play : UInt16
  stop : UInt16
deriving DecidableEq, Repr

/-- An address that a container publishes under a name. -/
structure StatePointer where
  name : String
  symbol : Symbol
  addend : UInt16
deriving DecidableEq, Repr

structure Template where
  name : String
  driverType : UInt8
  major : UInt8
  minor : UInt8
  /-- The address the code is assembled for. -/
  base : UInt16
  code : Bytes := []
  /-- Bytes of variables after the code. -/
  variableBytes : UInt16
  entry : EntryPoints
  /-- The slots in memory order. -/
  tables : List SlotSpec
  maxSequences : UInt8
  /-- Entries an order list may have, not counting its end. -/
  maxOrderEntries : UInt8
  supportedCommands : List CommandKind
  /-- Families of players whose songs it plays; `*` stands for all of them. -/
  acceptedFamilies : List String
  relocations : List Relocation
  statePointers : List StatePointer
deriving DecidableEq, Repr

namespace Template

/-- The first slot of a kind. -/
def spec? (t : Template) (slot : Slot) : Option SlotSpec := t.tables.find? (·.slot == slot)

/-- Whether the player runs commands of a kind. -/
def supports (t : Template) (kind : CommandKind) : Bool := t.supportedCommands.contains kind

/-- Whether the template is meant for songs of a family. -/
def accepts (t : Template) (family : String) : Bool :=
  t.acceptedFamilies.any fun f => f == "*" || f == family

/-- The first thing wrong with the template, if any. -/
def fault? (t : Template) : Option TemplateFault :=
  let length := t.code.length
  let entryFault := [t.entry.init, t.entry.play, t.entry.stop].findSome? fun entry =>
    if length ≤ entry.toNat then some (.entryOutside entry) else none
  let relocationFault := t.relocations.findSome? fun r =>
    if length < r.offset.toNat + 2 then some (.relocationOutside r.offset) else none
  let slotFault := t.tables.findSome? fun s =>
    if s.columns = 0 ∨ s.capacity = 0 then some (.emptySlot s.name) else none
  if length = 0 then some .emptyCode else entryFault <|> relocationFault <|> slotFault

/-- Refuse a template with something wrong. -/
def check (t : Template) : Except Failure Unit :=
  match t.fault? with
  | some fault => .error (.invalidTemplate t.name fault)
  | none => .ok ()

end Template

end Chiptune.Player
