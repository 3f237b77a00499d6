/-
Where the parts of a player go in memory.

From the load address on there follow, without gaps, the code, the variables,
the slots, the two halves of the frequency table, the tempo, the pointers to
the order lists and to the sequences, and last the music data, which may grow
up to the chip's window, or up to the top of memory for a player above it.
-/
import Chiptune.Player.Template
import Chiptune.Sound.Register

namespace Chiptune.Player

/-- A slot with its address. -/
structure SlotPlace where
  slot : Slot
  /-- Address of the first column. -/
  address : UInt16
  columns : UInt8
  capacity : UInt8
deriving DecidableEq, Repr

namespace SlotPlace

/-- Address of a column. -/
def column (s : SlotPlace) (index : UInt8) : UInt16 :=
  s.address + index.toUInt16 * s.capacity.toUInt16

/-- Bytes of the slot. -/
def size (s : SlotPlace) : Nat := s.columns.toNat * s.capacity.toNat

end SlotPlace

/-- The addresses of a player. -/
structure Layout where
  base : UInt16
  /-- Address of the variables. -/
  workArea : UInt16
  slots : List SlotPlace
  freqLo : UInt16
  freqHi : UInt16
  settings : UInt16
  orderLo : UInt16
  orderHi : UInt16
  sequenceLo : UInt16
  sequenceHi : UInt16
  music : UInt16
  /-- First address the music data must not reach. -/
  limit : Nat
deriving DecidableEq, Repr

namespace Layout

/-- Place slots one after another. -/
def placeSlots (cursor : Nat) : List SlotSpec → List SlotPlace
  | [] => []
  | s :: rest =>
    ⟨s.slot, UInt16.ofNat cursor, s.columns, s.capacity⟩ :: placeSlots (cursor + s.size) rest

/-- The limit of a player's music data. -/
def limitOf (base : UInt16) : Nat :=
  if base.toNat < Sound.windowStart then Sound.windowStart else Machine.addressSpace

/-- Lay a template out at an address, for code of a given length. -/
def make (t : Template) (base : UInt16) (codeLength : Nat) : Except Failure Layout :=
  let workArea := base.toNat + codeLength
  let slots := workArea + t.variableBytes.toNat
  let freqLo := slots + t.tables.foldr (fun s bytes => s.size + bytes) 0
  let freqHi := freqLo + Sound.Pitch.count
  let settings := freqHi + Sound.Pitch.count
  let orderLo := settings + 1
  let orderHi := orderLo + Song.voiceCount
  let sequenceLo := orderHi + Song.voiceCount
  let sequenceHi := sequenceLo + t.maxSequences.toNat
  let music := sequenceHi + t.maxSequences.toNat
  let limit := limitOf base
  if limit < music then .error (.invalidTemplate t.name (.noRoom base music limit))
  else .ok {
    base
    workArea := UInt16.ofNat workArea
    slots := placeSlots slots t.tables
    freqLo := UInt16.ofNat freqLo
    freqHi := UInt16.ofNat freqHi
    settings := UInt16.ofNat settings
    orderLo := UInt16.ofNat orderLo
    orderHi := UInt16.ofNat orderHi
    sequenceLo := UInt16.ofNat sequenceLo
    sequenceHi := UInt16.ofNat sequenceHi
    music := UInt16.ofNat music
    limit }

/-- Lay a template out at an address. -/
def of (t : Template) (base : UInt16) : Except Failure Layout := make t base t.code.length

/-- The first slot of a kind. -/
def slot? (l : Layout) (slot : Slot) : Option SlotPlace := l.slots.find? (·.slot == slot)

/-- The address of a symbol; a slot the player does not have has none. -/
def address? (l : Layout) : Symbol → Option UInt16
  | .code => some l.base
  | .workArea => some l.workArea
  | .table slot => (l.slot? slot).map (·.address)
  | .freqLo => some l.freqLo
  | .freqHi => some l.freqHi
  | .songSettings => some l.settings
  | .orderListsLo => some l.orderLo
  | .orderListsHi => some l.orderHi
  | .sequencesLo => some l.sequenceLo
  | .sequencesHi => some l.sequenceHi
  | .musicData => some l.music

/-- Bytes before the music data. -/
def fixedSize (l : Layout) : Nat := l.music.toNat - l.base.toNat

/-- Bytes the music data has room for. -/
def musicCapacity (l : Layout) : Nat := l.limit - l.music.toNat

end Layout

end Chiptune.Player
