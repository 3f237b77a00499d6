/-
The parts of a player's memory that its code refers to.

A player keeps instruments, commands and program tables in slots of a fixed
size. Its code reaches the slots, its variables and the song through symbols,
which get addresses once it is known where the player goes.
-/
import Chiptune.Song.Table

namespace Chiptune.Player

open Song

/-- A block of rows in a player's data. -/
inductive Slot where
  | instruments | commands | wave | pulse | filter | arpeggio
deriving DecidableEq, Repr

namespace Slot

/-- Every slot in the order of their numbers. -/
def all : List Slot := [.instruments, .commands, .wave, .pulse, .filter, .arpeggio]

/-- The number that stands for the slot in files. -/
def id : Slot → UInt8
  | .instruments => 0
  | .commands => 1
  | .wave => 2
  | .pulse => 3
  | .filter => 4
  | .arpeggio => 5

/-- The slot a number stands for. -/
def ofId? (id : UInt8) : Option Slot := all[id.toNat]?

/-- The slot that holds the program table of a kind. -/
def ofTable : TableKind → Slot
  | .wave => .wave
  | .pulse => .pulse
  | .filter => .filter
  | .arpeggio => .arpeggio

/-- The kind of program table the slot holds. -/
def table? : Slot → Option TableKind
  | .wave => some .wave
  | .pulse => some .pulse
  | .filter => some .filter
  | .arpeggio => some .arpeggio
  | .instruments | .commands => none

def name : Slot → String
  | .instruments => "instruments"
  | .commands => "commands"
  | .wave => "wave"
  | .pulse => "pulse"
  | .filter => "filter"
  | .arpeggio => "arpeggio"

/-- The slot's name with a capital, as symbols spell it. -/
def title : Slot → String
  | .instruments => "Instruments"
  | .commands => "Commands"
  | .wave => "Wave"
  | .pulse => "Pulse"
  | .filter => "Filter"
  | .arpeggio => "Arpeggio"

theorem ofId?_id (s : Slot) : ofId? s.id = some s := by cases s <;> rfl

theorem table?_ofTable (k : TableKind) : (ofTable k).table? = some k := by cases k <;> rfl

end Slot

/-- A place in a player's memory. -/
inductive Symbol where
  /-- Start of the code. -/
  | code
  /-- The player's variables. -/
  | workArea
  /-- First column of a slot. -/
  | table (slot : Slot)
  /-- Frequency table, low bytes. -/
  | freqLo
  /-- Frequency table, high bytes. -/
  | freqHi
  /-- The initial tempo. -/
  | songSettings
  /-- Pointers to the order lists, low bytes. -/
  | orderListsLo
  /-- Pointers to the order lists, high bytes. -/
  | orderListsHi
  /-- Pointers to the sequences, low bytes. -/
  | sequencesLo
  /-- Pointers to the sequences, high bytes. -/
  | sequencesHi
  /-- Start of the order lists and sequences. -/
  | musicData
deriving DecidableEq, Repr

def Symbol.name : Symbol → String
  | .code => "Code"
  | .workArea => "Variables"
  | .table slot => "Table(" ++ slot.title ++ ")"
  | .freqLo => "FreqLo"
  | .freqHi => "FreqHi"
  | .songSettings => "SongSettings"
  | .orderListsLo => "OrderListsLo"
  | .orderListsHi => "OrderListsHi"
  | .sequencesLo => "SequencesLo"
  | .sequencesHi => "SequencesHi"
  | .musicData => "MusicData"

/-- The symbols that are not slots. -/
def Symbol.fixed : List Symbol :=
  [.code, .workArea, .freqLo, .freqHi, .songSettings, .orderListsLo, .orderListsHi,
    .sequencesLo, .sequencesHi, .musicData]

end Chiptune.Player
