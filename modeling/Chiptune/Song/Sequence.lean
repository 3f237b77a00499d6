/-
Sequences of events and the order lists that play them.

A sequence is what a tracker calls a pattern: events in play order, of which
notes, releases and rests take rows and the others take none. Each voice has
an order list that names sequences and transposes them.
-/
import Chiptune.Song.Table

namespace Chiptune.Song

/-- What a command does. -/
inductive CommandKind where
  /-- Raise the frequency each frame. -/
  | slideUp
  /-- Lower the frequency each frame. -/
  | slideDown
  /-- Vibrato of a speed and a depth. -/
  | vibrato
  /-- Glide to the next note. -/
  | portamento
  /-- Overwrite the voice's envelope. -/
  | setAdsr
  /-- Change the frames per row. -/
  | setTempo
  /-- Change the master volume. -/
  | setVolume
  /-- Start the filter program at a row. -/
  | filterProgram
deriving DecidableEq, Repr

namespace CommandKind

/-- Every kind in the order of their numbers. -/
def all : List CommandKind :=
  [.slideUp, .slideDown, .vibrato, .portamento, .setAdsr, .setTempo, .setVolume, .filterProgram]

/-- The number that stands for the kind in data. -/
def id : CommandKind → UInt8
  | .slideUp => 0
  | .slideDown => 1
  | .vibrato => 2
  | .portamento => 3
  | .setAdsr => 4
  | .setTempo => 5
  | .setVolume => 6
  | .filterProgram => 7

/-- The kind a number stands for. -/
def ofId? (id : UInt8) : Option CommandKind := all[id.toNat]?

def name : CommandKind → String
  | .slideUp => "SlideUp"
  | .slideDown => "SlideDown"
  | .vibrato => "Vibrato"
  | .portamento => "Portamento"
  | .setAdsr => "SetAdsr"
  | .setTempo => "SetTempo"
  | .setVolume => "SetVolume"
  | .filterProgram => "FilterProgram"

theorem ofId?_id (k : CommandKind) : ofId? k.id = some k := by
  cases k <;> rfl

end CommandKind

/-- A command and its two arguments. -/
structure Command where
  kind : CommandKind
  first : UInt8
  second : UInt8
deriving DecidableEq, Repr

/-- An event of a sequence. -/
inductive Event where
  /-- Play a pitch. -/
  | noteOn (pitch : UInt8)
  /-- Close the gate. -/
  | noteOff
  /-- Let the next note change the pitch only. -/
  | tie
  /-- Use this instrument from the next note on. -/
  | setInstrument (id : UInt8)
  /-- Run a command. -/
  | setCommand (command : Command)
  /-- Wait some rows. -/
  | rest (rows : UInt8)
deriving DecidableEq, Repr

namespace Event

/-- Rows an event takes. -/
def rows : Event → Nat
  | .noteOn _ | .noteOff => 1
  | .rest n => n.toNat
  | .tie | .setInstrument _ | .setCommand _ => 0

/-- The pitch of a note. -/
def pitch? : Event → Option UInt8
  | .noteOn p => some p
  | _ => none

/-- The command of an event. -/
def command? : Event → Option Command
  | .setCommand c => some c
  | _ => none

/-- The instrument an event selects. -/
def instrument? : Event → Option UInt8
  | .setInstrument id => some id
  | _ => none

/-- The filter row an event starts. -/
def filterRow? : Event → Option UInt8
  | .setCommand ⟨.filterProgram, row, _⟩ => some row
  | _ => none

end Event

/-- Events played in order. -/
structure Sequence where
  events : List Event
  provenance : Provenance := .static
deriving DecidableEq, Repr

namespace Sequence

/-- Rows the sequence lasts. -/
def rowCount (s : Sequence) : Nat := s.events.foldr (fun e rows => e.rows + rows) 0

/-- The pitches of its notes in order. -/
def pitches (s : Sequence) : List UInt8 := s.events.filterMap Event.pitch?

/-- The sequence with the events that satisfy `keep`. -/
def filter (s : Sequence) (keep : Event → Bool) : Sequence :=
  { s with events := s.events.filter keep }

/-- The sequence with every event replaced. -/
def mapEvents (s : Sequence) (f : Event → Event) : Sequence :=
  { s with events := s.events.map f }

end Sequence

/-- A sequence to play, moved by some semitones. -/
structure OrderEntry where
  transpose : Int8
  sequence : UInt8
deriving DecidableEq, Repr

/-- What a voice does after its last entry. -/
inductive OrderEnd where
  /-- Go on at an entry. -/
  | loop (target : UInt8)
  /-- Fall silent. -/
  | stop
deriving DecidableEq, Repr

/-- What a voice plays. -/
structure OrderList where
  entries : List OrderEntry := []
  finish : OrderEnd := .stop
deriving DecidableEq, Repr

/-- The highest sequence number an order list names. -/
def OrderList.maxSequence? (l : OrderList) : Option UInt8 :=
  l.entries.foldl (fun best e =>
    match best with
    | some b => some (if b < e.sequence then e.sequence else b)
    | none => some e.sequence) none

end Chiptune.Song
