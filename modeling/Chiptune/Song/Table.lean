/-
Program tables: what an instrument's waveform, pulse width or filter does frame
by frame.

A table holds many programs one after another. A program is a run of steps
that ends by stopping on its last step or by looping back; loops name a row of
the whole table, so a program that is appended has its loops moved
(`Table.append?`).
-/
import Chiptune.Byte

namespace Chiptune.Song

/-- Where a part of a song was found. -/
inductive Provenance where
  /-- Read from the player's data. -/
  | static
  /-- Rebuilt from what the player did. -/
  | dynamic
  /-- Read, and completed from elsewhere. -/
  | merged
deriving DecidableEq, Repr

/-- What a table's programs drive. -/
inductive TableKind where
  /-- Steps are a control value and a note offset. -/
  | wave
  /-- Steps are the high and low byte of a pulse width and the frames to hold it. -/
  | pulse
  /-- Steps are the four filter and volume registers. -/
  | filter
  /-- Steps are a number of semitones. -/
  | arpeggio
deriving DecidableEq, Repr

namespace TableKind

/-- Every kind in canonical order. -/
def all : List TableKind := [.wave, .pulse, .filter, .arpeggio]

/-- The kind's place in the canonical order. -/
def rank : TableKind → Nat
  | .wave => 0
  | .pulse => 1
  | .filter => 2
  | .arpeggio => 3

/-- Bytes of a step. -/
def width : TableKind → Nat
  | .wave => 2
  | .pulse => 3
  | .filter => 4
  | .arpeggio => 1

def name : TableKind → String
  | .wave => "wave"
  | .pulse => "pulse"
  | .filter => "filter"
  | .arpeggio => "arpeggio"

theorem mem_all (kind : TableKind) : kind ∈ all := by
  cases kind <;> decide

theorem nodup_all : all.Nodup := by decide

end TableKind

/-- A row of a table. -/
inductive Row where
  /-- Put these bytes into effect for a frame. -/
  | step (bytes : Bytes)
  /-- Go on at another row. -/
  | loop (target : UInt8)
  /-- Stay with the last step. -/
  | stop
deriving DecidableEq, Repr

/-- Whether a row is a step. -/
def Row.isStep : Row → Bool
  | .step _ => true
  | .loop _ | .stop => false

/-- Rows that one byte can number. -/
def maxRows : Nat := 256

/-- A program table. -/
structure Table where
  kind : TableKind
  rows : List Row
  provenance : Provenance := .static
deriving DecidableEq, Repr

namespace Table

/-- Steps in the table. -/
def stepCount (t : Table) : Nat := t.rows.countP Row.isStep

/-- Whether the table's last row is a step, so that a program would run off its end. -/
def isOpen (t : Table) : Bool :=
  match t.rows.getLast? with
  | some row => row.isStep
  | none => false

/-- A row moved down by `start` rows with its program; a loop that leaves the range of a byte
has no such row. -/
def shiftRow? (start : Nat) : Row → Option Row
  | .loop target =>
    if target.toNat + start < maxRows then some (.loop (UInt8.ofNat (target.toNat + start)))
    else none
  | row => some row

/-- Append a program whose loops count from its own first row: that row's number in the table,
and the table. There is none if a row or a loop would get a number past 255. -/
def append? (t : Table) (program : List Row) : Option (UInt8 × Table) :=
  if t.rows.length < maxRows ∧ t.rows.length + program.length ≤ maxRows then
    match program.mapM (shiftRow? t.rows.length) with
    | some rows => some (UInt8.ofNat t.rows.length, { t with rows := t.rows ++ rows })
    | none => none
  else none

/-- The table with an end after an open last row. -/
def closed (t : Table) : Table := if t.isOpen then { t with rows := t.rows ++ [.stop] } else t

theorem kind_closed (t : Table) : t.closed.kind = t.kind := by
  unfold closed
  split <;> rfl

theorem length_le_closed (t : Table) : t.rows.length ≤ t.closed.rows.length := by
  unfold closed
  split
  · simp
  · exact Nat.le_refl _

end Table

end Chiptune.Song
