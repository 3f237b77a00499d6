/-
Rebuilding a song from what its player did.

Notes start and end on the frames of the gate marks, so a row lasts the
greatest number of frames that fits them all. Notes that sound alike share an
instrument, whose programs replay what was observed. The rows of each voice
are cut into sequences; those that differ by a transposition only are one.
-/
import Chiptune.Analysis.Performance
import Chiptune.Analysis.Repetition
import Chiptune.Job

namespace Chiptune.Analysis

open Sound Song

/-- How to rebuild a song. -/
structure AnalysisOptions where
  /-- Frames to run the player for. -/
  frames : Nat := 600
  /-- Rows of a sequence. -/
  rowsPerSequence : Nat := 16
  /-- Most frames per row. -/
  maxTempo : UInt8 := 16
deriving DecidableEq, Repr

namespace Reconstruction

/-! ## Rows -/

/-- The greatest divisor of `n` up to a bound. -/
def greatestDivisor (n : Nat) : (bound : Nat) → Nat
  | 0 => 1
  | d + 1 => if n % (d + 1) = 0 then d + 1 else greatestDivisor n d

/-- Frames per row: the most, up to a bound, that divide every one of the given frames. -/
def rowLength (frames : List Nat) (maxTempo : UInt8) : UInt8 :=
  let bound := max maxTempo 1
  let grid := frames.foldl Nat.gcd 0
  if grid = 0 then bound else UInt8.ofNat (greatestDivisor grid bound.toNat)

/-- Rows that frames make, the last one possibly not in full. -/
def rowCount (frames tempo : Nat) : Nat := (frames + tempo - 1) / tempo

/-! ## Instruments -/

/-- A note with the number of its instrument. -/
structure Assigned where
  note : Note
  instrument : Nat

/-- The shapes of the instruments so far, and the notes that have one. -/
structure Assignment where
  shapes : List Shape := []
  notes : List Assigned := []

/-- Give a note the first instrument it may be of, or a new one. -/
def Assignment.add (a : Assignment) (n : Note) : Assignment :=
  match a.shapes.findIdx? (·.mergesWith n.shape) with
  | some i =>
    { shapes := a.shapes.modify i (·.absorb n.shape), notes := a.notes ++ [⟨n, i⟩] }
  | none =>
    { shapes := a.shapes ++ [n.shape], notes := a.notes ++ [⟨n, a.shapes.length⟩] }

/-- Give notes their instruments. -/
def assign (notes : List Note) : Assignment := notes.foldl Assignment.add {}

/-- A table of programs that are there once each. -/
structure Library where
  table : Table
  /-- The programs with their rows. -/
  starts : List (List Row × UInt8) := []

/-- A table without programs. -/
def Library.empty (kind : TableKind) : Library :=
  { table := { kind, rows := [], provenance := .dynamic } }

/-- The row of a program, which is appended if it is new. -/
def Library.start (l : Library) (program : List Row) : Except Failure (UInt8 × Library) := do
  match l.starts.find? (·.1 == program) with
  | some (_, start) => return (start, l)
  | none =>
    let (start, table) ← l.table.append program
    return (start, { table, starts := l.starts ++ [(program, start)] })

/-- The wave program of a shape. -/
def waveProgram (s : Shape) : List Row :=
  Repetition.program (fun (control, offset) => [control, offset]) s.wave

/-- The pulse program of a shape's pulse widths. -/
def pulseProgram (widths : List (UInt8 × UInt8)) : List Row :=
  Repetition.heldProgram (fun (hi, lo) hold => [hi, lo, hold]) widths

/-- The instruments so far and the tables of their programs. -/
structure Sounds where
  wave : Library := .empty .wave
  pulse : Library := .empty .pulse
  instruments : List Instrument := []

/-- One instrument more. -/
def Sounds.add (sounds : Sounds) (s : Shape) : Except Failure Sounds := do
  let (start, wave) ← sounds.wave.start (waveProgram s)
  let instrument : Instrument :=
    { attackDecay := s.attackDecay, sustainRelease := s.sustainRelease, wave := start,
      hardRestart := s.hardRestart }
  match s.pulse with
  | none => return { sounds with wave, instruments := sounds.instruments ++ [instrument] }
  | some widths =>
    let (start, pulse) ← sounds.pulse.start (pulseProgram widths)
    return { wave, pulse,
             instruments := sounds.instruments ++ [{ instrument with pulse := some start }] }

/-- The instruments of shapes. -/
def instrumentsOf (shapes : List Shape) : Except Failure Sounds := shapes.foldlM Sounds.add {}

/-! ## The filter -/

/-- Most steps of the filter program. -/
def maxFilterRows : Nat := 127

/-- The registers of the filter and the volume. -/
def filterRegisters : List Register := [.cutoffLo, .cutoffHi, .resonance, .modeVolume]

/-- The values of those registers. -/
def filterValues (b : Bank) : Bytes := filterRegisters.map b.get

/-- The frame from which on the filter is used, if it is. -/
def filterStart? (t : Trace) : Option Nat :=
  let first :=
    match t.entries.toList.find? (·.register.isFilter) with
    | some e => some e.frame
    | none => if (filterValues t.initial).any (· != 0) then some 0 else none
  first.filter (· < t.frames)

/-- The filter program from a frame on, cut to the rows there may be. -/
def filterProgram (t : Trace) (start : Nat) : Job (List Row) := do
  let rows := Repetition.program id ((t.snapshots.drop start).map filterValues)
  if maxFilterRows + 1 < rows.length then
    Job.notice (.filterCut maxFilterRows)
    return rows.take maxFilterRows ++ [.stop]
  return rows

/-! ## Sequences -/

/-- What happens in a row. -/
inductive RowEvent where
  | note (pitch instrument : UInt8)
  | off
deriving DecidableEq, Repr

/-- A row of a voice, with the commands in front of it. -/
structure GridRow where
  commands : List Command := []
  event : Option RowEvent := none

/-- The event of row number `row`: the last note that starts in it, or else the end of one. -/
def rowEvent? (tempo : Nat) (offs : List Nat) (notes : List Assigned) (row : Nat) :
    Option RowEvent :=
  match notes.reverse.find? (·.note.frame / tempo == row) with
  | some n => some (.note n.note.pitch (UInt8.ofNat n.instrument))
  | none => if offs.any (· / tempo == row) then some .off else none

/-- Rests that last `rows` rows in all. -/
def rests (rows : Nat) : List Event :=
  List.replicate (rows / 255) (.rest 255) ++
    if rows % 255 = 0 then [] else [.rest (UInt8.ofNat (rows % 255))]

/-- The events of rows so far: those before the last rest, the rows rested since, and the
instrument in use. -/
structure Phrase where
  events : List Event := []
  resting : Nat := 0
  instrument : Option UInt8

namespace Phrase

/-- The events with the last rest. -/
def closed (p : Phrase) : List Event := p.events ++ rests p.resting

/-- Put events after those so far. -/
def push (p : Phrase) (events : List Event) : Phrase :=
  { p with events := p.closed ++ events, resting := 0 }

/-- One row more. -/
def addRow (p : Phrase) (row : GridRow) : Phrase :=
  let p := if row.commands.isEmpty then p else p.push (row.commands.map .setCommand)
  match row.event with
  | some (.note pitch id) =>
    if p.instrument = some id then p.push [.noteOn pitch]
    else { p.push [.setInstrument id, .noteOn pitch] with instrument := some id }
  | some .off => p.push [.noteOff]
  | none => { p with resting := p.resting + 1 }

/-- The phrase of some rows, which starts by selecting the instrument in use. -/
def ofRows (instrument : Option UInt8) (rows : List GridRow) : Phrase :=
  rows.foldl addRow { events := instrument.toList.map .setInstrument, instrument }

end Phrase

/-- The lowest pitch of some events, zero if there is no note. -/
def lowestPitch (events : List Event) : UInt8 :=
  match (events.filterMap Event.pitch?).min? with
  | some p => p
  | none => 0

/-- An event with its pitch lowered. -/
def lowered (base : UInt8) : Event → Event
  | .noteOn p => .noteOn (p - base)
  | e => e

/-- The sequences so far and a voice's order list. -/
structure Score where
  sequences : List Sequence := []
  entries : List OrderEntry := []

/-- Play events next; they are transposed down so far that their lowest pitch is zero. -/
def Score.add (s : Score) (events : List Event) : Score :=
  let base := lowestPitch events
  let events := events.map (lowered base)
  let entry (index : Nat) : OrderEntry := ⟨base.toInt8, UInt8.ofNat index⟩
  match s.sequences.findIdx? (·.events == events) with
  | some index => { s with entries := s.entries ++ [entry index] }
  | none =>
    { sequences := s.sequences ++ [{ events, provenance := .dynamic }]
      entries := s.entries ++ [entry s.sequences.length] }

/-- A list cut into pieces of `size` elements, the last one possibly shorter. -/
def pieces {α : Type} (size : Nat) (xs : List α) : List (List α) :=
  (List.range ((xs.length + size - 1) / size)).map fun i => (xs.drop (i * size)).take size

/-- Play the pieces of a voice in order, each one starting with the instrument in use. -/
def Score.addPieces (s : Score) (instrument : Option UInt8) : List (List GridRow) → Score
  | [] => s
  | rows :: rest =>
    let phrase := Phrase.ofRows instrument rows
    (s.add phrase.closed).addPieces phrase.instrument rest

/-- The order list of one voice more. -/
def addVoice (size : Nat) (sequences : List Sequence) (lists : List OrderList)
    (instrument : Option UInt8) (rows : List GridRow) : List Sequence × List OrderList :=
  let score := Score.addPieces { sequences } instrument (pieces size rows)
  (score.sequences, lists ++ [{ entries := score.entries }])

/-- The rows of a voice. The commands are those in front of some rows. -/
def gridOf (tempo rows : Nat) (offs : List Nat) (notes : List Assigned)
    (commands : List (Nat × Command)) : List GridRow :=
  (List.range rows).map fun row =>
    { commands := (commands.filter (·.1 == row)).map (·.2)
      event := rowEvent? tempo offs notes row }

end Reconstruction

open Reconstruction

/-- Rebuild a song from a trace. -/
def reconstruct (t : Trace) (options : AnalysisOptions) : Job Song := do
  let marks := Voice.all.map fun v => (v, marks t v)
  if marks.all fun (_, m) => (framesWith .on m).isEmpty then
    throw (.incompleteExtraction (.noNotes t.frames))
  let tempo := rowLength (marks.flatMap fun (_, m) => m.map (·.1)) options.maxTempo
  let frames := tempo.toNat
  let notes := Voice.all.flatMap (notes t)
  for n in notes do
    if n.frame % frames ≠ 0 then Job.notice (.offGrid n.voice.val n.frame frames)
  let assignment := assign notes
  if 255 < assignment.shapes.length then
    throw (.incompleteExtraction (.tooManyInstruments assignment.shapes.length))
  let sounds ← Job.ofExcept (instrumentsOf assignment.shapes)
  let rows := rowCount t.frames frames
  let (filter, commands) ←
    match filterStart? t with
    | none => pure ([], [])
    | some start => do
      let row := start / frames
      let program ← filterProgram t (row * frames)
      let table : Table := { kind := .filter, rows := program, provenance := .dynamic }
      pure ([table], [(row, (⟨.filterProgram, 0, 0⟩ : Command))])
  let (sequences, orderLists) := marks.foldl
    (fun (sequences, lists) (v, m) =>
      let mine := assignment.notes.filter (·.note.voice == v)
      let commands := if v.val = 0 then commands else []
      addVoice (max options.rowsPerSequence 1) sequences lists
        (mine.head?.map fun n => UInt8.ofNat n.instrument)
        (gridOf frames rows (framesWith .off m) mine commands))
    (([], []) : List Sequence × List OrderList)
  if 255 < sequences.length then
    throw (.incompleteExtraction (.tooManySequences sequences.length))
  let programs := [sounds.wave.table, sounds.pulse.table].filter fun t => !t.rows.isEmpty
  return { tempo, instruments := sounds.instruments, tables := sortTables (programs ++ filter),
           sequences, orderLists, instrumentProvenance := .dynamic }

end Chiptune.Analysis
