/-
How the minimal player plays a song, apart from its code.

A row of a voice is waited out or read: events are played up to one that takes
the row, through as many sequences as that needs (`Rendition.readRow`). After
the rows each frame steps the programs and writes the registers they lead to
(`Rendition.sound`, `Rendition.stepFilter`). So a song is rendered frame by
frame (`rendered`).
-/
import Chiptune.Proofs.Player.Minimal.Score

namespace Chiptune.Player.Minimal

open Song Sound

/-! ## Programs -/

/-- Rows of the table of a kind, none if there is no such table. -/
def programRows (song : Song) (kind : TableKind) : List Row := ((song.table? kind).map (·.rows)).getD []

/-- The row that is read at a row: this one, or the one that it loops to. -/
def reached (rows : List Row) (row : UInt8) : UInt8 × Row :=
  match (rows[row.toNat]?).getD .stop with
  | .loop target => (target, (rows[target.toNat]?).getD .stop)
  | r => (row, r)

/-! ## Voices -/

/-- A voice of a song that is played. -/
structure Part where
  /-- The entry of the order list to take next. -/
  entry : Nat := 0
  /-- Events of the sequence still to read. -/
  events : List Event := []
  transpose : Int8 := 0
  /-- Rows still to rest. -/
  wait : UInt8 := 0
  /-- The pitch of the last note, transposed. -/
  note : UInt8 := 0
  instrument : UInt8 := 0
  /-- The next note is tied. -/
  tied : Bool := false
  gate : Bool := false
  /-- The voice has played a note. -/
  active : Bool := false
  /-- The voice has reached the end of its order list. -/
  stopped : Bool := false
  /-- Row of the wave table to read next. -/
  wave : UInt8 := 0
  control : UInt8 := 0
  /-- What the wave program adds to the note. -/
  offset : UInt8 := 0
  /-- Row of the pulse table to read next, if a program runs. -/
  pulse : Option UInt8 := none
  /-- Frames until that row is read. -/
  hold : UInt8 := 0
  pulseLo : UInt8 := 0
  pulseHi : UInt8 := 0

namespace Part

/-- One frame of the wave program: a step is taken, and an end stays with the last one. -/
def stepWave (song : Song) (p : Part) : Part :=
  match reached (programRows song .wave) p.wave with
  | (row, .step bytes) => { p with wave := row + 1, control := bytes[0]?.getD 0, offset := bytes[1]?.getD 0 }
  | (row, _) => { p with wave := row }

/-- One frame of the pulse program, if one runs: a step stands for as many frames as it says. -/
def stepPulse (song : Song) (p : Part) : Part :=
  match p.pulse with
  | none => p
  | some row =>
    if p.hold = 0 then
      match reached (programRows song .pulse) row with
      | (row, .step bytes) =>
        let frames := bytes[2]?.getD 0
        { p with
          pulse := some (row + 1), pulseHi := bytes[0]?.getD 0, pulseLo := bytes[1]?.getD 0
          hold := if frames = 0 then 0 else frames - 1 }
      | (row, _) => { p with pulse := some row }
    else { p with hold := p.hold - 1 }

/-- Where the voice looks its frequency up. -/
def pitch (p : Part) : UInt8 := p.note + p.offset

/-- What the voice writes to its control register. -/
def controlByte (p : Part) : UInt8 := withoutGate p.control ||| if p.gate then Sound.gate else 0

/-- The registers once the voice has written its own; a voice without a pulse program leaves the pulse width alone. -/
def written (p : Part) (v : Voice) (b : Bank) : Bank :=
  let b := if p.pulse.isSome then (b.set (.voice v .pulseLo) p.pulseLo).set (.voice v .pulseHi) p.pulseHi else b
  ((b.set (.voice v .freqLo) (Word.low (Pitch.frequency p.pitch.toNat))).set (.voice v .freqHi)
    (Word.high (Pitch.frequency p.pitch.toNat))).set (.voice v .control) p.controlByte

end Part

/-! ## Songs -/

/-- Whether an event takes a row. -/
def takesRow : Event → Bool
  | .noteOn _ | .noteOff | .rest _ => true
  | .tie | .setInstrument _ | .setCommand _ => false

/-- The player in the middle of a song. -/
structure Rendition where
  part : Voice → Part
  /-- Frames per row. -/
  tempo : UInt8
  /-- Frames until the next row. -/
  tick : UInt8
  /-- Row of the filter table to read next, if a program runs. -/
  filter : Option UInt8
  modeVolume : UInt8
  bank : Bank

/-- The voices in the order in which the player takes them. -/
def descending : List Voice := Voice.all.reverse

/-- The order list of a voice. -/
def orderListOf (song : Song) (v : Voice) : OrderList := (song.orderLists[v.val]?).getD {}

/-- The events of a sequence. -/
def eventsOf (song : Song) (sequence : UInt8) : List Event :=
  ((song.sequences[sequence.toNat]?).map (·.events)).getD []

namespace Rendition

def withPart (r : Rendition) (v : Voice) (p : Part) : Rendition := { r with part := Function.update r.part v p }

def write (r : Rendition) (register : Register) (value : UInt8) : Rendition := { r with bank := r.bank.set register value }

/-! ## Rows -/

/-- A voice takes the next entry of its order list. At the end of the list it falls silent for good. -/
def enter (song : Song) (v : Voice) (r : Rendition) : Rendition :=
  let p := r.part v
  let l := orderListOf song v
  match nextEntry? l p.entry with
  | some k =>
    let e := (l.entries[k]?).getD ⟨0, 0⟩
    r.withPart v { p with entry := k + 1, events := eventsOf song e.sequence, transpose := e.transpose }
  | none => (r.write (.voice v .control) (withoutGate p.control)).withPart v { p with gate := false, stopped := true }

/-- An instrument of a voice starts again. The gate is closed before the envelope is set, and opens
when the voice writes its registers. -/
def strike (v : Voice) (i : Instrument) (r : Rendition) : Rendition :=
  let p := r.part v
  let r := { r with filter := i.filter.or r.filter }.write (.voice v .control) (withoutGate p.control)
  let r := if i.hardRestart then (r.write (.voice v .attackDecay) 0).write (.voice v .sustainRelease) 0 else r
  let r := (r.write (.voice v .attackDecay) i.attackDecay).write (.voice v .sustainRelease) i.sustainRelease
  r.withPart v { p with gate := true, wave := i.wave, pulse := i.pulse, hold := 0 }

/-- A note; a tied one changes the pitch only. -/
def playNote (song : Song) (v : Voice) (pitch : UInt8) (r : Rendition) : Rendition :=
  let p := { r.part v with note := pitch + (r.part v).transpose.toUInt8, active := true }
  if p.tied then r.withPart v { p with tied := false }
  else
    match song.instruments[p.instrument.toNat]? with
    | some i => (r.withPart v p).strike v i
    | none => r.withPart v p

/-- A command. The player has none that change a pitch. -/
def runCommand (v : Voice) (c : Command) (r : Rendition) : Rendition :=
  match c.kind with
  | .setAdsr => (r.write (.voice v .attackDecay) c.first).write (.voice v .sustainRelease) c.second
  | .setTempo => { r with tempo := c.first }
  | .setVolume =>
    let modeVolume := r.modeVolume &&& 0xF0 ||| c.first &&& 0x0F
    { r with modeVolume }.write .modeVolume modeVolume
  | .filterProgram => { r with filter := some c.first }
  | .slideUp | .slideDown | .vibrato | .portamento => r

def playEvent (song : Song) (v : Voice) (r : Rendition) : Event → Rendition
  | .noteOn pitch => r.playNote song v pitch
  | .noteOff => r.withPart v { r.part v with gate := false }
  | .tie => r.withPart v { r.part v with tied := true }
  | .setInstrument id => r.withPart v { r.part v with instrument := id }
  | .setCommand c => r.runCommand v c
  | .rest rows => r.withPart v { r.part v with wait := rows - 1 }

/-- Play events up to one that takes a row, and say whether there is one. -/
def playEvents (song : Song) (v : Voice) : List Event → Rendition → Bool × Rendition
  | [], r => (false, r)
  | e :: events, r =>
    let r := (r.withPart v { r.part v with events }).playEvent song v e
    if takesRow e then (true, r) else r.playEvents song v events

/-- Read a row of a voice from so many sequences at most. -/
def readRow (song : Song) (v : Voice) : (sequences : Nat) → Rendition → Option Rendition
  | 0, _ => none
  | sequences + 1, r =>
    match r.playEvents song v (r.part v).events with
    | (true, r) => some r
    | (false, r) =>
      let r := r.enter song v
      if (r.part v).stopped then some r else r.readRow song v sequences

/-- The most sequences that a row can need: with more, the voice has been through its loop without a row. -/
def reach (song : Song) (v : Voice) : Nat := 2 * (orderListOf song v).entries.length + 2

/-- A row of a voice: a rest is waited out, or a row is read. There is none if the voice reads for ever. -/
def playRow (song : Song) (r : Rendition) (v : Voice) : Option Rendition :=
  let p := r.part v
  if p.stopped then some r
  else if p.wait = 0 then r.readRow song v (reach song v)
  else some (r.withPart v { p with wait := p.wait - 1 })

/-! ## Frames -/

/-- A voice steps its programs and writes its registers. -/
def sound (song : Song) (r : Rendition) (v : Voice) : Rendition :=
  let p := ((r.part v).stepWave song).stepPulse song
  { r.withPart v p with bank := p.written v r.bank }

/-- A voice is updated if it has played a note and not stopped. -/
def update (song : Song) (r : Rendition) (v : Voice) : Rendition :=
  if (r.part v).active && !(r.part v).stopped then r.sound song v else r

/-- One frame of the filter program, if one runs. -/
def stepFilter (song : Song) (r : Rendition) : Rendition :=
  match r.filter with
  | none => r
  | some row =>
    match reached (programRows song .filter) row with
    | (row, .step bytes) =>
      let r := ((r.write .cutoffLo (bytes[0]?.getD 0)).write .cutoffHi (bytes[1]?.getD 0)).write .resonance
        (bytes[2]?.getD 0)
      let modeVolume := bytes[3]?.getD 0
      { r with modeVolume, filter := some (row + 1) }.write .modeVolume modeVolume
    | (row, _) => { r with filter := some row }

/-- A row of every voice when the tick has run out; the next one follows after the tempo as it is now. -/
def playRows (song : Song) (r : Rendition) : Option Rendition :=
  if r.tick = 0 then descending.foldlM (playRow song) { r with tick := r.tempo } else some r

/-- What a frame does after its rows. -/
def soundAll (song : Song) (r : Rendition) : Rendition := (descending.foldl (update song) r).stepFilter song

/-- One frame. -/
def frame (song : Song) (r : Rendition) : Option Rendition :=
  (playRows song { r with tick := r.tick - 1 }).map (soundAll song)

/-- The start of a song: every voice is at its first entry, and there is a row in the first frame. -/
def start (song : Song) : Rendition :=
  descending.foldl (fun r v => r.enter song v)
    { part := fun _ => {}, tempo := song.tempo, tick := 1, filter := none, modeVolume := 0x0F
      bank := Bank.cleared.set .modeVolume 0x0F }

/-- The ends of so many frames. -/
def frames (song : Song) : Nat → Rendition → Option (List Rendition)
  | 0, _ => some []
  | n + 1, r => (r.frame song).bind fun r => (frames song n r).map (r :: ·)

/-- Every voice that sounds looks its frequency up at a pitch. -/
def InTune (r : Rendition) : Prop :=
  ∀ v, (r.part v).active = true → (r.part v).stopped = false → (r.part v).pitch.toNat ≤ Pitch.highest

instance (r : Rendition) : Decidable r.InTune := inferInstanceAs (Decidable (∀ _, _))

end Rendition

/-- The ends of the first `n` frames of a song. -/
def rendered (song : Song) (n : Nat) : Option (List Rendition) := (Rendition.start song).frames song n

end Chiptune.Player.Minimal
