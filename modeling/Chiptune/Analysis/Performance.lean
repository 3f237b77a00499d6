/-
What a player did, voice by voice: when notes start and end, and what they
sound like.

A note starts when its voice's gate opens, and also in a frame that ends with
the gate open and reopens it or writes the envelope. What a note sounds like
is its `Shape`, the registers frame by frame until the next note.
-/
import Chiptune.Sound.Pitch
import Chiptune.Sound.Trace

namespace Chiptune.Analysis

open Sound

/-- A frame: its writes and the registers after them. -/
structure Frame where
  state : Bank
  writes : List Entry

/-- The frames of a trace. -/
def framesOf (t : Trace) : List Frame :=
  List.zipWith Frame.mk t.snapshots (t.byFrame t.frames).toList

/-! ## Gates -/

/-- What happens to a voice's gate. -/
inductive Mark where
  | on | off
deriving DecidableEq, Repr

/-- What a frame's writes do to a voice's gate and envelope. -/
structure Gating where
  /-- The gate was closed. -/
  closed : Bool := false
  /-- The gate was opened after it had been closed. -/
  reopened : Bool := false
  /-- The envelope was written. -/
  envelope : Bool := false

/-- A write's part in it. -/
def Gating.add (v : Voice) (g : Gating) (e : Entry) : Gating :=
  if e.register = .voice v .control then
    if !gateOpen e.value then { g with closed := true }
    else if g.closed then { g with reopened := true }
    else g
  else if e.register = .voice v .attackDecay ∨ e.register = .voice v .sustainRelease then
    { g with envelope := true }
  else g

namespace Frame

/-- Whether a voice's gate is open at the end of the frame. -/
def gate (v : Voice) (f : Frame) : Bool := gateOpen (f.state.get (.voice v .control))

/-- What the frame does to a voice's gate, which was open before it or not. -/
def mark? (v : Voice) (before : Bool) (f : Frame) : Option Mark :=
  let g := f.writes.foldl (Gating.add v) {}
  if f.gate v && (!before || g.reopened || g.envelope) then some .on
  else if before && !f.gate v then some .off
  else none

end Frame

/-- What happens to a voice's gate in the frames from number `frame` on. -/
def marksFrom (v : Voice) (before : Bool) (frame : Nat) : List Frame → List (Nat × Mark)
  | [] => []
  | f :: rest =>
    let later := marksFrom v (f.gate v) (frame + 1) rest
    match f.mark? v before with
    | some m => (frame, m) :: later
    | none => later

/-- What happens to a voice's gate in a trace, with the frames where it does. -/
def marks (t : Trace) (v : Voice) : List (Nat × Mark) :=
  marksFrom v (gateOpen (t.initial.get (.voice v .control))) 0 (framesOf t)

/-- The frames of the marks of a kind. -/
def framesWith (mark : Mark) (marks : List (Nat × Mark)) : List Nat :=
  (marks.filter (·.2 == mark)).map (·.1)

/-! ## Shapes -/

/-- What a note sounds like. -/
structure Shape where
  attackDecay : UInt8
  sustainRelease : UInt8
  /-- The envelope is cleared first. -/
  hardRestart : Bool
  /-- Frame by frame, the control value without the gate and the note's offset. -/
  wave : List (UInt8 × UInt8)
  /-- Frame by frame, the pulse width's high and low byte, if it was written at all. -/
  pulse : Option (List (UInt8 × UInt8))
deriving DecidableEq, Repr

/-- Whether two lists agree as far as both go. -/
def agree {α : Type} [BEq α] (a b : List α) : Bool := (a.zip b).all fun (x, y) => x == y

/-- The longer one of two lists, the first one if they are as long. -/
def longer {α : Type} (a b : List α) : List α := if a.length < b.length then b else a

namespace Shape

/-- Whether two shapes may be of the same instrument. -/
def mergesWith (a b : Shape) : Bool :=
  a.attackDecay == b.attackDecay && a.sustainRelease == b.sustainRelease &&
    a.hardRestart == b.hardRestart && agree a.wave b.wave &&
    match a.pulse, b.pulse with
    | none, none => true
    | some p, some q => agree p q
    | _, _ => false

/-- A shape with what is known from another one of the same instrument. -/
def absorb (a b : Shape) : Shape :=
  { a with
    wave := longer a.wave b.wave
    pulse :=
      match a.pulse, b.pulse with
      | some p, some q => some (longer p q)
      | p, _ => p }

end Shape

/-- Frames of a note that its shape is made from. -/
def observed : Nat := 32

namespace Frame

/-- A voice's pitch at the end of the frame; `silent` if it has no frequency. -/
def pitch (v : Voice) (silent : UInt8) (f : Frame) : UInt8 :=
  (Pitch.nearest? (f.state.frequency v)).getD silent

/-- A voice's control value without the gate, and its offset from the note. -/
def waveStep (v : Voice) (note : UInt8) (f : Frame) : UInt8 × UInt8 :=
  (withoutGate (f.state.get (.voice v .control)), f.pitch v note - note)

/-- The high and low byte of a voice's pulse width. -/
def pulseStep (v : Voice) (f : Frame) : UInt8 × UInt8 :=
  (f.state.get (.voice v .pulseHi) &&& 0x0F, f.state.get (.voice v .pulseLo))

/-- Whether a voice's pulse width is written. -/
def writesPulse (v : Voice) (f : Frame) : Bool :=
  f.writes.any fun e => e.register == .voice v .pulseHi || e.register == .voice v .pulseLo

/-- Whether the frame clears a voice's envelope before it sets it. -/
def clearsEnvelope (v : Voice) (f : Frame) : Bool :=
  match f.writes.filter (·.register == .voice v .attackDecay) with
  | first :: _ :: _ => first.value == 0
  | _ => false

end Frame

/-- The shape of a note that starts in the first one of the given frames and lasts through
them all. -/
def Shape.of (v : Voice) (note : UInt8) (first : Frame) (window : List Frame) : Shape where
  attackDecay := first.state.get (.voice v .attackDecay)
  sustainRelease := first.state.get (.voice v .sustainRelease)
  hardRestart := first.clearsEnvelope v
  wave := window.map (·.waveStep v note)
  pulse := if window.any (·.writesPulse v) then some (window.map (·.pulseStep v)) else none

/-! ## Notes -/

structure Note where
  voice : Voice
  /-- The frame in which it starts. -/
  frame : Nat
  pitch : UInt8
  shape : Shape
deriving DecidableEq, Repr

/-- A voice's notes that start in the given frames. -/
def notesAt (frames : List Frame) (v : Voice) : List Nat → List Note
  | [] => []
  | onset :: rest =>
    let stop := min ((rest.head?.getD frames.length)) (onset + observed)
    let window := (frames.drop onset).take (stop - onset)
    match window with
    | first :: _ =>
      let pitch := first.pitch v 0
      { voice := v, frame := onset, pitch, shape := .of v pitch first window }
        :: notesAt frames v rest
    | [] => notesAt frames v rest

/-- A voice's notes. -/
def notes (t : Trace) (v : Voice) : List Note :=
  notesAt (framesOf t) v (framesWith .on (marks t v))

end Chiptune.Analysis
