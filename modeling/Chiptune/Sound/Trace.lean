/-
A record of everything a player writes to the sound chip.

A trace starts from the registers its program left after initialising and
lists the writes since, each with its frame and its cycle within the frame.
What a listener hears at the end of a frame is the registers after the writes
so far (`snapshots`).
-/
import Chiptune.Sound.Register

namespace Chiptune.Sound

/-- One register write. -/
structure Entry where
  frame : Nat
  /-- Cycles since the frame began. -/
  cycle : Nat
  register : Register
  value : UInt8
deriving DecidableEq, Repr

/-- The registers after some writes. -/
def Bank.replay (b : Bank) (entries : List Entry) : Bank :=
  entries.foldl (fun b e => b.set e.register e.value) b

/-- Whether a write is made no later than another. -/
def Entry.precedes (a b : Entry) : Bool :=
  decide (a.frame < b.frame) || (a.frame == b.frame && decide (a.cycle ≤ b.cycle))

/-- The writes of a run of frames. -/
structure Trace where
  /-- Frames recorded. -/
  frames : Nat := 0
  /-- The registers before the first frame. -/
  initial : Bank
  /-- The writes, ordered by frame and cycle. -/
  entries : Array Entry := #[]
deriving DecidableEq, Repr

namespace Trace

/-- Whether each write but the first is made no earlier than the one recorded before it. -/
def isOrdered (t : Trace) : Bool :=
  (t.entries.toList.zip t.entries.toList.tail).all fun (a, b) => a.precedes b

/-- The writes of one frame. -/
def frame (t : Trace) (n : Nat) : List Entry := t.entries.toList.filter (·.frame == n)

/-- The registers at the end of each of `count` frames from `frame` on, starting from `b`;
`entries` are the writes from `frame` on. -/
def snapshotsFrom (b : Bank) (entries : List Entry) (frame : Nat) : Nat → List Bank
  | 0 => []
  | count + 1 =>
    let now := entries.takeWhile (·.frame == frame)
    let b := b.replay now
    b :: snapshotsFrom b (entries.drop now.length) (frame + 1) count

/-- The registers at the end of every recorded frame. -/
def snapshots (t : Trace) : List Bank := snapshotsFrom t.initial t.entries.toList 0 t.frames

/-- The writes to one register. -/
def writeCount (t : Trace) (r : Register) : Nat := t.entries.toList.countP (·.register == r)

/-- The writes of the first `count` frames, each frame's own in order. -/
def byFrame (t : Trace) (count : Nat) : Array (List Entry) :=
  t.entries.foldr (fun e frames => frames.modify e.frame (e :: ·)) (Array.replicate count [])

/-- The trace as comma-separated values, one write to a line. -/
def csv (t : Trace) : String :=
  let line (e : Entry) : String :=
    s!"{e.frame},{e.cycle}," ++ e.register.name ++ "," ++ Hex.byte e.value ++ "\n"
  t.entries.foldl (fun text e => text ++ line e) "frame,cycle,register,value\n"

end Trace

end Chiptune.Sound
