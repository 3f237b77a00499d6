/-
How closely a conversion sounds like its source: the chip's registers at the
end of each frame, compared.

Hits are counted exactly, by frame, voice, register and filter; percentages
and the score come from the counts. A frame without any difference is a hit
by every count.
-/
import Chiptune.Sound.Trace

namespace Chiptune

open Sound

namespace Accuracy

/-! ## Differences -/

/-- A register with different values. -/
structure Difference where
  register : Register
  source : UInt8
  converted : UInt8
deriving DecidableEq, Repr

/-- The registers that differ, in offset order. -/
def differences (a b : Bank) : List Difference :=
  (Register.all.filter fun r => a.get r != b.get r).map fun r => ⟨r, a.get r, b.get r⟩

/-- A frame that differs. -/
structure DivergentFrame where
  frame : Nat
  registers : List Difference
deriving DecidableEq, Repr

/-- The frames that two traces have in common, each with what differs in it. -/
def frames (a b : Trace) : List DivergentFrame :=
  (List.zipWith differences a.snapshots b.snapshots).zipIdx.map fun (registers, frame) =>
    { frame, registers }

/-! ## Hits -/

/-- Whether two banks agree in the registers that satisfy `p`. -/
def agreesOn (p : Register → Bool) (ds : List Difference) : Bool := ds.all fun d => !p d.register

/-- Hits in some frames. -/
structure Hits where
  frames : Nat := 0
  voices : Nat := 0
  registers : Nat := 0
  filters : Nat := 0
deriving DecidableEq, Repr

/-- The hits with those of one more frame. -/
def Hits.add (h : Hits) (ds : List Difference) : Hits where
  frames := h.frames + ds.isEmpty.toNat
  voices := h.voices + Voice.all.countP fun v => agreesOn (·.voice? == some v) ds
  registers := h.registers + (Register.all.length - ds.length)
  filters := h.filters + (agreesOn Register.isFilter ds).toNat

/-- The hits in some frames. -/
def Hits.of (frames : List DivergentFrame) : Hits :=
  frames.foldl (fun h f => h.add f.registers) {}

/-! ## Reports -/

/-- How much each count weighs. -/
structure Weights where
  frame : Float := 0.40
  voice : Float := 0.30
  register : Float := 0.20
  filter : Float := 0.10

/-- The sum of the weights. -/
def Weights.total (w : Weights) : Float := w.frame + w.voice + w.register + w.filter

/-- Hits as a percentage; all of nothing is everything. -/
def percent (hits total : Nat) : Float :=
  if total = 0 then 100.0 else Float.ofNat hits * 100.0 / Float.ofNat total

/-- The outcome of a comparison. -/
structure Report where
  /-- Frames compared. -/
  frames : Nat
  hits : Hits
  weights : Weights
  sourceWrites : Nat
  convertedWrites : Nat
  firstDivergence : Option Nat
  /-- The first frames that differ. -/
  divergent : List DivergentFrame

namespace Report

/-- Frames without a difference, in percent. -/
def frameMatch (r : Report) : Float := percent r.hits.frames r.frames

/-- Voices without a difference, in percent. -/
def voiceMatch (r : Report) : Float := percent r.hits.voices (r.frames * Voice.all.length)

/-- Registers without a difference, in percent. -/
def registerMatch (r : Report) : Float := percent r.hits.registers (r.frames * Register.all.length)

/-- Frames without a difference in filter and volume, in percent. -/
def filterMatch (r : Report) : Float := percent r.hits.filters r.frames

/-- The weighted mean of the percentages; without weights, the first one. -/
def score (r : Report) : Float :=
  let w := r.weights
  if w.total > 0.0 then
    (w.frame * r.frameMatch + w.voice * r.voiceMatch + w.register * r.registerMatch +
      w.filter * r.filterMatch) / w.total
  else r.frameMatch

/-- Whether no frame differs. -/
def isExact (r : Report) : Bool := r.firstDivergence.isNone

end Report

/-- Compare two traces; of the frames that differ, list `maxReported`. -/
def compare (source converted : Trace) (weights : Weights) (maxReported : Nat) : Report :=
  let frames := frames source converted
  let divergent := frames.filter fun f => !f.registers.isEmpty
  { frames := frames.length
    hits := .of frames
    weights
    sourceWrites := source.entries.size
    convertedWrites := converted.entries.size
    firstDivergence := divergent.head?.map (·.frame)
    divergent := divergent.take maxReported }

end Accuracy

end Chiptune
