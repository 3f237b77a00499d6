/-
Describing a list of values by a part of it and what happens after that part.

A run of values is often a few different ones followed by the same value, or
by a few values, again and again. `collapse` finds the shortest start of the
list from which the rest follows by holding the last value or by looping back.
-/
import Chiptune.Song.Table

namespace Chiptune.Analysis.Repetition

open Song

variable {α : Type} [BEq α]

/-- A start of a list, and what follows it. -/
structure Description where
  /-- Values in the start. -/
  length : Nat
  /-- Where the loop goes back to; without one the last value is held. -/
  loop : Option Nat
deriving DecidableEq, Repr

/-- The first position from which on every value equals the one `period` places later. -/
def periodicFrom (values : List α) (period : Nat) : Nat :=
  let pairs := values.zip (values.drop period)
  pairs.length - (pairs.reverse.takeWhile fun (a, b) => a == b).length

/-- The description of a list by a tail of a period. A tail of a single value is held; a longer
one has to be there twice in full. -/
def describe? (values : List α) (period : Nat) : Option Description :=
  let start := periodicFrom values period
  if period = 1 then some ⟨start + 1, none⟩
  else if values.length < start + 2 * period then none
  else some ⟨start + period, some start⟩

/-- The shorter one of two descriptions, the first one if they are as long. -/
def shorter (a : Description) (b : Option Description) : Description :=
  match b with
  | some b => if b.length < a.length then b else a
  | none => a

/-- The shortest description of a list, that with the least period if several are as short. -/
def collapse (values : List α) : Description :=
  (List.range' 1 (values.length - 1)).foldl
    (fun best period => shorter best (describe? values period)) ⟨values.length, none⟩

/-- The program of a list of values, a step for each value of its start. -/
def program (step : α → Bytes) (values : List α) : List Row :=
  let d := collapse values
  (values.take d.length).map (fun v => .step (step v)) ++
    match d.loop with
    | some start => [.loop (UInt8.ofNat start)]
    | none => [.stop]

/-- Runs of the same value, each of at most 255 values. The first run may be continued. -/
def runsOnto (runs : List (α × Nat)) (v : α) : List (α × Nat) :=
  match runs with
  | (w, n) :: rest => if w == v && n < 255 then (w, n + 1) :: rest else (v, 1) :: runs
  | [] => [(v, 1)]

/-- The runs of a list. -/
def runs (values : List α) : List (α × Nat) := (values.foldl runsOnto []).reverse

/-- The program of a list of values, a step for each run of the same value that says how long it
is. No run crosses the loop's target. -/
def heldProgram (step : α → UInt8 → Bytes) (values : List α) : List Row :=
  let d := collapse values
  let rows (values : List α) : List Row :=
    (runs values).map fun (v, n) => .step (step v (UInt8.ofNat n))
  let start := values.take d.length
  match d.loop with
  | some target =>
    let before := rows (start.take target)
    before ++ rows (start.drop target) ++ [.loop (UInt8.ofNat before.length)]
  | none => rows start ++ [.stop]

end Chiptune.Analysis.Repetition
