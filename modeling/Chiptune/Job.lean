/-
Jobs: work that may fail, give things up and tell about it.

A job keeps what it told even when it fails.
-/
import Chiptune.Failure

namespace Chiptune

/-- What a job told so far. -/
structure Journal where
  notices : List Notice := []
  degradations : List Degradation := []
deriving DecidableEq, Repr

/-- Work that may fail and keeps a journal. -/
abbrev Job := EStateM Failure Journal

namespace Job

/-- Tell something. -/
def notice (n : Notice) : Job Unit := modify fun j => { j with notices := j.notices ++ [n] }

/-- Give something up. -/
def degrade (d : Degradation) : Job Unit :=
  modify fun j => { j with degradations := j.degradations ++ [d] }

/-- Give something up and tell it. -/
def report (d : Degradation) : Job Unit := do
  notice (.degraded d)
  degrade d

/-- Do something that may fail. -/
def ofExcept {α : Type} : Except Failure α → Job α
  | .ok a => pure a
  | .error e => throw e

/-- The outcome of a job as a value, so that the job that asks goes on after a failure. -/
def outcome {α : Type} (job : Job α) : Job (Except Failure α) := fun j =>
  match job j with
  | .ok a j => .ok (.ok a) j
  | .error e j => .ok (.error e) j

/-- Do a job and take what it gave up out of the journal. -/
def collecting {α : Type} (job : Job α) : Job (α × List Degradation) := fun j =>
  match job { j with degradations := [] } with
  | .ok a j' => .ok (a, j'.degradations) { j' with degradations := j.degradations }
  | .error e j' => .error e { j' with degradations := j.degradations }

end Job

end Chiptune
