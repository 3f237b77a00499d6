/-
A processor with plain memory: every store lands in the image, no chip is
mapped in. Runs keep the stores in order.
-/
import Chiptune.Machine.Memory
import Chiptune.Machine.Step

namespace Chiptune.Machine

/-- The image after stores, applied in order. -/
def Memory.applyStores (m : Memory) (stores : List Store) : Memory :=
  stores.foldl (fun m s => m.write s.address s.value) m

/-- A processor, its memory and the cycles it has run. -/
structure Computer where
  regs : Registers := {}
  memory : Memory := .zeroed
  cycles : Nat := 0

namespace Computer

/-- Run one instruction: its outcome and the computer after it. -/
def step (c : Computer) : Except RunError (Outcome × Computer) :=
  match Machine.step c.memory.read c.regs with
  | .error e => .error e
  | .ok o =>
    .ok (o, {
      regs := o.regs
      memory := c.memory.applyStores o.stores
      cycles := c.cycles + o.cycles })

/-- What some instructions did: each one's outcome in order, the error that stopped them
early, and the computer they left. -/
structure Log where
  outcomes : List Outcome := []
  error : Option RunError := none
  computer : Computer

/-- Run up to `count` instructions, stopping at the first error. -/
def run (c : Computer) : Nat → Log
  | 0 => { computer := c }
  | count + 1 =>
    match c.step with
    | .error e => { error := some e, computer := c }
    | .ok (o, next) =>
      let rest := run next count
      { rest with outcomes := o :: rest.outcomes }

end Computer

end Chiptune.Machine
