/-
Moving a player: the addresses in its code are replaced by those of another
layout.
-/
import Chiptune.Player.Layout

namespace Chiptune.Player

/-- A two-byte operand to replace. -/
structure Patch where
  /-- Where the operand is in the code. -/
  offset : Nat
  /-- What the operand holds as assembled. -/
  assembled : UInt16
  /-- What it is to hold. -/
  moved : UInt16
deriving DecidableEq, Repr

namespace Patch

/-- The address a relocation stands for in a layout. -/
def resolve (t : Template) (l : Layout) (r : Relocation) : Except Failure UInt16 :=
  match l.address? r.symbol with
  | some address => .ok (address + r.addend)
  | none => .error (.invalidTemplate t.name (.missingSymbol r.symbol))

/-- The patches that move a template to a layout: one for each relocation, also where the
address stays the same. -/
def derive (t : Template) (l : Layout) : Except Failure (List Patch) := do
  let assembled ← Layout.of t t.base
  t.relocations.mapM fun r => do
    return { offset := r.offset.toNat, assembled := ← resolve t assembled r,
             moved := ← resolve t l r }

/-- The operand at an offset. -/
def operand? (code : Bytes) (offset : Nat) : Option UInt16 :=
  match code.drop offset with
  | lo :: hi :: _ => some (Word.ofBytes lo hi)
  | _ => none

/-- The code with one operand replaced. -/
def put (code : Bytes) (offset : Nat) (value : UInt16) : Bytes :=
  (code.set offset (Word.low value)).set (offset + 1) (Word.high value)

/-- Apply patches in order: the operands rewritten, or what stopped it, and the code as far as
it was patched. An operand that holds its new address already is left alone. -/
def apply (code : Bytes) : List Patch → Except Failure Nat × Bytes
  | [] => (.ok 0, code)
  | p :: rest =>
    match operand? code p.offset with
    | none => (.error (.invalidData (.patchOutside p.offset)), code)
    | some found =>
      if found = p.moved then apply code rest
      else if found ≠ p.assembled then
        (.error (.patchMismatch p.offset p.assembled found), code)
      else
        match apply (put code p.offset p.moved) rest with
        | (.ok count, code) => (.ok (count + 1), code)
        | (.error e, code) => (.error e, code)

/-- The code with patches applied. -/
def applied (code : Bytes) (patches : List Patch) : Except Failure Bytes :=
  match apply code patches with
  | (.ok _, code) => .ok code
  | (.error e, _) => .error e

end Patch

end Chiptune.Player
