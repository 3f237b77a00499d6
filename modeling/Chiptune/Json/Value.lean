/-
JSON values.

A number is kept as it is spelt, because whether it may stand for an integer
depends on its spelling. A string is a text unless its escapes leave half of a
surrogate pair alone.
-/
import Chiptune.Byte
import Chiptune.Decimal

namespace Chiptune

namespace Json

/-- A number as it is spelt. -/
structure Numeral where
  negative : Bool := false
  /-- Digits before the point. -/
  whole : List Nat
  /-- Digits after the point; without digits there is no point. -/
  fraction : List Nat := []
  exponent : Option Int := none
deriving DecidableEq, Repr

/-- What a string says; there is none if its escapes leave half of a surrogate pair alone. -/
abbrev Text := Option String

end Json

open Json

inductive Json where
  | null
  | bool (b : Bool)
  | number (n : Numeral)
  | string (s : Text)
  | array (items : List Json)
  /-- Members in order; keys may repeat. -/
  | object (members : List (Text × Json))

namespace Json

/-! ## Numbers -/

namespace Numeral

/-- The numeral of a natural number. -/
def ofNat (n : Nat) : Numeral := { whole := Decimal.digitsOf n }

/-- The numeral of an integer. -/
def ofInt (n : Int) : Numeral := { negative := n < 0, whole := Decimal.digitsOf n.natAbs }

/-- Greatest number of digits before the point. -/
def maxWhole : Int := 16

/-- Most zeros right after the point. -/
def maxZeros : Int := 4

/-- The numeral of a decimal: with a point, and always a digit after it, unless that takes more
than 16 digits before it or more than four zeros after it; else with an exponent. -/
def ofDecimal (d : Decimal) : Numeral :=
  let zeros (n : Int) : List Nat := List.replicate n.toNat 0
  let top := d.digits.length + d.exponent
  if 0 ≤ d.exponent ∧ top ≤ maxWhole then
    { negative := d.negative, whole := d.digits ++ zeros d.exponent, fraction := [0] }
  else if 0 < top ∧ top ≤ maxWhole then
    { negative := d.negative, whole := d.digits.take top.toNat,
      fraction := d.digits.drop top.toNat }
  else if -maxZeros - 1 < top ∧ top ≤ 0 then
    { negative := d.negative, whole := [0], fraction := zeros (-top) ++ d.digits }
  else
    { negative := d.negative, whole := d.digits.take 1, fraction := d.digits.drop 1,
      exponent := some (top - 1) }

/-- The shortest numeral of a double. -/
def ofFloat (x : Float) : Numeral := ofDecimal (Decimal.ofFloat x)

/-- The number that digits spell. -/
def value (digits : List Nat) : Nat := digits.foldl (fun n d => n * 10 + d) 0

/-- The integer of a numeral without point and exponent; it has to fit in 64 bits, with a sign
if it has one, and a zero has none. -/
def toInt? (n : Numeral) : Option Int :=
  if !n.fraction.isEmpty || n.exponent.isSome then none
  else
    let v := value n.whole
    if n.negative then if 0 < v ∧ v ≤ Decimal.twoTo 63 then some (-v) else none
    else if v < Decimal.twoTo 64 then some v else none

/-- A significand of 64 bits with as many digits as fit behind it, and the digits that do not. -/
def significand (s : Nat) : List Nat → Nat × List Nat
  | [] => (s, [])
  | d :: rest =>
    if s * 10 + d < Decimal.twoTo 64 then significand (s * 10 + d) rest else (s, d :: rest)

/-- The greatest exponent that is read. -/
def maxExponent : Nat := Decimal.twoTo 31 - 1

/-- The greatest power of ten that is a double. -/
def maxPower : Nat := 308

/-- The power of ten. -/
def power (n : Nat) : Float := Float.ofScientific 1 false n

/-- `x * 10^e`, multiplied or divided once for every power of ten that is a double. There is no
result past the greatest double. -/
def scaled? : (fuel : Nat) → (x : Float) → (e : Int) → Option Float
  | 0, x, _ => some x
  | fuel + 1, x, e =>
    if e.natAbs ≤ maxPower then
      if 0 ≤ e then
        let y := x * power e.natAbs
        if y.isInf then none else some y
      else some (x / power e.natAbs)
    else if x == 0.0 then some x
    else if 0 ≤ e then none
    else scaled? fuel (x / power maxPower) (e + maxPower)

/-- The double of a numeral: its first digits, as many as fit in 64 bits, scaled by the power of
ten that they lack. -/
def toFloat? (n : Numeral) : Option Float :=
  let (s, rest) := significand 0 n.whole
  let (s, left) := significand s n.fraction
  let shift : Int := rest.length - (n.fraction.length - left.length : Nat)
  let e := n.exponent.getD 0
  let magnitude :=
    if maxExponent < e.natAbs then if s ≠ 0 ∧ 0 < e then none else some 0.0
    else scaled? (((shift + e).natAbs / maxPower) + 2) (Float.ofNat s) (shift + e)
  magnitude.map fun x => if n.negative then -x else x

end Numeral

/-! ## Building values -/

/-- A natural number. -/
def nat (n : Nat) : Json := .number (.ofNat n)

/-- A byte as a number. -/
def byte (b : UInt8) : Json := nat b.toNat

/-- A word as a number. -/
def word (w : UInt16) : Json := nat w.toNat

def int (n : Int) : Json := .number (.ofInt n)

def float (x : Float) : Json := .number (.ofFloat x)

/-- The bits of what is not a number: the quiet one with its sign set, which is what an invalid
operation gives. -/
def notANumber : Nat := 0xFFF8000000000000

/-- A double by its 64 bits in hexadecimal, which loses nothing. -/
def floatBits (x : Float) : Json :=
  .string (some (Hex.lower 16 (if x.isNaN then notANumber else x.toBits.toNat)))

/-- Bytes as hexadecimal text. -/
def hex (bytes : Bytes) : Json := .string (some (Hex.encode bytes))

def text (s : String) : Json := .string (some s)

/-- An object with the given members. -/
def ofMembers (members : List (String × Json)) : Json :=
  .object (members.map fun (key, value) => (some key, value))

/-- An object with one member, which says what its value is. -/
def tagged (tag : String) (value : Json) : Json := ofMembers [(tag, value)]

/-- A value or null. -/
def nullable {α : Type} (encode : α → Json) : Option α → Json
  | some a => encode a
  | none => .null

def list {α : Type} (encode : α → Json) (xs : List α) : Json := .array (xs.map encode)

end Json

end Chiptune
