/-
The decimal that stands for a binary floating-point number: of all decimals
that are read back as the number, one with the fewest digits, and of those the
nearest.

A finite number is `m * 2^q`. The reals that round to it lie between the
midpoints to its neighbours, which count if `m` is even. The decimals with `n`
digits are a grid; if a point of it lies in that interval, so does one of the
two around the number.
-/
namespace Chiptune

/-- A decimal: digits, highest first, and the power of ten of the last one. -/
structure Decimal where
  negative : Bool
  digits : List Nat
  exponent : Int
deriving DecidableEq, Repr

namespace Decimal

/-! ## The number -/

/-- A positive number `m * 2^q`, and whether its lower neighbour is only half as far as its
upper one. -/
structure Binary where
  m : Nat
  q : Int
  narrow : Bool
deriving DecidableEq, Repr

/-- A power of two. -/
def twoTo (n : Nat) : Nat := Nat.pow 2 n

/-- A power of ten. -/
def tenTo (n : Nat) : Nat := Nat.pow 10 n

/-- The number of a double's bits, without the sign. -/
def Binary.ofBits (bits : Nat) : Binary :=
  let fraction : Nat := bits % twoTo 52
  let exponent : Nat := bits / twoTo 52 % twoTo 11
  if exponent = 0 then ⟨fraction, -1074, false⟩
  else ⟨twoTo 52 + fraction, (exponent : Int) - 1075, decide (fraction = 0 ∧ 1 < exponent)⟩

/-- Four times the number's ends and the number itself, over a common denominator: the interval
of what rounds to it, its lower end first. -/
structure Interval where
  low : Nat
  middle : Nat
  high : Nat
  denominator : Nat
  /-- The ends count. -/
  closed : Bool

/-- The interval around a number. -/
def Interval.of (b : Binary) : Interval :=
  let up := twoTo b.q.toNat
  { low := (4 * b.m - if b.narrow then 1 else 2) * up
    middle := 4 * b.m * up
    high := (4 * b.m + 2) * up
    denominator := 4 * twoTo (-b.q).toNat
    closed := b.m % 2 = 0 }

/-! ## The grid -/

/-- A point of a grid: `n * 10^e`. -/
structure Point where
  n : Nat
  e : Int

/-- A point times a denominator and a power of ten that makes it whole. -/
def Point.scaled (p : Point) (denominator : Nat) : Nat := p.n * tenTo p.e.toNat * denominator

/-- What makes points of a grid whole. -/
def scale (e : Int) : Nat := tenTo (-e).toNat

/-- Whether a point rounds to the number. -/
def Interval.holds (i : Interval) (p : Point) : Bool :=
  let x := p.scaled i.denominator
  let low := i.low * scale p.e
  let high := i.high * scale p.e
  if i.closed then low ≤ x && x ≤ high else low < x && x < high

/-- How far a point is from the number, up to a factor that only depends on the grid. -/
def Interval.distance (i : Interval) (p : Point) : Nat :=
  let x := p.scaled i.denominator
  let middle := i.middle * scale p.e
  (x - middle) + (middle - x)

/-- The point of a grid at or below the number. -/
def Interval.below (i : Interval) (e : Int) : Point :=
  ⟨i.middle * scale e / (i.denominator * tenTo e.toNat), e⟩

/-- The point of a grid that rounds to the number, the nearer one if two do and the even one if
they are as near. -/
def Interval.nearest? (i : Interval) (e : Int) : Option Point :=
  let a := i.below e
  let b : Point := ⟨a.n + 1, e⟩
  match i.holds a, i.holds b with
  | true, true =>
    if i.distance a < i.distance b then some a
    else if i.distance b < i.distance a then some b
    else if a.n % 2 = 0 then some a else some b
  | true, false => some a
  | false, true => some b
  | false, false => none

/-! ## The shortest decimal -/

/-- The power of ten just above a number below one, searched down from `10^-z`. -/
def magnitudeBelowOne (i : Interval) : (fuel z : Nat) → Int
  | 0, z => -z
  | fuel + 1, z =>
    if i.denominator ≤ i.middle * tenTo (z + 1) then -z else magnitudeBelowOne i fuel (z + 1)

/-- The power of ten just above a number. -/
def magnitude (i : Interval) : Int :=
  let whole := i.middle / i.denominator
  if whole = 0 then magnitudeBelowOne i 400 0 else (Nat.toDigits 10 whole).length

/-- A point without zeros at its end. -/
def Point.trimmed : (fuel : Nat) → Point → Point
  | 0, p => p
  | fuel + 1, p => if p.n % 10 = 0 then trimmed fuel ⟨p.n / 10, p.e + 1⟩ else p

/-- The digits of a number. -/
def digitsOf (n : Nat) : List Nat := (Nat.toDigits 10 n).map fun c => c.toNat - '0'.toNat

/-- The shortest decimal of a double; it has to be finite. -/
def ofFloat (x : Float) : Decimal :=
  let bits := x.toBits.toNat
  let negative := decide (twoTo 63 ≤ bits)
  let b := Binary.ofBits bits
  if b.m = 0 then ⟨negative, [0], 0⟩
  else
    let i := Interval.of b
    let top := magnitude i
    match (List.range 17).findSome? fun (k : Nat) => i.nearest? (top - 1 - k) with
    | some p =>
      let p := p.trimmed 20
      ⟨negative, digitsOf p.n, p.e⟩
    | none => ⟨negative, [0], 0⟩

end Decimal

end Chiptune
