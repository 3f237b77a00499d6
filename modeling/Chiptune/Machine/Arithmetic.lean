/-
The arithmetic of the processor: sums and differences in binary and in packed
decimal, comparisons, shifts and rotations. Each operation takes the flags
before it and gives its result with the flags after it.

In decimal mode the chip corrects each digit as it goes. The zero flag of a
decimal sum is that of the binary sum, its negative and overflow flags are
taken between the two corrections, and a decimal difference has the flags of
the binary one.
-/
import Chiptune.Machine.Registers

namespace Chiptune.Machine.Flags

/-- The low decimal digit of a byte. -/
def lowDigit (v : UInt8) : Nat := v.toNat % 16

/-- A byte without its low digit. -/
def highPart (v : UInt8) : Nat := v.toNat / 16 * 16

/-- `a + v` with carry, in binary. -/
def addBinary (f : Flags) (a v : UInt8) : UInt8 × Flags :=
  let sum := a.toNat + v.toNat + f.carry.toNat
  let result := UInt8.ofNat sum
  (result, { f.withResult result with
    carry := decide (255 < sum)
    overflow := sign a == sign v && sign a != sign result })

/-- `a + v` with carry, digit by digit. -/
def addDecimal (f : Flags) (a v : UInt8) : UInt8 × Flags :=
  let low := lowDigit a + lowDigit v + f.carry.toNat
  let low := if 10 ≤ low then (low + 6) % 16 + 16 else low
  let sum := highPart a + highPart v + low
  let corrected := if 0xA0 ≤ sum then sum + 0x60 else sum
  (UInt8.ofNat corrected, { f with
    carry := decide (0x100 ≤ corrected)
    zero := UInt8.ofNat (a.toNat + v.toNat + f.carry.toNat) == 0
    overflow := sign a == sign v && sign a != sum.testBit 7
    negative := sum.testBit 7 })

/-- `a + v` with carry. -/
def add (f : Flags) (a v : UInt8) : UInt8 × Flags :=
  if f.decimal then f.addDecimal a v else f.addBinary a v

/-- `a - v` with borrow, digit by digit. -/
def subDecimal (f : Flags) (a v : UInt8) : UInt8 × Flags :=
  let borrow : Int := 1 - f.carry.toNat
  let binary : Int := a.toNat - v.toNat - borrow
  let result := UInt8.ofNat (binary % 256).toNat
  let low : Int := lowDigit a - lowDigit v - borrow
  let low : Int := if low < 0 then (low - 6) % 16 - 16 else low
  let sum : Int := highPart a - highPart v + low
  let corrected : Int := if sum < 0 then sum - 0x60 else sum
  (UInt8.ofNat (corrected % 256).toNat, { f.withResult result with
    carry := decide (0 ≤ binary)
    overflow := sign a != sign v && sign a != sign result })

/-- `a - v` with borrow; in binary that is the sum with the complement. -/
def sub (f : Flags) (a v : UInt8) : UInt8 × Flags :=
  if f.decimal then f.subDecimal a v else f.add a (~~~v)

/-- The flags of a comparison. -/
def compare (f : Flags) (register v : UInt8) : Flags :=
  { f.withResult (register - v) with carry := decide (v ≤ register) }

/-- Shift left, a zero coming in. -/
def shiftLeft (f : Flags) (v : UInt8) : UInt8 × Flags :=
  let result := UInt8.ofNat (2 * v.toNat)
  (result, { f.withResult result with carry := sign v })

/-- Shift right, a zero coming in. -/
def shiftRight (f : Flags) (v : UInt8) : UInt8 × Flags :=
  let result := UInt8.ofNat (v.toNat / 2)
  (result, { f.withResult result with carry := v.toNat.testBit 0 })

/-- Rotate left through the carry. -/
def rotateLeft (f : Flags) (v : UInt8) : UInt8 × Flags :=
  let result := UInt8.ofNat (2 * v.toNat + f.carry.toNat)
  (result, { f.withResult result with carry := sign v })

/-- Rotate right through the carry. -/
def rotateRight (f : Flags) (v : UInt8) : UInt8 × Flags :=
  let result := UInt8.ofNat (v.toNat / 2 + 128 * f.carry.toNat)
  (result, { f.withResult result with carry := v.toNat.testBit 0 })

/-- One more. -/
def increment (f : Flags) (v : UInt8) : UInt8 × Flags := (v + 1, f.withResult (v + 1))

/-- One less. -/
def decrement (f : Flags) (v : UInt8) : UInt8 × Flags := (v - 1, f.withResult (v - 1))

end Chiptune.Machine.Flags
