/-
Bytes, the little-endian words made of two of them, and the hexadecimal
spellings that messages use.
-/
namespace Chiptune

/-- A string of bytes: the contents of a file, machine code, a block of data. -/
abbrev Bytes := List UInt8

/-! ## Words -/

namespace Word

/-- The word whose low byte comes first in memory. -/
def ofBytes (lo hi : UInt8) : UInt16 := UInt16.ofNat (hi.toNat * 256 + lo.toNat)

/-- The low byte of a word. -/
def low (w : UInt16) : UInt8 := UInt8.ofNat w.toNat

/-- The high byte of a word. -/
def high (w : UInt16) : UInt8 := UInt8.ofNat (w.toNat / 256)

/-- A word as it is stored, low byte first. -/
def toBytes (w : UInt16) : Bytes := [low w, high w]

/-- A word in network order, high byte first. -/
def toBytesBE (w : UInt16) : Bytes := [high w, low w]

theorem toNat_low (w : UInt16) : (low w).toNat = w.toNat % 256 := by
  simp [low]

theorem toNat_high (w : UInt16) : (high w).toNat = w.toNat / 256 := by
  have := w.toNat_lt
  simp only [high, UInt8.toNat_ofNat']
  omega

theorem toNat_ofBytes (lo hi : UInt8) : (ofBytes lo hi).toNat = hi.toNat * 256 + lo.toNat := by
  have := lo.toNat_lt
  have := hi.toNat_lt
  simp only [ofBytes, UInt16.toNat_ofNat']
  omega

@[simp] theorem ofBytes_low_high (w : UInt16) : ofBytes (low w) (high w) = w := by
  apply UInt16.toNat_inj.mp
  rw [toNat_ofBytes, toNat_low, toNat_high]
  omega

@[simp] theorem low_ofBytes (lo hi : UInt8) : low (ofBytes lo hi) = lo := by
  apply UInt8.toNat_inj.mp
  have := lo.toNat_lt
  rw [toNat_low, toNat_ofBytes]
  omega

@[simp] theorem high_ofBytes (lo hi : UInt8) : high (ofBytes lo hi) = hi := by
  apply UInt8.toNat_inj.mp
  have := lo.toNat_lt
  rw [toNat_high, toNat_ofBytes]
  omega

end Word

/-! ## Hexadecimal text -/

namespace Hex

/-- `n` in hexadecimal with lower-case digits, zero-padded to `width`. -/
def lower (width n : Nat) : String :=
  let digits := Nat.toDigits 16 n
  String.ofList (List.replicate (width - digits.length) '0' ++ digits)

/-- `n` in hexadecimal with upper-case digits, zero-padded to `width`. -/
def upper (width n : Nat) : String :=
  let digits := (Nat.toDigits 16 n).map Char.toUpper
  String.ofList (List.replicate (width - digits.length) '0' ++ digits)

/-- A byte the way listings print it: `$0F`. -/
def byte (b : UInt8) : String := "$" ++ upper 2 b.toNat

/-- An address the way listings print it: `$D400`. -/
def word (w : UInt16) : String := "$" ++ upper 4 w.toNat

/-- A file offset: `0x00ff`. -/
def offset (n : Nat) : String := "0x" ++ lower 4 n

/-- Bytes as digits, two to a byte. -/
def encode (bytes : Bytes) : String :=
  bytes.foldl (fun text b =>
    (text.push (Nat.digitChar (b.toNat / 16))).push (Nat.digitChar (b.toNat % 16))) ""

/-- The value of a digit of either case. -/
def digit? (c : Char) : Option Nat :=
  if '0' ≤ c ∧ c ≤ '9' then some (c.toNat - '0'.toNat)
  else if 'a' ≤ c ∧ c ≤ 'f' then some (c.toNat - 'a'.toNat + 10)
  else if 'A' ≤ c ∧ c ≤ 'F' then some (c.toNat - 'A'.toNat + 10)
  else none

/-- The bytes that digits spell, behind the ones read so far, which are backwards. -/
def decodeFrom? (read : Bytes) : List Char → Option Bytes
  | [] => some read.reverse
  | [_] => none
  | a :: b :: rest =>
    match digit? a, digit? b with
    | some hi, some lo => decodeFrom? (UInt8.ofNat (hi * 16 + lo) :: read) rest
    | _, _ => none

/-- The bytes that digits spell, two to a byte. -/
def decode? (text : String) : Option Bytes := decodeFrom? [] text.toList

end Hex

end Chiptune
