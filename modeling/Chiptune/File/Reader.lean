/-
Reading and writing the fields of binary files.

A reader takes a field off the front of the bytes or finds none there. Text in
files is one byte to a character; characters that have no such byte are
written as question marks.
-/
import Chiptune.Byte

namespace Chiptune.File

/-- Takes a value off the front of bytes. -/
abbrev Reader := StateT Bytes Option

namespace Reader

/-- One byte. -/
def byte : Reader UInt8 := fun
  | b :: rest => some (b, rest)
  | [] => none

/-- A word, low byte first. -/
def word : Reader UInt16 := do
  let lo ← byte
  let hi ← byte
  return Word.ofBytes lo hi

/-- A word, high byte first. -/
def wordBE : Reader UInt16 := do
  let hi ← byte
  let lo ← byte
  return Word.ofBytes lo hi

/-- A number of four bytes, highest first. -/
def longBE : Reader UInt32 := do
  let hi ← wordBE
  let lo ← wordBE
  return UInt32.ofNat (hi.toNat * 0x10000 + lo.toNat)

/-- `n` bytes. -/
def take (n : Nat) : Reader Bytes := fun bytes =>
  if n ≤ bytes.length then some (bytes.splitAt n) else none

def tag (expected : Bytes) : Reader Unit := fun bytes =>
  if bytes.take expected.length = expected then some ((), bytes.drop expected.length) else none

/-- Up to `fuel` values, as many as there are. -/
def manyFor {α : Type} (item : Reader α) : (fuel : Nat) → Bytes → List α × Bytes
  | 0, bytes => ([], bytes)
  | fuel + 1, bytes =>
    match item bytes with
    | none => ([], bytes)
    | some (a, rest) =>
      let (as, rest) := manyFor item fuel rest
      (a :: as, rest)

/-- As many values as there are; each takes at least a byte. -/
def many {α : Type} (item : Reader α) : Reader (List α) := fun bytes =>
  some (manyFor item bytes.length bytes)

end Reader

/-! ## Text -/

namespace Text

/-- The character with the number of a byte. -/
def char (b : UInt8) : Char := Char.ofNat b.toNat

/-- The text of bytes, one character to a byte. -/
def ofBytes (bytes : Bytes) : String := String.ofList (bytes.map char)

/-- The byte of an ASCII character; `?` for every other one. -/
def byte (c : Char) : UInt8 := if c.toNat < 128 then UInt8.ofNat c.toNat else 0x3F

/-- The byte of a character in a text that a zero byte ends. -/
def cstringByte (c : Char) : UInt8 := if c = '\x00' then 0x3F else byte c

/-- A text with a zero byte after it. -/
def cstring (text : List Char) : Bytes := text.map cstringByte ++ [0]

/-- A text in a field of `length` bytes, filled with zeros, of which there is at least one. -/
def field (length : Nat) (text : String) : Bytes :=
  let bytes := (text.toList.take (length - 1)).map byte
  bytes ++ List.replicate (length - bytes.length) 0

end Text

/-- A text up to a zero byte. -/
def Reader.cstring : Reader String := fun bytes =>
  let text := bytes.takeWhile (· != 0)
  match bytes.drop text.length with
  | _ :: rest => some (Text.ofBytes text, rest)
  | [] => none

/-- A text in a field of fixed length, up to the first zero byte if there is one. -/
def Reader.field (length : Nat) : Reader String := do
  let bytes ← Reader.take length
  return Text.ofBytes (bytes.takeWhile (· != 0))

end Chiptune.File
