/-
Byte patterns, written as hexadecimal bytes with `??` for any byte.
-/
import Chiptune.Failure

namespace Chiptune.Analysis

/-- The bytes wanted, in order; `none` stands for any byte. -/
abbrev Pattern := List (Option UInt8)

namespace Pattern

/-! ## Reading -/

/-- Whether a character separates words, by the Unicode property of white space. -/
def isBlank (c : Char) : Bool :=
  let n := c.toNat
  (9 ≤ n && n ≤ 13) || n == 0x20 || n == 0x85 || n == 0xA0 || n == 0x1680 ||
    (0x2000 ≤ n && n ≤ 0x200A) || n == 0x2028 || n == 0x2029 || n == 0x202F || n == 0x205F ||
    n == 0x3000

/-- The words of a text; `word` is the one being read, backwards. -/
def wordsFrom (word : List Char) : List Char → List (List Char)
  | [] => if word.isEmpty then [] else [word.reverse]
  | c :: rest =>
    if isBlank c then
      if word.isEmpty then wordsFrom [] rest else word.reverse :: wordsFrom [] rest
    else wordsFrom (c :: word) rest

/-- The number that digits continue. -/
def digitsFrom? (n : Nat) : List Char → Option Nat
  | [] => some n
  | c :: rest =>
    match Hex.digit? c with
    | some d => if n * 16 + d < 256 then digitsFrom? (n * 16 + d) rest else none
    | none => none

/-- The byte that digits spell; there is at least one. -/
def digits? : List Char → Option UInt8
  | [] => none
  | cs => (digitsFrom? 0 cs).map UInt8.ofNat

/-- The byte a word spells: hexadecimal digits, with leading zeros or a plus sign allowed. -/
def byte? : List Char → Option UInt8
  | '+' :: cs => digits? cs
  | cs => digits? cs

/-- A word of a pattern. -/
def word (cs : List Char) : Except Failure (Option UInt8) :=
  if cs = ['?', '?'] then .ok none
  else
    match byte? cs with
    | some b => .ok (some b)
    | none => .error (.invalidData (.patternByte (String.ofList cs)))

def parse (text : String) : Except Failure Pattern := (wordsFrom [] text.toList).mapM word

/-! ## Searching -/

/-- Whether bytes start with a pattern. -/
def opens : Pattern → Bytes → Bool
  | [], _ => true
  | _ :: _, [] => false
  | want :: p, b :: bytes => want.all (· == b) && opens p bytes

/-- The offset of the first place where a pattern matches, if the bytes stand at `offset`. -/
def findFrom? (p : Pattern) (offset : Nat) : Bytes → Option Nat
  | [] => none
  | b :: bytes => if opens p (b :: bytes) then some offset else findFrom? p (offset + 1) bytes

/-- The offset of the first place where a pattern matches. The empty pattern matches nowhere. -/
def find? (p : Pattern) (bytes : Bytes) : Option Nat :=
  if p.isEmpty then none else findFrom? p 0 bytes

end Pattern

end Chiptune.Analysis
