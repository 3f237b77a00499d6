/-
Reading JSON texts, strictly: one value, with nothing but blanks around it.
-/
import Chiptune.Json.Value

namespace Chiptune.Json

/-- Whether a character may stand between tokens. -/
def isBlank (c : Char) : Bool := c == ' ' || c == '\n' || c == '\t' || c == '\r'

/-- The text without its blanks in front. -/
def skipBlanks : List Char → List Char
  | [] => []
  | c :: rest => if isBlank c then skipBlanks rest else c :: rest

/-- A text behind an expected start. -/
def behind? : (expected text : List Char) → Option (List Char)
  | [], text => some text
  | _ :: _, [] => none
  | e :: es, c :: cs => if e = c then behind? es cs else none

/-! ## Strings -/

/-- The value of four hexadecimal digits. -/
def codeUnit? (a b c d : Char) : Option Nat := do
  let a ← Hex.digit? a
  let b ← Hex.digit? b
  let c ← Hex.digit? c
  let d ← Hex.digit? d
  return ((a * 16 + b) * 16 + c) * 16 + d

/-- What a string says so far. -/
structure Spelling where
  /-- The characters backwards, unless half of a surrogate pair stood alone. -/
  text : Option (List Char) := some []
  /-- The first half of a pair, if it was just read. -/
  half : Option Nat := none

namespace Spelling

/-- A character more. -/
def push (s : Spelling) (c : Char) : Spelling :=
  { text := if s.half.isSome then none else s.text.map (c :: ·) }

/-- An escaped code unit more. -/
def unit (s : Spelling) (n : Nat) : Spelling :=
  if 0xD800 ≤ n ∧ n < 0xDC00 then
    { text := if s.half.isSome then none else s.text, half := some n }
  else if 0xDC00 ≤ n ∧ n < 0xE000 then
    match s.half with
    | some high =>
      { text := s.text.map (Char.ofNat (0x10000 + (high - 0xD800) * 0x400 + (n - 0xDC00)) :: ·) }
    | none => { text := none }
  else s.push (Char.ofNat n)

/-- What the whole string says. -/
def finish (s : Spelling) : Text :=
  if s.half.isSome then none else s.text.map fun cs => String.ofList cs.reverse

end Spelling

/-- The character of a one-letter escape. -/
def escaped? (c : Char) : Option Char :=
  if c = '"' ∨ c = '\\' ∨ c = '/' then some c
  else if c = 'b' then some '\x08'
  else if c = 'f' then some '\x0c'
  else if c = 'n' then some '\n'
  else if c = 'r' then some '\r'
  else if c = 't' then some '\t'
  else none

/-- The rest of a string behind its first quote. -/
def stringFrom (s : Spelling) : List Char → Option (Text × List Char)
  | [] => none
  | '"' :: rest => some (s.finish, rest)
  | '\\' :: 'u' :: a :: b :: c :: d :: rest =>
    match codeUnit? a b c d with
    | some n => stringFrom (s.unit n) rest
    | none => none
  | '\\' :: c :: rest =>
    match escaped? c with
    | some c => stringFrom (s.push c) rest
    | none => none
  | c :: rest => if c.toNat < 0x20 ∨ c = '\\' then none else stringFrom (s.push c) rest

/-! ## Numbers -/

/-- The value of a digit. -/
def digit? (c : Char) : Option Nat :=
  if '0' ≤ c ∧ c ≤ '9' then some (c.toNat - '0'.toNat) else none

/-- The digits at the start of a text, and the rest. -/
def digits : List Char → List Nat × List Char
  | [] => ([], [])
  | c :: rest =>
    match digit? c with
    | some d => let (ds, rest) := digits rest; (d :: ds, rest)
    | none => ([], c :: rest)

/-- The fraction at the start of a text, if there is a point. -/
def fraction : List Char → Option (List Nat × List Char)
  | '.' :: rest =>
    match digits rest with
    | ([], _) => none
    | found => some found
  | text => some ([], text)

/-- The sign at the start of an exponent: whether it is a minus. -/
def sign : List Char → Bool × List Char
  | '-' :: rest => (true, rest)
  | '+' :: rest => (false, rest)
  | text => (false, text)

/-- The digits of an exponent. -/
def exponentDigits (text : List Char) : Option (Option Int × List Char) :=
  let (negative, rest) := sign text
  match digits rest with
  | ([], _) => none
  | (ds, rest) =>
    let n : Int := Numeral.value ds
    some (some (if negative then -n else n), rest)

/-- The exponent at the start of a text, if there is one. -/
def exponent : List Char → Option (Option Int × List Char)
  | 'e' :: rest => exponentDigits rest
  | 'E' :: rest => exponentDigits rest
  | text => some (none, text)

/-- The number at the start of a text behind its sign. No digit stands behind a zero in front. -/
def numberFrom (negative : Bool) (text : List Char) : Option (Json × List Char) := do
  let (whole, rest) := digits text
  match whole with
  | [] => none
  | 0 :: _ :: _ => none
  | whole =>
    let (fraction, rest) ← fraction rest
    let (exponent, rest) ← exponent rest
    return (.number { negative, whole, fraction, exponent }, rest)

/-! ## Values -/

mutual

/-- The value at the start of a text; `fuel` bounds its depth and length. -/
def value (fuel : Nat) (text : List Char) : Option (Json × List Char) :=
  match fuel with
  | 0 => none
  | fuel + 1 =>
    match skipBlanks text with
    | [] => none
    | '"' :: rest => (stringFrom {} rest).map fun (s, rest) => (.string s, rest)
    | '[' :: rest =>
      match skipBlanks rest with
      | ']' :: rest => some (.array [], rest)
      | rest => (items fuel rest).map fun (js, rest) => (.array js, rest)
    | '\x7b' :: rest =>
      match skipBlanks rest with
      | '\x7d' :: rest => some (.object [], rest)
      | rest => (members fuel rest).map fun (ms, rest) => (.object ms, rest)
    | '-' :: rest => numberFrom true rest
    | 'n' :: rest => (behind? "ull".toList rest).map fun rest => (.null, rest)
    | 't' :: rest => (behind? "rue".toList rest).map fun rest => (.bool true, rest)
    | 'f' :: rest => (behind? "alse".toList rest).map fun rest => (.bool false, rest)
    | text => numberFrom false text

/-- The items of an array up to its end; there is at least one. -/
def items (fuel : Nat) (text : List Char) : Option (List Json × List Char) :=
  match fuel with
  | 0 => none
  | fuel + 1 => do
    let (j, rest) ← value fuel text
    match skipBlanks rest with
    | ',' :: rest =>
      let (js, rest) ← items fuel rest
      return (j :: js, rest)
    | ']' :: rest => return ([j], rest)
    | _ => none

/-- The members of an object up to its end; there is at least one. -/
def members (fuel : Nat) (text : List Char) : Option (List (Text × Json) × List Char) :=
  match fuel with
  | 0 => none
  | fuel + 1 => do
    match skipBlanks text with
    | '"' :: rest =>
      let (key, rest) ← stringFrom {} rest
      match skipBlanks rest with
      | ':' :: rest =>
        let (j, rest) ← value fuel rest
        match skipBlanks rest with
        | ',' :: rest =>
          let (ms, rest) ← members fuel rest
          return ((key, j) :: ms, rest)
        | '\x7d' :: rest => return ([(key, j)], rest)
        | _ => none
      | _ => none
    | _ => none

end

/-- The value a text spells. -/
def parse? (text : String) : Option Json := do
  let text := text.toList
  let (j, rest) ← value (2 * text.length + 2) text
  if (skipBlanks rest).isEmpty then some j else none

end Chiptune.Json
