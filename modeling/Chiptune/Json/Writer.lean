/-
Writing JSON values.
-/
import Chiptune.Json.Value

namespace Chiptune.Json

/-- The character of a digit. -/
def digitChar (d : Nat) : Char := Char.ofNat ('0'.toNat + d)

/-- A numeral as text. -/
def Numeral.text (n : Numeral) : String :=
  let digits (ds : List Nat) : String := String.ofList (ds.map digitChar)
  let fraction := if n.fraction.isEmpty then "" else "." ++ digits n.fraction
  let exponent :=
    match n.exponent with
    | some e => "e" ++ toString e
    | none => ""
  (if n.negative then "-" else "") ++ digits n.whole ++ fraction ++ exponent

/-- The escape of a character, if it has to be escaped. -/
def escape? (c : Char) : Option String :=
  if c = '"' then some "\\\""
  else if c = '\\' then some "\\\\"
  else if c = '\n' then some "\\n"
  else if c = '\r' then some "\\r"
  else if c = '\t' then some "\\t"
  else if c = '\x08' then some "\\b"
  else if c = '\x0c' then some "\\f"
  else if c.toNat < 0x20 then
    let digits := Nat.toDigits 16 c.toNat
    some ("\\u" ++ String.ofList (List.replicate (4 - digits.length) '0' ++ digits))
  else none

/-- A string in quotes; half a surrogate pair is written as the replacement character. -/
def quote (s : Text) : String :=
  let escaped := (s.getD "\uFFFD").foldl
    (fun out c =>
      match escape? c with
      | some e => out ++ e
      | none => out.push c) "\""
  escaped.push '"'

/-! ## On one line -/

mutual

/-- Append a value without spaces. -/
def append (out : String) : Json → String
  | .null => out ++ "null"
  | .bool b => out ++ if b then "true" else "false"
  | .number n => out ++ n.text
  | .string s => out ++ quote s
  | .array [] => out ++ "[]"
  | .array (j :: js) => (appendItems (append (out ++ "[") j) js).push ']'
  | .object [] => out ++ "\x7b\x7d"
  | .object ((key, j) :: ms) =>
    (appendMembers (append (out ++ "\x7b" ++ quote key ++ ":") j) ms).push '\x7d'

/-- Append items, each after a comma. -/
def appendItems (out : String) : List Json → String
  | [] => out
  | j :: js => appendItems (append (out ++ ",") j) js

/-- Append members, each after a comma. -/
def appendMembers (out : String) : List (Text × Json) → String
  | [] => out
  | (key, j) :: ms => appendMembers (append (out ++ "," ++ quote key ++ ":") j) ms

end

/-- A value without spaces. -/
def compact (j : Json) : String := append "" j

/-! ## On many lines -/

/-- The start of a line at a depth. -/
def newline (depth : Nat) : String := "\n" ++ String.ofList (List.replicate (2 * depth) ' ')

mutual

/-- Append a value with an item or member to a line. -/
def appendPretty (depth : Nat) (out : String) : Json → String
  | .null => out ++ "null"
  | .bool b => out ++ if b then "true" else "false"
  | .number n => out ++ n.text
  | .string s => out ++ quote s
  | .array [] => out ++ "[]"
  | .array (j :: js) =>
    let first := appendPretty (depth + 1) (out ++ "[" ++ newline (depth + 1)) j
    prettyItems (depth + 1) first js ++ newline depth ++ "]"
  | .object [] => out ++ "\x7b\x7d"
  | .object ((key, j) :: ms) =>
    let start := out ++ "\x7b" ++ newline (depth + 1) ++ quote key ++ ": "
    let first := appendPretty (depth + 1) start j
    prettyMembers (depth + 1) first ms ++ newline depth ++ "\x7d"

/-- Append items, each on a line of its own. -/
def prettyItems (depth : Nat) (out : String) : List Json → String
  | [] => out
  | j :: js => prettyItems depth (appendPretty depth (out ++ "," ++ newline depth) j) js

/-- Append members, each on a line of its own. -/
def prettyMembers (depth : Nat) (out : String) : List (Text × Json) → String
  | [] => out
  | (key, j) :: ms =>
    let start := out ++ "," ++ newline depth ++ quote key ++ ": "
    prettyMembers depth (appendPretty depth start j) ms

end

/-- A value with an item or member to a line, indented by two spaces a level. -/
def pretty (j : Json) : String := appendPretty 0 "" j

end Chiptune.Json
