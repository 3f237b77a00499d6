/-
Taking values out of JSON.

A structure is written as an object, whose unknown members do not matter, or
as an array of its fields in order. A choice is written as its name, if
nothing goes with it, or as an object with that name and what goes with it.
-/
import Chiptune.Json.Value

namespace Chiptune.Json

/-- Takes a value out of JSON, if it is there. -/
abbrev Decode (α : Type) := Json → Option α

/-! ## Plain values -/

/-- An integer of 64 bits. -/
def toInt? : Decode Int
  | .number n => n.toInt?
  | _ => none

/-- A natural number up to a bound. -/
def toNat? (bound : Nat) : Decode Nat := fun j =>
  match j.toInt? with
  | some n => if 0 ≤ n ∧ n ≤ bound then some n.toNat else none
  | none => none

def toByte? : Decode UInt8 := fun j => (j.toNat? 0xFF).map UInt8.ofNat

def toWord? : Decode UInt16 := fun j => (j.toNat? 0xFFFF).map UInt16.ofNat

/-- A number of four bytes. -/
def toLong? : Decode Nat := toNat? 0xFFFFFFFF

/-- A number of eight bytes. -/
def toSize? : Decode Nat := toNat? 0xFFFFFFFFFFFFFFFF

/-- An integer of a range. -/
def toIntBetween? (low high : Int) : Decode Int := fun j =>
  match j.toInt? with
  | some n => if low ≤ n ∧ n ≤ high then some n else none
  | none => none

def toFloat? : Decode Float
  | .number n => n.toFloat?
  | _ => none

/-- A truth value. -/
def toBool? : Decode Bool
  | .bool b => some b
  | _ => none

def toText? : Decode String
  | .string s => s
  | _ => none

/-- Bytes in hexadecimal. -/
def toHex? : Decode Bytes := fun j => j.toText?.bind Hex.decode?

def toPair? {α β : Type} (first : Decode α) (second : Decode β) : Decode (α × β)
  | .array [a, b] => do return (← first a, ← second b)
  | _ => none

def toList? {α : Type} (decode : Decode α) : Decode (List α)
  | .array items => items.mapM decode
  | _ => none

/-- A value, or nothing for null. -/
def toOption? {α : Type} (decode : Decode α) : Decode (Option α)
  | .null => some none
  | j => (decode j).map some

/-! ## Structures -/

/-- The fields of a structure that are there, by name. -/
abbrev Fields := List (String × Json)

/-- Whether a name is there more than once. -/
def repeats (fs : Fields) : Bool :=
  match fs with
  | [] => false
  | (name, _) :: rest => rest.any (·.1 == name) || repeats rest

/-- The known ones among members; no key may be broken and no known one repeated. -/
def knownMembers? (names : List String) (members : List (Text × Json)) : Option Fields := do
  let members ← members.mapM fun (key, value) => key.map (·, value)
  let fields := members.filter fun (key, _) => names.contains key
  if repeats fields then none else some fields

/-- The fields of a structure. -/
def fields? (names : List String) : Decode Fields
  | .object members => knownMembers? names members
  | .array items => if items.length ≤ names.length then some (names.zip items) else none
  | _ => none

namespace Fields

def find? (fs : Fields) (name : String) : Option Json := fs.lookup name

/-- The value of a field that has to be there. -/
def required {α : Type} (fs : Fields) (name : String) (decode : Decode α) : Option α :=
  (fs.find? name).bind decode

/-- The value of a field, or a default if it is not there. -/
def withDefault {α : Type} (fs : Fields) (name : String) (decode : Decode α) (default : α) :
    Option α :=
  match fs.find? name with
  | some j => decode j
  | none => some default

/-- The value of a field that may be null or missing. -/
def optional {α : Type} (fs : Fields) (name : String) (decode : Decode α) : Option (Option α) :=
  fs.withDefault name (toOption? decode) none

end Fields

/-! ## Structures within structures -/

mutual

/-- Whether every text and number of a value can be read, `depth` levels deep at most. -/
def isSound (depth : Nat) : Json → Bool
  | .null | .bool _ => true
  | .number n => n.toFloat?.isSome
  | .string s => s.isSome
  | .array items => decide (0 < depth) && areSound (depth - 1) items
  | .object members => decide (0 < depth) && membersSound (depth - 1) members

/-- Whether all items are sound. -/
def areSound (depth : Nat) : List Json → Bool
  | [] => true
  | j :: js => isSound depth j && areSound depth js

/-- Whether all members are sound. -/
def membersSound (depth : Nat) : List (Text × Json) → Bool
  | [] => true
  | (key, j) :: ms => key.isSome && isSound depth j && membersSound depth ms

end

/-- The fields of a structure among which stand those of another one: an object whose other
members, known or not, are all sound to a depth. -/
def mergedFields? (depth : Nat) (own inner : List String) : Decode Fields
  | .object members => do
    let others := members.filter fun (key, _) => !key.any own.contains
    if membersSound depth others then knownMembers? (own ++ inner) members else none
  | _ => none

/-! ## Choices -/

/-- The name of a choice and what goes with it. -/
def variant? : Decode (String × Option Json)
  | .string s => s.map (·, none)
  | .object [(key, value)] => key.map (·, some value)
  | _ => none

/-- Whether what goes with a choice is nothing. -/
def isNothing : Option Json → Bool
  | none | some .null => true
  | _ => false

/-- One of the given values, by its name. -/
def toChoice? {α : Type} (name : α → String) (values : List α) : Decode α := fun j =>
  match j.variant? with
  | some (key, payload) =>
    if isNothing payload then values.find? (name · == key) else none
  | none => none

end Chiptune.Json
