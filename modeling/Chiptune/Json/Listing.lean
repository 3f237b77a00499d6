/-
Listings as JSON: each item is an array that starts with what it is.
-/
import Chiptune.Json.Template
import Chiptune.Player.Assembly

namespace Chiptune.Player

open Json Machine

def Target.ofJson? : Decode Target
  | .array [.string (some "label"), name] => name.toText?.map Target.label
  | .array [.string (some "symbol"), place, addend] => do
    return .symbol (← Symbol.ofJson? place) (← addend.toWord?)
  | .array [.string (some "fixed"), address] => address.toWord?.map Target.fixed
  | _ => none

/-- The operand in JSON. An instruction without one has null in its place. -/
def Argument.ofJson? : Decode Argument
  | .null => some .implied
  | .array [.string (some "Acc")] => some .accumulator
  | .array [.string (some form), value] =>
    match form with
    | "Imm" => value.toByte?.map .immediate
    | "Zp" => value.toByte?.map .zeroPage
    | "ZpX" => value.toByte?.map .zeroPageX
    | "ZpY" => value.toByte?.map .zeroPageY
    | "IndX" => value.toByte?.map .indexedIndirect
    | "IndY" => value.toByte?.map .indirectIndexed
    | "Abs" => (Target.ofJson? value).map .absolute
    | "AbsX" => (Target.ofJson? value).map .absoluteX
    | "AbsY" => (Target.ofJson? value).map .absoluteY
    | "Ind" => (Target.ofJson? value).map .indirect
    | "Branch" => value.toText?.map .branch
    | _ => none
  | _ => none

def Item.ofJson? : Decode Item
  | .array [.string (some "label"), name] => name.toText?.map Item.label
  | .array [.string (some "bytes"), bytes] => bytes.toHex?.map Item.data
  | .array (.string (some "i") :: mnemonic :: operand) => do
    return .instruction (← toChoice? Mnemonic.name Mnemonic.all mnemonic)
      (← Argument.ofJson? (operand.headD .null))
  | _ => none

/-- Assembled code in JSON, its labels in the order of their names. -/
def Assembly.toJson (a : Assembly) : Json :=
  let labels := a.labels.mergeSort fun x y => x.1 ≤ y.1
  ofMembers [("code", hex a.code), ("relocations", list Relocation.toJson a.relocations),
    ("labels", list (fun (name, offset) => .array [text name, word offset]) labels)]

end Chiptune.Player
