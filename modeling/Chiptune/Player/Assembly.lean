/-
Assembling a player's code.

A listing is a list of labels, raw bytes and instructions. Every item has its
place before any operand is known, because an instruction's length depends on
its form alone; then branches and absolute operands get their values, and the
operands that hold an address of the player become its relocations.
-/
import Chiptune.Character.Quoted
import Chiptune.Machine.Opcode
import Chiptune.Player.Template

namespace Chiptune.Player

open Machine

/-- What an absolute operand refers to. -/
inductive Target where
  | label (name : String)
  | symbol (symbol : Symbol) (addend : UInt16)
  /-- An address of the hardware. -/
  | fixed (address : UInt16)
deriving DecidableEq, Repr

/-- The operand of an instruction in a listing. -/
inductive Argument where
  | implied
  | accumulator
  | immediate (value : UInt8)
  | zeroPage (address : UInt8)
  | zeroPageX (address : UInt8)
  | zeroPageY (address : UInt8)
  | absolute (target : Target)
  | absoluteX (target : Target)
  | absoluteY (target : Target)
  | indirect (target : Target)
  | indexedIndirect (address : UInt8)
  | indirectIndexed (address : UInt8)
  | branch (label : String)
deriving DecidableEq, Repr

namespace Argument

/-- The addressing mode an operand is written for. -/
def mode : Argument → Mode
  | .implied => .implied
  | .accumulator => .accumulator
  | .immediate _ => .immediate
  | .zeroPage _ => .zeroPage
  | .zeroPageX _ => .zeroPageX
  | .zeroPageY _ => .zeroPageY
  | .absolute _ => .absolute
  | .absoluteX _ => .absoluteX
  | .absoluteY _ => .absoluteY
  | .indirect _ => .indirect
  | .indexedIndirect _ => .indexedIndirect
  | .indirectIndexed _ => .indirectIndexed
  | .branch _ => .relative

/-- The target of an absolute operand. -/
def target? : Argument → Option Target
  | .absolute t | .absoluteX t | .absoluteY t | .indirect t => some t
  | _ => none

end Argument

/-- An item of a listing. -/
inductive Item where
  | label (name : String)
  | data (bytes : Bytes)
  | instruction (mnemonic : Mnemonic) (argument : Argument)
deriving DecidableEq, Repr

/-- What is wrong with a listing. -/
inductive AssemblyFault where
  | labelTwice (name : String)
  | noForm (mnemonic : Mnemonic) (mode : Mode)
  | undefinedLabel (name : String)
  | branchTooFar (label : String) (distance : Int)
  | unresolved (target : Target)
deriving DecidableEq, Repr

/-- A target as messages show it. -/
def Target.text : Target → String
  | .label name => "Label(" ++ Character.quoted name ++ ")"
  | .symbol s n =>
    let addend := n.toNat
    "Symbol(" ++ s.name ++ s!", {addend})"
  | .fixed address =>
    let address := address.toNat
    s!"Fixed({address})"

def AssemblyFault.message : AssemblyFault → String
  | .labelTwice name => "label '" ++ name ++ "' defined twice"
  | .noForm mnemonic mode => mnemonic.name ++ " has no " ++ mode.name ++ " form"
  | .undefinedLabel name => "undefined label '" ++ name ++ "'"
  | .branchTooFar label distance => "branch to '" ++ label ++ s!"' out of range ({distance})"
  | .unresolved target => "unresolved operand " ++ target.text

/-- Assembled code. -/
structure Assembly where
  code : Bytes := []
  relocations : List Relocation := []
  /-- The labels with their offsets, in the order of their definitions. -/
  labels : List (String × UInt16) := []
deriving DecidableEq, Repr

namespace Assembly

/-! ## Places -/

/-- Bytes an item takes; an instruction without the form it is written in takes none. -/
def sizeOf : Item → Nat
  | .label _ => 0
  | .data bytes => bytes.length
  | .instruction m a =>
    match Opcode.encode m a.mode with
    | some _ => 1 + a.mode.operandLength
    | none => 0

/-- The items of a listing with their offsets, the first one at `offset`. -/
def place (offset : Nat) : List Item → List (Nat × Item)
  | [] => []
  | item :: rest => (offset, item) :: place (offset + sizeOf item) rest

/-- Bytes a listing takes. -/
def length (items : List Item) : Nat := items.foldr (fun item bytes => sizeOf item + bytes) 0

/-- The labels of a listing with their offsets. -/
def labelsOf (placed : List (Nat × Item)) : List (String × UInt16) :=
  placed.filterMap fun (offset, item) =>
    match item with
    | .label name => some (name, UInt16.ofNat offset)
    | _ => none

/-- The offset of a label; its last definition counts. -/
def offset? (labels : List (String × UInt16)) (name : String) : Option UInt16 :=
  (labels.reverse.find? (·.1 == name)).map (·.2)

/-! ## Operands -/

/-- How far a branch operand at an offset is from a label. -/
def distance (position : Nat) (label : UInt16) : Int := (label.toNat : Int) - (position + 1)

/-- Whether a distance fits in a signed byte. -/
def reachable (d : Int) : Bool := -128 ≤ d && d ≤ 127

/-- The address a target stands for. -/
def targetAddress? (base : UInt16) (labels : List (String × UInt16))
    (resolve : Symbol → Option UInt16) : Target → Option UInt16
  | .fixed address => some address
  | .label name => (offset? labels name).map (base + ·)
  | .symbol symbol addend => (resolve symbol).map (· + addend)

/-- The relocation of an absolute operand at an offset. -/
def relocation? (labels : List (String × UInt16)) (position : Nat) : Target → Option Relocation
  | .fixed _ => none
  | .label name => (offset? labels name).map fun offset => ⟨UInt16.ofNat position, .code, offset⟩
  | .symbol symbol addend => some ⟨UInt16.ofNat position, symbol, addend⟩

/-- The operand bytes of an argument at an offset; zeros where there is no value. -/
def operandBytes (base : UInt16) (labels : List (String × UInt16))
    (resolve : Symbol → Option UInt16) (position : Nat) (a : Argument) : Bytes :=
  let word (t : Target) : Bytes :=
    Word.toBytes ((targetAddress? base labels resolve t).getD 0)
  match a with
  | .implied | .accumulator => []
  | .immediate v | .zeroPage v | .zeroPageX v | .zeroPageY v | .indexedIndirect v
  | .indirectIndexed v => [v]
  | .absolute t | .absoluteX t | .absoluteY t | .indirect t => word t
  | .branch label =>
    match offset? labels label with
    | some target => [UInt8.ofNat (distance position target % 256).toNat]
    | none => [0]

/-- The bytes of an item at an offset. -/
def itemBytes (base : UInt16) (labels : List (String × UInt16))
    (resolve : Symbol → Option UInt16) (offset : Nat) : Item → Bytes
  | .label _ => []
  | .data bytes => bytes
  | .instruction m a =>
    match Opcode.encode m a.mode with
    | some opcode => opcode :: operandBytes base labels resolve (offset + 1) a
    | none => []

/-! ## Faults -/

/-- Labels defined twice and instructions without a form, in order. -/
def listingFaults (seen : List String) : List Item → List AssemblyFault
  | [] => []
  | .label name :: rest =>
    (if seen.contains name then [.labelTwice name] else []) ++ listingFaults (name :: seen) rest
  | .data _ :: rest => listingFaults seen rest
  | .instruction m a :: rest =>
    (match Opcode.encode m a.mode with
      | some _ => []
      | none => [.noForm m a.mode]) ++ listingFaults seen rest

/-- What is wrong with an item's branch. -/
def branchFault? (labels : List (String × UInt16)) (offset : Nat) : Item → Option AssemblyFault
  | .instruction m (.branch label) =>
    match Opcode.encode m .relative, offset? labels label with
    | none, _ => none
    | some _, none => some (.undefinedLabel label)
    | some _, some target =>
      let d := distance (offset + 1) target
      if reachable d then none else some (.branchTooFar label d)
  | _ => none

/-- What is wrong with an item's absolute operand. -/
def targetFault? (base : UInt16) (labels : List (String × UInt16))
    (resolve : Symbol → Option UInt16) : Item → Option AssemblyFault
  | .instruction m a =>
    match Opcode.encode m a.mode, a.target? with
    | some _, some target =>
      match targetAddress? base labels resolve target with
      | some _ => none
      | none => some (.unresolved target)
    | _, _ => none
  | _ => none

/-- The relocation of an item at an offset. -/
def itemRelocation? (labels : List (String × UInt16)) (offset : Nat) : Item → Option Relocation
  | .instruction m a =>
    match Opcode.encode m a.mode, a.target? with
    | some _, some target => relocation? labels (offset + 1) target
    | _, _ => none
  | _ => none

/-- Everything wrong with a listing: first what is wrong with the items alone, then the
branches, then the absolute operands. -/
def faults (base : UInt16) (resolve : Symbol → Option UInt16) (items : List Item) :
    List AssemblyFault :=
  let placed := place 0 items
  let labels := labelsOf placed
  listingFaults [] items ++
    placed.filterMap (fun (offset, item) => branchFault? labels offset item) ++
    items.filterMap (targetFault? base labels resolve)

/-- Assemble a listing for code at `base`, with addresses for the symbols. -/
def assemble (base : UInt16) (resolve : Symbol → Option UInt16) (items : List Item) :
    Except (List AssemblyFault) Assembly :=
  let placed := place 0 items
  let labels := labelsOf placed
  match faults base resolve items with
  | [] => .ok {
      code := placed.flatMap fun (offset, item) => itemBytes base labels resolve offset item
      relocations := placed.filterMap fun (offset, item) => itemRelocation? labels offset item
      labels }
  | wrong => .error wrong

/-- What is wrong with a listing, in words. -/
def report (wrong : List AssemblyFault) : String :=
  String.intercalate "; " (wrong.map AssemblyFault.message)

end Assembly

end Chiptune.Player
