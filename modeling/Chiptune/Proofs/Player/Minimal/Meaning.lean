/-
What the minimal player's code means, apart from where it stands.

Of memory the code sees its variables, two pointers in page zero, the chip and
what it was loaded with, so these and the registers are all there is to a
`State`. A block of the listing runs from its start to a way out of it (`run`);
a routine strings blocks together until it returns (`exec`). An access that
leaves what a state has is stuck.
-/
import Mathlib.Logic.Function.Basic
import Chiptune.Machine.Step
import Chiptune.Player.Minimal.Template

namespace Chiptune.Player.Minimal

open Machine Sound

/-! ## Places -/

/-- Offset of the variables in the image, which is the length of the code. -/
def variablesAt : Nat := 771

/-- Offset of the slots, after the variables. -/
def slotsAt : Nat := 841

/-- Offset of the music. -/
def musicAt : Nat := 2736

/-- Where a symbol is in the image. -/
def offsetOf? : Symbol → Option Nat
  | .code => some 0
  | .workArea => some variablesAt
  | .table .instruments => some slotsAt
  | .table .commands => some 1033
  | .table .wave => some 1129
  | .table .pulse => some 1385
  | .table .filter => some 1769
  | .table .arpeggio => none
  | .freqLo => some 2281
  | .freqHi => some 2377
  | .songSettings => some 2473
  | .orderListsLo => some 2474
  | .orderListsHi => some 2477
  | .sequencesLo => some 2480
  | .sequencesHi => some 2608
  | .musicData => some musicAt

/-- The labels of the listing. -/
def labels : List (String × UInt16) := Assembly.labelsOf (Assembly.place 0 listing)

/-- The items from a label on. -/
def itemsFrom (label : String) : List Item := listing.dropWhile (· ≠ .label label)

/-- A player in memory. -/
structure Site where
  base : UInt16
  /-- Memory after loading. -/
  image : Memory

/-- The address at an offset. -/
def Site.address (here : Site) (n : Nat) : UInt16 := here.base + UInt16.ofNat n

theorem address_add {here : Site} (n : Nat) (w : UInt16) : here.address n + w = here.address (n + w.toNat) := by
  rw [Site.address, Site.address, UInt16.ofNat_add, UInt16.ofNat_toNat, UInt16.add_assoc]

/-- A byte of the player's image. -/
def Site.byte (here : Site) (n : Nat) : UInt8 := here.image.read (here.address n)

/-! ## States -/

/-- What an instruction works on. -/
inductive Place where
  | nothing
  | accumulator
  | value (v : UInt8)
  | cell (n : Nat)
  | page (address : UInt8)
  | chip (address : UInt16)

/-- What the code sees. The registers are without those that depend on where the code stands, and
without the overflow flag, which it never asks for. -/
structure State where
  regs : Registers
  /-- The variables. -/
  cells : Nat → UInt8
  /-- The pointers. -/
  page : UInt8 → UInt8
  /-- Bytes pushed since the routine was called. -/
  saved : Bytes
  sid : Bank

/-- The registers that do not depend on where the code stands. -/
def plain (r : Registers) : Registers := { r with pc := 0, sp := 0, p := { r.p with overflow := false } }

/-- What an instruction is given to work on. -/
def Place.operand : Place → Operand
  | .nothing => .none
  | .accumulator => .accumulator
  | .value _ | .cell _ | .page _ | .chip _ => .address 0

namespace State

def load (s : State) : Place → UInt8
  | .nothing => 0
  | .accumulator => s.regs.a
  | .value v => v
  | .cell n => s.cells n
  | .page address => s.page address
  | .chip address => s.sid.read (Word.low address)

def store (s : State) (p : Place) (v : UInt8) : Option State :=
  match p with
  | .nothing | .accumulator | .value _ => none
  | .cell n => some { s with cells := Function.update s.cells n v }
  | .page address => some { s with page := Function.update s.page address v }
  | .chip address => some { s with sid := (s.sid.write (Word.low address) v).2 }

end State

/-- Whether a byte of page zero belongs to a pointer. -/
def isPointer (address : UInt8) : Bool := 0xFB ≤ address && address ≤ 0xFE

namespace Site

variable (here : Site)

/-- Whether an address after the variables is in memory that the player does not change. -/
def isData (address : UInt16) : Bool :=
  decide (here.base.toNat + slotsAt ≤ address.toNat) && decide (address.toNat < Layout.limitOf here.base)

/-- What is at an offset of the code or of the data before the music. -/
def datum? (n : Nat) : Option Place :=
  if (n < variablesAt ∨ slotsAt ≤ n) ∧ n < musicAt then some (.value (here.byte n)) else none

/-- What is `index` bytes past a pointer, if that is data. -/
def through? (pointer : UInt16) (index : UInt8) : Option Place :=
  if here.isData (pointer + index.toUInt16) then some (.value (here.image.read (pointer + index.toUInt16))) else none

/-- What a target stands for, indexed. -/
def target? (t : Target) (index : UInt8) : Option Place :=
  match t with
  | .fixed address =>
    if inWindow (address + index.toUInt16) then some (.chip (address + index.toUInt16)) else none
  | .label name => (Assembly.offset? labels name).bind fun n => here.datum? (n.toNat + index.toNat)
  | .symbol .workArea n =>
    if n.toNat + index.toNat < variableBytes.toNat then some (.cell (n.toNat + index.toNat)) else none
  | .symbol symbol n => (offsetOf? symbol).bind fun start => here.datum? (start + n.toNat + index.toNat)

/-- What an argument stands for. -/
def place? (s : State) : Argument → Option Place
  | .implied => some .nothing
  | .accumulator => some .accumulator
  | .immediate v => some (.value v)
  | .zeroPage z => if isPointer z then some (.page z) else none
  | .absolute t => here.target? t 0
  | .absoluteX t => here.target? t s.regs.x
  | .absoluteY t => here.target? t s.regs.y
  | .indirectIndexed z =>
    if isPointer z && isPointer (z + 1) then here.through? (Word.ofBytes (s.page z) (s.page (z + 1))) s.regs.y else none
  | .zeroPageX _ | .zeroPageY _ | .indirect _ | .indexedIndirect _ | .branch _ => none

end Site

theorem target?_symbol {symbol : Symbol} {n : UInt16} (h : symbol ≠ .workArea) (here : Site) (index : UInt8) :
    here.target? (.symbol symbol n) index =
      (offsetOf? symbol).bind fun start => here.datum? (start + n.toNat + index.toNat) := by
  cases symbol <;> first | rfl | exact absurd rfl h

/-! ## Blocks -/

/-- The instructions that compute. -/
def computing : List Mnemonic :=
  [.lda, .ldx, .ldy, .sta, .adc, .sbc, .and, .ora, .asl, .cmp, .cpy, .inc, .dec, .iny, .dex, .dey, .tay, .tya,
    .clc, .sec]

/-- Whether a branch is taken. -/
def taken? (m : Mnemonic) (p : Flags) : Option Bool :=
  match m with
  | .bcc => some (!p.carry)
  | .bne => some (!p.zero)
  | .beq => some p.zero
  | .bpl => some (!p.negative)
  | _ => none

/-- What an instruction leads to. -/
inductive Act where
  | next (s : State)
  | jump (label : String)
  | call (label : String)
  | ret
  | stuck

/-- Go on, if there is a state to go on from. -/
def Act.ofState? : Option State → Act
  | some s => .next s
  | none => .stuck

/-- Branch, or go on. -/
def Act.branch (label : String) (s : State) : Option Bool → Act
  | some true => .jump label
  | some false => .next s
  | none => .stuck

namespace Site

variable (here : Site)

/-- Compute. -/
def compute? (m : Mnemonic) (a : Argument) (s : State) : Option State :=
  if m ∈ computing then
    (here.place? s a).bind fun p =>
      let effect := m.execute (fun _ => s.load p) p.operand s.regs
      effect.stores.foldlM (fun s written => s.store p written.value) { s with regs := plain effect.regs }
  else none

/-- Return, use the stack, or compute. -/
def actHere (m : Mnemonic) (a : Argument) (s : State) : Act :=
  match m with
  | .rts => if a = .implied ∧ s.saved = [] then .ret else .stuck
  | .pha => if a = .implied ∧ s.saved = [] then .next { s with saved := [s.regs.a] } else .stuck
  | .pla =>
    match s.saved with
    | [b] => if a = .implied then .next { s with regs := s.regs.setA b, saved := [] } else .stuck
    | _ => .stuck
  | m => .ofState? (here.compute? m a s)

/-- Carry an instruction out. -/
def act (m : Mnemonic) (a : Argument) (s : State) : Act :=
  match a with
  | .branch label => .branch label s (taken? m s.regs.p)
  | .absolute (.label label) =>
    match m with
    | .jmp => .jump label
    | .jsr => if s.saved = [] then .call label else .stuck
    | _ => .stuck
  | a => here.actHere m a s

end Site

/-- A way out of a block. -/
inductive Way where
  /-- The routine returns. -/
  | ret
  /-- The block ends. -/
  | fall
  /-- To a label that is not ahead. -/
  | goto (label : String)
  /-- A routine is called; then `rest` follows. -/
  | call (label : String) (rest : List Item)
  | stuck
deriving DecidableEq

/-- Run a block from its start, or from a label in it: the way out, and the state there. -/
def run (here : Site) : Option String → List Item → State → Way × State
  | none, [], s => (.fall, s)
  | some l, [], s => (.goto l, s)
  | some l, item :: rest, s => if item = .label l then run here none rest s else run here (some l) rest s
  | none, .label _ :: rest, s => run here none rest s
  | none, .data _ :: _, s => (.stuck, s)
  | none, .instruction m a :: rest, s =>
    match here.act m a s with
    | .next s => run here none rest s
    | .jump l => run here (some l) rest s
    | .call l => (.call l rest, s)
    | .ret => (.ret, s)
    | .stuck => (.stuck, s)

/-! ## Routines -/

/-- What a routine comes to. -/
inductive Outcome where
  | done (s : State)
  | timeout
  | stuck

/-- What follows, if the routine is done. -/
def Outcome.andThen (o : Outcome) (f : State → Outcome) : Outcome :=
  match o with
  | .done s => f s
  | .timeout => .timeout
  | .stuck => .stuck

/-- Bytes of stack a routine may find in use. -/
def stackLimit : Nat := 16

/-- Run a routine to its return; `fuel` bounds the blocks. -/
def exec (here : Site) : (depth fuel : Nat) → List Item → State → Outcome
  | _, 0, _, _ => .timeout
  | depth, fuel + 1, items, s =>
    match run here none items s with
    | (.ret, s) => .done s
    | (.goto l, s) => exec here depth fuel (itemsFrom l) s
    | (.call l rest, s) =>
      if stackLimit < depth + 2 then .stuck
      else (exec here (depth + 2) fuel (itemsFrom l) s).andThen fun s => exec here depth fuel rest s
    | (.fall, _) | (.stuck, _) => .stuck

section Routines

variable {here : Site} {depth fuel : Nat} {items items' rest : List Item} {s s' : State} {l : String}

/-- A routine is what its first block is. -/
theorem exec_congr (h : run here none items s = run here none items' s') :
    exec here depth fuel items s = exec here depth fuel items' s' := by
  cases fuel with
  | zero => rfl
  | succ fuel => rw [exec, exec, h]

theorem exec_ret (h : run here none items s = (.ret, s')) : exec here depth (fuel + 1) items s = .done s' := by
  rw [exec, h]

theorem exec_goto (h : run here none items s = (.goto l, s')) :
    exec here depth (fuel + 1) items s = exec here depth fuel (itemsFrom l) s' := by
  rw [exec, h]

theorem exec_call (hdepth : depth + 2 ≤ stackLimit) (h : run here none items s = (.call l rest, s')) :
    exec here depth (fuel + 1) items s =
      (exec here (depth + 2) fuel (itemsFrom l) s').andThen fun s => exec here depth fuel rest s := by
  rw [exec, h]
  exact if_neg (Nat.not_lt.mpr hdepth)

end Routines

end Chiptune.Player.Minimal
