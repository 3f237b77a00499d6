/-
One instruction of the processor.

An instruction reads everything it needs before it stores anything, so its
meaning is a function of the registers and of what memory holds: the registers
after it, the bytes it stores in order, and the cycles it takes. Whoever owns
the memory applies the stores. (`BRK` fetches its vector after pushing, but
the vector is not in the stack page.)

An instruction that modifies memory stores the old value before the new one,
as the chip does; a sound register sees both.
-/
import Chiptune.Machine.Arithmetic
import Chiptune.Machine.Opcode
import Chiptune.Machine.RunError

namespace Chiptune.Machine

/-- Where the interrupt and `BRK` vector is stored. -/
def irqVector : UInt16 := 0xFFFE

/-- What an instruction works on. -/
inductive Operand where
  | none
  | accumulator
  | address (target : UInt16)
deriving DecidableEq, Repr

/-- Whether two addresses are in different pages. -/
def crosses (a b : UInt16) : Bool := a.toNat / 256 != b.toNat / 256

/-- The little-endian word at an address. -/
def readWord (read : UInt16 → UInt8) (address : UInt16) : UInt16 :=
  Word.ofBytes (read address) (read (address + 1))

/-- The pointer at a page-zero address; its high byte is in page zero too. -/
def zeroPagePointer (read : UInt16 → UInt8) (zp : UInt8) : UInt16 :=
  Word.ofBytes (read zp.toUInt16) (read (zp + 1).toUInt16)

/-- The pointer a jump goes through: its high byte never leaves the page of the low one. -/
def jumpPointer (read : UInt16 → UInt8) (pointer : UInt16) : UInt16 :=
  Word.ofBytes (read pointer) (read (Word.ofBytes (Word.low pointer + 1) (Word.high pointer)))

/-- `pc` moved by a signed byte. -/
def displaced (pc : UInt16) (offset : UInt8) : UInt16 :=
  pc + (if Flags.sign offset then 0xFF00 + offset.toUInt16 else offset.toUInt16)

/-- An operand that was found, and whether indexing crossed a page on the way. -/
structure Located where
  operand : Operand
  crossed : Bool := false
deriving DecidableEq, Repr

/-- Find the operand whose bytes start at `pc`. -/
def Mode.locate (mode : Mode) (read : UInt16 → UInt8) (r : Registers) : Located :=
  let byte := read r.pc
  let word := readWord read r.pc
  let indexed (base : UInt16) (index : UInt8) : Located :=
    let target := base + index.toUInt16
    ⟨.address target, crosses base target⟩
  match mode with
  | .implied => ⟨.none, false⟩
  | .accumulator => ⟨.accumulator, false⟩
  | .immediate => ⟨.address r.pc, false⟩
  | .zeroPage => ⟨.address byte.toUInt16, false⟩
  | .zeroPageX => ⟨.address (byte + r.x).toUInt16, false⟩
  | .zeroPageY => ⟨.address (byte + r.y).toUInt16, false⟩
  | .absolute => ⟨.address word, false⟩
  | .absoluteX => indexed word r.x
  | .absoluteY => indexed word r.y
  | .indirect => ⟨.address (jumpPointer read word), false⟩
  | .indexedIndirect => ⟨.address (zeroPagePointer read (byte + r.x)), false⟩
  | .indirectIndexed => indexed (zeroPagePointer read byte) r.y
  | .relative => ⟨.address (displaced (r.pc + 1) byte), false⟩

namespace Operand

/-- The operand's value. -/
def load (o : Operand) (read : UInt16 → UInt8) (r : Registers) : UInt8 :=
  match o with
  | .none => 0
  | .accumulator => r.a
  | .address target => read target

/-- Store a register's value. -/
def store (o : Operand) (r : Registers) (v : UInt8) : Effect :=
  match o with
  | .none => { regs := r }
  | .accumulator => { regs := { r with a := v } }
  | .address target => { regs := r, stores := [⟨target, v⟩] }

/-- Replace the operand by `f` of it: the new value, and the effect, in which memory
receives the old value first. -/
def modify (o : Operand) (read : UInt16 → UInt8) (r : Registers)
    (f : Flags → UInt8 → UInt8 × Flags) : UInt8 × Effect :=
  let value := o.load read r
  let (result, p) := f r.p value
  let r := { r with p := p }
  match o with
  | .none => (result, { regs := r })
  | .accumulator => (result, { regs := { r with a := result } })
  | .address target => (result, { regs := r, stores := [⟨target, value⟩, ⟨target, result⟩] })

end Operand

/-- The effect with registers computed further. -/
def Effect.andThen (e : Effect) (f : Registers → Registers) : Effect := { e with regs := f e.regs }

/-- Go to the operand if `taken`; a taken branch costs a cycle, two across a page. -/
def branch (taken : Bool) (o : Operand) (r : Registers) : Effect :=
  match o with
  | .address target =>
    if taken then
      { regs := { r with pc := target }, extraCycles := if crosses r.pc target then 2 else 1 }
    else { regs := r }
  | .none | .accumulator => { regs := r }

/-- Carry an instruction out. `r.pc` is already at the next instruction. -/
def Mnemonic.execute (m : Mnemonic) (read : UInt16 → UInt8) (o : Operand) (r : Registers) :
    Effect :=
  let value := o.load read r
  let ofRegs (r : Registers) : Effect := { regs := r }
  let withFlags (p : Flags) : Effect := { regs := { r with p := p } }
  let sum (r : Registers) (v : UInt8) : Registers :=
    let (a, p) := r.p.add r.a v
    { r with a := a, p := p }
  let difference (r : Registers) (v : UInt8) : Registers :=
    let (a, p) := r.p.sub r.a v
    { r with a := a, p := p }
  let modified (f : Flags → UInt8 → UInt8 × Flags) : UInt8 × Effect := o.modify read r f
  match m with
  -- loads and stores
  | .lda => ofRegs (r.setA value)
  | .ldx => ofRegs (r.setX value)
  | .ldy => ofRegs (r.setY value)
  | .sta => o.store r r.a
  | .stx => o.store r r.x
  | .sty => o.store r r.y
  -- arithmetic and logic
  | .adc => ofRegs (sum r value)
  | .sbc => ofRegs (difference r value)
  | .and => ofRegs (r.setA (r.a &&& value))
  | .ora => ofRegs (r.setA (r.a ||| value))
  | .eor => ofRegs (r.setA (r.a ^^^ value))
  | .bit => withFlags { r.p with
      zero := r.a &&& value == 0
      negative := Flags.sign value
      overflow := value.toNat.testBit 6 }
  | .cmp => withFlags (r.p.compare r.a value)
  | .cpx => withFlags (r.p.compare r.x value)
  | .cpy => withFlags (r.p.compare r.y value)
  -- read, modify, write
  | .asl => (modified Flags.shiftLeft).2
  | .lsr => (modified Flags.shiftRight).2
  | .rol => (modified Flags.rotateLeft).2
  | .ror => (modified Flags.rotateRight).2
  | .inc => (modified Flags.increment).2
  | .dec => (modified Flags.decrement).2
  | .inx => ofRegs (r.setX (r.x + 1))
  | .iny => ofRegs (r.setY (r.y + 1))
  | .dex => ofRegs (r.setX (r.x - 1))
  | .dey => ofRegs (r.setY (r.y - 1))
  -- transfers and the stack
  | .tax => ofRegs (r.setX r.a)
  | .tay => ofRegs (r.setY r.a)
  | .txa => ofRegs (r.setA r.x)
  | .tya => ofRegs (r.setA r.y)
  | .tsx => ofRegs (r.setX r.sp)
  | .txs => ofRegs { r with sp := r.x }
  | .pha => r.push [r.a]
  | .php => r.push [r.p.pushed]
  | .pla =>
    let (v, r) := r.pull read
    ofRegs (r.setA v)
  | .plp => ofRegs (r.pullFlags read)
  -- flags
  | .clc => withFlags { r.p with carry := false }
  | .sec => withFlags { r.p with carry := true }
  | .cld => withFlags { r.p with decimal := false }
  | .sed => withFlags { r.p with decimal := true }
  | .cli => withFlags { r.p with irqDisable := false }
  | .sei => withFlags { r.p with irqDisable := true }
  | .clv => withFlags { r.p with overflow := false }
  -- branches
  | .bcc => branch (!r.p.carry) o r
  | .bcs => branch r.p.carry o r
  | .bne => branch (!r.p.zero) o r
  | .beq => branch r.p.zero o r
  | .bpl => branch (!r.p.negative) o r
  | .bmi => branch r.p.negative o r
  | .bvc => branch (!r.p.overflow) o r
  | .bvs => branch r.p.overflow o r
  -- jumps
  | .jmp =>
    match o with
    | .address target => ofRegs { r with pc := target }
    | .none | .accumulator => ofRegs r
  | .jsr =>
    match o with
    | .address target => (r.pushWord (r.pc - 1)).andThen fun r => { r with pc := target }
    | .none | .accumulator => ofRegs r
  | .rts =>
    let (target, r) := r.pullWord read
    ofRegs { r with pc := target + 1 }
  | .rti =>
    let (target, r) := (r.pullFlags read).pullWord read
    ofRegs { r with pc := target }
  | .brk =>
    let ret := r.pc + 1
    (r.push [Word.high ret, Word.low ret, r.p.pushed]).andThen fun r =>
      { r with pc := readWord read irqVector, p := { r.p with irqDisable := true } }
  | .nop => ofRegs r
  -- undocumented combinations
  | .lax => ofRegs ((r.setA value).setX value)
  | .sax => o.store r (r.a &&& r.x)
  | .dcp =>
    let (v, e) := modified fun p v => (v - 1, p)
    e.andThen fun r => { r with p := r.p.compare r.a v }
  | .isc =>
    let (v, e) := modified fun p v => (v + 1, p)
    e.andThen fun r => difference r v
  | .slo =>
    let (v, e) := modified Flags.shiftLeft
    e.andThen fun r => r.setA (r.a ||| v)
  | .rla =>
    let (v, e) := modified Flags.rotateLeft
    e.andThen fun r => r.setA (r.a &&& v)
  | .sre =>
    let (v, e) := modified Flags.shiftRight
    e.andThen fun r => r.setA (r.a ^^^ v)
  | .rra =>
    let (v, e) := modified Flags.rotateRight
    e.andThen fun r => sum r v
  | .anc =>
    let r := r.setA (r.a &&& value)
    ofRegs { r with p := { r.p with carry := Flags.sign r.a } }
  | .alr =>
    let (v, p) := r.p.shiftRight (r.a &&& value)
    ofRegs { r with a := v, p := p }

/-- A finished instruction. -/
structure Outcome where
  regs : Registers
  stores : List Store
  cycles : Nat
deriving DecidableEq, Repr

/-- Run the instruction at the program counter. -/
def step (read : UInt16 → UInt8) (r : Registers) : Except RunError Outcome :=
  let byte := read r.pc
  match Opcode.decode byte with
  | none => .error (.unsupportedOpcode byte r.pc)
  | some op =>
    let fetched := { r with pc := r.pc + 1 }
    let located := op.mode.locate read fetched
    let next := { fetched with pc := fetched.pc + UInt16.ofNat op.mode.operandLength }
    let effect := op.mnemonic.execute read located.operand next
    .ok {
      regs := effect.regs
      stores := effect.stores
      cycles := op.cycles + (if located.crossed && op.pagePenalty then 1 else 0) +
        effect.extraCycles }

end Chiptune.Machine
