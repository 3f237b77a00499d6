/-
The register file of the processor and the stores an instruction makes.

The status register is eight separate flags; its byte form exists only on the
stack and outside the processor, and the two forms hold the same information
(`ofByte_toByte`, `toByte_ofByte`).
-/
import Chiptune.Byte

namespace Chiptune.Machine

/-- The status register. -/
structure Flags where
  carry : Bool := false
  zero : Bool := false
  irqDisable : Bool := false
  decimal : Bool := false
  /-- Only the copy on the stack has a meaning. -/
  brk : Bool := false
  unused : Bool := false
  overflow : Bool := false
  negative : Bool := false
deriving DecidableEq, Repr

namespace Flags

/-- The flags of a status byte, carry in the lowest bit. -/
def ofByte (b : UInt8) : Flags where
  carry := b.toNat.testBit 0
  zero := b.toNat.testBit 1
  irqDisable := b.toNat.testBit 2
  decimal := b.toNat.testBit 3
  brk := b.toNat.testBit 4
  unused := b.toNat.testBit 5
  overflow := b.toNat.testBit 6
  negative := b.toNat.testBit 7

/-- The status byte of the flags. -/
def toByte (f : Flags) : UInt8 :=
  UInt8.ofNat (f.carry.toNat + 2 * f.zero.toNat + 4 * f.irqDisable.toNat + 8 * f.decimal.toNat +
    16 * f.brk.toNat + 32 * f.unused.toNat + 64 * f.overflow.toNat + 128 * f.negative.toNat)

/-- The byte an instruction pushes: both bits without a flag behind them are set. -/
def pushed (f : Flags) : UInt8 := toByte { f with brk := true, unused := true }

/-- The flags an instruction pulls: the bits without a flag behind them are ignored. -/
def pulled (b : UInt8) : Flags := { ofByte b with brk := false, unused := true }

/-- Whether a byte is negative in two's complement. -/
def sign (v : UInt8) : Bool := decide (128 ≤ v.toNat)

/-- The flags after a result: zero and negative say what the byte is. -/
def withResult (f : Flags) (v : UInt8) : Flags :=
  { f with zero := v == 0, negative := sign v }

theorem ofByte_toByte (f : Flags) : ofByte (toByte f) = f := by
  obtain ⟨c, z, i, d, b, u, v, n⟩ := f
  revert c z i d b u v n
  decide

theorem toByte_ofByte (b : UInt8) : toByte (ofByte b) = b := by
  have h : ∀ n : Fin 256, toByte (ofByte (UInt8.ofNat n)) = UInt8.ofNat n := by
    decide +kernel
  have := h ⟨b.toNat, b.toNat_lt⟩
  simpa using this

end Flags

/-- The register file. -/
structure Registers where
  /-- The program counter. -/
  pc : UInt16 := 0
  a : UInt8 := 0
  x : UInt8 := 0
  y : UInt8 := 0
  /-- The stack pointer, an offset into page one. -/
  sp : UInt8 := 0xFF
  p : Flags := { irqDisable := true, unused := true }
deriving DecidableEq, Repr

/-- One byte stored by an instruction. -/
structure Store where
  address : UInt16
  value : UInt8
deriving DecidableEq, Repr

/-- What an instruction or a push leaves behind: the registers, the stores in order, and
the cycles beyond those of the opcode. -/
structure Effect where
  regs : Registers
  stores : List Store := []
  extraCycles : Nat := 0
deriving DecidableEq, Repr

namespace Registers

/-- The address the stack pointer points at. -/
def stackAddress (sp : UInt8) : UInt16 := UInt16.ofNat (0x100 + sp.toNat)

theorem toNat_stackAddress (sp : UInt8) : (stackAddress sp).toNat = 0x100 + sp.toNat := by
  have := sp.toNat_lt
  rw [stackAddress, UInt16.toNat_ofNat']
  omega

/-- Push bytes, the first of them deepest; the pointer wraps within page one. -/
def push (r : Registers) : Bytes → Effect
  | [] => { regs := r }
  | v :: vs =>
    let rest := push { r with sp := r.sp - 1 } vs
    { rest with stores := ⟨stackAddress r.sp, v⟩ :: rest.stores }

/-- Push a word, high byte first. -/
def pushWord (r : Registers) (w : UInt16) : Effect := r.push [Word.high w, Word.low w]

/-- The byte on top of the stack and the registers without it. -/
def pull (read : UInt16 → UInt8) (r : Registers) : UInt8 × Registers :=
  (read (stackAddress (r.sp + 1)), { r with sp := r.sp + 1 })

/-- The word on top of the stack, low byte first, and the registers without it. -/
def pullWord (read : UInt16 → UInt8) (r : Registers) : UInt16 × Registers :=
  let (lo, r) := r.pull read
  let (hi, r) := r.pull read
  (Word.ofBytes lo hi, r)

/-- The registers with the status on top of the stack, and without it there. -/
def pullFlags (read : UInt16 → UInt8) (r : Registers) : Registers :=
  let (b, r) := r.pull read
  { r with p := Flags.pulled b }

/-- The registers with an accumulator that was just computed. -/
def setA (r : Registers) (v : UInt8) : Registers := { r with a := v, p := r.p.withResult v }

/-- The registers with an X index that was just computed. -/
def setX (r : Registers) (v : UInt8) : Registers := { r with x := v, p := r.p.withResult v }

/-- The registers with a Y index that was just computed. -/
def setY (r : Registers) (v : UInt8) : Registers := { r with y := v, p := r.p.withResult v }

end Registers

end Chiptune.Machine
