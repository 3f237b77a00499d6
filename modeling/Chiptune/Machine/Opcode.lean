/-
The instruction set of the NMOS 6502.

One matrix says what each opcode byte means: `Opcode.decode` reads it for the
processor and `Opcode.encode` searches it for the assembler, so every
instruction that is ever assembled is one that runs (`decode_of_encode`).
Cycle counts are base counts; `pagePenalty` marks the instructions that take
one more when indexing crosses a page.
-/
namespace Chiptune.Machine

/-- What an instruction does. The last ten are undocumented but stable on every chip. -/
inductive Mnemonic where
  | adc | and | asl | bcc | bcs | beq | bit | bmi | bne | bpl | brk | bvc | bvs | clc
  | cld | cli | clv | cmp | cpx | cpy | dec | dex | dey | eor | inc | inx | iny | jmp
  | jsr | lda | ldx | ldy | lsr | nop | ora | pha | php | pla | plp | rol | ror | rti
  | rts | sbc | sec | sed | sei | sta | stx | sty | tax | tay | tsx | txa | txs | tya
  | lax | sax | dcp | isc | slo | rla | sre | rra | anc | alr
deriving DecidableEq, Repr

/-- How an instruction finds its operand. -/
inductive Mode where
  /-- No operand. -/
  | implied
  /-- The accumulator: `ASL A`. -/
  | accumulator
  /-- The byte after the opcode: `#$nn`. -/
  | immediate
  /-- A byte of page zero: `$nn`. -/
  | zeroPage
  /-- `$nn,X`, staying within page zero. -/
  | zeroPageX
  /-- `$nn,Y`, staying within page zero. -/
  | zeroPageY
  /-- `$nnnn`. -/
  | absolute
  /-- `$nnnn,X`. -/
  | absoluteX
  /-- `$nnnn,Y`. -/
  | absoluteY
  /-- Through a pointer, for jumps only: `($nnnn)`. -/
  | indirect
  /-- Through the page-zero pointer picked by X: `($nn,X)`. -/
  | indexedIndirect
  /-- Y past a page-zero pointer: `($nn),Y`. -/
  | indirectIndexed
  /-- A signed distance from the next instruction. -/
  | relative
deriving DecidableEq, Repr

namespace Mnemonic

/-- The mnemonic as listings print it. -/
def name : Mnemonic → String
  | .adc => "ADC"
  | .and => "AND"
  | .asl => "ASL"
  | .bcc => "BCC"
  | .bcs => "BCS"
  | .beq => "BEQ"
  | .bit => "BIT"
  | .bmi => "BMI"
  | .bne => "BNE"
  | .bpl => "BPL"
  | .brk => "BRK"
  | .bvc => "BVC"
  | .bvs => "BVS"
  | .clc => "CLC"
  | .cld => "CLD"
  | .cli => "CLI"
  | .clv => "CLV"
  | .cmp => "CMP"
  | .cpx => "CPX"
  | .cpy => "CPY"
  | .dec => "DEC"
  | .dex => "DEX"
  | .dey => "DEY"
  | .eor => "EOR"
  | .inc => "INC"
  | .inx => "INX"
  | .iny => "INY"
  | .jmp => "JMP"
  | .jsr => "JSR"
  | .lda => "LDA"
  | .ldx => "LDX"
  | .ldy => "LDY"
  | .lsr => "LSR"
  | .nop => "NOP"
  | .ora => "ORA"
  | .pha => "PHA"
  | .php => "PHP"
  | .pla => "PLA"
  | .plp => "PLP"
  | .rol => "ROL"
  | .ror => "ROR"
  | .rti => "RTI"
  | .rts => "RTS"
  | .sbc => "SBC"
  | .sec => "SEC"
  | .sed => "SED"
  | .sei => "SEI"
  | .sta => "STA"
  | .stx => "STX"
  | .sty => "STY"
  | .tax => "TAX"
  | .tay => "TAY"
  | .tsx => "TSX"
  | .txa => "TXA"
  | .txs => "TXS"
  | .tya => "TYA"
  | .lax => "LAX"
  | .sax => "SAX"
  | .dcp => "DCP"
  | .isc => "ISC"
  | .slo => "SLO"
  | .rla => "RLA"
  | .sre => "SRE"
  | .rra => "RRA"
  | .anc => "ANC"
  | .alr => "ALR"

/-- Every mnemonic, documented ones first, each group in alphabetical or table order. -/
def all : List Mnemonic :=
  [.adc, .and, .asl, .bcc, .bcs, .beq, .bit, .bmi, .bne, .bpl, .brk, .bvc, .bvs, .clc, .cld,
    .cli, .clv, .cmp, .cpx, .cpy, .dec, .dex, .dey, .eor, .inc, .inx, .iny, .jmp, .jsr, .lda,
    .ldx, .ldy, .lsr, .nop, .ora, .pha, .php, .pla, .plp, .rol, .ror, .rti, .rts, .sbc, .sec,
    .sed, .sei, .sta, .stx, .sty, .tax, .tay, .tsx, .txa, .txs, .tya, .lax, .sax, .dcp, .isc,
    .slo, .rla, .sre, .rra, .anc, .alr]

end Mnemonic

namespace Mode

def name : Mode → String
  | .implied => "Implied"
  | .accumulator => "Accumulator"
  | .immediate => "Immediate"
  | .zeroPage => "ZeroPage"
  | .zeroPageX => "ZeroPageX"
  | .zeroPageY => "ZeroPageY"
  | .absolute => "Absolute"
  | .absoluteX => "AbsoluteX"
  | .absoluteY => "AbsoluteY"
  | .indirect => "Indirect"
  | .indexedIndirect => "IndexedIndirect"
  | .indirectIndexed => "IndirectIndexed"
  | .relative => "Relative"

def all : List Mode :=
  [.implied, .accumulator, .immediate, .zeroPage, .zeroPageX, .zeroPageY, .absolute, .absoluteX,
    .absoluteY, .indirect, .indexedIndirect, .indirectIndexed, .relative]

/-- Operand bytes after the opcode. -/
def operandLength : Mode → Nat
  | .implied | .accumulator => 0
  | .immediate | .zeroPage | .zeroPageX | .zeroPageY | .indexedIndirect | .indirectIndexed
  | .relative => 1
  | .absolute | .absoluteX | .absoluteY | .indirect => 2

end Mode

/-- What one opcode byte means. -/
structure Opcode where
  mnemonic : Mnemonic
  mode : Mode
  /-- Cycles before penalties. -/
  cycles : Nat
  /-- One cycle more when indexing crosses a page. -/
  pagePenalty : Bool
  /-- The instruction is in the manual. -/
  documented : Bool
deriving DecidableEq, Repr

namespace Opcode

/-- Bytes of the whole instruction. -/
def length (o : Opcode) : Nat := 1 + o.mode.operandLength

private def op (m : Mnemonic) (mode : Mode) (cycles : Nat) : Option Opcode :=
  some ⟨m, mode, cycles, false, true⟩

private def paged (m : Mnemonic) (mode : Mode) (cycles : Nat) : Option Opcode :=
  some ⟨m, mode, cycles, true, true⟩

private def extra (m : Mnemonic) (mode : Mode) (cycles : Nat) : Option Opcode :=
  some ⟨m, mode, cycles, false, false⟩

private def extraPaged (m : Mnemonic) (mode : Mode) (cycles : Nat) : Option Opcode :=
  some ⟨m, mode, cycles, true, false⟩

private def jam : Option Opcode := none

/-- The opcode matrix by high and low nibble; `jam` stands for the bytes that lock the
processor up and for the undocumented ones whose effect differs between chips. -/
def matrix : Vector (Vector (Option Opcode) 16) 16 :=
  #v[
    -- $00
    #v[op .brk .implied 7, op .ora .indexedIndirect 6, jam, extra .slo .indexedIndirect 8,
      extra .nop .zeroPage 3, op .ora .zeroPage 3, op .asl .zeroPage 5, extra .slo .zeroPage 5,
      op .php .implied 3, op .ora .immediate 2, op .asl .accumulator 2, extra .anc .immediate 2,
      extra .nop .absolute 4, op .ora .absolute 4, op .asl .absolute 6, extra .slo .absolute 6],
    -- $10
    #v[op .bpl .relative 2, paged .ora .indirectIndexed 5, jam, extra .slo .indirectIndexed 8,
      extra .nop .zeroPageX 4, op .ora .zeroPageX 4, op .asl .zeroPageX 6,
      extra .slo .zeroPageX 6, op .clc .implied 2, paged .ora .absoluteY 4, extra .nop .implied 2,
      extra .slo .absoluteY 7, extraPaged .nop .absoluteX 4, paged .ora .absoluteX 4,
      op .asl .absoluteX 7, extra .slo .absoluteX 7],
    -- $20
    #v[op .jsr .absolute 6, op .and .indexedIndirect 6, jam, extra .rla .indexedIndirect 8,
      op .bit .zeroPage 3, op .and .zeroPage 3, op .rol .zeroPage 5, extra .rla .zeroPage 5,
      op .plp .implied 4, op .and .immediate 2, op .rol .accumulator 2, extra .anc .immediate 2,
      op .bit .absolute 4, op .and .absolute 4, op .rol .absolute 6, extra .rla .absolute 6],
    -- $30
    #v[op .bmi .relative 2, paged .and .indirectIndexed 5, jam, extra .rla .indirectIndexed 8,
      extra .nop .zeroPageX 4, op .and .zeroPageX 4, op .rol .zeroPageX 6,
      extra .rla .zeroPageX 6, op .sec .implied 2, paged .and .absoluteY 4, extra .nop .implied 2,
      extra .rla .absoluteY 7, extraPaged .nop .absoluteX 4, paged .and .absoluteX 4,
      op .rol .absoluteX 7, extra .rla .absoluteX 7],
    -- $40
    #v[op .rti .implied 6, op .eor .indexedIndirect 6, jam, extra .sre .indexedIndirect 8,
      extra .nop .zeroPage 3, op .eor .zeroPage 3, op .lsr .zeroPage 5, extra .sre .zeroPage 5,
      op .pha .implied 3, op .eor .immediate 2, op .lsr .accumulator 2, extra .alr .immediate 2,
      op .jmp .absolute 3, op .eor .absolute 4, op .lsr .absolute 6, extra .sre .absolute 6],
    -- $50
    #v[op .bvc .relative 2, paged .eor .indirectIndexed 5, jam, extra .sre .indirectIndexed 8,
      extra .nop .zeroPageX 4, op .eor .zeroPageX 4, op .lsr .zeroPageX 6,
      extra .sre .zeroPageX 6, op .cli .implied 2, paged .eor .absoluteY 4, extra .nop .implied 2,
      extra .sre .absoluteY 7, extraPaged .nop .absoluteX 4, paged .eor .absoluteX 4,
      op .lsr .absoluteX 7, extra .sre .absoluteX 7],
    -- $60
    #v[op .rts .implied 6, op .adc .indexedIndirect 6, jam, extra .rra .indexedIndirect 8,
      extra .nop .zeroPage 3, op .adc .zeroPage 3, op .ror .zeroPage 5, extra .rra .zeroPage 5,
      op .pla .implied 4, op .adc .immediate 2, op .ror .accumulator 2, jam, op .jmp .indirect 5,
      op .adc .absolute 4, op .ror .absolute 6, extra .rra .absolute 6],
    -- $70
    #v[op .bvs .relative 2, paged .adc .indirectIndexed 5, jam, extra .rra .indirectIndexed 8,
      extra .nop .zeroPageX 4, op .adc .zeroPageX 4, op .ror .zeroPageX 6,
      extra .rra .zeroPageX 6, op .sei .implied 2, paged .adc .absoluteY 4, extra .nop .implied 2,
      extra .rra .absoluteY 7, extraPaged .nop .absoluteX 4, paged .adc .absoluteX 4,
      op .ror .absoluteX 7, extra .rra .absoluteX 7],
    -- $80
    #v[extra .nop .immediate 2, op .sta .indexedIndirect 6, extra .nop .immediate 2,
      extra .sax .indexedIndirect 6, op .sty .zeroPage 3, op .sta .zeroPage 3,
      op .stx .zeroPage 3, extra .sax .zeroPage 3, op .dey .implied 2, extra .nop .immediate 2,
      op .txa .implied 2, jam, op .sty .absolute 4, op .sta .absolute 4, op .stx .absolute 4,
      extra .sax .absolute 4],
    -- $90
    #v[op .bcc .relative 2, op .sta .indirectIndexed 6, jam, jam, op .sty .zeroPageX 4,
      op .sta .zeroPageX 4, op .stx .zeroPageY 4, extra .sax .zeroPageY 4, op .tya .implied 2,
      op .sta .absoluteY 5, op .txs .implied 2, jam, jam, op .sta .absoluteX 5, jam, jam],
    -- $A0
    #v[op .ldy .immediate 2, op .lda .indexedIndirect 6, op .ldx .immediate 2,
      extra .lax .indexedIndirect 6, op .ldy .zeroPage 3, op .lda .zeroPage 3,
      op .ldx .zeroPage 3, extra .lax .zeroPage 3, op .tay .implied 2, op .lda .immediate 2,
      op .tax .implied 2, jam, op .ldy .absolute 4, op .lda .absolute 4, op .ldx .absolute 4,
      extra .lax .absolute 4],
    -- $B0
    #v[op .bcs .relative 2, paged .lda .indirectIndexed 5, jam,
      extraPaged .lax .indirectIndexed 5, op .ldy .zeroPageX 4, op .lda .zeroPageX 4,
      op .ldx .zeroPageY 4, extra .lax .zeroPageY 4, op .clv .implied 2, paged .lda .absoluteY 4,
      op .tsx .implied 2, jam, paged .ldy .absoluteX 4, paged .lda .absoluteX 4,
      paged .ldx .absoluteY 4, extraPaged .lax .absoluteY 4],
    -- $C0
    #v[op .cpy .immediate 2, op .cmp .indexedIndirect 6, extra .nop .immediate 2,
      extra .dcp .indexedIndirect 8, op .cpy .zeroPage 3, op .cmp .zeroPage 3,
      op .dec .zeroPage 5, extra .dcp .zeroPage 5, op .iny .implied 2, op .cmp .immediate 2,
      op .dex .implied 2, jam, op .cpy .absolute 4, op .cmp .absolute 4, op .dec .absolute 6,
      extra .dcp .absolute 6],
    -- $D0
    #v[op .bne .relative 2, paged .cmp .indirectIndexed 5, jam, extra .dcp .indirectIndexed 8,
      extra .nop .zeroPageX 4, op .cmp .zeroPageX 4, op .dec .zeroPageX 6,
      extra .dcp .zeroPageX 6, op .cld .implied 2, paged .cmp .absoluteY 4, extra .nop .implied 2,
      extra .dcp .absoluteY 7, extraPaged .nop .absoluteX 4, paged .cmp .absoluteX 4,
      op .dec .absoluteX 7, extra .dcp .absoluteX 7],
    -- $E0
    #v[op .cpx .immediate 2, op .sbc .indexedIndirect 6, extra .nop .immediate 2,
      extra .isc .indexedIndirect 8, op .cpx .zeroPage 3, op .sbc .zeroPage 3,
      op .inc .zeroPage 5, extra .isc .zeroPage 5, op .inx .implied 2, op .sbc .immediate 2,
      op .nop .implied 2, extra .sbc .immediate 2, op .cpx .absolute 4, op .sbc .absolute 4,
      op .inc .absolute 6, extra .isc .absolute 6],
    -- $F0
    #v[op .beq .relative 2, paged .sbc .indirectIndexed 5, jam, extra .isc .indirectIndexed 8,
      extra .nop .zeroPageX 4, op .sbc .zeroPageX 4, op .inc .zeroPageX 6,
      extra .isc .zeroPageX 6, op .sed .implied 2, paged .sbc .absoluteY 4, extra .nop .implied 2,
      extra .isc .absoluteY 7, extraPaged .nop .absoluteX 4, paged .sbc .absoluteX 4,
      op .inc .absoluteX 7, extra .isc .absoluteX 7]]

/-- The instruction an opcode byte stands for. -/
def decode (byte : UInt8) : Option Opcode :=
  have := byte.toNat_lt
  matrix[byte.toNat / 16][byte.toNat % 16]

def bytes : List UInt8 := (List.range 256).map UInt8.ofNat

/-- Whether a byte encodes the instruction, in the manual's own way or not. -/
def encodes (m : Mnemonic) (mode : Mode) (documented : Bool) (byte : UInt8) : Bool :=
  match decode byte with
  | some o => o.mnemonic == m && o.mode == mode && (o.documented || !documented)
  | none => false

/-- The opcode byte of an instruction: the documented one, or else the first undocumented. -/
def encode (m : Mnemonic) (mode : Mode) : Option UInt8 :=
  bytes.find? (encodes m mode true) <|> bytes.find? (encodes m mode false)

theorem exists_decode_of_encodes {m : Mnemonic} {mode : Mode} {d : Bool} {b : UInt8}
    (h : encodes m mode d b = true) : ∃ o, decode b = some o ∧ o.mnemonic = m ∧ o.mode = mode := by
  unfold encodes at h
  split at h
  · next o ho => exact ⟨o, ho, by simp_all⟩
  · cases h

/-- What the assembler writes is what the processor reads. -/
theorem decode_of_encode {m : Mnemonic} {mode : Mode} {b : UInt8} (h : encode m mode = some b) :
    ∃ o, decode b = some o ∧ o.mnemonic = m ∧ o.mode = mode := by
  unfold encode at h
  cases hd : bytes.find? (encodes m mode true) with
  | some c =>
    rw [hd] at h
    cases h
    exact exists_decode_of_encodes (List.find?_some hd)
  | none =>
    rw [hd] at h
    exact exists_decode_of_encodes (List.find?_some h)

end Opcode

end Chiptune.Machine
