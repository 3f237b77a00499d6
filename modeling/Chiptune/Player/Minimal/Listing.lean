/-
The code of the minimal player.

It plays three voices from order lists and sequences, with a wave, a pulse and
a filter program stepped once per frame; a row lasts as many frames as the
tempo says. The zero page holds pointers to the order list and the sequence
while a row is read. A program at its end stays there, and the value `$FF`
stands for no program.
-/
import Chiptune.Player.Assembly
import Chiptune.Player.Music

namespace Chiptune.Player.Minimal

open Machine Song Music

/-! ## Data -/

/-- The player's variables. Those up to `pulseHi` have a byte for each voice. -/
inductive Variable where
  | orderLo | orderHi
  /-- Byte of the order list to read next. -/
  | orderPosition
  | sequenceLo | sequenceHi
  | transpose
  /-- Rows still to rest. -/
  | wait
  | note | instrument
  /-- The next note is tied. -/
  | tie
  | gate
  /-- The voice has played a note. -/
  | active
  /-- The voice has reached the end of its order list. -/
  | stopped
  | wavePosition | waveControl | waveOffset
  | pulsePosition | pulseHold | pulseLo | pulseHi
  | tempo
  /-- Frames until the next row. -/
  | tick
  | filterPosition | modeVolume
  /-- Second byte of the event being read. -/
  | parameter
  | flags | attackDecay | sustainRelease | scratchLo | scratchHi
deriving DecidableEq, Repr

/-- A variable's offset among the variables. -/
def Variable.offset : Variable → UInt16
  | .orderLo => 0
  | .orderHi => 3
  | .orderPosition => 6
  | .sequenceLo => 9
  | .sequenceHi => 12
  | .transpose => 15
  | .wait => 18
  | .note => 21
  | .instrument => 24
  | .tie => 27
  | .gate => 30
  | .active => 33
  | .stopped => 36
  | .wavePosition => 39
  | .waveControl => 42
  | .waveOffset => 45
  | .pulsePosition => 48
  | .pulseHold => 51
  | .pulseLo => 54
  | .pulseHi => 57
  | .tempo => 60
  | .tick => 61
  | .filterPosition => 62
  | .modeVolume => 63
  | .parameter => 64
  | .flags => 65
  | .attackDecay => 66
  | .sustainRelease => 67
  | .scratchLo => 68
  | .scratchHi => 69

/-- Bytes of variables. -/
def variableBytes : UInt16 := 70

/-- Zero page address of the pointer to the sequence. -/
def sequencePointer : UInt8 := 0xFB

/-- Zero page address of the pointer to the order list. -/
def orderPointer : UInt8 := 0xFD

/-- The player's slots. -/
def slots : List SlotSpec :=
  [⟨.instruments, 6, 32, "Instruments"⟩, ⟨.commands, 3, 32, "Commands"⟩,
    ⟨.wave, 2, 128, "Wave"⟩, ⟨.pulse, 3, 128, "Pulse"⟩, ⟨.filter, 4, 128, "Filter"⟩]

/-! ## Operands -/

/-- An instruction. -/
def op (mnemonic : Mnemonic) (argument : Argument := .implied) : Item :=
  .instruction mnemonic argument

/-- A variable, of voice `voice` if it has a byte for each. -/
def var (v : Variable) (voice : UInt16 := 0) : Target := .symbol .workArea (v.offset + voice)

/-- A register of the chip. -/
def chip (register : UInt16) : Target := .fixed (0xD400 + register)

/-- The start of a part of the player's memory. -/
def start (symbol : Symbol) : Target := .symbol symbol 0

/-- A column of a slot. -/
def column (slot : Slot) (index : UInt16) : Target :=
  let capacity : UInt8 := ((slots.find? (·.slot == slot)).map (·.capacity)).getD 0
  .symbol (.table slot) (index * capacity.toUInt16)

/-! ## Code -/

/-- The ways into the code, and the offsets of the voices' registers. -/
def entries : List Item :=
  [op .jmp (.absolute (.label "init")), op .jmp (.absolute (.label "play")),
    op .jmp (.absolute (.label "stop")),
    .label "voice_off", .data [0, 7, 14]]

/-- Clear the variables, read the tempo and start every voice at its first order entry. -/
def initSong : List Item :=
  [.label "init", op .lda (.immediate 0), op .ldx (.immediate 69),
    .label "init_clear", op .sta (.absoluteX (start .workArea)), op .dex,
    op .bpl (.branch "init_clear"), op .lda (.absolute (start .songSettings)),
    op .sta (.absolute (var .tempo)), op .lda (.immediate 1),
    op .sta (.absolute (var .tick)), op .lda (.immediate 0xFF),
    op .sta (.absolute (var .filterPosition)), op .lda (.immediate 0x0F),
    op .sta (.absolute (var .modeVolume)), op .sta (.absolute (chip 0x18)),
    op .ldx (.immediate 2),
    .label "init_voice", op .lda (.immediate 0xFF), op .sta (.absoluteX (var .pulsePosition)),
    op .lda (.absoluteX (start .orderListsLo)), op .sta (.absoluteX (var .orderLo)),
    op .lda (.absoluteX (start .orderListsHi)), op .sta (.absoluteX (var .orderHi)),
    op .jsr (.absolute (.label "next_order")), op .dex, op .bpl (.branch "init_voice"), op .rts]

/-- Take the next order entry of voice X: transposition and sequence, following a loop. -/
def nextOrder : List Item :=
  [.label "next_order", op .lda (.absoluteX (var .orderLo)), op .sta (.zeroPage orderPointer),
    op .lda (.absoluteX (var .orderHi)), op .sta (.zeroPage (orderPointer + 1)),
    op .ldy (.absoluteX (var .orderPosition)), op .lda (.indirectIndexed orderPointer),
    op .cmp (.immediate Music.stopMark), op .beq (.branch "order_stop"),
    op .cmp (.immediate Music.loopMark), op .bne (.branch "order_entry"), op .iny,
    op .lda (.indirectIndexed orderPointer), op .asl .accumulator,
    op .sta (.absoluteX (var .orderPosition)), op .tay,
    op .lda (.indirectIndexed orderPointer),
    .label "order_entry", op .sec, op .sbc (.immediate Music.transposeBias),
    op .sta (.absoluteX (var .transpose)), op .iny, op .lda (.indirectIndexed orderPointer),
    op .tay, op .lda (.absoluteY (start .sequencesLo)), op .sta (.absoluteX (var .sequenceLo)),
    op .lda (.absoluteY (start .sequencesHi)), op .sta (.absoluteX (var .sequenceHi)),
    op .lda (.absoluteX (var .orderPosition)), op .clc, op .adc (.immediate 2),
    op .sta (.absoluteX (var .orderPosition)), op .rts]

/-- Silence voice X for good. -/
def orderStop : List Item :=
  [.label "order_stop", op .lda (.immediate 1), op .sta (.absoluteX (var .stopped)),
    op .lda (.immediate 0), op .sta (.absoluteX (var .gate)),
    op .ldy (.absoluteX (.label "voice_off")), op .lda (.absoluteX (var .waveControl)),
    op .and (.immediate 0xFE), op .sta (.absoluteY (chip 0x04)), op .rts]

/-- One frame: a row of every voice when the tick runs out, then the registers. -/
def play : List Item :=
  [.label "play", op .dec (.absolute (var .tick)), op .bne (.branch "play_frame"),
    op .lda (.absolute (var .tempo)), op .sta (.absolute (var .tick)),
    op .ldx (.immediate 2),
    .label "play_rows", op .lda (.absoluteX (var .stopped)),
    op .bne (.branch "play_rows_next"), op .jsr (.absolute (.label "row")),
    .label "play_rows_next", op .dex, op .bpl (.branch "play_rows"),
    .label "play_frame", op .ldx (.immediate 2),
    .label "play_voices", op .lda (.absoluteX (var .stopped)),
    op .bne (.branch "play_voices_next"), op .lda (.absoluteX (var .active)),
    op .beq (.branch "play_voices_next"), op .jsr (.absolute (.label "update_voice")),
    .label "play_voices_next", op .dex, op .bpl (.branch "play_voices"),
    op .jmp (.absolute (.label "update_filter"))]

/-- One row of voice X: wait out a rest, or read events up to one that takes a row. -/
def row : List Item :=
  [.label "row", op .lda (.absoluteX (var .wait)), op .beq (.branch "row_read"),
    op .dec (.absoluteX (var .wait)), op .rts,
    .label "row_read", op .lda (.absoluteX (var .sequenceLo)),
    op .sta (.zeroPage sequencePointer), op .lda (.absoluteX (var .sequenceHi)),
    op .sta (.zeroPage (sequencePointer + 1)), op .ldy (.immediate 0),
    op .lda (.indirectIndexed sequencePointer), op .cmp (.immediate (EventClass.code .finish)),
    op .bne (.branch "row_event"), op .jsr (.absolute (.label "next_order")),
    op .lda (.absoluteX (var .stopped)), op .beq (.branch "row_read"), op .rts,
    .label "row_event", op .pha, op .iny, op .lda (.indirectIndexed sequencePointer),
    op .sta (.absolute (var .parameter)), op .lda (.absoluteX (var .sequenceLo)), op .clc,
    op .adc (.immediate 2), op .sta (.absoluteX (var .sequenceLo)),
    op .bcc (.branch "row_dispatch"), op .inc (.absoluteX (var .sequenceHi))]

/-- What the events of voice X do. -/
def rowEvents : List Item :=
  [.label "row_dispatch", op .pla, op .bne (.branch "row_not_note"),
    op .jmp (.absolute (.label "note_on")),
    .label "row_not_note", op .cmp (.immediate (EventClass.code .noteOff)),
    op .bne (.branch "row_not_off"), op .lda (.immediate 0), op .sta (.absoluteX (var .gate)),
    op .rts,
    .label "row_not_off", op .cmp (.immediate (EventClass.code .tie)),
    op .bne (.branch "row_not_tie"), op .lda (.immediate 1), op .sta (.absoluteX (var .tie)),
    op .jmp (.absolute (.label "row_read")),
    .label "row_not_tie", op .cmp (.immediate (EventClass.code .instrument)),
    op .bne (.branch "row_not_instr"), op .lda (.absolute (var .parameter)),
    op .sta (.absoluteX (var .instrument)), op .jmp (.absolute (.label "row_read")),
    .label "row_not_instr", op .cmp (.immediate (EventClass.code .rest)),
    op .bne (.branch "row_command"), op .ldy (.absolute (var .parameter)), op .dey, op .tya,
    op .sta (.absoluteX (var .wait)), op .rts,
    .label "row_command", op .jsr (.absolute (.label "command")),
    op .jmp (.absolute (.label "row_read"))]

/-- A note of voice X; a tied one changes the pitch only. -/
def noteOn : List Item :=
  [.label "note_on", op .lda (.absolute (var .parameter)), op .clc,
    op .adc (.absoluteX (var .transpose)), op .sta (.absoluteX (var .note)),
    op .lda (.immediate 1), op .sta (.absoluteX (var .active)),
    op .lda (.absoluteX (var .tie)), op .beq (.branch "note_trigger"), op .lda (.immediate 0),
    op .sta (.absoluteX (var .tie)), op .rts,
    .label "note_trigger", op .lda (.immediate 1), op .sta (.absoluteX (var .gate)),
    op .ldy (.absoluteX (var .instrument)), op .lda (.absoluteY (column .instruments 2)),
    op .sta (.absolute (var .flags)), op .lda (.absoluteY (column .instruments 0)),
    op .sta (.absolute (var .attackDecay)), op .lda (.absoluteY (column .instruments 1)),
    op .sta (.absolute (var .sustainRelease)), op .lda (.absoluteY (column .instruments 3)),
    op .sta (.absoluteX (var .wavePosition)), op .lda (.absoluteY (column .instruments 4)),
    op .sta (.absoluteX (var .pulsePosition)), op .lda (.immediate 0),
    op .sta (.absoluteX (var .pulseHold)), op .lda (.absoluteY (column .instruments 5)),
    op .cmp (.immediate 0xFF), op .beq (.branch "note_no_filter"),
    op .sta (.absolute (var .filterPosition))]

/-- Close the gate of voice X and set its envelope. The envelope starts again when the gate
opens, which the update of the voice does later in the frame. -/
def noteEnvelope : List Item :=
  [.label "note_no_filter", op .ldy (.absoluteX (.label "voice_off")),
    op .lda (.absoluteX (var .waveControl)), op .and (.immediate 0xFE),
    op .sta (.absoluteY (chip 0x04)), op .lda (.absolute (var .flags)),
    op .and (.immediate 0x01), op .beq (.branch "note_envelope"), op .lda (.immediate 0),
    op .sta (.absoluteY (chip 0x05)), op .sta (.absoluteY (chip 0x06)),
    .label "note_envelope", op .lda (.absolute (var .attackDecay)),
    op .sta (.absoluteY (chip 0x05)), op .lda (.absolute (var .sustainRelease)),
    op .sta (.absoluteY (chip 0x06)), op .rts]

/-- One frame of the wave program of voice X. -/
def updateWave : List Item :=
  [.label "update_voice", op .ldy (.absoluteX (var .wavePosition)),
    op .lda (.absoluteY (column .wave 0)), op .cmp (.immediate 0x7F),
    op .bne (.branch "wave_not_loop"), op .lda (.absoluteY (column .wave 1)),
    op .sta (.absoluteX (var .wavePosition)), op .tay, op .lda (.absoluteY (column .wave 0)),
    .label "wave_not_loop", op .cmp (.immediate 0x7E), op .beq (.branch "wave_hold"),
    op .sta (.absoluteX (var .waveControl)), op .lda (.absoluteY (column .wave 1)),
    op .sta (.absoluteX (var .waveOffset)), op .inc (.absoluteX (var .wavePosition))]

/-- The frequency of voice X, and whether its pulse program reads a row. -/
def updatePitch : List Item :=
  [.label "wave_hold", op .lda (.absoluteX (var .note)), op .clc,
    op .adc (.absoluteX (var .waveOffset)), op .tay, op .lda (.absoluteY (start .freqLo)),
    op .sta (.absolute (var .scratchLo)), op .lda (.absoluteY (start .freqHi)),
    op .sta (.absolute (var .scratchHi)), op .ldy (.absoluteX (var .pulsePosition)),
    op .cpy (.immediate 0xFF), op .beq (.branch "voice_regs_offset"),
    op .lda (.absoluteX (var .pulseHold)), op .beq (.branch "pulse_read"),
    op .dec (.absoluteX (var .pulseHold)), op .jmp (.absolute (.label "pulse_write"))]

/-- One frame of the pulse program of voice X. -/
def updatePulse : List Item :=
  [.label "pulse_read", op .lda (.absoluteY (column .pulse 0)), op .cmp (.immediate 0x7F),
    op .bne (.branch "pulse_not_loop"), op .lda (.absoluteY (column .pulse 1)),
    op .sta (.absoluteX (var .pulsePosition)), op .tay, op .lda (.absoluteY (column .pulse 0)),
    .label "pulse_not_loop", op .cmp (.immediate 0x7E), op .beq (.branch "pulse_write"),
    op .sta (.absoluteX (var .pulseHi)), op .lda (.absoluteY (column .pulse 1)),
    op .sta (.absoluteX (var .pulseLo)), op .lda (.absoluteY (column .pulse 2)),
    op .beq (.branch "pulse_hold_set"), op .sec, op .sbc (.immediate 1),
    .label "pulse_hold_set", op .sta (.absoluteX (var .pulseHold)),
    op .inc (.absoluteX (var .pulsePosition)),
    .label "pulse_write", op .ldy (.absoluteX (.label "voice_off")),
    op .lda (.absoluteX (var .pulseLo)), op .sta (.absoluteY (chip 0x02)),
    op .lda (.absoluteX (var .pulseHi)), op .sta (.absoluteY (chip 0x03)),
    op .jmp (.absolute (.label "voice_regs"))]

/-- The frequency and control registers of voice X. -/
def updateRegisters : List Item :=
  [.label "voice_regs_offset", op .ldy (.absoluteX (.label "voice_off")),
    .label "voice_regs", op .lda (.absolute (var .scratchLo)),
    op .sta (.absoluteY (chip 0x00)), op .lda (.absolute (var .scratchHi)),
    op .sta (.absoluteY (chip 0x01)), op .lda (.absoluteX (var .waveControl)),
    op .and (.immediate 0xFE), op .ora (.absoluteX (var .gate)),
    op .sta (.absoluteY (chip 0x04)), op .rts]

/-- One frame of the filter program. -/
def updateFilter : List Item :=
  [.label "update_filter", op .ldy (.absolute (var .filterPosition)),
    op .cpy (.immediate 0xFF), op .beq (.branch "filter_done"),
    op .lda (.absoluteY (column .filter 0)), op .cmp (.immediate 0x7F),
    op .bne (.branch "filter_not_loop"), op .lda (.absoluteY (column .filter 1)),
    op .sta (.absolute (var .filterPosition)), op .tay,
    op .lda (.absoluteY (column .filter 0)),
    .label "filter_not_loop", op .cmp (.immediate 0x7E), op .beq (.branch "filter_done"),
    op .sta (.absolute (chip 0x15)), op .lda (.absoluteY (column .filter 1)),
    op .sta (.absolute (chip 0x16)), op .lda (.absoluteY (column .filter 2)),
    op .sta (.absolute (chip 0x17)), op .lda (.absoluteY (column .filter 3)),
    op .sta (.absolute (var .modeVolume)), op .sta (.absolute (chip 0x18)),
    op .inc (.absolute (var .filterPosition)),
    .label "filter_done", op .rts]

/-- A command of voice X. -/
def command : List Item :=
  [.label "command", op .ldy (.absolute (var .parameter)),
    op .lda (.absoluteY (column .commands 0)), op .cmp (.immediate (CommandKind.id .setAdsr)),
    op .bne (.branch "command_not_adsr"), op .lda (.absoluteY (column .commands 1)),
    op .sta (.absolute (var .attackDecay)), op .lda (.absoluteY (column .commands 2)),
    op .sta (.absolute (var .sustainRelease)), op .ldy (.absoluteX (.label "voice_off")),
    op .lda (.absolute (var .attackDecay)), op .sta (.absoluteY (chip 0x05)),
    op .lda (.absolute (var .sustainRelease)), op .sta (.absoluteY (chip 0x06)), op .rts,
    .label "command_not_adsr", op .cmp (.immediate (CommandKind.id .setTempo)),
    op .bne (.branch "command_not_tempo"), op .lda (.absoluteY (column .commands 1)),
    op .sta (.absolute (var .tempo)), op .rts,
    .label "command_not_tempo", op .cmp (.immediate (CommandKind.id .setVolume)),
    op .bne (.branch "command_not_volume"), op .lda (.absoluteY (column .commands 1)),
    op .and (.immediate 0x0F), op .sta (.absolute (var .scratchLo)),
    op .lda (.absolute (var .modeVolume)), op .and (.immediate 0xF0),
    op .ora (.absolute (var .scratchLo)), op .sta (.absolute (var .modeVolume)),
    op .sta (.absolute (chip 0x18)), op .rts,
    .label "command_not_volume", op .cmp (.immediate (CommandKind.id .filterProgram)),
    op .bne (.branch "command_done"), op .lda (.absoluteY (column .commands 1)),
    op .sta (.absolute (var .filterPosition)),
    .label "command_done", op .rts]

/-- Silence the chip and stop every voice. -/
def stop : List Item :=
  [.label "stop", op .lda (.immediate 0), op .sta (.absolute (chip 0x04)),
    op .sta (.absolute (chip 0x0B)), op .sta (.absolute (chip 0x12)),
    op .sta (.absolute (chip 0x18)), op .lda (.immediate 1),
    op .sta (.absolute (var .stopped)), op .sta (.absolute (var .stopped 1)),
    op .sta (.absolute (var .stopped 2)), op .rts]

/-- The whole code. -/
def listing : List Item :=
  entries ++ initSong ++ nextOrder ++ orderStop ++ play ++ row ++ rowEvents ++ noteOn ++
    noteEnvelope ++ updateWave ++ updatePitch ++ updatePulse ++ updateRegisters ++ updateFilter ++
    command ++ stop

end Chiptune.Player.Minimal
