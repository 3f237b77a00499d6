/-
The writable registers of the sound chip and the bank that holds them.

Each of three voices has seven registers, and the filter and the volume share
four more. The chip answers to 32 offsets, mirrored through `$D400`-`$D7FF`;
the seven offsets past the last register read as zero and store nothing.
-/
import Chiptune.Byte

namespace Chiptune.Sound

/-- The registers of a voice. -/
inductive VoiceRegister where
  | freqLo | freqHi | pulseLo | pulseHi | control | attackDecay | sustainRelease
deriving DecidableEq, Repr

/-- A voice of the chip. -/
abbrev Voice := Fin 3

/-- A register that can be written. -/
inductive Register where
  | voice (v : Voice) (r : VoiceRegister)
  | cutoffLo | cutoffHi | resonance | modeVolume
deriving DecidableEq, Repr

/-- Start of the address window the chip answers in. -/
def windowStart : Nat := 0xD400

/-- First address past the window. -/
def windowEnd : Nat := 0xD800

/-- Whether an address belongs to the chip. -/
def inWindow (address : UInt16) : Bool :=
  decide (windowStart ≤ address.toNat) && decide (address.toNat < windowEnd)

/-- The bit of a control register that opens a voice's envelope. -/
def gate : UInt8 := 0x01

/-- Whether a control register's value has the gate open. -/
def gateOpen (control : UInt8) : Bool := control &&& gate != 0

/-- A control register's value with the gate closed. -/
def withoutGate (control : UInt8) : UInt8 := control &&& 0xFE

namespace VoiceRegister

/-- The registers of a voice in offset order. -/
def all : List VoiceRegister :=
  [.freqLo, .freqHi, .pulseLo, .pulseHi, .control, .attackDecay, .sustainRelease]

/-- Offset from the voice's first register. -/
def offset : VoiceRegister → Nat
  | .freqLo => 0
  | .freqHi => 1
  | .pulseLo => 2
  | .pulseHi => 3
  | .control => 4
  | .attackDecay => 5
  | .sustainRelease => 6

def name : VoiceRegister → String
  | .freqLo => "FreqLo"
  | .freqHi => "FreqHi"
  | .pulseLo => "PwLo"
  | .pulseHi => "PwHi"
  | .control => "Control"
  | .attackDecay => "AttackDecay"
  | .sustainRelease => "SustainRelease"

end VoiceRegister

namespace Voice

/-- The three voices. -/
def all : List Voice := [0, 1, 2]

/-- The voice of a number; voices repeat every three. -/
def ofNat (n : Nat) : Voice := ⟨n % 3, Nat.mod_lt n (by omega)⟩

end Voice

namespace Register

/-- Offset from the chip's first register. -/
def offset : Register → Nat
  | .voice v r => 7 * v.val + r.offset
  | .cutoffLo => 21
  | .cutoffHi => 22
  | .resonance => 23
  | .modeVolume => 24

/-- Every register in offset order. -/
def all : List Register :=
  Voice.all.flatMap (fun v => VoiceRegister.all.map (.voice v)) ++
    [.cutoffLo, .cutoffHi, .resonance, .modeVolume]

/-- The register at an offset, mirrored every 32 bytes. -/
def ofOffset? (offset : UInt8) : Option Register := all[offset.toNat % 32]?

/-- The register at an address of the window. -/
def ofAddress? (address : UInt16) : Option Register :=
  if inWindow address then ofOffset? (Word.low address) else none

/-- The voice a register belongs to, if it is one of a voice. -/
def voice? : Register → Option Voice
  | .voice v _ => some v
  | .cutoffLo | .cutoffHi | .resonance | .modeVolume => none

/-- Whether the register is one of the four for filter and volume. -/
def isFilter (r : Register) : Bool := r.voice?.isNone

/-- The register's name, such as `Voice0FreqLo`. -/
def name : Register → String
  | .voice v r => s!"Voice{v.val}" ++ r.name
  | .cutoffLo => "FilterCutoffLo"
  | .cutoffHi => "FilterCutoffHi"
  | .resonance => "ResonanceRouting"
  | .modeVolume => "ModeVolume"

/-- The register's name with its address, such as `Voice0FreqLo ($D400)`. -/
def label (r : Register) : String := r.name ++ " ($D4" ++ Hex.upper 2 r.offset ++ ")"

theorem offset_lt (r : Register) : r.offset < 25 := by
  cases r with
  | voice v r =>
    have := v.isLt
    cases r <;> simp only [offset, VoiceRegister.offset] <;> omega
  | _ => decide

theorem all_getElem?_offset (r : Register) : all[r.offset]? = some r := by
  cases r with
  | voice v r => revert v; cases r <;> decide
  | _ => rfl

theorem mem_all (r : Register) : r ∈ all := List.mem_of_getElem? (all_getElem?_offset r)

end Register

/-! ## The bank -/

/-- The last value written to each register. -/
structure Bank where
  values : Vector UInt8 25
deriving DecidableEq, Repr

namespace Bank

/-- Every register zero. -/
def cleared : Bank := ⟨Vector.replicate 25 0⟩

instance : Inhabited Bank := ⟨cleared⟩

/-- The value of a register. -/
def get (b : Bank) (r : Register) : UInt8 :=
  have := r.offset_lt
  b.values[r.offset]

/-- The bank with one register written. -/
def set (b : Bank) (r : Register) (value : UInt8) : Bank :=
  ⟨b.values.set r.offset value r.offset_lt⟩

/-- What the processor reads at an offset; offsets without a register read as zero. -/
def read (b : Bank) (offset : UInt8) : UInt8 :=
  match Register.ofOffset? offset with
  | some r => b.get r
  | none => 0

/-- What the processor writes at an offset: the register written, if one is there, and the
bank after it. -/
def write (b : Bank) (offset value : UInt8) : Option Register × Bank :=
  match Register.ofOffset? offset with
  | some r => (some r, b.set r value)
  | none => (none, b)

/-- The bank whose registers hold the given bytes, zero where there are too few. -/
def ofBytes (bytes : Bytes) : Bank := ⟨Vector.ofFn fun i => bytes[i.val]?.getD 0⟩

/-- The values in offset order. -/
def toBytes (b : Bank) : Bytes := b.values.toList

/-- The frequency of a voice. -/
def frequency (b : Bank) (v : Voice) : UInt16 :=
  Word.ofBytes (b.get (.voice v .freqLo)) (b.get (.voice v .freqHi))

theorem get_set (b : Bank) (r s : Register) (v : UInt8) :
    (b.set r v).get s = if r = s then v else b.get s := by
  by_cases h : r = s
  · subst h
    simp [get, set]
  · have hne : r.offset ≠ s.offset := by
      intro e
      have hr := Register.all_getElem?_offset r
      rw [e, Register.all_getElem?_offset s] at hr
      exact h (Option.some.inj hr).symm
    simp [get, set, hne, h]

end Bank

end Chiptune.Sound
