/-
Pitches and the frequencies the chip plays them at.

A pitch counts semitones from C-0; A-4 is pitch 57 and sounds at 440 Hz on a
PAL machine. The frequency register counts cycles of the 985248 Hz clock in
units of 2^-24, so a pitch's value is 440 * 2^((pitch - 57) / 12) * 2^24 /
985248, rounded to the nearest integer, and B-7 is past what it can hold.
-/
import Chiptune.Byte

namespace Chiptune.Sound.Pitch

/-- The pitches a song can use, C-0 to B-7. -/
def count : Nat := 96

/-- The highest pitch a song can use. -/
def highest : Nat := 95

/-- Frequency register values of the pitches a song can use. -/
def frequencies : List Nat :=
  [
    278, 295, 313, 331, 351, 372, 394, 417, 442, 468, 496, 526,
    557, 590, 625, 662, 702, 743, 788, 834, 884, 937, 992, 1051,
    1114, 1180, 1250, 1325, 1403, 1487, 1575, 1669, 1768, 1873, 1985, 2103,
    2228, 2360, 2500, 2649, 2807, 2973, 3150, 3338, 3536, 3746, 3969, 4205,
    4455, 4720, 5001, 5298, 5613, 5947, 6300, 6675, 7072, 7493, 7938, 8410,
    8910, 9440, 10001, 10596, 11226, 11894, 12601, 13350, 14144, 14985, 15876, 16820,
    17820, 18880, 20003, 21192, 22452, 23787, 25202, 26700, 28288, 29970, 31752, 33640,
    35641, 37760, 40005, 42384, 44904, 47574, 50403, 53401, 56576, 59940, 63504, 65535]

/-- The frequency register value of a pitch; everything from B-7 up saturates. -/
def frequency (pitch : Nat) : UInt16 := UInt16.ofNat (frequencies[pitch]?.getD 0xFFFF)

/-- How far apart two frequency values are. -/
def distance (f g : Nat) : Nat := (f - g) + (g - f)

/-- The index of the value nearest to `f`, the first one when several are as near. The values
given stand from `index` on; `best` is the best index before them, `gap` its distance. -/
def nearestFrom (f best gap index : Nat) : List Nat → Nat
  | [] => best
  | g :: gs =>
    if distance f g < gap then nearestFrom f index (distance f g) (index + 1) gs
    else nearestFrom f best gap (index + 1) gs

/-- The pitch whose frequency is nearest, the lower one when two are as near; silence has none. -/
def nearest? (frequency : UInt16) : Option UInt8 :=
  if frequency = 0 then none
  else some (UInt8.ofNat (nearestFrom frequency.toNat 0 0x10000 0 frequencies))

/-- Names of the semitones of an octave. -/
def semitoneNames : List String :=
  ["C-", "C#", "D-", "D#", "E-", "F-", "F#", "G-", "G#", "A-", "A#", "B-"]

/-- A pitch as trackers write it: `C-4` for 48. -/
def name (pitch : Nat) : String :=
  (semitoneNames[pitch % 12]?.getD "") ++ toString (pitch / 12)

end Chiptune.Sound.Pitch
