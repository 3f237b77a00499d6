/-
The characters that show nothing unless they are asked to.

A program without a better use for them leaves them out of the page: joiners,
direction marks, variation selectors, tags and the fillers of Korean, which are
letters by category and hold an empty place. These are the characters with the
Unicode property `Default_Ignorable_Code_Point`, version 17.0, those reserved
for later use included.
-/
import Chiptune.Character.Range

namespace Chiptune.Character

/-- The characters that show nothing by default, in ascending order. -/
def ignorable : List Range :=
  [⟨0xAD, 0xAD⟩, ⟨0x34F, 0x34F⟩, ⟨0x61C, 0x61C⟩, ⟨0x115F, 0x1160⟩, ⟨0x17B4, 0x17B5⟩,
    ⟨0x180B, 0x180F⟩, ⟨0x200B, 0x200F⟩, ⟨0x202A, 0x202E⟩, ⟨0x2060, 0x206F⟩, ⟨0x3164, 0x3164⟩,
    ⟨0xFE00, 0xFE0F⟩, ⟨0xFEFF, 0xFEFF⟩, ⟨0xFFA0, 0xFFA0⟩, ⟨0xFFF0, 0xFFF8⟩, ⟨0x1BCA0, 0x1BCA3⟩,
    ⟨0x1D173, 0x1D17A⟩, ⟨0xE0000, 0xE0FFF⟩]

/-- Whether a character shows nothing by default. -/
def isIgnorable (c : Char) : Bool := covers ignorable c.toNat

/-- The table of the characters that show nothing by default is in order. -/
theorem ascending_ignorable : ascending ignorable = true := by decide

end Chiptune.Character
