/-
**What any encoding decodes to**, whatever had to be dropped or cut.

What is built is filled with the song as it was cut, with steps that read back
(`Packed.filled`). So its file gives back that song.
-/
import Chiptune.Proofs.Player.Kept
import Chiptune.Proofs.Player.Stable

namespace Chiptune.Player

open File Song

variable {s : Song} {t : Template} {options : EncodeOptions} {j j' : Journal} {e : Encoded}

/-- The song as a player has it, whatever had to be dropped or cut. -/
def kept (t : Template) (s : Song) : Song := legible (Fit.truncated t (Fit.playable t s))

/-- What is encoded is a player filled with what is kept of the song. -/
theorem filled_of_packed (p : Encode.Packed t (Fit.truncated t (Fit.playable t s)) (Fit.keptCommands t (Fit.playable t s))) :
    ∃ f : Encode.Filled t (kept t s) (Fit.keptCommands t (Fit.playable t s)),
      f.base = p.base ∧ f.slots = p.slots ∧ f.container = p.container :=
  ⟨p.filled (Fit.fits_truncated t _) (Fit.supported_playable t s).truncated (Fit.length_keptCommands t _)
    (Fit.known_truncated t _), rfl, rfl, rfl⟩

/-- **Whatever is encoded decodes** to what is kept of the song. -/
theorem decode_kept (ht : t.Schematic) (h : encode s t options j = .ok e j') :
    ∃ c, Container.parse e.bytes = .ok c ∧ decode c = .ok (kept t s).normal := by
  obtain ⟨-, p, hcontainer, -⟩ := packed_of_encode h
  obtain ⟨f, -, -, hfilled⟩ := filled_of_packed p
  obtain ⟨-, hbytes⟩ := collecting_of_encode h
  rw [hcontainer, ← hfilled] at hbytes
  have hextra : ∀ b ∈ f.container.extraBlocks, b.id ≠ Container.endId ∧ ∀ name, b.id ≠ Container.blockId name := by
    intro b hb
    cases hb
  exact ⟨f.written, Container.parse_toBytes hextra f.length_image_le hbytes, f.decode_written ht⟩

end Chiptune.Player
