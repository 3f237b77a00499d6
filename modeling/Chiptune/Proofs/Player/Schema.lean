/-
The schema of a player's slots: how many bytes a row of each takes.

A template that keeps to it has room for whatever a song's rows are, so its
slots read back; the minimal player's template does (`minimal_schematic`).
-/
import Chiptune.Player.Minimal.Template
import Chiptune.Proofs.Song.WellFormed

namespace Chiptune.Player

open Song

/-- Bytes of a row. -/
def Slot.columns : Slot → Nat
  | .instruments => 6
  | .commands => 3
  | .wave => 2
  | .pulse => 3
  | .filter => 4
  | .arpeggio => 1

theorem Slot.columns_of_table? {slot : Slot} {kind : TableKind} (h : slot.table? = some kind) :
    slot.columns = kind.width := by
  cases slot <;> cases h <;> rfl

theorem Slot.eq_ofTable {slot : Slot} {kind : TableKind} (h : slot.table? = some kind) :
    slot = .ofTable kind := by
  cases slot <;> cases h <;> rfl

namespace Template

/-- Each slot is there once at most and has the columns of its schema; instruments and commands
have one. -/
structure Schematic (t : Template) : Prop where
  distinct : t.tables.Pairwise fun a b => a.slot ≠ b.slot
  columns : ∀ spec ∈ t.tables, spec.columns.toNat = spec.slot.columns
  instruments : ∃ spec ∈ t.tables, spec.slot = .instruments
  commands : ∃ spec ∈ t.tables, spec.slot = .commands

theorem Schematic.spec?_eq_some {t : Template} (h : t.Schematic) {spec : SlotSpec}
    (hspec : spec ∈ t.tables) : t.spec? spec.slot = some spec := find?_of_pairwise h.distinct hspec

end Template

theorem minimal_schematic : Minimal.template.Schematic where
  distinct := by decide
  columns := by decide
  instruments := by decide
  commands := by decide

end Chiptune.Player
