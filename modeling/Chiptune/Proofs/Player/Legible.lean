/-
The song as its player has it.

A step that looks like a marker is written with another first byte and read
back with it. With these bytes in the song itself nothing of its tables is lost
(`tableLoss?_legible`), and they are written as before.
-/
import Chiptune.Proofs.Player.Fit
import Chiptune.Proofs.Player.Rows
import Chiptune.Proofs.Song.Alike

namespace Chiptune.Player

open Song

namespace Rows

/-- The row with a first byte that reads back. -/
def legibleRow (kind : TableKind) : Row → Row
  | .step bytes => .step (stepBytes kind bytes)
  | row => row

/-- The table with rows that read back. -/
def legible (t : Table) : Table := { t with rows := t.rows.map (legibleRow t.kind) }

/-! ## Rows -/

theorem isMarker_substitute (kind : TableKind) : isMarker kind substitute = false := by cases kind <;> rfl

theorem length_stepBytes (kind : TableKind) (bytes : Bytes) : (stepBytes kind bytes).length = bytes.length := by
  cases bytes with
  | nil => rfl
  | cons first rest =>
    simp only [stepBytes]
    split <;> rfl

theorem collides_legibleRow (kind : TableKind) (row : Row) : collides kind (legibleRow kind row) = false := by
  cases row with
  | loop target => rfl
  | stop => rfl
  | step bytes =>
    cases bytes with
    | nil => rfl
    | cons first rest =>
      simp only [legibleRow, stepBytes]
      split
      · exact isMarker_substitute kind
      next h => simpa [collides] using h

theorem encodeRow_legibleRow (kind : TableKind) (columns : Nat) (row : Row) :
    encodeRow kind columns (legibleRow kind row) = encodeRow kind columns row := by
  cases row with
  | loop target => rfl
  | stop => rfl
  | step bytes =>
    have hsame : stepBytes kind (stepBytes kind bytes) = stepBytes kind bytes :=
      stepBytes_of_not_collides (collides_legibleRow kind (.step bytes))
    cases kind <;> simp only [legibleRow, encodeRow, hsame]

/-! ## Tables -/

theorem tableLoss?_legible (t : Table) : tableLoss? (legible t) = none := by
  have hcount : (legible t).rows.countP (collides t.kind) = 0 := by
    simp only [legible, List.countP_map, List.countP_eq_zero, Function.comp_apply, collides_legibleRow]
    simp
  exact if_pos hcount

theorem encodeTable_legible (t : Table) (columns : Nat) : encodeTable (legible t) columns = encodeTable t columns := by
  simp only [encodeTable, legible, List.mapM_map, Function.comp_def, encodeRow_legibleRow]

theorem isStep_legibleRow (kind : TableKind) (row : Row) : (legibleRow kind row).isStep = row.isStep := by
  cases row <;> rfl

theorem sound_legible {t : Table} (h : t.Sound) : (legible t).Sound := by
  refine ⟨?_, fun i row' hrow' => ?_⟩
  · have hopen := h.1
    unfold Table.isOpen at hopen ⊢
    simp only [legible, List.getLast?_map]
    cases hlast : t.rows.getLast? with
    | none => rfl
    | some row =>
      rw [hlast] at hopen
      simpa [isStep_legibleRow] using hopen
  · simp only [legible, List.getElem?_map, Option.map_eq_some_iff] at hrow'
    obtain ⟨row, hrow, rfl⟩ := hrow'
    have hsound := rowFaults_eq_nil.mp (h.2 i row hrow)
    refine rowFaults_eq_nil.mpr ?_
    cases row with
    | step bytes => exact (length_stepBytes t.kind bytes).trans hsound
    | stop => trivial
    | loop target =>
      obtain ⟨r, hr, hloop⟩ := hsound
      refine ⟨legibleRow t.kind r, by simp [legible, hr], fun u hu => ?_⟩
      cases r with
      | loop v => exact hloop v rfl
      | step bytes => cases hu
      | stop => cases hu

end Rows

/-! ## Songs -/

/-- The song with tables that read back. -/
def legible (s : Song) : Song := { s with tables := s.tables.map Rows.legible }

variable {t : Template} {s : Song}

theorem table?_legible (s : Song) (kind : TableKind) : (legible s).table? kind = (s.table? kind).map Rows.legible := by
  simp only [Song.table?, legible, List.find?_map]
  rfl

theorem alike_legible (s : Song) : s.Alike (legible s) where
  tempo := rfl
  instruments := rfl
  sequences := rfl
  orderLists := rfl
  tableLength kind := by
    unfold Song.tableLength
    rw [table?_legible]
    cases s.table? kind with
    | none => rfl
    | some table => exact List.length_map ..

theorem wellFormed_legible (h : s.WellFormed) : (legible s).WellFormed := by
  refine (alike_legible s).wellFormed h (List.pairwise_map.mpr h.tables.1) fun u hu => ?_
  obtain ⟨table, htable, rfl⟩ := List.mem_map.mp hu
  exact Rows.sound_legible (h.tables.2 table htable)

namespace Fit

/-! ## Alike songs -/

theorem commandsOf_alike {s' : Song} (h : s.Alike s') : commandsOf s' = commandsOf s := by
  rw [commandsOf, commandsOf, h.events]

/-- Songs that play alike need as much of every resource. -/
theorem required_alike {s' : Song} (h : s.Alike s') {c : Cut} (hc : c ∈ limits t) : c.required s' = c.required s := by
  simp only [limits, List.mem_append, List.mem_cons] at hc
  rcases hc with (hc | hc) | rfl | rfl | hc
  · obtain ⟨kind, -, hc⟩ := List.mem_filterMap.mp hc
    obtain ⟨spec, -, rfl⟩ := Option.map_eq_some_iff.mp hc
    exact h.tableLength kind
  · obtain ⟨spec, -, rfl⟩ := List.mem_map.mp hc
    exact congrArg List.length h.instruments
  · exact congrArg List.length (commandsOf_alike h)
  · have hlength := congrArg List.length h.sequences
    simp only [List.length_map] at hlength
    exact hlength
  · obtain ⟨voice, -, rfl⟩ := List.mem_map.mp hc
    simp only [orderCut, h.orderLists]

theorem Fits.alike {s' : Song} (hs : Fits t s) (h : s.Alike s') : Fits t s' := by
  intro c hc
  rw [required_alike h hc]
  exact hs c hc

theorem Supported.legible (h : Supported t s) : Supported t (legible s) := by
  refine ⟨h.commands, fun u hu => ?_⟩
  obtain ⟨table, htable, rfl⟩ := List.mem_map.mp hu
  have hslot := h.tables table htable
  simpa [hasSlot, Rows.legible] using hslot

theorem Supported.normal (h : Supported t s) : Supported t s.normal := by
  refine ⟨fun q' hq' e he => ?_, fun u hu => ?_⟩
  · obtain ⟨q, hq, rfl⟩ := List.mem_map.mp hq'
    exact h.commands q hq e he
  · obtain ⟨table, htable, -, rfl⟩ := mem_normal_tables.mp hu
    exact h.tables table htable

end Fit

end Chiptune.Player
