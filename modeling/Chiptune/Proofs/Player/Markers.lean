/-
The one change that writing makes to a table.

A step cannot start with a byte that marks a loop or an end. Where it would,
another byte stands in for that one, and what is replaced is told, once for a
table. Every other row reads back as it is from any number of columns that
holds a step (`markers_alone`).
-/
import Chiptune.Player.Encode
import Chiptune.Proofs.Player.Legible

namespace Chiptune.Player

open Song

namespace Rows

variable {kind : TableKind} {t : Table} {columns : Nat}

/-! ## Steps that do not read back -/

/-- A byte that marks a loop or an end: `$7E` and `$7F`, and in an arpeggio every one from `$7F` on. -/
def Taken (kind : TableKind) (first : UInt8) : Prop :=
  match kind with
  | .arpeggio => 0x7F ≤ first
  | .wave | .pulse | .filter => first = 0x7E ∨ first = 0x7F

instance (kind : TableKind) (first : UInt8) : Decidable (Taken kind first) :=
  match kind with
  | .arpeggio => inferInstanceAs (Decidable (0x7F ≤ first))
  | .wave | .pulse | .filter => inferInstanceAs (Decidable (first = 0x7E ∨ first = 0x7F))

/-- A step that starts with such a byte. -/
def Clashes (kind : TableKind) (row : Row) : Prop := ∃ first rest, row = .step (first :: rest) ∧ Taken kind first

/-- The row as it reads back: `$7D` is in the place of such a byte. -/
def written (kind : TableKind) : Row → Row
  | .step (first :: rest) => .step ((if Taken kind first then 0x7D else first) :: rest)
  | row => row

theorem isMarker_iff {first : UInt8} : isMarker kind first = true ↔ Taken kind first := by
  cases kind with
  | arpeggio => exact decide_eq_true_iff
  | wave | pulse | filter =>
    simp only [isMarker, Taken, Bool.or_eq_true, beq_iff_eq]
    exact or_comm

theorem collides_iff {row : Row} : collides kind row = true ↔ Clashes kind row := by
  cases row with
  | step bytes =>
    cases bytes with
    | nil => simp [collides, Clashes]
    | cons first rest => simp [collides, Clashes, isMarker_iff]
  | loop target => simp [collides, Clashes]
  | stop => simp [collides, Clashes]

theorem legibleRow_eq_written (row : Row) : legibleRow kind row = written kind row := by
  cases row with
  | step bytes =>
    cases bytes with
    | nil => rfl
    | cons first rest =>
      simp only [legibleRow, stepBytes, written, isMarker_iff]
      split <;> rfl
  | loop target => rfl
  | stop => rfl

theorem tableLoss?_of_clash {row : Row} (hrow : row ∈ t.rows) (h : Clashes t.kind row) :
    ∃ count, tableLoss? t = some (.markerCollisions t.kind count) := by
  have hcount : t.rows.countP (collides t.kind) ≠ 0 := fun e =>
    List.countP_eq_zero.mp e row hrow (collides_iff.mpr h)
  exact ⟨_, if_neg hcount⟩

theorem tableLoss?_of_no_clash (h : ∀ row ∈ t.rows, ¬ Clashes t.kind row) : tableLoss? t = none :=
  if_pos (List.countP_eq_zero.mpr fun row hrow hcollides => h row hrow (collides_iff.mp hcollides))

/-! ## Loops that cannot be written -/

theorem encodeRow_eq_error {row : Row} : (∃ e, encodeRow kind columns row = .error e) ↔
    kind = .arpeggio ∧ ∃ target, row = .loop target ∧ 128 ≤ target.toNat := by
  cases kind with
  | arpeggio =>
    cases row with
    | step bytes => simp [encodeRow]
    | stop => simp [encodeRow]
    | loop target =>
      simp only [encodeRow]
      split
      next h =>
        simp only [arpeggioRows] at h
        simpa using h
      next h =>
        simp only [arpeggioRows] at h
        simpa using h
  | wave | pulse | filter => cases row <;> simp [encodeRow]

theorem encodeTable_eq_error : (∃ e, encodeTable t columns = .error e) ↔
    t.kind = .arpeggio ∧ ∃ target, .loop target ∈ t.rows ∧ 128 ≤ target.toNat := by
  rw [encodeTable, mapM_eq_error]
  simp only [encodeRow_eq_error]
  constructor
  · rintro ⟨row, hrow, hkind, target, rfl, htarget⟩
    exact ⟨hkind, target, hrow, htarget⟩
  · rintro ⟨hkind, target, hrow, htarget⟩
    exact ⟨_, hrow, hkind, target, rfl, htarget⟩

/-! ## Columns beyond a step -/

theorem take_fill {m n : Nat} (h : m ≤ n) (bytes : Bytes) : (fill n bytes).take m = fill m bytes := by
  have hzeros : min (m - (bytes.take n).length) (n - bytes.length) = m - bytes.length := by
    rw [List.length_take]
    omega
  rw [fill, List.take_append, List.take_take, List.take_replicate, Nat.min_eq_left h, hzeros, fill]

/-- In more columns the row has the same bytes, and zeros after them. -/
theorem take_encodeRow {row : Row} {bytes : Bytes} (hcolumns : kind.width ≤ columns)
    (h : encodeRow kind columns row = .ok bytes) : encodeRow kind kind.width row = .ok (bytes.take kind.width) := by
  unfold encodeRow at h ⊢
  split at h
  case h_2 =>
    split at h
    next htarget =>
      cases h
      rw [take_fill hcolumns]
      exact if_pos htarget
    next => cases h
  all_goals
    cases h
    rw [take_fill hcolumns]

theorem fill_take (n : Nat) (bytes : Bytes) : fill n (bytes.take n) = fill n bytes := by
  have hzeros : n - min n bytes.length = n - bytes.length := by omega
  rw [fill, List.take_take, Nat.min_self, List.length_take, hzeros, fill]

/-- Only the columns of a step are read. -/
theorem decodeRow_take (kind : TableKind) (bytes : Bytes) :
    decodeRow kind (bytes.take kind.width) = decodeRow kind bytes := by
  have hfirst : (bytes.take kind.width).headD 0 = bytes.headD 0 := by cases kind <;> cases bytes <;> rfl
  unfold decodeRow
  rw [hfirst]
  cases kind with
  | arpeggio => rfl
  | wave | pulse | filter =>
    have hsecond : ∀ n, (bytes.take (n + 2))[1]? = bytes[1]? := fun n => List.getElem?_take_of_lt (by omega)
    simp only [TableKind.width, hsecond, fill_take]

theorem decodeTable_encodeTable_wide {rows : List Bytes}
    (hwidth : ∀ step, .step step ∈ t.rows → step.length = t.kind.width) (hcolumns : t.kind.width ≤ columns)
    (h : encodeTable t columns = .ok rows) :
    decodeTable t.kind rows = { t with rows := t.rows.map (written t.kind), provenance := .static } := by
  have hnarrow : encodeTable (legible t) t.kind.width = .ok (rows.map (·.take t.kind.width)) := by
    rw [encodeTable_legible, encodeTable, mapM_eq_ok, List.forall₂_map_right_iff]
    exact (mapM_eq_ok.mp h).imp fun _ _ => take_encodeRow hcolumns
  have hlegible : ∀ step, .step step ∈ (legible t).rows → step.length = t.kind.width := by
    intro step hstep
    obtain ⟨row, hrow, he⟩ := List.mem_map.mp hstep
    cases row with
    | step bytes =>
      cases he
      rw [length_stepBytes]
      exact hwidth bytes hrow
    | loop target => cases he
    | stop => cases he
  calc decodeTable t.kind rows
      = decodeTable t.kind (rows.map (·.take t.kind.width)) := by
        rw [decodeTable, decodeTable, List.map_map]
        exact congrArg (Table.mk t.kind · .static)
          (List.map_congr_left fun bytes _ => (decodeRow_take t.kind bytes).symm)
    _ = { legible t with provenance := .static } :=
        decodeTable_encodeTable hlegible (tableLoss?_legible t) hnarrow
    _ = { t with rows := t.rows.map (written t.kind), provenance := .static } :=
        congrArg (Table.mk t.kind · .static) (List.map_congr_left fun row _ => legibleRow_eq_written row)

end Rows

/-! ## Slots -/

namespace Encode

/-- The slot of a table has its rows, and what is lost with them is told. -/
theorem run_slotRows {s : Song} {place : SlotPlace} {kind : TableKind} {t : Table} {rows : List Bytes}
    (commands : List Command) (j : Journal) (hslot : place.slot.table? = some kind) (htable : s.table? kind = some t)
    (h : Rows.encodeTable t place.columns.toNat = .ok rows) :
    slotRows s commands place j =
      .ok rows { j with degradations := j.degradations ++ (Rows.tableLoss? t).toList } := by
  obtain ⟨slot, address, columns, capacity⟩ := place
  cases hloss : Rows.tableLoss? t with
  | none =>
    rw [Option.toList_none, List.append_nil]
    cases slot <;> cases hslot <;>
      simp only [slotRows, Slot.table?, Option.bind_some, htable, h, hloss, Job.ofExcept] <;> rfl
  | some loss =>
    cases slot <;> cases hslot <;>
      simp only [slotRows, Slot.table?, Option.bind_some, htable, h, hloss, Job.ofExcept] <;> rfl

end Encode

/-- **The markers are all that writing a table changes.** It fails only for a loop of an arpeggio that is too far down.
Otherwise the rows read back as the table, but for the steps that start with a marker: these have `$7D` instead, and
that there are any is told once. -/
theorem markers_alone {t : Table} {columns : Nat}
    (hwidth : ∀ step, .step step ∈ t.rows → step.length = t.kind.width) (hcolumns : t.kind.width ≤ columns) :
    ((∃ e, Rows.encodeTable t columns = .error e) ↔
      t.kind = .arpeggio ∧ ∃ target, .loop target ∈ t.rows ∧ 128 ≤ target.toNat) ∧
    ∀ rows, Rows.encodeTable t columns = .ok rows →
      Rows.decodeTable t.kind rows =
        { t with rows := t.rows.map (Rows.written t.kind), provenance := .static } ∧
      ((∃ row ∈ t.rows, Rows.Clashes t.kind row) →
        (Rows.tableLoss? t).toList.map (·.kind) = [.unsupportedFeature]) ∧
      ((∀ row ∈ t.rows, ¬ Rows.Clashes t.kind row) → (Rows.tableLoss? t).toList = []) ∧
      ∀ (s : Song) (commands : List Command) (place : SlotPlace) (j : Journal),
        place.slot.table? = some t.kind → s.table? t.kind = some t → place.columns.toNat = columns →
          Encode.slotRows s commands place j =
            .ok rows { j with degradations := j.degradations ++ (Rows.tableLoss? t).toList } := by
  refine ⟨Rows.encodeTable_eq_error, fun rows hrows => ⟨?_, ?_, ?_, ?_⟩⟩
  · exact Rows.decodeTable_encodeTable_wide hwidth hcolumns hrows
  · rintro ⟨row, hrow, hclash⟩
    obtain ⟨count, hcount⟩ := Rows.tableLoss?_of_clash hrow hclash
    rw [hcount]
    rfl
  · intro hnone
    rw [Rows.tableLoss?_of_no_clash hnone]
    rfl
  · rintro s commands place j hslot htable rfl
    exact Encode.run_slotRows commands j hslot htable hrows

/-- A filter's step that starts with a loop's marker, in a column more than it needs. -/
theorem markers_alone_filter :
    let t : Table := { kind := .filter, rows := [.step [0x7F, 1, 2, 3], .step [0x10, 0x7E, 0, 0], .loop 1] }
    ∃ rows, Rows.encodeTable t 5 = .ok rows ∧
      Rows.decodeTable .filter rows =
        { kind := .filter, rows := [.step [0x7D, 1, 2, 3], .step [0x10, 0x7E, 0, 0], .loop 1] } ∧
      (Rows.tableLoss? t).toList.map (·.kind) = [.unsupportedFeature] := by
  intro t
  have hwidth : ∀ step, .step step ∈ t.rows → step.length = t.kind.width := by simp [t, TableKind.width]
  have hcolumns : t.kind.width ≤ 5 := show 4 ≤ 5 by decide
  obtain ⟨hfails, hreads⟩ := markers_alone hwidth hcolumns
  cases hrows : Rows.encodeTable t 5 with
  | error e => exact absurd (hfails.mp ⟨e, hrows⟩).1 (by decide)
  | ok rows =>
    obtain ⟨hread, htold, -⟩ := hreads rows hrows
    exact ⟨rows, rfl, hread.trans (by decide), htold ⟨_, List.mem_cons_self .., _, _, rfl, by decide⟩⟩

end Chiptune.Player
