/-
Rows written to a block column by column read back.

Two cells of a block are different places as long as no row number reaches the
block's capacity (`cell_inj`), so a cell holds what its own row wrote to it.
-/
import Chiptune.Player.Columns

namespace Chiptune.Player.Columns

variable {capacity columns : Nat}

/-! ## Cells -/

theorem cell_div {row column : Nat} (h : row < capacity) : cell capacity row column / capacity = column := by
  rw [cell, Nat.mul_comm, Nat.mul_add_div (by omega), Nat.div_eq_of_lt h, Nat.add_zero]

theorem cell_mod {row column : Nat} (h : row < capacity) : cell capacity row column % capacity = row := by
  rw [cell, Nat.mul_add_mod_self_right, Nat.mod_eq_of_lt h]

theorem cell_inj {row column row' column' : Nat} (h : row < capacity) (h' : row' < capacity)
    (e : cell capacity row column = cell capacity row' column') : row = row' ∧ column = column' :=
  ⟨(cell_mod h).symm.trans ((congrArg (· % capacity) e).trans (cell_mod h')),
    (cell_div h).symm.trans ((congrArg (· / capacity) e).trans (cell_div h'))⟩

theorem cell_lt {row column : Nat} (hrow : row < capacity) (hcolumn : column < columns) :
    cell capacity row column < columns * capacity := by
  have := Nat.mul_le_mul_right capacity hcolumn
  rw [Nat.succ_mul] at this
  rw [cell]
  omega

/-! ## Writing a row -/

section Row

variable {row row' column : Nat}

/-- A row's bytes written from column `first` on. -/
def writeFrom (capacity row : Nat) (bytes : Bytes) (first : Nat) (cells : Array UInt8) :
    Array UInt8 :=
  (bytes.zipIdx first).foldl
    (fun cells (value, column) => cells.setIfInBounds (cell capacity row column) value) cells

theorem writeFrom_cons (b : UInt8) (bytes : Bytes) (first : Nat) (cells : Array UInt8) :
    writeFrom capacity row (b :: bytes) first cells =
      writeFrom capacity row bytes (first + 1) (cells.setIfInBounds (cell capacity row first) b) := by
  simp [writeFrom, List.zipIdx_cons]

theorem writeFrom_other (hrow : row < capacity) (hrow' : row' < capacity) :
    ∀ (bytes : Bytes) (first : Nat) (cells : Array UInt8), row' ≠ row ∨ column < first →
      (writeFrom capacity row bytes first cells)[cell capacity row' column]? =
        cells[cell capacity row' column]?
  | [], _, _, _ => rfl
  | b :: bytes, first, cells, h => by
    rw [writeFrom_cons, writeFrom_other hrow hrow' bytes _ _ (by omega),
      Array.getElem?_setIfInBounds_ne]
    intro e
    obtain ⟨h₁, h₂⟩ := cell_inj hrow hrow' e
    omega

theorem writeFrom_self (hrow : row < capacity) :
    ∀ (bytes : Bytes) (first : Nat) (cells : Array UInt8), first ≤ column →
      column < first + bytes.length → cell capacity row column < cells.size →
      (writeFrom capacity row bytes first cells)[cell capacity row column]? = bytes[column - first]?
  | [], first, cells, h, h', _ => by simp at h'; omega
  | b :: bytes, first, cells, h, h', hsize => by
    rw [writeFrom_cons]
    rcases Nat.eq_or_lt_of_le h with rfl | h
    · rw [writeFrom_other hrow hrow _ _ _ (.inr (by omega)), Array.getElem?_setIfInBounds_self_of_lt hsize]
      simp
    · rw [writeFrom_self hrow bytes _ _ h (by simp at h'; omega) (by simpa using hsize)]
      obtain ⟨d, rfl⟩ : ∃ d, column = first + 1 + d := ⟨column - (first + 1), by omega⟩
      rw [show first + 1 + d - (first + 1) = d by omega, show first + 1 + d - first = d + 1 by omega]
      rfl

end Row

/-! ## Writing rows -/

/-- Rows written from number `first` on. -/
def writeRowsFrom (capacity : Nat) (rows : List Bytes) (first : Nat) (cells : Array UInt8) :
    Array UInt8 :=
  (rows.zipIdx first).foldl (fun cells (bytes, row) => writeRow capacity cells row bytes) cells

theorem writeRowsFrom_cons (r : Bytes) (rows : List Bytes) (first : Nat) (cells : Array UInt8) :
    writeRowsFrom capacity (r :: rows) first cells =
      writeRowsFrom capacity rows (first + 1) (writeRow capacity cells first r) := by
  simp [writeRowsFrom, List.zipIdx_cons]

theorem writeRowsFrom_before {row column : Nat} :
    ∀ (rows : List Bytes) (first : Nat) (cells : Array UInt8), row < first →
      first + rows.length ≤ capacity →
      (writeRowsFrom capacity rows first cells)[cell capacity row column]? =
        cells[cell capacity row column]?
  | [], _, _, _, _ => rfl
  | r :: rows, first, cells, h, h' => by
    simp only [List.length_cons] at h'
    rw [writeRowsFrom_cons, writeRowsFrom_before rows _ _ (by omega) (by omega)]
    exact writeFrom_other (by omega) (by omega) r 0 cells (.inl (by omega))

theorem writeRowsFrom_self {row column : Nat} :
    ∀ (rows : List Bytes) (first : Nat) (cells : Array UInt8), first ≤ row →
      (hrow : row - first < rows.length) → first + rows.length ≤ capacity →
      column < rows[row - first].length → cell capacity row column < cells.size →
      (writeRowsFrom capacity rows first cells)[cell capacity row column]? =
        rows[row - first][column]?
  | r :: rows, first, cells, h, hrow, h', hcolumn, hsize => by
    simp only [List.length_cons] at h' hrow
    rw [writeRowsFrom_cons]
    rcases Nat.eq_or_lt_of_le h with rfl | h
    · simp only [Nat.sub_self, List.getElem_cons_zero] at hcolumn ⊢
      rw [writeRowsFrom_before rows _ _ (by omega) (by omega)]
      exact writeFrom_self (by omega) r 0 cells (by omega) (by omega) hsize
    · obtain ⟨d, rfl⟩ : ∃ d, row = first + 1 + d := ⟨row - (first + 1), by omega⟩
      have hd : first + 1 + d - first = d + 1 := by omega
      simp only [hd, List.getElem_cons_succ] at hcolumn hrow ⊢
      have hd' : first + 1 + d - (first + 1) = d := by omega
      have hrest := @writeRowsFrom_self (first + 1 + d) column rows (first + 1)
        (writeRow capacity cells first r) (by omega) (by omega) (by omega)
      simp only [hd', size_writeRow] at hrest
      exact hrest hcolumn hsize

/-! ## Blocks -/

theorem getElem?_write {rows : List Bytes} {row column : Nat} (hrow : row < rows.length)
    (hrows : rows.length ≤ capacity) (hcolumn : column < rows[row].length) {block : Bytes}
    (hblock : cell capacity row column < block.length) :
    (write capacity block rows)[cell capacity row column]? = rows[row][column]? := by
  have h := @writeRowsFrom_self capacity row column rows 0 block.toArray (Nat.zero_le row)
    (by simpa using hrow) (by omega) (by simpa using hcolumn) (by simpa using hblock)
  simpa [write, writeRows, writeRowsFrom] using h

/-- What a block's cells hold is what is read from it. -/
theorem read_eq {block : Bytes} {rows : List Bytes} (hlength : ∀ r ∈ rows, r.length = columns)
    (h : ∀ (row : Nat) (hrow : row < rows.length), ∀ column < columns,
      block[cell capacity row column]? = rows[row][column]?) :
    read block columns capacity rows.length = rows := by
  apply List.ext_getElem
  · simp [read]
  · intro row hrow hrow'
    have hl := hlength _ (List.getElem_mem hrow')
    apply List.ext_getElem
    · simp [read, hl]
    · intro column hcolumn hcolumn'
      have hcell := h row hrow' column (by omega)
      rw [List.getElem?_eq_getElem hcolumn'] at hcell
      simp [read, hcell]

end Chiptune.Player.Columns
