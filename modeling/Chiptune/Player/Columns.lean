/-
Rows in memory, column by column.

A block for `capacity` rows holds their first bytes, then their second bytes,
and so on. Cells past the end of the block are neither written nor read.
-/
import Chiptune.Byte

namespace Chiptune.Player.Columns

/-- Where a row's byte of a column is in the block. -/
def cell (capacity row column : Nat) : Nat := column * capacity + row

/-- The cells of a block with one row written. -/
def writeRow (capacity : Nat) (cells : Array UInt8) (row : Nat) (bytes : Bytes) : Array UInt8 :=
  bytes.zipIdx.foldl
    (fun cells (value, column) => cells.setIfInBounds (cell capacity row column) value) cells

/-- The cells of a block with rows written from the first on. -/
def writeRows (capacity : Nat) (cells : Array UInt8) (rows : List Bytes) : Array UInt8 :=
  rows.zipIdx.foldl (fun cells (bytes, row) => writeRow capacity cells row bytes) cells

/-- The block with rows written from the first on. -/
def write (capacity : Nat) (block : Bytes) (rows : List Bytes) : Bytes :=
  (writeRows capacity block.toArray rows).toList

/-- The first `used` rows of a block of so many columns; cells past its end read as zero. -/
def read (block : Bytes) (columns capacity used : Nat) : List Bytes :=
  let cells := block.toArray
  (List.range used).map fun row =>
    (List.range columns).map fun column => cells[cell capacity row column]?.getD 0

theorem size_writeRow (capacity : Nat) (cells : Array UInt8) (row : Nat) (bytes : Bytes) :
    (writeRow capacity cells row bytes).size = cells.size := by
  unfold writeRow
  generalize bytes.zipIdx = columns
  induction columns generalizing cells with
  | nil => rfl
  | cons c columns ih => simp [ih]

theorem size_writeRows (capacity : Nat) (cells : Array UInt8) (rows : List Bytes) :
    (writeRows capacity cells rows).size = cells.size := by
  unfold writeRows
  generalize rows.zipIdx = numbered
  induction numbered generalizing cells with
  | nil => rfl
  | cons r numbered ih => simp [ih, size_writeRow]

/-- Writing rows keeps the size of a block. -/
theorem length_write (capacity : Nat) (block : Bytes) (rows : List Bytes) :
    (write capacity block rows).length = block.length := by
  simp [write, size_writeRows]

end Chiptune.Player.Columns
