/-
The rows that a program goes through, frame by frame.

A frame reads the row it is at. A loop sends it on to another row, which it
reads too; what it comes to is a step, after which the next frame is a row
further down, or an end, where it stays. In a table without faults a loop leads
to a row that is no loop, and a step is never the last row, so no frame leaves
the table (`Sound.nextRow_lt`).
-/
import Chiptune.Proofs.Song.WellFormed

namespace Chiptune.Song

/-- Whether a row is a loop. -/
def Row.isLoop : Row → Bool
  | .loop _ => true
  | .step _ | .stop => false

namespace Table

/-- The row that a frame comes to: the one it is at, or the one that this loops to. -/
def rowFound (t : Table) (row : Nat) : Nat :=
  match t.rows[row]? with
  | some (.loop target) => target.toNat
  | _ => row

/-- The rows that a frame reads. -/
def rowsRead (t : Table) (row : Nat) : List Nat :=
  match t.rows[row]? with
  | some (.loop target) => [row, target.toNat]
  | _ => [row]

/-- The row at which the next frame starts: the one after a step, and the same one at an end. -/
def nextRow (t : Table) (row : Nat) : Nat :=
  match t.rows[t.rowFound row]? with
  | some (.step _) => t.rowFound row + 1
  | _ => t.rowFound row

/-- The row at which a program is after so many frames. -/
def rowAfter (t : Table) (start : Nat) : (frames : Nat) → Nat
  | 0 => start
  | frames + 1 => t.nextRow (t.rowAfter start frames)

theorem mem_rowsRead (t : Table) (row : Nat) : row ∈ t.rowsRead row := by
  unfold rowsRead
  split <;> exact List.mem_cons_self ..

namespace Sound

variable {t : Table} {row : Nat}

/-- **What a frame reads**: a row that is no loop, or a loop and the row that it leads to, which is none. -/
theorem reads (h : t.Sound) (hrow : row < t.rows.length) :
    (t.rowsRead row = [row] ∧ t.rowFound row = row ∧ ∃ found, t.rows[row]? = some found ∧ found.isLoop = false) ∨
      ∃ target found, t.rows[row]? = some (.loop target) ∧ t.rowsRead row = [row, target.toNat] ∧
        t.rowFound row = target.toNat ∧ t.rows[target.toNat]? = some found ∧ found.isLoop = false := by
  have hat := List.getElem?_eq_getElem hrow
  cases hr : t.rows[row] with
  | loop target =>
    rw [hr] at hat
    obtain ⟨found, hfound, hloop⟩ := rowFaults_eq_nil.mp (h.2 _ _ hat)
    refine .inr ⟨target, found, hat, by rw [rowsRead, hat], by rw [rowFound, hat], hfound, ?_⟩
    cases found with
    | loop u => exact absurd rfl (hloop u)
    | step | stop => rfl
  | step | stop =>
    rw [hr] at hat
    exact .inl ⟨by rw [rowsRead, hat], by rw [rowFound, hat], _, hat, rfl⟩

theorem lt_of_mem_rowsRead (h : t.Sound) (hrow : row < t.rows.length) : ∀ r ∈ t.rowsRead row, r < t.rows.length := by
  rcases h.reads hrow with ⟨hreads, -⟩ | ⟨target, found, -, hreads, -, hfound, -⟩
  · rw [hreads, List.forall_mem_singleton]
    exact hrow
  · rw [hreads, List.forall_mem_cons, List.forall_mem_singleton]
    exact ⟨hrow, (List.getElem?_eq_some_iff.mp hfound).1⟩

/-- No frame meets two loops. -/
theorem countP_isLoop_rowsRead (h : t.Sound) (hrow : row < t.rows.length) :
    (t.rowsRead row).countP (fun r => t.rows[r]?.any Row.isLoop) ≤ 1 := by
  rcases h.reads hrow with ⟨hreads, -⟩ | ⟨target, found, -, hreads, -, hfound, hloop⟩
  · rw [hreads]
    exact List.countP_le_length
  · rw [hreads, List.countP_cons, List.countP_singleton, hfound, Option.any_some, hloop]
    simp only [Bool.false_eq_true, if_false, Nat.zero_add]
    split <;> omega

theorem rowFound_spec (h : t.Sound) (hrow : row < t.rows.length) :
    t.rowFound row ∈ t.rowsRead row ∧ ∃ found, t.rows[t.rowFound row]? = some found ∧ found.isLoop = false := by
  rcases h.reads hrow with ⟨hreads, hfound, hspec⟩ | ⟨target, found, -, hreads, hfound, hspec⟩
  · rw [hreads, hfound]
    exact ⟨List.mem_singleton_self row, hspec⟩
  · rw [hreads, hfound]
    exact ⟨List.mem_cons_of_mem _ (List.mem_singleton_self _), found, hspec⟩

/-- A step is not the last row. -/
theorem succ_lt_of_step (h : t.Sound) {bytes : Bytes} (hstep : t.rows[row]? = some (.step bytes)) :
    row + 1 < t.rows.length := by
  have hlt := (List.getElem?_eq_some_iff.mp hstep).1
  have hlast : row + 1 ≠ t.rows.length := by
    intro hlast
    have hopen := h.1
    rw [isOpen, List.getLast?_eq_getElem?, ← hlast, Nat.add_sub_cancel, hstep] at hopen
    cases hopen
  omega

/-- **A frame stays in the table.** -/
theorem nextRow_lt (h : t.Sound) (hrow : row < t.rows.length) : t.nextRow row < t.rows.length := by
  obtain ⟨hmem, found, hfound, -⟩ := h.rowFound_spec hrow
  cases found with
  | step bytes =>
    rw [nextRow, hfound]
    exact h.succ_lt_of_step hfound
  | loop | stop =>
    rw [nextRow, hfound]
    exact h.lt_of_mem_rowsRead hrow _ hmem

/-- And so do any number of them. -/
theorem rowAfter_lt (h : t.Sound) {start : Nat} (hstart : start < t.rows.length) : ∀ n : Nat,
    t.rowAfter start n < t.rows.length
  | 0 => hstart
  | n + 1 => h.nextRow_lt (h.rowAfter_lt hstart n)

end Sound

end Table

end Chiptune.Song
