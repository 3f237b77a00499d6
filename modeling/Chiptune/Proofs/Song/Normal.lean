/-
A song as a file keeps it.

A file says nothing of where the parts of a song were found, has no tables
without rows, and is read table by table in no particular order. Tables of
different kinds have one canonical order (`sortTables_eq_of_perm`).
-/
import Chiptune.Proofs.File.Container
import Chiptune.Proofs.Song.WellFormed

namespace Chiptune

namespace Song

/-! ## Provenance -/

/-- The table, said to be read from data. -/
def Table.static (t : Table) : Table := { t with provenance := .static }

/-- The sequence, said to be read from data. -/
def Sequence.static (q : Sequence) : Sequence := { q with provenance := .static }

/-- The song as a file keeps it. -/
def normal (s : Song) : Song :=
  { s with
    title := File.Text.clipped File.Container.infoLength s.title
    author := File.Text.clipped File.Container.infoLength s.author
    released := File.Text.clipped File.Container.infoLength s.released
    tables := sortTables ((s.tables.filter fun t => !t.rows.isEmpty).map Table.static)
    sequences := s.sequences.map Sequence.static
    instrumentProvenance := .static }

/-! ## Order of tables -/

theorem TableKind.rank_inj {k l : TableKind} (h : k.rank = l.rank) : k = l := by
  cases k <;> cases l <;> first | rfl | cases h

theorem pairwise_sortTables (tables : List Table) :
    (sortTables tables).Pairwise fun a b => a.kind.rank ≤ b.kind.rank := by
  have h := @List.pairwise_mergeSort Table (fun a b => decide (a.kind.rank ≤ b.kind.rank))
    (fun a b c => by simpa using Nat.le_trans) (fun a b => by simpa using Nat.le_total ..) tables
  simpa [sortTables] using h

/-- Tables of different kinds have one order. -/
theorem sortTables_eq_of_perm {a b : List Table} (h : a.Perm b)
    (hkinds : a.Pairwise fun t u => t.kind ≠ u.kind) : sortTables a = sortTables b := by
  have hperm : (sortTables a).Perm (sortTables b) :=
    (List.mergeSort_perm ..).trans (h.trans (List.mergeSort_perm ..).symm)
  refine hperm.eq_of_pairwise ?_ (pairwise_sortTables a) (pairwise_sortTables b)
  intro t u ht hu htu hut
  have ht' : t ∈ a := List.mem_mergeSort.mp ht
  have hu' : u ∈ a := h.mem_iff.mpr (List.mem_mergeSort.mp hu)
  exact eq_of_pairwise hkinds ht' hu' (TableKind.rank_inj (Nat.le_antisymm htu hut))

theorem nodup_of_pairwise_kind {a : List Table} (h : a.Pairwise fun t u => t.kind ≠ u.kind) :
    a.Nodup := by
  refine List.Pairwise.imp ?_ h
  rintro t u hne rfl
  exact hne rfl

end Song

end Chiptune
