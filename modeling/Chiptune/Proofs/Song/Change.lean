/-
Songs that are changed in one part.

What else a song says of its sequences and tables stays true when events are
left out, when one table is replaced by one of the same kind, or when tables
are sorted, since sorting keeps tables of one kind in their order.
-/
import Chiptune.Proofs.Song.Consistent

namespace Chiptune.Song

/-- Rows of each sequence. -/
def rowCounts (s : Song) : List Nat := s.sequences.map (·.rowCount)

theorem playsNothing_eq (s : Song) (e : OrderEntry) :
    playsNothing s e = (s.rowCounts[e.sequence.toNat]?).any (· == 0) := by
  simp only [playsNothing, rowCounts, List.getElem?_map]
  cases s.sequences[e.sequence.toNat]? <;> rfl

namespace Sequence

theorem mem_pitches_filter {q : Sequence} {keep : Event → Bool} {p : UInt8} (h : p ∈ (q.filter keep).pitches) :
    p ∈ q.pitches := by
  simp only [pitches, filter, List.mem_filterMap, List.mem_filter] at h ⊢
  obtain ⟨e, ⟨he, -⟩, hp⟩ := h
  exact ⟨e, he, hp⟩

/-- Events that take no rows can go without changing how long a sequence lasts. -/
theorem rowCount_filter {keep : Event → Bool} (hkeep : ∀ e, keep e = false → e.rows = 0) (q : Sequence) :
    (q.filter keep).rowCount = q.rowCount := by
  obtain ⟨events, provenance⟩ := q
  simp only [rowCount, filter]
  induction events with
  | nil => rfl
  | cons e events ih =>
    by_cases he : keep e = true
    · rw [List.filter_cons_of_pos he, List.foldr_cons, List.foldr_cons, ih]
    · rw [List.filter_cons_of_neg he, List.foldr_cons, ih, hkeep e (by simpa using he), Nat.zero_add]

end Sequence

theorem OrderEntry.Sound.mapSequences {s : Song} {e : OrderEntry} (h : e.Sound s) {f : Sequence → Sequence}
    (hpitches : ∀ q, ∀ p ∈ (f q).pitches, p ∈ q.pitches) : e.Sound (s.mapSequences f) := by
  obtain ⟨htranspose, q, hq, hsounding⟩ := h
  refine ⟨htranspose, f q, ?_, fun p hp => hsounding p (hpitches q p hp)⟩
  simp only [Song.mapSequences, List.getElem?_map, hq, Option.map_some]

theorem Consistent.filter {s : Song} (h : s.Consistent) (keep : Event → Bool) :
    (s.mapSequences (·.filter keep)).Consistent := by
  refine ⟨h.tempo, h.voices, h.distinct, h.tables, h.starts, fun q' hq' e he => ?_, fun l hl e he => ?_, h.loops⟩
  · obtain ⟨q, hq, rfl⟩ := List.mem_map.mp hq'
    exact h.events q hq e (List.mem_filter.mp he).1
  · exact (h.entries l hl e he).mapSequences fun _ _ hp => Sequence.mem_pitches_filter hp

theorem rowCounts_filter {keep : Event → Bool} (hkeep : ∀ e, keep e = false → e.rows = 0) (s : Song) :
    (s.mapSequences (·.filter keep)).rowCounts = s.rowCounts := by
  simp only [rowCounts, mapSequences, List.map_map, Function.comp_def, Sequence.rowCount_filter hkeep]

/-! ## Tables -/

theorem table?_updateTable {s : Song} {kind : TableKind} {f : Table → Table}
    (hf : ∀ t, t.kind = kind → (f t).kind = kind) (k : TableKind) :
    (s.updateTable kind f).table? k = if k = kind then (s.table? kind).map f else s.table? k := by
  unfold table? updateTable
  dsimp only
  induction s.tables with
  | nil => simp [replaceFirst]
  | cons t tables ih =>
    simp only [replaceFirst]
    by_cases ht : t.kind = kind
    · simp only [ht, beq_self_eq_true, if_true, List.find?_cons, hf t ht]
      by_cases hk : k = kind
      · simp [hk]
      · have : (kind == k) = false := by simpa using Ne.symm hk
        simp [this, hk]
    · have hne : (t.kind == kind) = false := by simpa using ht
      simp only [hne, Bool.false_eq_true, if_false, List.find?_cons, ih]
      by_cases hk : k = kind
      · simp [hk, hne]
      · simp [hk]

/-- The rows of the table of a kind, none if there is no such table. -/
def tableRows (s : Song) (kind : TableKind) : List Row := ((s.table? kind).map (·.rows)).getD []

theorem tableRows_of_table? {s : Song} {kind : TableKind} {t : Table} (h : s.table? kind = some t) :
    s.tableRows kind = t.rows := by
  rw [tableRows, h]
  rfl

theorem length_tableRows (s : Song) (kind : TableKind) : (s.tableRows kind).length = s.tableLength kind := by
  unfold tableRows tableLength
  cases s.table? kind <;> rfl

theorem tableLength_mono {s s' : Song} {kind : TableKind} (h : s.tableRows kind <+: s'.tableRows kind) :
    s.tableLength kind ≤ s'.tableLength kind := by
  rw [← length_tableRows, ← length_tableRows]
  exact h.length_le

theorem tableRows_updateTable {s : Song} {kind : TableKind} {t u : Table} (h : s.table? kind = some t)
    (hu : u.kind = kind) (k : TableKind) :
    (s.updateTable kind fun _ => u).tableRows k = if k = kind then u.rows else s.tableRows k := by
  rw [tableRows, table?_updateTable (fun _ _ => hu)]
  by_cases hk : k = kind
  · rw [if_pos hk, if_pos hk, h]
    rfl
  · rw [if_neg hk, if_neg hk, tableRows]

/-- Tables of one kind keep their order when tables are sorted. -/
theorem filter_sortTables (tables : List Table) (kind : TableKind) :
    (sortTables tables).filter (·.kind == kind) = tables.filter (·.kind == kind) := by
  have hsorted : (tables.filter (·.kind == kind)).Pairwise fun a b => decide (a.kind.rank ≤ b.kind.rank) = true := by
    refine List.pairwise_of_forall_mem_list fun a ha b hb => ?_
    have ha : a.kind = kind := by simpa using (List.mem_filter.mp ha).2
    have hb : b.kind = kind := by simpa using (List.mem_filter.mp hb).2
    simp [ha, hb]
  have hsub : (tables.filter (·.kind == kind)).Sublist (sortTables tables) :=
    List.sublist_mergeSort (by simpa using fun _ _ _ => Nat.le_trans) (by simpa using fun _ _ => Nat.le_total _ _)
      hsorted List.filter_sublist
  have hfilter := hsub.filter (·.kind == kind)
  rw [List.filter_filter] at hfilter
  simp only [Bool.and_self] at hfilter
  exact (hfilter.eq_of_length ((List.mergeSort_perm tables _).filter _).length_eq.symm).symm

theorem find?_sortTables (tables : List Table) (kind : TableKind) :
    (sortTables tables).find? (·.kind == kind) = tables.find? (·.kind == kind) := by
  rw [← List.head?_filter, filter_sortTables, List.head?_filter]

theorem mem_replaceFirst {α : Type} {p : α → Bool} {f : α → α} {x : α} : ∀ {l : List α},
    x ∈ replaceFirst p f l → x ∈ l ∨ ∃ y ∈ l, f y = x
  | y :: l, h => by
    simp only [replaceFirst] at h
    split at h
    · rcases List.mem_cons.mp h with rfl | h
      · exact .inr ⟨y, by simp, rfl⟩
      · exact .inl (by simp [h])
    · rcases List.mem_cons.mp h with rfl | h
      · exact .inl (by simp)
      · rcases mem_replaceFirst h with h | ⟨z, hz, rfl⟩
        · exact .inl (by simp [h])
        · exact .inr ⟨z, by simp [hz], rfl⟩

theorem map_replaceFirst {α β : Type} {p : α → Bool} {f : α → α} {g : α → β} (hf : ∀ x, g (f x) = g x) :
    ∀ l : List α, (replaceFirst p f l).map g = l.map g
  | [] => rfl
  | x :: l => by
    simp only [replaceFirst]
    split
    · rw [List.map_cons, List.map_cons, hf]
    · rw [List.map_cons, List.map_cons, map_replaceFirst hf]

theorem distinct_replaceFirst {p : Table → Bool} {f : Table → Table} (hf : ∀ t, (f t).kind = t.kind)
    {tables : List Table} (h : Distinct tables) : Distinct (replaceFirst p f tables) := by
  have hkinds : ∀ l : List Table, Distinct l ↔ (l.map (·.kind)).Pairwise (· ≠ ·) := fun l => List.pairwise_map.symm
  rw [hkinds, map_replaceFirst hf, ← hkinds]
  exact h

end Chiptune.Song
