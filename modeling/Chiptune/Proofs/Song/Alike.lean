/-
Songs that play alike.

What else a song says than its instruments, events and order lists, and how
many rows its tables have, does not matter to the instruments, the sequences
and the order lists: a song that plays like one without faults has none either,
as long as its tables are sound. The song that a file keeps plays like the one
that was put into the file.
-/
import Chiptune.Proofs.Song.Normal

namespace Chiptune.Song

/-- The songs have the same instruments, events and order lists, and tables of the same lengths. -/
structure Alike (s s' : Song) : Prop where
  tempo : s'.tempo = s.tempo
  instruments : s'.instruments = s.instruments
  sequences : s'.sequences.map (·.events) = s.sequences.map (·.events)
  orderLists : s'.orderLists = s.orderLists
  tableLength : ∀ kind, s'.tableLength kind = s.tableLength kind

namespace Alike

variable {s s' : Song} (h : s.Alike s')
include h

theorem events : s'.events = s.events := by
  have hflat := congrArg List.flatten h.sequences
  rwa [← List.flatMap_def, ← List.flatMap_def] at hflat

/-- A number stands for sequences with the same events, or for none in both songs. -/
theorem sequence (n : Nat) :
    (s.sequences[n]? = none ∧ s'.sequences[n]? = none) ∨
      ∃ q q', s.sequences[n]? = some q ∧ s'.sequences[n]? = some q' ∧ q'.events = q.events := by
  have hevents := congrArg (·[n]?) h.sequences
  simp only [List.getElem?_map] at hevents
  cases hq : s.sequences[n]? with
  | none =>
    rw [hq, Option.map_none, Option.map_eq_none_iff] at hevents
    exact .inl ⟨rfl, hevents⟩
  | some q =>
    rw [hq, Option.map_some, Option.map_eq_some_iff] at hevents
    obtain ⟨q', hq', he⟩ := hevents
    exact .inr ⟨q, q', rfl, hq', he⟩

/-! ## Faults -/

theorem playsNothing (e : OrderEntry) : Song.playsNothing s' e = Song.playsNothing s e := by
  unfold Song.playsNothing
  rcases h.sequence e.sequence.toNat with ⟨hq, hq'⟩ | ⟨q, q', hq, hq', he⟩
  · rw [hq, hq']
  · rw [hq, hq']
    simp only [Sequence.rowCount, he]

theorem entryFault? (voice index : Nat) (e : OrderEntry) :
    Song.entryFault? s' voice index e = Song.entryFault? s voice index e := by
  unfold Song.entryFault?
  rcases h.sequence e.sequence.toNat with ⟨hq, hq'⟩ | ⟨q, q', hq, hq', he⟩
  · rw [hq, hq']
  · rw [hq, hq']
    simp only [Sequence.pitches, he]

theorem orderFaults (voice : Nat) (l : OrderList) : Song.orderFaults s' voice l = Song.orderFaults s voice l := by
  have hplays := funext h.playsNothing
  simp only [Song.orderFaults, orderEndFaults, hplays, h.entryFault?]

/-- **What plays like a song without faults has none** but in its tables. -/
theorem wellFormed (hs : s.WellFormed) (hdistinct : Distinct s'.tables) (hsound : ∀ t ∈ s'.tables, t.Sound) :
    s'.WellFormed := by
  obtain ⟨htempo, hvoices, -, hinstruments, hsequences, horders⟩ := wellFormed_iff.mp hs
  refine wellFormed_iff.mpr ⟨h.tempo ▸ htempo, h.orderLists ▸ hvoices, tablesFaults_eq_nil.mpr ⟨hdistinct, hsound⟩,
    fun i x hx => ?_, fun i q' hq' => ?_, fun i l hl => ?_⟩
  · rw [h.instruments] at hx
    simpa only [instrumentFaults, h.tableLength] using hinstruments i x hx
  · rcases h.sequence i with ⟨-, hnone⟩ | ⟨q, q'', hq, hq'', he⟩
    · rw [hnone] at hq'
      cases hq'
    · rw [hq''] at hq'
      cases hq'
      simpa only [sequenceFaults, he, h.instruments, h.tableLength] using hsequences i q hq
  · rw [h.orderLists] at hl
    rw [h.orderFaults]
    exact horders i l hl

end Alike

/-! ## The song in a file -/

variable {s : Song}

theorem mem_normal_tables {u : Table} :
    u ∈ s.normal.tables ↔ ∃ t ∈ s.tables, t.rows ≠ [] ∧ t.static = u := by
  simp only [normal, sortTables, List.mem_mergeSort, List.mem_map, List.mem_filter, Bool.not_eq_true',
    List.isEmpty_eq_false_iff, and_assoc]

theorem distinct_normal (h : Distinct s.tables) : Distinct s.normal.tables := by
  have hkept : Distinct ((s.tables.filter fun t => !t.rows.isEmpty).map Table.static) :=
    List.pairwise_map.mpr (h.filter _)
  exact (List.mergeSort_perm ..).symm.pairwise hkept fun hne => hne.symm

theorem table?_normal (h : s.WellFormed) {kind : TableKind} {u : Table} :
    s.normal.table? kind = some u ↔ ∃ t, s.table? kind = some t ∧ t.rows ≠ [] ∧ t.static = u := by
  constructor
  · intro hu
    obtain ⟨rfl, hmem⟩ := mem_of_table? hu
    obtain ⟨t, ht, hrows, rfl⟩ := mem_normal_tables.mp hmem
    exact ⟨t, h.table?_eq_some ht, hrows, rfl⟩
  · rintro ⟨t, ht, hrows, rfl⟩
    obtain ⟨rfl, hmem⟩ := mem_of_table? ht
    exact find?_of_pairwise (distinct_normal h.tables.1) (mem_normal_tables.mpr ⟨t, hmem, hrows, rfl⟩)

theorem tableLength_normal (h : s.WellFormed) (kind : TableKind) : s.normal.tableLength kind = s.tableLength kind := by
  unfold tableLength
  cases hu : s.normal.table? kind with
  | some u =>
    obtain ⟨t, ht, -, rfl⟩ := (table?_normal h).mp hu
    rw [ht]
    rfl
  | none =>
    cases ht : s.table? kind with
    | none => rfl
    | some t =>
      by_cases hrows : t.rows = []
      · simp only [hrows, List.length_nil]
      · have := (table?_normal h).mpr ⟨t, ht, hrows, rfl⟩
        rw [hu] at this
        cases this

theorem alike_normal (h : s.WellFormed) : s.Alike s.normal where
  tempo := rfl
  instruments := rfl
  sequences := by simp only [normal, List.map_map]; rfl
  orderLists := rfl
  tableLength := tableLength_normal h

theorem WellFormed.normal (h : s.WellFormed) : s.normal.WellFormed := by
  refine (alike_normal h).wellFormed h (distinct_normal h.tables.1) fun u hu => ?_
  obtain ⟨t, ht, -, rfl⟩ := mem_normal_tables.mp hu
  exact h.tables.2 t ht

end Chiptune.Song
