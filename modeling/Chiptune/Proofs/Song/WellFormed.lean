/-
What a song without faults is.

`Song.faults` goes through a song and lists what it finds; here is what it
means that it finds nothing, part by part.
-/
import Chiptune.Proofs.Lists
import Chiptune.Song.Fault

namespace Chiptune.Song

theorem flatMap_zipIdx_eq_nil {α β : Type} {l : List α} {f : α × Nat → List β} :
    l.zipIdx.flatMap f = [] ↔ ∀ i a, l[i]? = some a → f (a, i) = [] := by
  simp only [List.flatMap_eq_nil_iff, Prod.forall, List.mk_mem_zipIdx_iff_getElem?]
  exact ⟨fun h i a => h a i, fun h a i => h i a⟩

theorem filterMap_zipIdx_eq_nil {α β : Type} {l : List α} {f : α × Nat → Option β} :
    l.zipIdx.filterMap f = [] ↔ ∀ i a, l[i]? = some a → f (a, i) = none := by
  simp only [List.filterMap_eq_nil_iff, Prod.forall, List.mk_mem_zipIdx_iff_getElem?]
  exact ⟨fun h i a => h a i, fun h a i => h i a⟩

/-! ## Tables -/

theorem tableFaults_eq_nil {earlier : List Table} {t : Table} :
    tableFaults earlier t = [] ↔
      (∀ u ∈ earlier, u.kind ≠ t.kind) ∧ t.isOpen = false ∧
        ∀ i row, t.rows[i]? = some row → rowFaults t i row = [] := by
  simp only [tableFaults, List.append_eq_nil_iff, flatMap_zipIdx_eq_nil, and_assoc]
  refine and_congr ?_ (and_congr ?_ Iff.rfl)
  · simp [List.any_eq_true]
  · simp

theorem rowFaults_eq_nil {t : Table} {i : Nat} {row : Row} :
    rowFaults t i row = [] ↔
      match row with
      | .step bytes => bytes.length = t.kind.width
      | .loop target => ∃ r, t.rows[target.toNat]? = some r ∧ ∀ u, r ≠ .loop u
      | .stop => True := by
  cases row with
  | step bytes => simp [rowFaults]
  | stop => simp [rowFaults]
  | loop target =>
    simp only [rowFaults]
    split <;> simp_all

theorem mem_of_table? {s : Song} {kind : TableKind} {t : Table} (h : s.table? kind = some t) :
    t.kind = kind ∧ t ∈ s.tables :=
  ⟨eq_of_beq (List.find?_some (p := fun u : Table => u.kind == kind) h), List.mem_of_find?_eq_some h⟩

/-- The last row ends a program, steps have their width and loops lead to steps or ends. -/
def Table.Sound (t : Table) : Prop :=
  t.isOpen = false ∧ ∀ i row, t.rows[i]? = some row → rowFaults t i row = []

/-- No two tables are of the same kind. -/
abbrev Distinct (tables : List Table) : Prop := tables.Pairwise fun t u => t.kind ≠ u.kind

theorem tablesFaults_eq_nil {tables : List Table} :
    (∀ i t, tables[i]? = some t → tableFaults (tables.take i) t = []) ↔
      Distinct tables ∧ ∀ t ∈ tables, t.Sound := by
  simp only [tableFaults_eq_nil]
  constructor
  · intro h
    refine ⟨List.pairwise_iff_getElem.mpr fun i j hi hj hij => ?_, fun t ht => ?_⟩
    · refine (h j _ (List.getElem?_eq_getElem hj)).1 _ ?_
      rw [List.mem_take_iff_getElem]
      exact ⟨i, by omega, rfl⟩
    · obtain ⟨i, hi⟩ := List.getElem?_of_mem ht
      exact (h i t hi).2
  · rintro ⟨hdistinct, hsound⟩ i t ht
    refine ⟨fun u hu => ?_, hsound t (List.mem_of_getElem? ht)⟩
    obtain ⟨hi, rfl⟩ := List.getElem?_eq_some_iff.mp ht
    rw [List.mem_take_iff_getElem] at hu
    obtain ⟨j, hj, rfl⟩ := hu
    exact List.pairwise_iff_getElem.mp hdistinct j i (by omega) hi (by omega)

/-! ## Instruments and order lists -/

theorem instrumentFaults_eq_nil {s : Song} {index : Nat} {x : Instrument} :
    instrumentFaults s index x = [] ↔
      ∀ kind row, x.start? kind = some row → row.toNat < s.tableLength kind := by
  simp only [instrumentFaults, List.filterMap_eq_nil_iff]
  constructor
  · intro h kind row hrow
    have hkind : kind ∈ [TableKind.wave, .pulse, .filter] := by
      cases kind <;> simp_all [Instrument.start?]
    simpa [hrow] using h kind hkind
  · intro h kind _
    split
    · rfl
    next row hrow => simpa using h kind row hrow

theorem orderFaults_eq_nil {s : Song} {voice : Nat} {l : OrderList} :
    orderFaults s voice l = [] ↔
      orderEndFaults s voice l = [] ∧ ∀ i e, l.entries[i]? = some e → entryFault? s voice i e = none := by
  simp only [orderFaults, List.append_eq_nil_iff, filterMap_zipIdx_eq_nil]

theorem transpose_le_of_entryFault? {s : Song} {voice index : Nat} {e : OrderEntry}
    (h : entryFault? s voice index e = none) : e.transpose.toInt.natAbs ≤ Sound.Pitch.highest := by
  unfold entryFault? at h
  split at h
  · cases h
  · omega

/-! ## Songs -/

theorem wellFormed_iff {s : Song} :
    s.WellFormed ↔
      s.tempo ≠ 0 ∧ s.orderLists.length = voiceCount ∧
        (∀ i t, s.tables[i]? = some t → tableFaults (s.tables.take i) t = []) ∧
        (∀ i x, s.instruments[i]? = some x → instrumentFaults s i x = []) ∧
        (∀ i q, s.sequences[i]? = some q → sequenceFaults s i q = []) ∧
        ∀ i l, s.orderLists[i]? = some l → orderFaults s i l = [] := by
  simp only [WellFormed, faults, List.append_eq_nil_iff, flatMap_zipIdx_eq_nil, and_assoc]
  refine and_congr ?_ (and_congr ?_ Iff.rfl) <;> simp

namespace WellFormed

variable {s : Song}

theorem orderLists_length (h : s.WellFormed) : s.orderLists.length = voiceCount :=
  (wellFormed_iff.mp h).2.1

theorem tables (h : s.WellFormed) : Distinct s.tables ∧ ∀ t ∈ s.tables, t.Sound :=
  tablesFaults_eq_nil.mp (wellFormed_iff.mp h).2.2.1

theorem isOpen_eq_false (h : s.WellFormed) {t : Table} (ht : t ∈ s.tables) : t.isOpen = false := (h.tables.2 t ht).1

theorem step_length (h : s.WellFormed) {t : Table} (ht : t ∈ s.tables) {step : Bytes}
    (hstep : .step step ∈ t.rows) : step.length = t.kind.width := by
  obtain ⟨i, hi⟩ := List.getElem?_of_mem hstep
  exact rowFaults_eq_nil.mp ((h.tables.2 t ht).2 i _ hi)

theorem pairwise_kind (h : s.WellFormed) : s.tables.Pairwise fun t u => t.kind ≠ u.kind := h.tables.1

theorem table?_eq_some (h : s.WellFormed) {t : Table} (ht : t ∈ s.tables) :
    s.table? t.kind = some t := find?_of_pairwise h.pairwise_kind ht

theorem start?_lt (h : s.WellFormed) {x : Instrument} (hx : x ∈ s.instruments) {kind : TableKind}
    {row : UInt8} (hrow : x.start? kind = some row) : row.toNat < s.tableLength kind := by
  obtain ⟨i, hi⟩ := List.getElem?_of_mem hx
  have hfaults := (wellFormed_iff.mp h).2.2.2.1 i x hi
  exact instrumentFaults_eq_nil.mp hfaults kind row hrow

theorem transpose_le (h : s.WellFormed) {l : OrderList} (hl : l ∈ s.orderLists) {e : OrderEntry}
    (he : e ∈ l.entries) : e.transpose.toInt.natAbs ≤ Sound.Pitch.highest := by
  obtain ⟨voice, hvoice⟩ := List.getElem?_of_mem hl
  obtain ⟨i, hi⟩ := List.getElem?_of_mem he
  have hfaults := (wellFormed_iff.mp h).2.2.2.2.2 voice l hvoice
  exact transpose_le_of_entryFault? ((orderFaults_eq_nil.mp hfaults).2 i e hi)

end WellFormed

end Chiptune.Song
