/-
What cutting leaves of a song.

Each cut repairs whatever refers to what it removes, so a song that is
consistent before it is consistent after it. The cuts of tables, instruments
and commands leave what the voices play as it is, row by row (`KeepsRows`);
those of sequences and order lists take entries off the order lists.
-/
import Chiptune.Proofs.Player.Fit
import Chiptune.Proofs.Song.Change

namespace Chiptune.Player.Fit

open Song

/-! ## Cutting tables -/

section Rows

variable {capacity : Nat} {t : Table}

/-- The rows that are left, before the last one ends the table. -/
def keptRows (capacity : Nat) (t : Table) : List Row := (t.rows.take capacity).map (cutRow capacity)

theorem cutRows_rows (capacity : Nat) (t : Table) :
    ((cutRows capacity t).rows = keptRows capacity t ∧ ∀ bytes, (keptRows capacity t).getLast? ≠ some (.step bytes)) ∨
      ∃ before bytes, keptRows capacity t = before ++ [.step bytes] ∧ (cutRows capacity t).rows = before ++ [.stop] := by
  unfold cutRows
  dsimp only
  split
  next bytes hlast =>
    exact .inr ⟨(keptRows capacity t).dropLast, bytes, (List.dropLast_append_getLast? _ hlast).symm, rfl⟩
  next hlast => exact .inl ⟨rfl, hlast⟩

theorem length_cutRows : (cutRows capacity t).rows.length = min capacity t.rows.length := by
  have hkept : (keptRows capacity t).length = min capacity t.rows.length := by
    rw [keptRows, List.length_map, List.length_take]
  rcases cutRows_rows capacity t with ⟨hrows, -⟩ | ⟨before, bytes, hbefore, hrows⟩
  · rw [hrows, hkept]
  · rw [← hkept, hrows, hbefore, List.length_append, List.length_append]
    rfl

/-- A row of the cut table is one that is left, but for a last step. -/
theorem getElem?_cutRows (capacity : Nat) (t : Table) (i : Nat) :
    (cutRows capacity t).rows[i]? = (keptRows capacity t)[i]? ∨
      (cutRows capacity t).rows[i]? = some .stop ∧ ∃ bytes, (keptRows capacity t)[i]? = some (.step bytes) := by
  rcases cutRows_rows capacity t with ⟨hrows, -⟩ | ⟨before, bytes, hbefore, hrows⟩
  · exact .inl (by rw [hrows])
  · rw [hbefore, hrows]
    rcases Nat.lt_trichotomy i before.length with hi | rfl | hi
    · exact .inl (by rw [List.getElem?_append_left hi, List.getElem?_append_left hi])
    · exact .inr ⟨by simp, bytes, by simp⟩
    · refine .inl ?_
      rw [List.getElem?_eq_none (by simp; omega), List.getElem?_eq_none (by simp; omega)]

theorem getElem?_keptRows {i : Nat} {row : Row} (h : (keptRows capacity t)[i]? = some row) :
    i < capacity ∧ ∃ r, t.rows[i]? = some r ∧ cutRow capacity r = row := by
  simp only [keptRows, List.getElem?_map, Option.map_eq_some_iff] at h
  obtain ⟨r, hr, hrow⟩ := h
  rw [List.getElem?_take] at hr
  split at hr
  next hi => exact ⟨hi, r, hr, hrow⟩
  next => cases hr

theorem isOpen_cutRows (capacity : Nat) (t : Table) : (cutRows capacity t).isOpen = false := by
  unfold Table.isOpen
  rcases cutRows_rows capacity t with ⟨hrows, hlast⟩ | ⟨before, bytes, -, hrows⟩
  · rw [hrows]
    cases hrow : (keptRows capacity t).getLast? with
    | none => rfl
    | some row =>
      cases row with
      | step bytes => exact absurd hrow (hlast bytes)
      | loop target => rfl
      | stop => rfl
  · rw [hrows, List.getLast?_append]
    rfl

/-- A row that a loop may lead to is left as one. -/
theorem leadsTo_cutRows {i : Nat} (hi : i < capacity) (h : ∃ r, t.rows[i]? = some r ∧ ∀ u, r ≠ .loop u) :
    ∃ r, (cutRows capacity t).rows[i]? = some r ∧ ∀ u, r ≠ .loop u := by
  obtain ⟨r, hr, hloop⟩ := h
  have hkept : (keptRows capacity t)[i]? = some (cutRow capacity r) := by
    simp [keptRows, hi, hr]
  rcases getElem?_cutRows capacity t i with hsame | ⟨hstop, -⟩
  · refine ⟨_, hsame.trans hkept, fun u hu => ?_⟩
    cases r with
    | loop v => exact hloop v rfl
    | step bytes => cases hu
    | stop => cases hu
  · exact ⟨_, hstop, fun u hu => by cases hu⟩

/-- **Cutting keeps a table sound.** -/
theorem sound_cutRows (h : t.Sound) : (cutRows capacity t).Sound := by
  refine ⟨isOpen_cutRows capacity t, fun i row' hrow' => rowFaults_eq_nil.mpr ?_⟩
  rcases getElem?_cutRows capacity t i with hkept | ⟨hstop, -⟩
  · rw [hkept] at hrow'
    obtain ⟨hi, row, hrow, rfl⟩ := getElem?_keptRows hrow'
    have hsound := rowFaults_eq_nil.mp (h.2 i row hrow)
    cases row with
    | step bytes => exact hsound
    | stop => trivial
    | loop target =>
      by_cases hinside : target.toNat < capacity
      · rw [show cutRow capacity (.loop target) = .loop target from if_pos hinside]
        exact leadsTo_cutRows hinside hsound
      · rw [show cutRow capacity (.loop target) = .stop from if_neg hinside]
        trivial
  · rw [hstop] at hrow'
    cases hrow'
    trivial

end Rows

variable {t : Template} {s : Song} {capacity : Nat}

theorem tableLength_updateTable (s : Song) (kind k : TableKind) :
    (s.updateTable kind (cutRows capacity)).tableLength k =
      if k = kind then min capacity (s.tableLength k) else s.tableLength k := by
  simp only [Song.tableLength, table?_updateTable (f := cutRows capacity) (fun _ h => h)]
  by_cases hk : k = kind
  · subst hk
    simp only [if_true]
    cases s.table? k with
    | none => simp
    | some table => exact length_cutRows
  · simp only [hk, if_false]

/-- A program starts where it did, inside of what is left of its table, or a wave program with the first row. -/
theorem start?_cutProgram {kind k : TableKind} {x : Instrument} {row : UInt8}
    (h : (cutProgram kind capacity x).start? k = some row) :
    (x.start? k = some row ∧ (k = kind → row.toNat < capacity)) ∨ k = .wave ∧ kind = .wave ∧ row = 0 := by
  cases kind with
  | wave =>
    simp only [cutProgram, decide_eq_true_eq] at h
    split at h
    next hfits =>
      refine .inl ⟨h, ?_⟩
      rintro rfl
      cases h
      exact hfits
    next hfits =>
      cases k with
      | wave =>
        cases h
        exact .inr ⟨rfl, rfl, rfl⟩
      | _ => exact .inl ⟨h, by simp⟩
  | pulse =>
    refine .inl ?_
    cases k with
    | pulse =>
      simp only [cutProgram, Instrument.start?, Option.filter_eq_some_iff, decide_eq_true_eq] at h
      exact ⟨h.1, fun _ => h.2⟩
    | _ => exact ⟨h, by simp⟩
  | filter =>
    refine .inl ?_
    cases k with
    | filter =>
      simp only [cutProgram, Instrument.start?, Option.filter_eq_some_iff, decide_eq_true_eq] at h
      exact ⟨h.1, fun _ => h.2⟩
    | _ => exact ⟨h, by simp⟩
  | arpeggio =>
    refine .inl ⟨h, ?_⟩
    rintro rfl
    cases h

theorem sound_of_keepsFilter {e : Event} {instruments filterLength : Nat} (h : e.Sound instruments filterLength)
    (hkeeps : keepsFilter capacity e = true) : e.Sound instruments (min capacity filterLength) := by
  cases e with
  | setCommand c =>
    obtain ⟨kind, first, second⟩ := c
    cases kind with
    | filterProgram =>
      simp only [Event.Sound, commandFault?, ite_eq_left_iff, reduceCtorEq, imp_false, not_not] at h ⊢
      simp only [keepsFilter, Event.filterRow?, Option.all_some, decide_eq_true_eq] at hkeeps
      omega
    | _ => exact h
  | _ => exact h

/-- **Cutting a table** keeps a song consistent that starts no filter program in what is cut off. -/
theorem consistent_cutTable (h : s.Consistent) {kind : TableKind} (hcapacity : 0 < capacity)
    (hfilter : kind = .filter → ∀ q ∈ s.sequences, ∀ e ∈ q.events, keepsFilter capacity e = true) :
    Consistent { s.updateTable kind (cutRows capacity) with
      instruments := s.instruments.map (cutProgram kind capacity) } := by
  have hlength := @tableLength_updateTable capacity s kind
  have hdistinct := distinct_replaceFirst (p := (·.kind == kind)) (f := cutRows capacity) (fun _ => rfl) h.distinct
  refine ⟨h.tempo, h.voices, hdistinct, fun u hu => ?_, fun x' hx' k row hrow => ?_, fun q hq e he => ?_,
    h.entries, h.loops⟩
  · rcases mem_replaceFirst hu with hu | ⟨table, htable, rfl⟩
    · exact h.tables u hu
    · exact sound_cutRows (h.tables table htable)
  · obtain ⟨x, hx, rfl⟩ := List.mem_map.mp hx'
    show row.toNat < (s.updateTable kind (cutRows capacity)).tableLength k
    rw [hlength]
    rcases start?_cutProgram hrow with ⟨hstart, hinside⟩ | ⟨rfl, rfl, rfl⟩
    · have hbefore := h.starts x hx k row hstart
      by_cases hk : k = kind
      · have := hinside hk
        rw [if_pos hk]
        omega
      · rwa [if_neg hk]
    · have hbefore := h.starts x hx .wave x.wave rfl
      rw [if_pos rfl]
      show 0 < _
      omega
  · have hsound := h.events q hq e he
    show e.Sound (s.instruments.map _).length ((s.updateTable kind (cutRows capacity)).tableLength .filter)
    rw [List.length_map, hlength]
    by_cases hk : kind = .filter
    · subst hk
      rw [if_pos rfl]
      exact sound_of_keepsFilter hsound (hfilter rfl q hq e he)
    · rwa [if_neg (Ne.symm hk)]

/-! ## What the voices play -/

/-- The voices play as many rows of everything as before. -/
structure SameRows (s s' : Song) : Prop where
  orderLists : s'.orderLists = s.orderLists
  rowCounts : s'.rowCounts = s.rowCounts

/-- The song is consistent, and its voices play as many rows of everything as before. -/
def KeepsRows (f : Song → Song) : Prop := ∀ s : Song, s.Consistent → (f s).Consistent ∧ SameRows s (f s)

theorem keepsRows_filter {keep : Event → Bool} (hkeep : ∀ e, keep e = false → e.rows = 0) :
    KeepsRows (·.mapSequences (·.filter keep)) := fun s h => ⟨h.filter keep, rfl, rowCounts_filter hkeep s⟩

theorem rows_of_not_keepsFilter (e : Event) (h : keepsFilter capacity e = false) : e.rows = 0 := by
  cases e <;> first | rfl | cases h

theorem rows_of_command? {e : Event} {p : Command → Bool} (h : e.command?.all p = false) : e.rows = 0 := by
  cases e <;> first | rfl | cases h

/-- No slot is without room. -/
def Roomy (t : Template) : Prop := ∀ spec ∈ t.tables, 0 < spec.capacity.toNat

theorem Roomy.spec? (ht : Roomy t) {slot : Slot} {spec : SlotSpec} (h : t.spec? slot = some spec) :
    0 < spec.capacity.toNat := ht spec (List.mem_of_find?_eq_some h)

theorem keepsRows_tableCut (ht : Roomy t) {c : Cut} (hc : c ∈ tableCuts t) : KeepsRows c.cut := by
  obtain ⟨kind, -, hc⟩ := List.mem_filterMap.mp hc
  obtain ⟨spec, hspec, rfl⟩ := Option.map_eq_some_iff.mp hc
  have hcapacity : 0 < tableCapacity kind spec := by
    have := ht.spec? hspec
    cases kind with
    | arpeggio =>
      simp only [tableCapacity, Rows.arpeggioRows]
      omega
    | _ => exact this
  intro s h
  dsimp only
  split
  next hkind =>
    have hfiltered := h.filter (keepsFilter (tableCapacity kind spec))
    refine ⟨consistent_cutTable hfiltered hcapacity fun _ q' hq' e he => ?_, rfl,
      rowCounts_filter rows_of_not_keepsFilter s⟩
    obtain ⟨q, -, rfl⟩ := List.mem_map.mp hq'
    exact (List.mem_filter.mp he).2
  next hkind => exact ⟨consistent_cutTable h hcapacity fun hfilter => absurd hfilter hkind, rfl, rfl⟩

theorem keepsRows_commandCut : KeepsRows (commandCut t).cut := fun s h =>
  keepsRows_filter (fun _ => rows_of_command?) s h

theorem keepsRows_instrumentCut (ht : Roomy t) {c : Cut} (hc : c ∈ instrumentCuts t) : KeepsRows c.cut := by
  obtain ⟨spec, hspec, rfl⟩ := List.mem_map.mp hc
  have hcapacity := ht.spec? (Option.mem_toList.mp hspec)
  intro s h
  have hrows (e : Event) : (cutInstrument spec.capacity.toNat e).rows = e.rows := by
    cases e <;> simp only [cutInstrument]
    split <;> rfl
  have hpitch (e : Event) : (cutInstrument spec.capacity.toNat e).pitch? = e.pitch? := by
    cases e <;> simp only [cutInstrument]
    split <;> rfl
  refine ⟨⟨h.tempo, h.voices, h.distinct, h.tables, fun x hx => h.starts x (List.mem_of_mem_take hx),
    fun q' hq' e' he' => ?_, fun l hl e he => ?_, h.loops⟩, rfl, ?_⟩
  · obtain ⟨q, hq, rfl⟩ := List.mem_map.mp hq'
    obtain ⟨e, he, rfl⟩ := List.mem_map.mp he'
    have hsound := h.events q hq e he
    show (cutInstrument _ e).Sound (s.instruments.take _).length (s.tableLength .filter)
    rw [List.length_take]
    cases e with
    | setInstrument id =>
      simp only [Event.Sound] at hsound
      by_cases hid : id.toNat < spec.capacity.toNat
      · simp only [cutInstrument, hid, if_true, Event.Sound]
        omega
      · simp only [cutInstrument, hid, if_false, Event.Sound]
        show 0 < _
        omega
    | _ => exact hsound
  · refine OrderEntry.Sound.mapSequences (s := s) (h.entries l hl e he) fun q p hp => ?_
    simpa only [Sequence.pitches, Sequence.mapEvents, List.filterMap_map, Function.comp_def, hpitch] using hp
  · simp only [rowCounts, Song.mapSequences, List.map_map, Function.comp_def, Sequence.rowCount, Sequence.mapEvents,
      List.foldr_map, hrows]

/-! ## Cutting what the voices play -/

theorem consistent_sequenceCut (h : s.Consistent) : ((sequenceCut t).cut s).Consistent := by
  refine ⟨h.tempo, (List.length_map ..).trans h.voices, h.distinct, h.tables, h.starts,
    fun q hq => h.events q (List.mem_of_mem_take hq), fun l' hl' e he => ?_, fun l' hl' target hfinish => ?_⟩
  · obtain ⟨l, hl, rfl⟩ := List.mem_map.mp hl'
    obtain ⟨he, hkeeps⟩ := List.mem_filter.mp he
    obtain ⟨htranspose, q, hq, hsounding⟩ := h.entries l hl e he
    refine ⟨htranspose, q, ?_, hsounding⟩
    show (s.sequences.take _)[_]? = _
    rw [List.getElem?_take, if_pos (of_decide_eq_true hkeeps), hq]
  · obtain ⟨l, hl, rfl⟩ := List.mem_map.mp hl'
    simp only [cutEntries] at hfinish ⊢
    split at hfinish
    · cases hfinish
    next first hfirst =>
      split at hfinish
      next hinside =>
        cases hfinish
        have hstart := List.countP_le_length (p := fun e : OrderEntry => decide (e.sequence.toNat < t.maxSequences.toNat))
          (l := l.entries.take first.toNat)
        rw [List.length_take] at hstart
        have := first.toNat_lt
        rw [UInt8.toNat_ofNat', Nat.mod_eq_of_lt (by omega)]
        exact hinside.2
      next => cases hfinish

theorem loopsInside_cutOrderList {l : OrderList} (h : l.LoopsInside) : (cutOrderList capacity l).LoopsInside := by
  intro target hfinish
  simp only [cutOrderList] at hfinish ⊢
  split at hfinish
  next first hfirst =>
    split at hfinish
    next hinside =>
      cases hfinish
      have := h _ hfirst
      rw [List.length_take]
      omega
    next => cases hfinish
  next => cases hfinish

theorem cutOrderList_eq {l : OrderList} (h : l.LoopsInside) (hlength : l.entries.length ≤ capacity) :
    cutOrderList capacity l = l := by
  obtain ⟨entries, finish⟩ := l
  simp only [cutOrderList, List.take_of_length_le hlength, OrderList.mk.injEq, true_and]
  cases finish with
  | stop => rfl
  | loop target => exact if_pos (Nat.lt_of_lt_of_le (h target rfl) hlength)

theorem cutEntries_eq {l : OrderList} (h : l.LoopsInside) (hentries : ∀ e ∈ l.entries, e.sequence.toNat < capacity) :
    cutEntries capacity l = l := by
  obtain ⟨entries, finish⟩ := l
  have hkeeps : ∀ e ∈ entries, decide (e.sequence.toNat < capacity) = true := fun e he => decide_eq_true (hentries e he)
  simp only [cutEntries, List.filter_eq_self.mpr hkeeps, OrderList.mk.injEq, true_and]
  cases finish with
  | stop => rfl
  | loop target =>
    have hinside : target.toNat < entries.length := h target rfl
    have hstart : (entries.take target.toNat).countP (fun e => decide (e.sequence.toNat < capacity)) =
        target.toNat := by
      rw [List.countP_eq_length.mpr fun e he => hkeeps e (List.mem_of_mem_take he), List.length_take]
      omega
    simp only [hstart, hinside, true_and, if_true, UInt8.ofNat_toNat]

end Chiptune.Player.Fit
