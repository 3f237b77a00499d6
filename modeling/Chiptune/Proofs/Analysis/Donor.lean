/-
Programs and instruments that a song takes from another one.

Whatever is taken is appended: the tables and the list of instruments only
grow (`Grown`), so what stood in them stands there still. A program that
started past the end of its table is replaced by a copy of one of the donor's
(`Retargeted`), and every other program starts where it did.
-/
import Chiptune.Analysis.Completion
import Chiptune.Proofs.Outcome
import Chiptune.Proofs.Song.Change
import Chiptune.Proofs.Song.Walk

namespace Chiptune.Analysis

open Song

/-! ## Appending a program -/

theorem programAt_ne_nil (t : Table) (start : Nat) : programAt t start ≠ [] := by
  unfold programAt
  cases t.rows.drop start with
  | nil => simp [programRows]
  | cons row rest => cases row <;> simp [programRows]

/-- What a song is apart from what is completed. -/
def outline (s : Song) : Song :=
  { s with instruments := [], tables := [], sequences := [], instrumentProvenance := .static }

/-- Only a song's table of one kind has changed, and rows were appended to it. -/
structure Extended (kind : TableKind) (s s' : Song) : Prop where
  rows : s.tableRows kind <+: s'.tableRows kind
  others : ∀ k, k ≠ kind → s'.tableRows k = s.tableRows k
  instruments : s'.instruments = s.instruments
  sequences : s'.sequences = s.sequences
  outline : outline s' = outline s

theorem Extended.refl (kind : TableKind) (s : Song) : Extended kind s s :=
  ⟨List.prefix_refl _, fun _ _ => rfl, rfl, rfl, rfl⟩

theorem tableRows_withTable (s : Song) (kind k : TableKind) : (withTable s kind).tableRows k = s.tableRows k := by
  unfold withTable
  split
  · rfl
  next hnone =>
    unfold tableRows table?
    dsimp only
    rw [find?_sortTables, List.find?_append]
    cases hfind : s.tables.find? (·.kind == k) with
    | some t => rfl
    | none =>
      by_cases hk : kind = k
      · simp [hk]
      · simp [hk]

theorem exists_table?_withTable (s : Song) (kind : TableKind) :
    ∃ t, (withTable s kind).table? kind = some t ∧ t.rows = s.tableRows kind ∧ t.kind = kind := by
  obtain ⟨t, ht⟩ : ∃ t, (withTable s kind).table? kind = some t := by
    unfold withTable
    split
    next t ht => exact ⟨t, ht⟩
    next hnone =>
      unfold table? at hnone ⊢
      dsimp only
      rw [find?_sortTables, List.find?_append, hnone]
      exact ⟨{ kind, rows := [] }, by simp⟩
  exact ⟨t, ht, by rw [← tableRows_withTable s kind kind, tableRows_of_table? ht], (mem_of_table? ht).1⟩

theorem extended_withTable (s : Song) (kind k : TableKind) : Extended k s (withTable s kind) := by
  refine ⟨?_, fun _ _ => tableRows_withTable .., ?_, ?_, ?_⟩
  · simp only [tableRows_withTable, List.prefix_refl]
  all_goals
    unfold withTable
    split <;> rfl

/-- A program added stands at the end of its table. -/
theorem addProgram_eq_ok {s s' : Song} {kind : TableKind} {program : List Row} {first : UInt8}
    (h : addProgram s kind program = .ok (first, s')) :
    first.toNat = s.tableLength kind ∧ Placed (s'.tableRows kind) first.toNat program ∧ Extended kind s s' := by
  obtain ⟨t, ht, hrows, hkind⟩ := exists_table?_withTable s kind
  unfold addProgram at h
  simp only [ht] at h
  obtain ⟨⟨start, u⟩, happend, h⟩ := bind_eq_ok.mp h
  cases h
  obtain ⟨hfirst, hplaced, hprefix, hu⟩ := Placed.of_append? (Table.append_eq_ok.mp happend)
  have htables := tableRows_updateTable ht (hu.trans hkind)
  refine ⟨?_, by rwa [htables, if_pos rfl], ?_, fun k hk => ?_, ?_, ?_, ?_⟩
  · rw [hfirst, ← length_tableRows, ← hrows]
  · rw [htables, if_pos rfl, ← hrows]
    exact hprefix
  · rw [htables, if_neg hk, tableRows_withTable]
  · exact (extended_withTable s kind kind).instruments
  · exact (extended_withTable s kind kind).sequences
  · exact (extended_withTable s kind kind).outline

/-! ## Taking instruments -/

/-- Rows and instruments were appended. -/
structure Grown (s s' : Song) : Prop where
  rows : ∀ kind, s.tableRows kind <+: s'.tableRows kind
  instruments : s.instruments <+: s'.instruments
  sequences : s'.sequences = s.sequences
  outline : outline s' = outline s

namespace Grown

variable {s₁ s₂ s₃ s s' : Song}

theorem refl (s : Song) : Grown s s := ⟨fun _ => List.prefix_refl _, List.prefix_refl _, rfl, rfl⟩

theorem trans (h : Grown s₁ s₂) (h' : Grown s₂ s₃) : Grown s₁ s₃ :=
  ⟨fun kind => (h.rows kind).trans (h'.rows kind), h.instruments.trans h'.instruments,
    h'.sequences.trans h.sequences, h'.outline.trans h.outline⟩

theorem selected (h : Grown s s') : instrumentRefs s' = instrumentRefs s := by
  rw [instrumentRefs, events, h.sequences, ← events, instrumentRefs]

theorem of_extended {kind : TableKind} (h : Extended kind s s') : Grown s s' := by
  refine ⟨fun k => ?_, h.instruments ▸ List.prefix_refl _, h.sequences, h.outline⟩
  by_cases hk : k = kind
  · rw [hk]
    exact h.rows
  · simp only [h.others k hk, List.prefix_refl]

end Grown

variable {donor s s' : Song}

theorem importProgram_eq_ok {kind : TableKind} {start row : Option UInt8}
    (h : importProgram donor s kind start = .ok (row, s')) :
    Grown s s' ∧ s'.instruments = s.instruments := by
  unfold importProgram at h
  split at h
  next start table htable =>
    obtain ⟨⟨first, s₁⟩, hadd, h⟩ := bind_eq_ok.mp h
    cases h
    obtain ⟨-, -, hextended⟩ := addProgram_eq_ok hadd
    exact ⟨.of_extended hextended, hextended.instruments⟩
  · cases h
    exact ⟨.refl _, rfl⟩

theorem importInstrument_eq_ok {i : Instrument} (h : importInstrument donor s i = .ok s') :
    Grown s s' ∧ s'.instruments.length = s.instruments.length + 1 := by
  unfold importInstrument at h
  obtain ⟨⟨wave, s₁⟩, hwave, h⟩ := bind_eq_ok.mp h
  obtain ⟨⟨pulse, s₂⟩, hpulse, h⟩ := bind_eq_ok.mp h
  obtain ⟨⟨filter, s₃⟩, hfilter, h⟩ := bind_eq_ok.mp h
  cases h
  obtain ⟨hgrown₁, hinstruments₁⟩ := importProgram_eq_ok hwave
  obtain ⟨hgrown₂, hinstruments₂⟩ := importProgram_eq_ok hpulse
  obtain ⟨hgrown₃, hinstruments₃⟩ := importProgram_eq_ok hfilter
  obtain ⟨hrows, -, hsequences, houtline⟩ := (hgrown₁.trans hgrown₂).trans hgrown₃
  have hinstruments : s₃.instruments = s.instruments := by rw [hinstruments₃, hinstruments₂, hinstruments₁]
  refine ⟨⟨hrows, ?_, hsequences, houtline⟩, ?_⟩
  · rw [hinstruments]
    exact List.prefix_append ..
  · rw [hinstruments, List.length_append]
    rfl

/-- A donor with instruments has one to give for every number. -/
theorem exists_donated? (h : donor.instruments ≠ []) (index : Nat) : ∃ i, Completion.donated? donor index = some i := by
  unfold Completion.donated?
  cases donor.instruments[index]? with
  | some i => exact ⟨i, rfl⟩
  | none => exact ⟨_, List.getLast?_eq_some_getLast h⟩

theorem takeInstruments_eq_ok {missing : List Nat} (hdonor : donor.instruments ≠ [])
    (h : missing.foldlM (Completion.takeInstrument donor) s = .ok s') :
    Grown s s' ∧ s'.instruments.length = s.instruments.length + missing.length := by
  refine foldlM_eq_ok (fun rest s₁ => Grown s s₁ ∧
    s₁.instruments.length + rest.length = s.instruments.length + missing.length) ?_ ⟨.refl _, rfl⟩ h
  rintro index rest s₁ s₂ ⟨hgrown, hlength⟩ htake
  obtain ⟨i, hi⟩ := exists_donated? hdonor index
  simp only [Completion.takeInstrument, hi] at htake
  obtain ⟨hgrown', hlength'⟩ := importInstrument_eq_ok htake
  rw [List.length_cons] at hlength
  exact ⟨hgrown.trans hgrown', by omega⟩

/-! ## Replacing programs -/

open Completion

theorem start?_redirected {kind : TableKind} {i : Instrument} {row old : UInt8} (h : i.start? kind = some old) :
    (redirected kind row i).start? kind = some row := by
  cases kind with
  | arpeggio => cases h
  | wave | pulse | filter => rfl

theorem start?_redirected_of_ne {kind k : TableKind} (hk : k ≠ kind) (row : UInt8) (i : Instrument) :
    (redirected kind row i).start? k = i.start? k := by
  cases kind <;> cases k <;> first | rfl | exact absurd rfl hk

theorem attackDecay_redirected (kind : TableKind) (row : UInt8) (i : Instrument) :
    (redirected kind row i).attackDecay = i.attackDecay := by
  cases kind <;> rfl

theorem sustainRelease_redirected (kind : TableKind) (row : UInt8) (i : Instrument) :
    (redirected kind row i).sustainRelease = i.sustainRelease := by
  cases kind <;> rfl

theorem hardRestart_redirected (kind : TableKind) (row : UInt8) (i : Instrument) :
    (redirected kind row i).hardRestart = i.hardRestart := by
  cases kind <;> rfl

/-- What becomes of an instrument whose program may start past the first `extracted` rows. -/
inductive Retargeted (donor : Song) (source : Table) (extracted : Nat) (rows : List Row) (i : Instrument) :
    Instrument → Prop
  /-- A program that starts in them stays. -/
  | kept (h : ∀ row, i.start? source.kind = some row → row.toNat < extracted) :
    Retargeted donor source extracted rows i i
  /-- Any other is replaced by a copy of the program that the donor has for the instrument. -/
  | copied {row start : UInt8} (hrow : i.start? source.kind = some row) (hpast : extracted ≤ row.toNat)
    (hstart : extracted ≤ start.toNat)
    (hplaced : Placed rows start.toNat (programAt source (donorStart donor source.kind i))) :
    Retargeted donor source extracted rows i (redirected source.kind start i)

variable {source : Table} {extracted : Nat}

theorem Retargeted.mono {rows rows' : List Row} {i i' : Instrument} (h : Retargeted donor source extracted rows i i')
    (hrows : rows <+: rows') : Retargeted donor source extracted rows' i i' := by
  cases h with
  | kept h => exact .kept h
  | copied hrow hpast hstart hplaced => exact .copied hrow hpast hstart (hplaced.mono hrows)

theorem Retargeted.same {rows : List Row} {i i' : Instrument} (h : Retargeted donor source extracted rows i i')
    {k : TableKind} (hk : k ≠ source.kind) :
    (i'.attackDecay, i'.sustainRelease, i'.start? k) = (i.attackDecay, i.sustainRelease, i.start? k) := by
  cases h with
  | kept h => rfl
  | copied hrow hpast hstart hplaced =>
    rw [attackDecay_redirected, sustainRelease_redirected, start?_redirected_of_ne hk]

theorem Retargeted.hardRestart {rows : List Row} {i i' : Instrument} (h : Retargeted donor source extracted rows i i') :
    i'.hardRestart = i.hardRestart := by
  cases h with
  | kept h => rfl
  | copied hrow hpast hstart hplaced => exact hardRestart_redirected ..

/-- Every copy noted stands at its row, behind the extracted ones. -/
def Copies.Noted (source : Table) (extracted : Nat) (rows : List Row) (copies : Copies) : Prop :=
  ∀ c ∈ copies, extracted ≤ c.2.toNat ∧ Placed rows c.2.toNat (programAt source c.1)

theorem Copies.Noted.mono {rows rows' : List Row} {copies : Copies} (h : Copies.Noted source extracted rows copies)
    (hrows : rows <+: rows') : Copies.Noted source extracted rows' copies :=
  fun c hc => ⟨(h c hc).1, (h c hc).2.mono hrows⟩

theorem copyProgram_eq_ok {copies copies' : Copies} {start : Nat} {row : UInt8}
    (h : copyProgram source s copies start = .ok (row, s', copies'))
    (hcopies : Copies.Noted source extracted (s.tableRows source.kind) copies)
    (hextracted : extracted ≤ s.tableLength source.kind) :
    Extended source.kind s s' ∧ extracted ≤ row.toNat ∧
      Placed (s'.tableRows source.kind) row.toNat (programAt source start) ∧
      Copies.Noted source extracted (s'.tableRows source.kind) copies' := by
  unfold copyProgram at h
  split at h
  next start' row' hfind =>
    cases h
    have hstart : start' = start := by simpa using List.find?_some hfind
    obtain ⟨hpast, hplaced⟩ := hcopies _ (List.mem_of_find?_eq_some hfind)
    exact ⟨.refl _ _, hpast, hstart ▸ hplaced, hcopies⟩
  · obtain ⟨⟨first, s₁⟩, hadd, h⟩ := bind_eq_ok.mp h
    cases h
    obtain ⟨hfirst, hplaced, hextended⟩ := addProgram_eq_ok hadd
    have hpast : extracted ≤ row.toNat := by omega
    refine ⟨hextended, hpast, hplaced, fun c hc => ?_⟩
    rcases List.mem_append.mp hc with hc | hc
    · exact hcopies.mono hextended.rows c hc
    · rw [List.mem_singleton.mp hc]
      exact ⟨hpast, hplaced⟩

/-- The loop over the instruments of `s` when those numbered `rest` are left. -/
structure Retargeting (donor : Song) (source : Table) (extracted : Nat) (s : Song) (rest : List Nat)
    (state : Song × Copies) : Prop where
  nodup : rest.Nodup
  rows : s.tableRows source.kind <+: state.1.tableRows source.kind
  others : ∀ k, k ≠ source.kind → state.1.tableRows k = s.tableRows k
  sequences : state.1.sequences = s.sequences
  outline : outline state.1 = outline s
  copies : Copies.Noted source extracted (state.1.tableRows source.kind) state.2
  length : state.1.instruments.length = s.instruments.length
  waiting : ∀ n ∈ rest, state.1.instruments[n]? = s.instruments[n]?
  done : ∀ n, n ∉ rest → ∀ i, s.instruments[n]? = some i → ∃ i', state.1.instruments[n]? = some i' ∧
    Retargeted donor source extracted (state.1.tableRows source.kind) i i'

namespace Retargeting

variable {n : Nat} {rest : List Nat} {state state' : Song × Copies}

theorem keep (h : Retargeting donor source extracted s (n :: rest) state)
    (hn : ∀ i, state.1.instruments[n]? = some i → ∀ row, i.start? source.kind = some row → row.toNat < extracted) :
    Retargeting donor source extracted s rest state := by
  refine ⟨h.nodup.of_cons, h.rows, h.others, h.sequences, h.outline, h.copies, h.length, fun m hm => h.waiting m (by simp [hm]),
    fun m hm i hi => ?_⟩
  by_cases hmn : m = n
  · subst hmn
    rw [← h.waiting m (by simp)] at hi
    exact ⟨i, hi, .kept (hn i hi)⟩
  · exact h.done m (by simp [hmn, hm]) i hi

/-- The next instrument is redirected to a copy of its program. -/
theorem redirect {s₁ s₂ : Song} {copies copies' : Copies} {i : Instrument} {start : UInt8}
    (h : Retargeting donor source extracted s (n :: rest) (s₁, copies)) (hextended : Extended source.kind s₁ s₂)
    (hcopies : Copies.Noted source extracted (s₂.tableRows source.kind) copies') (hi : s₁.instruments[n]? = some i)
    (hretargeted : Retargeted donor source extracted (s₂.tableRows source.kind) i (redirected source.kind start i)) :
    Retargeting donor source extracted s rest
      ({ s₂ with instruments := s₂.instruments.modify n (redirected source.kind start) }, copies') := by
  have hget : ∀ m, (s₂.instruments.modify n (redirected source.kind start))[m]? =
      (fun i => if n = m then redirected source.kind start i else i) <$> s₁.instruments[m]? := fun m => by
    rw [List.getElem?_modify, hextended.instruments]
  refine ⟨h.nodup.of_cons, h.rows.trans hextended.rows, fun k hk => (hextended.others k hk).trans (h.others k hk),
    hextended.sequences.trans h.sequences, hextended.outline.trans h.outline, hcopies, ?_, fun m hm => ?_, fun m hm a ha => ?_⟩
  · rw [← h.length, List.length_modify, hextended.instruments]
  · have hmn : n ≠ m := by
      rintro rfl
      exact (List.nodup_cons.mp h.nodup).1 hm
    rw [hget, ← h.waiting m (by simp [hm])]
    simp [hmn]
  · by_cases hmn : m = n
    · subst hmn
      rw [← h.waiting m (by simp), hi] at ha
      cases ha
      refine ⟨redirected source.kind start i, ?_, hretargeted⟩
      rw [hget, hi]
      simp
    · obtain ⟨b, hb, hdone⟩ := h.done m (by simp [hmn, hm]) a ha
      refine ⟨b, ?_, hdone.mono hextended.rows⟩
      rw [hget, hb]
      simp [Ne.symm hmn]

theorem step (h : Retargeting donor source extracted s (n :: rest) state)
    (hextracted : extracted ≤ s.tableLength source.kind)
    (hstep : retargetInstrument donor source extracted state n = .ok state') :
    Retargeting donor source extracted s rest state' := by
  obtain ⟨s₁, copies⟩ := state
  unfold retargetInstrument at hstep
  dsimp only at hstep
  split at hstep
  next hnone =>
    cases hstep
    exact h.keep (by simp [hnone])
  next i hi =>
  split at hstep
  next hnone =>
    cases hstep
    exact h.keep (by simp [hi, hnone])
  next row hrow =>
  split at hstep
  next hinside =>
    cases hstep
    refine h.keep fun i' hi' row' hrow' => ?_
    cases hi.symm.trans hi'
    cases hrow.symm.trans hrow'
    exact hinside
  next hpast =>
    obtain ⟨⟨start, s₂, copies'⟩, hcopy, hstep⟩ := bind_eq_ok.mp hstep
    cases hstep
    have hlength : extracted ≤ s₁.tableLength source.kind :=
      Nat.le_trans hextracted (tableLength_mono h.rows)
    obtain ⟨hextended, hstart, hplaced, hcopies⟩ := copyProgram_eq_ok hcopy h.copies hlength
    exact h.redirect hextended hcopies hi (.copied hrow (Nat.not_lt.mp hpast) hstart hplaced)

end Retargeting

theorem retargetInstruments_eq_ok {copies : Copies} (hextracted : extracted ≤ s.tableLength source.kind)
    (h : (List.range s.instruments.length).foldlM (retargetInstrument donor source extracted)
      (withTable s source.kind, []) = .ok (s', copies)) :
    Retargeting donor source extracted s [] (s', copies) := by
  have hwith := extended_withTable s source.kind source.kind
  refine foldlM_eq_ok (fun rest state => Retargeting donor source extracted s rest state) ?_ ?_ h
  · exact fun n rest state state' hstate hstep => hstate.step hextracted hstep
  · refine ⟨List.nodup_range, hwith.rows, hwith.others, hwith.sequences, hwith.outline, by simp [Copies.Noted], ?_, fun n hn => ?_,
      fun n hn i hi => ?_⟩
    · rw [hwith.instruments]
    · rw [hwith.instruments]
    · exact absurd (List.mem_range.mpr (List.getElem?_eq_some_iff.mp hi).1) hn

/-! ## Commands -/

theorem events_mapSequences (s : Song) (f : Event → Event) :
    (s.mapSequences (·.mapEvents f)).events = s.events.map f := by
  simp only [events, mapSequences, Sequence.mapEvents, List.flatMap_map, List.map_flatMap]

theorem instrument?_retargetEvent (row : UInt8) (e : Event) :
    (retargetEvent extracted row e).instrument? = e.instrument? := by
  unfold retargetEvent
  cases e with
  | setCommand c =>
    dsimp only
    split <;> rfl
  | _ => rfl

theorem filterRow?_retargetEvent (row : UInt8) (e : Event) :
    (retargetEvent extracted row e).filterRow? = if isStale extracted e then some row else e.filterRow? := by
  cases e with
  | setCommand c =>
    obtain ⟨kind, first, second⟩ := c
    unfold retargetEvent
    dsimp only
    by_cases hstale : isStale extracted (.setCommand ⟨kind, first, second⟩) = true
    · rw [if_pos hstale, if_pos hstale]
      cases kind <;> first | rfl | cases hstale
    · rw [if_neg hstale, if_neg hstale]
  | _ => rfl

/-- What a song is when the programs of a kind that started past the first `extracted` rows are replaced. -/
structure Replaced (donor : Song) (source : Table) (extracted : Nat) (s s' : Song) : Prop where
  others : ∀ k, k ≠ source.kind → s'.tableRows k = s.tableRows k
  instruments : List.Forall₂ (Retargeted donor source extracted (s'.tableRows source.kind)) s.instruments s'.instruments
  rows : s.tableRows source.kind <+: s'.tableRows source.kind
  selected : instrumentRefs s' = instrumentRefs s
  sequences : source.kind ≠ .filter → s'.sequences = s.sequences
  commands : source.kind = .filter → ∀ e ∈ s'.events, ∀ row, e.filterRow? = some row →
    row.toNat < extracted ∨ row.toNat < s'.tableLength .filter
  retold : s'.sequences = s.sequences ∨
    source.kind = .filter ∧ ∃ row, s'.sequences = s.sequences.map (·.mapEvents (retargetEvent extracted row))
  outline : outline s' = outline s

theorem retarget_eq_ok (hextracted : extracted ≤ s.tableLength source.kind)
    (h : retarget donor source extracted s = .ok s') : Replaced donor source extracted s s' := by
  unfold retarget at h
  obtain ⟨⟨s₁, copies⟩, hloop, h⟩ := bind_eq_ok.mp h
  have hdone := retargetInstruments_eq_ok hextracted hloop
  have hinstruments : List.Forall₂ (Retargeted donor source extracted (s₁.tableRows source.kind)) s.instruments
      s₁.instruments :=
    forall₂_of_getElem? hdone.length.symm fun n i hi => hdone.done n (by simp) i hi
  dsimp only at h
  split at h
  next hstale =>
    obtain ⟨⟨row, s₂, copies'⟩, hcopy, h⟩ := bind_eq_ok.mp h
    cases h
    have hlength : extracted ≤ s₁.tableLength source.kind :=
      Nat.le_trans hextracted (tableLength_mono hdone.rows)
    obtain ⟨hextended, hpast, hplaced, -⟩ := copyProgram_eq_ok hcopy hdone.copies hlength
    have hevents : s₂.events = s.events := by
      rw [events, hextended.sequences, hdone.sequences, events]
    refine ⟨fun k hk => (hextended.others k hk).trans (hdone.others k hk), ?_, hdone.rows.trans hextended.rows, ?_,
      fun hkind => absurd hstale.1 hkind, fun hkind e he row' hrow' => ?_, .inr ⟨hstale.1, row, ?_⟩,
      hextended.outline.trans hdone.outline⟩
    · show List.Forall₂ _ s.instruments s₂.instruments
      rw [hextended.instruments]
      exact hinstruments.imp fun _ _ h => h.mono hextended.rows
    · simp only [instrumentRefs, events_mapSequences, hevents, List.filterMap_map, Function.comp_def,
        instrument?_retargetEvent]
    · rw [events_mapSequences, hevents] at he
      obtain ⟨e, -, rfl⟩ := List.mem_map.mp he
      rw [filterRow?_retargetEvent] at hrow'
      split at hrow'
      · cases hrow'
        have hlt := hplaced.lt_length (programAt_ne_nil _ _)
        rw [length_tableRows, hkind] at hlt
        exact .inr hlt
      next hfresh =>
        refine .inl (Nat.not_le.mp fun hle => hfresh ?_)
        simp [isStale, hrow', hle]
    · rw [← hdone.sequences, ← hextended.sequences]
      rfl
  next hfresh =>
    cases h
    have hevents : s'.events = s.events := by rw [events, hdone.sequences, events]
    refine ⟨hdone.others, hinstruments, hdone.rows, ?_, fun _ => hdone.sequences, fun hkind e he row hrow => ?_,
      .inl hdone.sequences, hdone.outline⟩
    · rw [instrumentRefs, hevents, instrumentRefs]
    · refine .inl (Nat.not_le.mp fun hle => hfresh ⟨hkind, List.any_eq_true.mpr ⟨e, he, ?_⟩⟩)
      simp [isStale, hrow, hle]

theorem Replaced.closed (h : Replaced donor source extracted s s') (hextracted : extracted ≤ s.tableLength source.kind)
    {r : Nat} (hr : r ∈ tableRefs s' source.kind) : r < s'.tableLength source.kind := by
  have hle := tableLength_mono h.rows
  rcases List.mem_append.mp hr with hr | hr
  · obtain ⟨i', hi', hr⟩ := List.mem_filterMap.mp hr
    obtain ⟨row, hrow, rfl⟩ := Option.map_eq_some_iff.mp hr
    obtain ⟨i, -, hretargeted⟩ := exists_of_mem_right h.instruments hi'
    cases hretargeted with
    | kept hkept =>
      have hlt := hkept row hrow
      omega
    | copied hrow' hpast hstart hplaced =>
      rw [start?_redirected hrow'] at hrow
      cases hrow
      rw [← length_tableRows]
      exact hplaced.lt_length (programAt_ne_nil _ _)
  · split at hr
    next hkind =>
      obtain ⟨e, he, hr⟩ := List.mem_filterMap.mp hr
      obtain ⟨row, hrow, rfl⟩ := Option.map_eq_some_iff.mp hr
      rw [hkind] at hextracted hle ⊢
      rcases h.commands hkind e he row hrow with hlt | hlt
      · omega
      · exact hlt
    · cases hr

/-! ## Failures -/

/-- A table got more rows than one byte can number. -/
def Overflows (f : Failure) : Prop := ∃ kind rows, f = .malformedSong [.tableOverflow kind rows]

theorem addProgram_yields (s : Song) (kind : TableKind) (program : List Row) :
    Yields (addProgram s kind program) (fun _ => True) Overflows := by
  unfold addProgram
  dsimp only
  split
  · trivial
  · refine Yields.bind (P := fun _ => True) ?_ fun _ _ _ => trivial
    unfold Table.append
    split
    · trivial
    · exact ⟨_, _, rfl⟩

theorem importProgram_yields (donor s : Song) (kind : TableKind) (start : Option UInt8) :
    Yields (importProgram donor s kind start) (fun _ => True) Overflows := by
  unfold importProgram
  split
  · exact (addProgram_yields ..).bind fun _ _ _ => trivial
  · trivial

theorem takeInstrument_yields (donor s : Song) (index : Nat) :
    Yields (takeInstrument donor s index) (fun _ => True) Overflows := by
  unfold takeInstrument
  split
  · unfold importInstrument
    refine (importProgram_yields ..).bind fun _ _ _ => ?_
    refine (importProgram_yields ..).bind fun _ _ _ => ?_
    exact (importProgram_yields ..).bind fun _ _ _ => trivial
  · trivial

theorem copyProgram_yields (source : Table) (s : Song) (copies : Copies) (start : Nat) :
    Yields (copyProgram source s copies start) (fun _ => True) Overflows := by
  unfold copyProgram
  split
  · trivial
  · exact (addProgram_yields ..).bind fun _ _ _ => trivial

theorem retarget_yields (donor : Song) (source : Table) (extracted : Nat) (s : Song) :
    Yields (retarget donor source extracted s) (fun _ => True) Overflows := by
  unfold retarget
  refine (Yields.foldlM _ (P := fun _ => True) (fun n _ state _ => ?_) trivial).bind fun _ _ _ => ?_
  · unfold retargetInstrument
    dsimp only
    split
    · trivial
    split
    · trivial
    split
    · trivial
    · exact (copyProgram_yields ..).bind fun _ _ _ => trivial
  · dsimp only
    split
    · exact (copyProgram_yields ..).bind fun _ _ _ => trivial
    · trivial

end Chiptune.Analysis
