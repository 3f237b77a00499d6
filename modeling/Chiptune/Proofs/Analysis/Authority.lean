/-
What completing an extraction leaves as it was read.

Whatever is taken from elsewhere stands behind what was read, and only what
pointed past the rows of its table is changed to point there (`Retold`). Each
kind of table is completed once (`complete_eq_ok`), so each of these facts is
one about the turn of a single kind.
-/
import Chiptune.Proofs.Analysis.Gaps

namespace Chiptune.Analysis

open Song

/-! ## One table of each kind -/

theorem ends_readTable_kind (s : Scanner) (source : TableSource) :
    Job.Ends (Extraction.readTable s source) (fun found => found.2.kind = source.kind) fun _ => True := by
  unfold Extraction.readTable
  exact (ends_records s source.records source.kind.name).bind fun found _ => .pure (Table.kind_closed _)

theorem ends_extract_kinds (s : Scanner) (layout : RangeCoded) :
    Job.Ends (extract s layout) (fun e => e.tables.map (·.1) = layout.sortedTables.map (·.kind)) fun _ => True := by
  unfold extract
  refine (Job.Ends.mapM _ fun source _ => ends_readTable_kind s source).bind fun found hfound => ?_
  refine (ends_records s layout.instruments.records "instruments").bind fun _ _ => ?_
  refine (Job.Ends.ofExcept fun _ _ => trivial).bind fun sequences _ => ?_
  refine (Job.Ends.ofExcept fun _ _ => trivial).bind fun orderLists _ => ?_
  refine (Job.Ends.ofExcept fun _ _ => trivial).bind fun tempo _ => .pure ?_
  rw [List.map_map]
  exact map_eq_of_forall₂ (List.forall₂_map_left_iff.mpr (hfound.imp fun _ _ h => h))

theorem blockOf?_of_mem {e : Extraction} {kind : TableKind} {block : RecordBlock} (he : (e.tables.map (·.1)).Nodup)
    (h : (kind, block) ∈ e.tables) : Completion.blockOf? e kind = some block := by
  have hfind := find?_of_pairwise (List.pairwise_map.mp he) h
  rw [Completion.blockOf?, hfind]
  rfl

namespace Completion

variable {c : Completion} {e : Extraction} {s s' : Song} {kind : TableKind} {j j' : Journal}

/-! ## Nothing missing -/

theorem completeTable_of_whole {block : Option RecordBlock} (h : ∀ r ∈ tableRefs s kind, r < s.tableLength kind) :
    c.completeTable s kind block = pure s := by
  have hnone : (tableRefs s kind).filter (s.tableLength kind ≤ ·) = [] := by simpa using h
  unfold completeTable
  simp only [hnone, List.max?_nil]

theorem complete_of_whole (h : hasGaps e.song = false) : c.complete e = pure e.song := by
  obtain ⟨hselected, hrows⟩ := hasGaps_eq_false.mp h
  unfold complete
  simp only [completeInstruments_of_whole hselected, pure_bind, TableKind.all, List.foldlM_cons, List.foldlM_nil,
    completeTable_of_whole (hrows _)]

/-! ## What one turn keeps -/

/-- An event as it was read, but for the row of a filter program that started past the first `extracted` rows. -/
inductive Retold (extracted : Nat) : Event → Event → Prop
  | kept (e : Event) : Retold extracted e e
  | moved {command : Command} (hkind : command.kind = .filterProgram) (hpast : extracted ≤ command.first.toNat)
    (row : UInt8) : Retold extracted (.setCommand command) (.setCommand { command with first := row })

theorem retold_retargetEvent {extracted extracted' : Nat} (hle : extracted ≤ extracted') (row : UInt8) (e : Event) :
    Retold extracted e (retargetEvent extracted' row e) := by
  unfold retargetEvent
  cases e with
  | setCommand command =>
    obtain ⟨kind, first, second⟩ := command
    dsimp only
    split
    next hstale =>
      cases kind with
      | filterProgram =>
        have hpast : extracted' ≤ first.toNat := by simpa [isStale, Event.filterRow?] using hstale
        exact .moved rfl (Nat.le_trans hle hpast) row
      | _ => cases hstale
    · exact .kept _
  | _ => exact .kept _

/-- The song's sequences with filter programs moved that started past the extracted rows. -/
def Retells (extracted : Nat) (old new : Sequence) : Prop :=
  new.provenance = old.provenance ∧ List.Forall₂ (Retold extracted) old.events new.events

theorem Retells.refl (extracted : Nat) (q : Sequence) : Retells extracted q q :=
  ⟨rfl, List.forall₂_same.mpr fun e _ => .kept e⟩

theorem retells_mapEvents {extracted extracted' : Nat} (hle : extracted ≤ extracted') (row : UInt8) (q : Sequence) :
    Retells extracted q (q.mapEvents (retargetEvent extracted' row)) :=
  ⟨rfl, List.forall₂_map_right_iff.mpr (List.forall₂_same.mpr fun e _ => retold_retargetEvent hle row e)⟩

namespace Completed

variable {block : Option RecordBlock} {given : List Degradation}

theorem outline (h : Completed c kind block s s' given) : outline s' = outline s := by
  cases h with
  | whole h => rfl
  | copied hdonor hsource hreplaced => exact hreplaced.outline
  | read hdonor hblock hsource hneeded hrows hothers hinstruments hsequences houtline => exact houtline

theorem restarts (h : Completed c kind block s s' given) :
    s'.instruments.map (·.hardRestart) = s.instruments.map (·.hardRestart) := by
  cases h with
  | whole h => rfl
  | copied hdonor hsource hreplaced =>
    exact map_eq_of_forall₂ (List.forall₂_map_left_iff.mpr (hreplaced.instruments.imp fun _ _ h => h.hardRestart))
  | read hdonor hblock hsource hneeded hrows hothers hinstruments => rw [hinstruments]

theorem retells (h : Completed c kind block s s' given) {extracted : Nat} (hle : extracted ≤ s.tableLength kind) :
    List.Forall₂ (Retells extracted) s.sequences s'.sequences := by
  have hsame : List.Forall₂ (Retells extracted) s.sequences s.sequences := List.forall₂_same.mpr fun q _ => .refl _ q
  cases h with
  | whole h => exact hsame
  | copied hdonor hsource hreplaced =>
    rcases hreplaced.retold with hkept | ⟨-, row, hmoved⟩
    · rwa [hkept]
    · rw [hmoved]
      exact List.forall₂_map_right_iff.mpr (List.forall₂_same.mpr fun q _ => retells_mapEvents hle row q)
  | read hdonor hblock hsource hneeded hrows hothers hinstruments hsequences => rwa [hsequences]

/-- A program that started among the rows that the table had starts where it did. -/
theorem exists_instrument (h : Completed c kind block s s' given) {n : Nat} {i : Instrument}
    (hi : s.instruments[n]? = some i) :
    ∃ i', s'.instruments[n]? = some i' ∧ i'.attackDecay = i.attackDecay ∧ i'.sustainRelease = i.sustainRelease ∧
      ((∀ row, i.start? kind = some row → row.toNat < s.tableLength kind) → i'.start? kind = i.start? kind) := by
  cases h with
  | whole h => exact ⟨i, hi, rfl, rfl, fun _ => rfl⟩
  | copied hdonor hsource hreplaced =>
    obtain ⟨rfl, -⟩ := mem_of_table? hsource
    obtain ⟨i', hi', hretargeted⟩ := exists_getElem?_right hreplaced.instruments hi
    refine ⟨i', hi', ?_⟩
    cases hretargeted with
    | kept hkept => exact ⟨rfl, rfl, fun _ => rfl⟩
    | copied hrow hpast hstart hplaced =>
      refine ⟨attackDecay_redirected .., sustainRelease_redirected .., fun hinside => ?_⟩
      exact absurd (hinside _ hrow) (Nat.not_lt.mpr hpast)
  | read hdonor hblock hsource hneeded hrows hothers hinstruments =>
    exact ⟨i, by rw [hinstruments, hi], rfl, rfl, fun _ => rfl⟩

/-- The records that were read for the table stay in front. -/
theorem rows (h : Completed c kind block s s' given) {b : RecordBlock} (hblock : block = some b)
    (hb : b.rows ≤ s.tableLength kind) : (s'.tableRows kind).take b.rows = (s.tableRows kind).take b.rows := by
  cases h with
  | whole h => rfl
  | copied hdonor hsource hreplaced =>
    obtain ⟨rfl, -⟩ := mem_of_table? hsource
    obtain ⟨added, hadded⟩ := hreplaced.rows
    rw [← hadded, List.take_append_of_le_length (by rwa [length_tableRows])]
  | read hdonor hsome hsource hneeded hrows hothers hinstruments hsequences houtline hkept =>
    cases hblock.symm.trans hsome
    exact hkept hb

end Completed

/-! ## What a completion keeps -/

/-- What was extracted is in a song as it was read. -/
structure Kept (e : Extraction) (s : Song) : Prop where
  tempo : s.tempo = e.song.tempo
  orderLists : s.orderLists = e.song.orderLists
  sequences : List.Forall₂ (Retells (e.song.tableLength .filter)) e.song.sequences s.sequences
  instruments : ∀ (n : Nat) (i : Instrument), e.song.instruments[n]? = some i → ∃ i', s.instruments[n]? = some i' ∧
    i'.attackDecay = i.attackDecay ∧ i'.sustainRelease = i.sustainRelease ∧ i'.hardRestart = i.hardRestart ∧
      ∀ kind, (∀ row, i.start? kind = some row → row.toNat < e.song.tableLength kind) → i'.start? kind = i.start? kind
  tables : ∀ kind block, (kind, block) ∈ e.tables → block.rows ≤ e.song.tableLength kind ∧
    (s.tableRows kind).take block.rows = (e.song.tableRows kind).take block.rows

theorem outline_complete (h : c.complete e j = .ok s j') : outline s = outline e.song := by
  obtain ⟨filled, j₁, a, b, _, _, _, hfilled, hbefore, hcompleted, hafter, -⟩ := complete_eq_ok h .wave
  obtain ⟨hgrown, -, -⟩ := completeInstruments_eq_ok hfilled
  rw [hafter.outline, hcompleted.outline, hbefore.outline, hgrown.outline]

theorem restart_complete (h : c.complete e j = .ok s j') {n : Nat} {i i' : Instrument}
    (hi : e.song.instruments[n]? = some i) (hi' : s.instruments[n]? = some i') : i'.hardRestart = i.hardRestart := by
  obtain ⟨filled, j₁, a, b, _, _, _, hfilled, hbefore, hcompleted, hafter, -⟩ := complete_eq_ok h .wave
  obtain ⟨hgrown, -, -⟩ := completeInstruments_eq_ok hfilled
  have hall : s.instruments.map (·.hardRestart) = filled.instruments.map (·.hardRestart) := by
    rw [hafter.restarts, hcompleted.restarts, hbefore.restarts]
  have hget := congrArg (·[n]?) hall
  simpa [hi', getElem?_mono hgrown.instruments hi] using hget

theorem retells_complete (h : c.complete e j = .ok s j') :
    List.Forall₂ (Retells (e.song.tableLength .filter)) e.song.sequences s.sequences := by
  obtain ⟨filled, j₁, a, b, _, _, _, hfilled, hbefore, hcompleted, hafter, -⟩ := complete_eq_ok h .filter
  obtain ⟨hgrown, -, -⟩ := completeInstruments_eq_ok hfilled
  rw [hafter.sequences rfl, ← hgrown.sequences, ← hbefore.sequences rfl]
  refine hcompleted.retells ?_
  rw [hbefore.tableLength]
  exact tableLength_mono (hgrown.rows _)

theorem instrument_complete (h : c.complete e j = .ok s j') {n : Nat} {i : Instrument}
    (hi : e.song.instruments[n]? = some i) (kind : TableKind) :
    ∃ i', s.instruments[n]? = some i' ∧ i'.attackDecay = i.attackDecay ∧ i'.sustainRelease = i.sustainRelease ∧
      ((∀ row, i.start? kind = some row → row.toNat < e.song.tableLength kind) → i'.start? kind = i.start? kind) := by
  obtain ⟨filled, j₁, a, b, _, _, _, hfilled, hbefore, hcompleted, hafter, -⟩ := complete_eq_ok h kind
  obtain ⟨hgrown, -, -⟩ := completeInstruments_eq_ok hfilled
  obtain ⟨i₁, hi₁, hattack₁, hsustain₁, hstart₁⟩ := hbefore.exists_instrument (getElem?_mono hgrown.instruments hi)
  obtain ⟨i₂, hi₂, hattack₂, hsustain₂, hstart₂⟩ := hcompleted.exists_instrument hi₁
  obtain ⟨i', hi', hattack, hsustain, hstart⟩ := hafter.exists_instrument hi₂
  refine ⟨i', hi', by rw [hattack, hattack₂, hattack₁], by rw [hsustain, hsustain₂, hsustain₁], fun hinside => ?_⟩
  rw [hstart, hstart₂, hstart₁]
  intro row hrow
  rw [hbefore.tableLength]
  exact Nat.lt_of_lt_of_le (hinside row (hstart₁ ▸ hrow)) (tableLength_mono (hgrown.rows _))

theorem rows_complete (h : c.complete e j = .ok s j') {block : RecordBlock} (hblock : blockOf? e kind = some block)
    (hrows : block.rows ≤ e.song.tableLength kind) :
    (s.tableRows kind).take block.rows = (e.song.tableRows kind).take block.rows := by
  obtain ⟨filled, j₁, a, b, _, _, _, hfilled, hbefore, hcompleted, hafter, -⟩ := complete_eq_ok h kind
  obtain ⟨hgrown, -, -⟩ := completeInstruments_eq_ok hfilled
  have hle := Nat.le_trans hrows (tableLength_mono (hgrown.rows kind))
  obtain ⟨added, hadded⟩ := hgrown.rows kind
  rw [hafter.rows, hcompleted.rows hblock (by rwa [hbefore.tableLength]), hbefore.rows, ← hadded,
    List.take_append_of_le_length (by rwa [length_tableRows])]

theorem kept_complete (he : e.Sound) (hkinds : (e.tables.map (·.1)).Nodup) (h : c.complete e j = .ok s j') :
    Kept e s := by
  have houtline := outline_complete h
  refine ⟨congrArg (·.tempo) houtline, congrArg (·.orderLists) houtline, retells_complete h, fun n i hi => ?_,
    fun kind block hmem => ?_⟩
  · obtain ⟨i', hi', hattack, hsustain, -⟩ := instrument_complete h hi .wave
    refine ⟨i', hi', hattack, hsustain, restart_complete h hi hi', fun kind => ?_⟩
    obtain ⟨i'', hi'', -, -, hstart⟩ := instrument_complete h hi kind
    cases hi'.symm.trans hi''
    exact hstart
  · have hblock := blockOf?_of_mem hkinds hmem
    have hrows := he kind block hblock
    exact ⟨hrows, rows_complete h hblock hrows⟩

/-- **What was extracted is authoritative.** A song without gaps is left alone, and nothing is reported; and however
the gaps of one with gaps are filled, what was read of it is kept. -/
theorem complete_keeps {j₀ j₁ : Journal} (hkinds : (c.layout.tables.map (·.kind)).Nodup)
    (h : extract c.scanner c.layout j₀ = .ok e j₁) :
    (hasGaps e.song = false → ∀ j, c.complete e j = .ok e.song j) ∧ ∀ j s j', c.complete e j = .ok s j' → Kept e s := by
  have hnodup : (e.tables.map (·.1)).Nodup := by
    rw [(ends_extract_kinds c.scanner c.layout).of_eq_ok h]
    exact ((List.mergeSort_perm _ _).map _).nodup_iff.mpr hkinds
  refine ⟨fun hwhole j => ?_, fun j s j' hrun => ?_⟩
  · rw [complete_of_whole hwhole]
    rfl
  · exact kept_complete ((ends_extract c.scanner c.layout).of_eq_ok h) hnodup hrun

theorem complete_keeps_spare : ((spareCompletion 1).layout.tables.map (·.kind)).Nodup ∧
    extract spareScanner (spareLayout 4 1) {} = .ok (spare spareRows [{ events := [.setInstrument 1] }]) {} ∧
    ∃ s j, (spareCompletion 1).complete (spare spareRows [{ events := [.setInstrument 1] }]) {} = .ok s j ∧
      Kept (spare spareRows [{ events := [.setInstrument 1] }]) s := by
  have hkinds : ((spareCompletion 1).layout.tables.map (·.kind)).Nodup := by decide
  have hextract : extract spareScanner (spareLayout 4 1) {} =
      .ok (spare spareRows [{ events := [.setInstrument 1] }]) {} := by
    rw [extract, sortedTables_spareLayout]
    rfl
  exact ⟨hkinds, hextract, _, _, rfl, (complete_keeps hkinds hextract).2 {} _ _ rfl⟩

end Completion

end Chiptune.Analysis
