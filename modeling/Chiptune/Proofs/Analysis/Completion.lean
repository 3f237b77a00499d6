/-
What completing an extraction closes, and how.

Each kind of table is completed once, in one of three ways (`Completed`), and
completing another kind leaves it as it is (`Untouched`). So what is missing
of a kind once the instruments are complete is what its own turn found missing
(`complete_eq_ok`).
-/
import Chiptune.Proofs.Analysis.Donor

namespace Chiptune.Analysis

open Song

/-! ## Gaps -/

theorem hasGaps_eq_false {s : Song} :
    hasGaps s = false ↔ (∀ id ∈ instrumentRefs s, id < s.instruments.length) ∧
      ∀ kind, ∀ r ∈ tableRefs s kind, r < s.tableLength kind := by
  simp only [hasGaps, Bool.or_eq_false_iff, List.any_eq_false, decide_eq_true_eq, Nat.not_le,
    List.any_eq_true, not_exists, not_and]
  simp only [TableKind.mem_all, true_imp_iff]

namespace Completion

variable {c : Completion} {s s' : Song} {kind : TableKind} {j j' : Journal}

/-! ## Instruments -/

theorem lt_foldl_max {ids : List Nat} {id : Nat} : ∀ {n : Nat}, id ∈ ids ∨ id < n →
    id < ids.foldl (fun n id => max n (id + 1)) n := by
  induction ids with
  | nil => simp
  | cons first ids ih =>
    intro n h
    rw [List.foldl_cons]
    refine ih ?_
    rcases h with h | h
    · rcases List.mem_cons.mp h with rfl | h
      · exact .inr (by omega)
      · exact .inl h
    · exact .inr (by omega)

theorem foldl_max_le {ids : List Nat} {bound : Nat} : ∀ {n : Nat}, n ≤ bound → (∀ id ∈ ids, id < bound) →
    ids.foldl (fun n id => max n (id + 1)) n ≤ bound := by
  induction ids with
  | nil => exact fun hn _ => hn
  | cons first ids ih =>
    intro n hn h
    have hfirst := h first (by simp)
    rw [List.foldl_cons]
    refine ih ?_ fun id hid => h id (by simp [hid])
    omega

theorem completeInstruments_eq_ok {block : RecordBlock} (h : c.completeInstruments s block j = .ok s' j') :
    Grown s s' ∧ (∀ id ∈ instrumentRefs s, id < s'.instruments.length) ∧ j.degradations <+: j'.degradations := by
  have hneeded : ∀ id ∈ instrumentRefs s, id < (instrumentRefs s).foldl (fun n id => max n (id + 1)) 0 :=
    fun id hid => lt_foldl_max (.inl hid)
  unfold completeInstruments at h
  dsimp only at h
  generalize (instrumentRefs s).foldl (fun n id => max n (id + 1)) 0 = needed at hneeded h
  split at h
  next hle =>
    cases h
    exact ⟨.refl _, fun id hid => Nat.lt_of_lt_of_le (hneeded id hid) hle, List.prefix_refl _⟩
  next hmissing =>
    obtain ⟨filled, d, hgrown, hlength, hreport⟩ : ∃ filled d, Grown s filled ∧ filled.instruments.length = needed ∧
        (do Job.report d; return { filled with instrumentProvenance := .merged } : Job Song) j = .ok s' j' := by
      cases hdonor : c.instrumentDonor? with
      | some donor =>
        simp only [hdonor, pure_bind] at h
        obtain ⟨-, hsome⟩ := Option.filter_eq_some_iff.mp hdonor
        obtain ⟨filled, j₁, hfill, hreport⟩ := run_bind_eq_ok.mp h
        obtain ⟨htake, rfl⟩ := Job.run_ofExcept_eq_ok hfill
        obtain ⟨hgrown, hlength⟩ := takeInstruments_eq_ok (by simpa using hsome) htake
        rw [List.length_range'] at hlength
        exact ⟨filled, _, hgrown, by omega, hreport⟩
      | none =>
        simp only [hdonor, pure_bind] at h
        let read := (List.range' s.instruments.length (needed - s.instruments.length)).map (c.readInstrument block)
        refine ⟨{ s with instruments := s.instruments ++ read }, _, ?_, ?_, h⟩
        · exact ⟨fun _ => List.prefix_refl _, List.prefix_append .., rfl, rfl⟩
        · rw [List.length_append, List.length_map, List.length_range']
          omega
    obtain ⟨_, j₁, hreport, h⟩ := run_bind_eq_ok.mp hreport
    cases h
    refine ⟨⟨hgrown.rows, hgrown.instruments, hgrown.sequences, hgrown.outline⟩, fun id hid => ?_, ?_⟩
    · rw [hlength]
      exact hneeded id hid
    · rw [Job.report_eq_ok hreport]
      exact List.prefix_append ..

/-! ## Reading on -/

theorem length_readRows (c : Completion) (source : TableSource) (address : UInt16) (needed : Nat) :
    ∀ fuel row, needed < row + (c.readRows source address needed fuel row).length ∨
      (c.readRows source address needed fuel row).length = fuel := by
  intro fuel
  induction fuel with
  | zero => exact fun row => .inr rfl
  | succ fuel ih =>
    intro row
    unfold readRows
    dsimp only
    split
    next hlast =>
      rw [List.length_singleton]
      exact .inl (by omega)
    · rw [List.length_cons]
      rcases ih (row + 1) with h | h
      · exact .inl (by omega)
      · exact .inr (by omega)

/-- A table that was read on has the row that was needed, unless its source has no more records to read. -/
theorem length_readOn (c : Completion) (source : TableSource) {block : RecordBlock} (needed : Nat) {t : Table}
    (hblock : block.rows ≤ t.rows.length) :
    needed < (c.readOn source block needed t).1.rows.length ∨
      source.records.maxRows ≤ (c.readOn source block needed t).1.rows.length := by
  have hmore := length_readRows c source block.address needed (source.records.maxRows - block.rows) block.rows
  unfold readOn
  dsimp only
  refine hmore.imp (fun h => Nat.lt_of_lt_of_le h ?_) fun h => Nat.le_trans ?_ (Table.length_le_closed _)
  · refine Nat.le_trans ?_ (Table.length_le_closed _)
    simp only [List.length_append, List.length_take]
    omega
  · simp only [List.length_append, List.length_take, h]
    omega

/-- The records that were read already stay. -/
theorem take_readOn (c : Completion) (source : TableSource) {block : RecordBlock} (needed : Nat) {t : Table}
    (hblock : block.rows ≤ t.rows.length) :
    (c.readOn source block needed t).1.rows.take block.rows = t.rows.take block.rows := by
  have hclosed (u : Table) (h : t.rows.take block.rows <+: u.rows) : u.closed.rows.take block.rows = t.rows.take block.rows := by
    have hprefix : t.rows.take block.rows <+: u.closed.rows := by
      unfold Table.closed
      split
      · exact h.trans (List.prefix_append ..)
      · exact h
    have htake := List.prefix_iff_eq_take.mp hprefix
    rwa [List.length_take, Nat.min_eq_left hblock, eq_comm] at htake
  exact hclosed _ (List.prefix_append ..)

/-- Nothing is read on only where nothing may be read at all. -/
theorem maxRows_eq_zero {source : TableSource} {block : RecordBlock} {needed : Nat} {t u : Table}
    (h : c.readOn source block needed t = (u, 0)) : source.records.maxRows = 0 := by
  have hmore := length_readRows c source block.address needed (source.records.maxRows - block.rows) block.rows
  have hnone : block.rows + (c.readRows source block.address needed (source.records.maxRows - block.rows)
    block.rows).length = 0 := congrArg (·.2) h
  omega

/-! ## One kind of table -/

/-- What a song says of the programs of a kind is as it was. -/
structure Untouched (kind : TableKind) (s s' : Song) : Prop where
  rows : s'.tableRows kind = s.tableRows kind
  instruments : s'.instruments.map (fun i => (i.attackDecay, i.sustainRelease, i.start? kind)) =
    s.instruments.map fun i => (i.attackDecay, i.sustainRelease, i.start? kind)
  restarts : s'.instruments.map (·.hardRestart) = s.instruments.map (·.hardRestart)
  sequences : kind = .filter → s'.sequences = s.sequences
  outline : outline s' = outline s

namespace Untouched

variable {s₁ s₂ s₃ : Song}

theorem refl (kind : TableKind) (s : Song) : Untouched kind s s := ⟨rfl, rfl, rfl, fun _ => rfl, rfl⟩

theorem trans (h : Untouched kind s₁ s₂) (h' : Untouched kind s₂ s₃) : Untouched kind s₁ s₃ :=
  ⟨h'.rows.trans h.rows, h'.instruments.trans h.instruments, h'.restarts.trans h.restarts,
    fun hkind => (h'.sequences hkind).trans (h.sequences hkind), h'.outline.trans h.outline⟩

theorem tableLength (h : Untouched kind s s') : s'.tableLength kind = s.tableLength kind := by
  rw [← length_tableRows, h.rows, length_tableRows]

theorem tableRefs (h : Untouched kind s s') : tableRefs s' kind = tableRefs s kind := by
  have hstarts : ∀ l : List Instrument, (l.filterMap fun i => (i.start? kind).map (·.toNat)) =
      (l.map fun i => (i.attackDecay, i.sustainRelease, i.start? kind)).filterMap fun x => x.2.2.map (·.toNat) :=
    fun l => by rw [List.filterMap_map]; rfl
  unfold Analysis.tableRefs
  rw [hstarts, h.instruments, ← hstarts]
  congr 1
  split
  next hkind => rw [events, h.sequences hkind, events]
  · rfl

end Untouched

/-- A row past those of a table that may be read, when there is no rebuilt table of its kind. -/
def OutOfReach (c : Completion) (kind : TableKind) (row : Nat) : Prop :=
  c.emulated.bind (·.table? kind) = none ∧
    ∃ source, c.layout.tables.find? (·.kind == kind) = some source ∧ source.records.maxRows ≤ row

/-- What completing a kind of table makes of a song, and what it reports. -/
inductive Completed (c : Completion) (kind : TableKind) (block : Option RecordBlock) (s : Song) :
    Song → List Degradation → Prop
  /-- Nothing is missing. -/
  | whole (h : ∀ r ∈ tableRefs s kind, r < s.tableLength kind) : Completed c kind block s s []
  /-- What is missing is copied from the rebuilt song. -/
  | copied {donor : Song} {source : Table} {needed : Nat} {s' : Song} (hdonor : c.emulated = some donor)
    (hsource : donor.table? kind = some source) (hreplaced : Replaced donor source (s.tableLength kind) s s') :
    Completed c kind block s s' [.programsImported kind needed (s.tableLength kind)]
  /-- The table is read on. -/
  | read {b : RecordBlock} {source : TableSource} {needed last : Nat} {s' : Song}
    (hdonor : c.emulated.bind (·.table? kind) = none) (hblock : block = some b)
    (hsource : c.layout.tables.find? (·.kind == kind) = some source)
    (hneeded : ∀ r ∈ tableRefs s kind, r ≤ needed)
    (hrows : b.rows ≤ s.tableLength kind →
      needed < s'.tableLength kind ∨ source.records.maxRows ≤ s'.tableLength kind)
    (hothers : ∀ k, k ≠ kind → s'.tableRows k = s.tableRows k) (hinstruments : s'.instruments = s.instruments)
    (hsequences : s'.sequences = s.sequences) (houtline : outline s' = outline s)
    (hkept : b.rows ≤ s.tableLength kind → (s'.tableRows kind).take b.rows = (s.tableRows kind).take b.rows) :
    Completed c kind block s s' [.rowsReadOn kind needed b.rows last]

theorem fromMemory_eq_ok {block : Option RecordBlock} {needed : Nat}
    (hdonor : c.emulated.bind (·.table? kind) = none)
    (hneeded : ∀ r ∈ tableRefs s kind, r ≤ needed)
    (h : completeTable.fromMemory c kind block s needed j = .ok s' j') :
    ∃ given, Completed c kind block s s' given ∧ j'.degradations = j.degradations ++ given := by
  unfold completeTable.fromMemory at h
  cases block with
  | none => cases h
  | some b =>
  cases hsource : c.layout.tables.find? (·.kind == kind) with
  | none => simp only [hsource] at h; cases h
  | some source =>
  obtain ⟨t, ht, hrows, hkind⟩ := exists_table?_withTable s kind
  simp only [hsource, ht] at h
  cases hread : c.readOn source b needed t with
  | mk u read =>
  cases read with
  | zero => simp only [hread] at h; cases h
  | succ last =>
  simp only [hread] at h
  obtain ⟨_, j₁, hreport, h⟩ := run_bind_eq_ok.mp h
  cases h
  have hu : u.kind = kind := by
    have hclosed : (c.readOn source b needed t).1.kind = t.kind := Table.kind_closed _
    rw [hread] at hclosed
    exact hclosed.trans hkind
  have hwith := extended_withTable s kind kind
  have htables := tableRows_updateTable ht hu
  refine ⟨_, .read hdonor rfl hsource hneeded (fun hb => ?_) (fun k hk => ?_) hwith.instruments hwith.sequences
    hwith.outline (fun hb => ?_), Job.report_eq_ok hreport⟩
  · have hrows' : b.rows ≤ t.rows.length := by rwa [hrows, length_tableRows]
    have hlength := length_readOn c source needed hrows'
    rw [hread] at hlength
    rw [← length_tableRows, htables, if_pos rfl]
    exact hlength
  · rw [htables, if_neg hk, tableRows_withTable]
  · have hkept := take_readOn c source needed (t := t) (by rwa [hrows, length_tableRows])
    rw [hread, hrows] at hkept
    rw [htables, if_pos rfl]
    exact hkept

theorem completeTable_eq_ok {block : Option RecordBlock} (h : c.completeTable s kind block j = .ok s' j') :
    ∃ given, Completed c kind block s s' given ∧ j'.degradations = j.degradations ++ given := by
  unfold completeTable at h
  cases hmax : ((tableRefs s kind).filter (s.tableLength kind ≤ ·)).max? with
  | none =>
    simp only [hmax] at h
    cases h
    refine ⟨[], .whole fun r hr => ?_, by simp⟩
    rw [List.max?_eq_none_iff, List.filter_eq_nil_iff] at hmax
    simpa using hmax r hr
  | some needed =>
    simp only [hmax] at h
    obtain ⟨hmem, hle⟩ := List.max?_eq_some_iff.mp hmax
    have hneeded : ∀ r ∈ tableRefs s kind, r ≤ needed := by
      intro r hr
      by_cases hpast : s.tableLength kind ≤ r
      · exact hle r (List.mem_filter.mpr ⟨hr, by simpa using hpast⟩)
      · have hpast' : s.tableLength kind ≤ needed := by simpa using (List.mem_filter.mp hmem).2
        omega
    cases hdonor : c.emulated with
    | none => exact fromMemory_eq_ok (by rw [hdonor]; rfl) hneeded (by simpa only [hdonor] using h)
    | some donor =>
    cases hsource : donor.table? kind with
    | none => exact fromMemory_eq_ok (by rw [hdonor]; exact hsource) hneeded (by simpa only [hdonor, hsource] using h)
    | some source =>
    simp only [hdonor, hsource] at h
    obtain ⟨replaced, j₁, hrun, h⟩ := run_bind_eq_ok.mp h
    obtain ⟨_, j₂, hreport, h⟩ := run_bind_eq_ok.mp h
    cases h
    obtain ⟨hretarget, rfl⟩ := Job.run_ofExcept_eq_ok hrun
    obtain ⟨rfl, -⟩ := mem_of_table? hsource
    exact ⟨_, .copied hdonor hsource (retarget_eq_ok (Nat.le_refl _) hretarget), Job.report_eq_ok hreport⟩

namespace Completed

variable {block : Option RecordBlock} {given : List Degradation}

theorem untouched (h : Completed c kind block s s' given) {k : TableKind} (hk : k ≠ kind) : Untouched k s s' := by
  cases h with
  | whole h => exact .refl _ _
  | copied hdonor hsource hreplaced =>
    obtain ⟨rfl, -⟩ := mem_of_table? hsource
    refine ⟨hreplaced.others k hk, ?_, ?_, fun hfilter => hreplaced.sequences fun h => hk (hfilter.trans h.symm),
      hreplaced.outline⟩
    · exact map_eq_of_forall₂ (List.forall₂_map_left_iff.mpr (hreplaced.instruments.imp fun _ _ h => h.same hk))
    · exact map_eq_of_forall₂ (List.forall₂_map_left_iff.mpr (hreplaced.instruments.imp fun _ _ h => h.hardRestart))
  | read hdonor hblock hsource hneeded hrows hothers hinstruments hsequences houtline =>
    exact ⟨hothers k hk, by rw [hinstruments], by rw [hinstruments], fun _ => hsequences, houtline⟩

theorem selected (h : Completed c kind block s s' given) :
    instrumentRefs s' = instrumentRefs s ∧ s'.instruments.length = s.instruments.length := by
  cases h with
  | whole h => exact ⟨rfl, rfl⟩
  | copied hdonor hsource hreplaced => exact ⟨hreplaced.selected, hreplaced.instruments.length_eq.symm⟩
  | read hdonor hblock hsource hneeded hrows hothers hinstruments hsequences =>
    rw [instrumentRefs, events, hsequences, hinstruments]
    exact ⟨rfl, rfl⟩

/-- Whatever is still missing is out of reach. -/
theorem closed (h : Completed c kind block s s' given) (hblock : ∀ b, block = some b → b.rows ≤ s.tableLength kind)
    {r : Nat} (hr : r ∈ tableRefs s' kind) : r < s'.tableLength kind ∨ c.OutOfReach kind r := by
  cases h with
  | whole h => exact .inl (h r hr)
  | copied hdonor hsource hreplaced =>
    obtain ⟨rfl, -⟩ := mem_of_table? hsource
    exact .inl (hreplaced.closed (Nat.le_refl _) hr)
  | read hdonor hsome hsource hneeded hrows hothers hinstruments hsequences =>
    have hrefs : tableRefs s' kind = tableRefs s kind := by
      unfold tableRefs events
      rw [hinstruments, hsequences]
    rw [hrefs] at hr
    have hle := hneeded r hr
    by_cases hr' : r < s'.tableLength kind
    · exact .inl hr'
    · refine .inr ⟨hdonor, _, hsource, ?_⟩
      rcases hrows (hblock _ hsome) with hrows | hrows
      · omega
      · omega

end Completed

/-! ## Every kind of table -/

/-- The block where the table of a kind was read. -/
def blockOf? (e : Extraction) (kind : TableKind) : Option RecordBlock := (e.tables.find? (·.1 == kind)).map (·.2)

theorem completeOthers_eq_ok {e : Extraction} {kinds : List TableKind} (hkinds : kind ∉ kinds)
    (h : kinds.foldlM (fun s k => c.completeTable s k (blockOf? e k)) s j = .ok s' j') :
    Untouched kind s s' ∧ ∃ given, j'.degradations = j.degradations ++ given := by
  refine (run_foldlM_eq_ok (fun rest s₁ j₁ => kind ∉ rest ∧ Untouched kind s s₁ ∧
    ∃ given, j₁.degradations = j.degradations ++ given) ?_ ⟨hkinds, .refl _ _, [], by simp⟩ h).2
  rintro k rest s₁ j₁ s₂ j₂ ⟨hrest, huntouched, given, hgiven⟩ hstep
  rw [List.mem_cons, not_or] at hrest
  obtain ⟨hk, hrest⟩ := hrest
  obtain ⟨given', hcompleted, hgiven'⟩ := completeTable_eq_ok hstep
  refine ⟨hrest, huntouched.trans (hcompleted.untouched hk), given ++ given', ?_⟩
  rw [hgiven', hgiven, List.append_assoc]

/-- Every kind of table is completed once, and nothing else that is done concerns it. -/
theorem complete_eq_ok {e : Extraction} (h : c.complete e j = .ok s j') (kind : TableKind) :
    ∃ filled j₁ a b before given after, c.completeInstruments e.song e.instruments j = .ok filled j₁ ∧
      Untouched kind filled a ∧ Completed c kind (blockOf? e kind) a b given ∧ Untouched kind b s ∧
      j'.degradations = j₁.degradations ++ before ++ given ++ after := by
  unfold complete at h
  obtain ⟨filled, j₁, hfilled, h⟩ := run_bind_eq_ok.mp h
  obtain ⟨earlier, later, hall⟩ := List.append_of_mem (TableKind.mem_all kind)
  have hnodup : (earlier ++ kind :: later).Nodup := hall ▸ TableKind.nodup_all
  rw [hall, List.foldlM_append] at h
  obtain ⟨a, j₂, hearlier, h⟩ := run_bind_eq_ok.mp h
  rw [List.foldlM_cons] at h
  obtain ⟨b, j₃, hkind, hlater⟩ := run_bind_eq_ok.mp h
  have hnot : kind ∉ earlier ∧ kind ∉ later := by
    rw [List.nodup_append, List.nodup_cons] at hnodup
    exact ⟨fun hmem => hnodup.2.2 kind hmem kind (by simp) rfl, hnodup.2.1.1⟩
  obtain ⟨hbefore, before, hj₂⟩ := completeOthers_eq_ok hnot.1 hearlier
  obtain ⟨given, hcompleted, hj₃⟩ := completeTable_eq_ok hkind
  obtain ⟨hafter, after, hj'⟩ := completeOthers_eq_ok hnot.2 hlater
  refine ⟨filled, j₁, a, b, before, given, after, hfilled, hbefore, hcompleted, hafter, ?_⟩
  rw [hj', hj₃, hj₂]

theorem complete_selected {e : Extraction} (h : c.complete e j = .ok s j') :
    ∃ filled j₁, c.completeInstruments e.song e.instruments j = .ok filled j₁ ∧
      instrumentRefs s = instrumentRefs filled ∧ s.instruments.length = filled.instruments.length := by
  unfold complete at h
  obtain ⟨filled, j₁, hfilled, h⟩ := run_bind_eq_ok.mp h
  refine ⟨filled, j₁, hfilled, run_foldlM_eq_ok (fun _ s₁ _ => instrumentRefs s₁ = instrumentRefs filled ∧
    s₁.instruments.length = filled.instruments.length) ?_ ⟨rfl, rfl⟩ h⟩
  rintro k rest s₁ j₁ s₂ j₂ ⟨hrefs, hlength⟩ hstep
  obtain ⟨given, hcompleted, -⟩ := completeTable_eq_ok hstep
  obtain ⟨hrefs', hlength'⟩ := hcompleted.selected
  exact ⟨hrefs'.trans hrefs, hlength'.trans hlength⟩

/-! ## Failures -/

/-- Why a song cannot be completed. -/
inductive Refuses (c : Completion) : Failure → Prop
  | overflow {f : Failure} (h : Overflows f) : Refuses c f
  | withoutData (kind : TableKind) (row : Nat) : Refuses c (.incompleteExtraction (.tableWithoutData kind row))
  /-- No row of the table may be read. -/
  | nothingRead {kind : TableKind} {source : TableSource}
    (hsource : c.layout.tables.find? (·.kind == kind) = some source) (hnone : source.records.maxRows = 0) :
    Refuses c (.incompleteExtraction (.nothingRead kind))

theorem ends_completeInstruments (c : Completion) (s : Song) (block : RecordBlock) :
    Job.Ends (c.completeInstruments s block) (fun _ => True) c.Refuses := by
  have hreport : ∀ (d : Degradation) (s : Song), Job.Ends (do Job.report d; return s) (fun _ => True) c.Refuses := by
    intro d s
    exact Job.Ends.report.bind fun _ _ => .pure trivial
  unfold completeInstruments
  dsimp only
  split
  · exact .pure trivial
  cases hdonor : c.instrumentDonor? with
  | some donor =>
    simp only [pure_bind]
    refine Job.Ends.bind (P := fun _ => True) (.ofYields ?_) fun s _ => hreport _ _
    refine Yields.foldlM (P := fun _ => True) _ (fun index _ s _ => ?_) trivial
    exact (takeInstrument_yields donor s index).mono (fun _ => id) fun _ => .overflow
  | none =>
    simp only [pure_bind]
    exact hreport _ _

theorem ends_fromMemory (c : Completion) (s : Song) (kind : TableKind) (block : Option RecordBlock) (needed : Nat) :
    Job.Ends (completeTable.fromMemory c kind block s needed) (fun _ => True) c.Refuses := by
  unfold completeTable.fromMemory
  cases block with
  | none => exact .throw (.withoutData kind needed)
  | some b =>
  cases hsource : c.layout.tables.find? (·.kind == kind) with
  | none => exact .throw (.withoutData kind needed)
  | some source =>
  obtain ⟨t, ht, -, -⟩ := exists_table?_withTable s kind
  simp only [ht]
  cases hread : c.readOn source b needed t with
  | mk u read =>
  cases read with
  | zero => exact .throw (.nothingRead hsource (maxRows_eq_zero hread))
  | succ last => exact Job.Ends.report.bind fun _ _ => .pure trivial

theorem ends_completeTable (c : Completion) (s : Song) (kind : TableKind) (block : Option RecordBlock) :
    Job.Ends (c.completeTable s kind block) (fun _ => True) c.Refuses := by
  unfold completeTable
  cases hmax : ((tableRefs s kind).filter (s.tableLength kind ≤ ·)).max? with
  | none =>
    simp only [hmax]
    exact .pure trivial
  | some needed =>
  cases hdonor : c.emulated with
  | none =>
    simp only [hmax]
    exact ends_fromMemory c s kind block needed
  | some donor =>
  cases hsource : donor.table? kind with
  | none =>
    simp only [hmax, hsource]
    exact ends_fromMemory c s kind block needed
  | some source =>
    simp only [hmax, hsource]
    refine Job.Ends.bind (P := fun _ => True) (.ofYields ?_) fun s _ => Job.Ends.report.bind fun _ _ => .pure trivial
    exact (retarget_yields ..).mono (fun _ => id) fun _ => .overflow

theorem ends_complete (c : Completion) (e : Extraction) : Job.Ends (c.complete e) (fun _ => True) c.Refuses :=
  (ends_completeInstruments c e.song e.instruments).bind fun _ _ =>
    .foldlM (P := fun _ => True) _ (fun kind _ s _ => ends_completeTable c s kind (blockOf? e kind)) trivial

end Completion

end Chiptune.Analysis
