/-
What a completed song still misses, and where its programs come from.

Completing closes every gap but one: a table that is read on in memory ends
with the last record that its source may have (`OutOfReach`). An instrument
that started a program past the end of a table starts a copy of the donor's
program instead, unless an instrument that was missing brought programs
along that made the table reach that far.
-/
import Chiptune.Proofs.Analysis.Completion

namespace Chiptune.Analysis

open Machine Song

/-! ## Extractions -/

theorem ends_records (s : Scanner) (source : RecordSource) (what : String) :
    Job.Ends (s.records source what) (fun found => found.1.rows = found.2.length) fun _ => True := by
  unfold Scanner.records
  refine Job.Ends.bind (.ofExcept fun _ _ => trivial) fun address _ => ?_
  dsimp only
  cases source.finish with
  | count n => exact .pure rfl
  | terminator column value ambiguousZero =>
    dsimp only
    split
    · split
      · exact Job.Ends.notice.bind fun _ _ => .pure rfl
      · exact .pure rfl
    · exact .pure rfl

theorem ends_readTable (s : Scanner) (source : TableSource) :
    Job.Ends (Extraction.readTable s source) (fun found => found.1.rows ≤ found.2.rows.length) fun _ => True := by
  unfold Extraction.readTable
  refine (ends_records s source.records source.kind.name).bind fun found hfound => .pure ?_
  have hle := Table.length_le_closed { kind := source.kind, rows := found.2.map (Scanner.tableRow source) }
  rw [List.length_map, ← hfound] at hle
  exact hle

/-- The first block of a kind is no longer than the first table of it that has rows. -/
theorem rows_le_of_find? {kind : TableKind} {found : List (RecordBlock × Table)} :
    (∀ x ∈ found, x.1.rows ≤ x.2.rows.length) → ∀ {block : RecordBlock},
      ((found.map fun (block, t) => (t.kind, block)).find? (·.1 == kind)).map (·.2) = some block →
        block.rows ≤ ((((found.map (·.2)).filter fun t => !t.rows.isEmpty).find? (·.kind == kind)).map
          (·.rows.length)).getD 0 := by
  induction found with
  | nil => simp
  | cons x found ih =>
    intro hfound block hblock
    obtain ⟨b, t⟩ := x
    have hle : b.rows ≤ t.rows.length := hfound (b, t) (by simp)
    rw [List.map_cons, List.find?_cons] at hblock
    rw [List.map_cons, List.filter_cons]
    by_cases hkind : t.kind = kind
    · simp only [hkind, beq_self_eq_true] at hblock
      cases hblock
      by_cases hempty : t.rows = []
      · rw [hempty] at hle
        exact Nat.le_trans hle (Nat.zero_le _)
      · have hkeep : (!t.rows.isEmpty) = true := by simpa using hempty
        simpa [hkeep, hkind] using hle
    · have hne : (t.kind == kind) = false := by simpa using hkind
      simp only [hne] at hblock
      have hrest := ih (fun x hx => hfound x (by simp [hx])) hblock
      split
      · simpa only [List.find?_cons, hne] using hrest
      · exact hrest

/-- No more records were read than the table has rows. -/
def Extraction.Sound (e : Extraction) : Prop :=
  ∀ kind block, Completion.blockOf? e kind = some block → block.rows ≤ e.song.tableLength kind

theorem ends_extract (s : Scanner) (layout : RangeCoded) : Job.Ends (extract s layout) Extraction.Sound fun _ => True := by
  unfold extract
  refine (Job.Ends.mapM _ fun source _ => ends_readTable s source).bind fun found hfound => ?_
  refine (ends_records s layout.instruments.records "instruments").bind fun _ _ => ?_
  refine (Job.Ends.ofExcept fun _ _ => trivial).bind fun sequences _ => ?_
  refine (Job.Ends.ofExcept fun _ _ => trivial).bind fun orderLists _ => ?_
  refine (Job.Ends.ofExcept fun _ _ => trivial).bind fun tempo _ => ?_
  refine .pure fun kind block hblock => ?_
  have hle := rows_le_of_find? (fun x hx => ?_) hblock
  · unfold tableLength table?
    split
    next t hfind =>
      rw [hfind] at hle
      exact hle
    next hnone =>
      rw [hnone] at hle
      exact hle
  · obtain ⟨source, -, hx⟩ := exists_of_mem_right hfound hx
    exact hx

namespace Completion

variable {c : Completion} {s s' : Song} {kind : TableKind} {j j' : Journal}

/-! ## A small extraction -/

/-- An instrument whose wave program starts at row 3, two rows of a wave table, and a sequence that selects the next
instrument. -/
def spareScanner : Scanner :=
  ⟨Memory.zeroed.writeAll 0x1000 [0, 0, 3, 0x41, 0, 0x7E, 0, 0x09, 0x10, 0xA1, 0xFF], 0x1000, 11⟩

def spareLayout (maxRows sequences : Nat) : RangeCoded where
  tables :=
    [{ kind := .wave, endMarker := some 0x7E
       records := { location := .fixed 0x1003, columns := 2, finish := .count 2, maxRows } }]
  instruments :=
    { records := { location := .fixed 0x1000, columns := 3, finish := .count 1 }
      attackDecay := 0, sustainRelease := 1, wave := 2 }
  sequences := { lo := .fixed 0x1007, hi := .fixed 0x1008, count := sequences }
  orderLists := [.fixed 0, .fixed 0, .fixed 0]
  sequenceCode := { note := ⟨0, 0x5F⟩, instrument := some ⟨0xA0, 0xBF⟩, finish := 0xFF }
  orderCode := { transpose := ⟨0xA0, 0xDF⟩, center := 0xC0, stop := 0, loop := 0xFF }
  tempo := .fixed 6

def spareRows : List Row := [.step [0x41, 0], .stop]

/-- What is extracted of it, by the rows of the table and the sequences that may be read. -/
def spare (rows : List Row) (sequences : List Sequence) : Extraction where
  song :=
    { tempo := 6, instruments := [⟨0, 0, 3, none, none, false⟩], sequences
      tables := if rows = [] then [] else [{ kind := .wave, rows }], orderLists := [{}, {}, {}] }
  tables := [(.wave, ⟨0x1003, rows.length⟩)]
  instruments := ⟨0x1000, 1⟩

theorem sortedTables_spareLayout (maxRows sequences : Nat) :
    (spareLayout maxRows sequences).sortedTables = (spareLayout maxRows sequences).tables := by
  simp only [RangeCoded.sortedTables, spareLayout, List.mergeSort_singleton]

/-! ## Gaps -/

theorem selected_lt {e : Extraction} (h : c.complete e j = .ok s j') :
    ∀ id ∈ instrumentRefs s, id < s.instruments.length := by
  obtain ⟨filled, j₁, hfilled, hrefs, hlength⟩ := complete_selected h
  obtain ⟨hgrown, hselected, -⟩ := completeInstruments_eq_ok hfilled
  rw [hrefs, hlength, hgrown.selected]
  exact hselected

theorem lt_or_outOfReach {e : Extraction} (he : e.Sound) (h : c.complete e j = .ok s j') {r : Nat}
    (hr : r ∈ tableRefs s kind) : r < s.tableLength kind ∨ c.OutOfReach kind r := by
  obtain ⟨filled, j₁, a, b, _, given, _, hfilled, hbefore, hcompleted, hafter, -⟩ := complete_eq_ok h kind
  obtain ⟨hgrown, -, -⟩ := completeInstruments_eq_ok hfilled
  have hblock : ∀ block, blockOf? e kind = some block → block.rows ≤ a.tableLength kind := by
    intro block hblock
    rw [hbefore.tableLength]
    exact Nat.le_trans (he kind block hblock) (tableLength_mono (hgrown.rows kind))
  rw [hafter.tableRefs] at hr
  rw [hafter.tableLength]
  exact hcompleted.closed hblock hr

/-- **Completing an extraction closes every gap or fails**, except where a row is out of reach. It fails for want of
rows to read only where none may be read at all. -/
theorem complete_closes {e : Extraction} {j₀ j₁ : Journal} (h : extract c.scanner c.layout j₀ = .ok e j₁) :
    Job.Ends (c.complete e)
      (fun s =>
        (∀ id ∈ instrumentRefs s, id < s.instruments.length) ∧
          (∀ kind, ∀ r ∈ tableRefs s kind, r < s.tableLength kind ∨ c.OutOfReach kind r) ∧
            ((∀ kind, ∀ r ∈ tableRefs s kind, ¬ c.OutOfReach kind r) → hasGaps s = false))
      c.Refuses := by
  refine .of_run (fun j s j' hrun => ?_) (ends_complete c e)
  have hsound : e.Sound := (ends_extract c.scanner c.layout).of_eq_ok h
  have hselected := selected_lt hrun
  have hclosed : ∀ kind, ∀ r ∈ tableRefs s kind, r < s.tableLength kind ∨ c.OutOfReach kind r :=
    fun kind r hr => lt_or_outOfReach hsound hrun hr
  refine ⟨hselected, hclosed, fun hreach => hasGaps_eq_false.mpr ⟨hselected, fun kind r hr => ?_⟩⟩
  exact (hclosed kind r hr).resolve_right (hreach kind r hr)

theorem complete_closes_spare : extract spareScanner (spareLayout 4 0) {} = .ok (spare spareRows []) {} ∧
    Job.Ends (complete ⟨spareScanner, spareLayout 4 0, none⟩ (spare spareRows []))
      (fun s =>
        (∀ id ∈ instrumentRefs s, id < s.instruments.length) ∧
          (∀ kind, ∀ r ∈ tableRefs s kind,
            r < s.tableLength kind ∨ OutOfReach ⟨spareScanner, spareLayout 4 0, none⟩ kind r) ∧
            ((∀ kind, ∀ r ∈ tableRefs s kind, ¬ OutOfReach ⟨spareScanner, spareLayout 4 0, none⟩ kind r) →
              hasGaps s = false))
      (Refuses ⟨spareScanner, spareLayout 4 0, none⟩) := by
  have hextract : extract spareScanner (spareLayout 4 0) {} = .ok (spare spareRows []) {} := by
    rw [extract, sortedTables_spareLayout]
    rfl
  exact ⟨hextract, complete_closes (c := ⟨spareScanner, spareLayout 4 0, none⟩) hextract⟩

/-- Where two records may be read there is no row 3 to be had, and where none may be read the last one that was read
has no number. -/
theorem spare_stops_short :
    (extract spareScanner (spareLayout 2 0) {} = .ok (spare spareRows []) {} ∧
      ∃ s j, complete ⟨spareScanner, spareLayout 2 0, none⟩ (spare spareRows []) {} = .ok s j ∧ hasGaps s = true) ∧
    extract spareScanner (spareLayout 0 0) {} = .ok (spare [] []) {} ∧
      (Job.outcome (complete ⟨spareScanner, spareLayout 0 0, none⟩ (spare [] []))).run' {} =
        some (.error (.incompleteExtraction (.nothingRead .wave))) := by
  refine ⟨⟨?_, _, _, rfl, ?_⟩, ?_, ?_⟩
  · rw [extract, sortedTables_spareLayout]
    rfl
  · decide +kernel
  · rw [extract, sortedTables_spareLayout]
    rfl
  · decide +kernel

/-! ## Copies -/

theorem completeInstruments_of_whole {block : RecordBlock} (h : ∀ id ∈ instrumentRefs s, id < s.instruments.length) :
    c.completeInstruments s block = pure s := by
  unfold completeInstruments
  exact if_pos (foldl_max_le (Nat.zero_le _) h)

theorem donorStart_congr {donor : Song} {i i' : Instrument} (hattack : i'.attackDecay = i.attackDecay)
    (hsustain : i'.sustainRelease = i.sustainRelease) : donorStart donor kind i' = donorStart donor kind i := by
  unfold donorStart
  rw [hattack, hsustain]

theorem Untouched.exists_instrument (h : Untouched kind s s') {n : Nat} {i : Instrument} (hi : s.instruments[n]? = some i) :
    ∃ i', s'.instruments[n]? = some i' ∧ i'.attackDecay = i.attackDecay ∧ i'.sustainRelease = i.sustainRelease ∧
      i'.start? kind = i.start? kind := by
  have hget := congrArg (·[n]?) h.instruments
  simp only [List.getElem?_map, hi, Option.map_some] at hget
  obtain ⟨i', hi', hsame⟩ := Option.map_eq_some_iff.mp hget
  simp only [Prod.mk.injEq] at hsame
  exact ⟨i', hi', hsame⟩

/-- Instrument number `n` of a song starts a copy of the program that the donor has for an instrument; the copy stands
behind the first `extracted` rows of its table. -/
def StartsCopy (donor : Song) (source : Table) (extracted : Nat) (i : Instrument) (s : Song) (n : Nat) : Prop :=
  ∃ i' start, s.instruments[n]? = some i' ∧ i'.start? source.kind = some start ∧ extracted ≤ start.toNat ∧
    Placed (s.tableRows source.kind) start.toNat (programAt source (donorStart donor source.kind i))

/-- **An instrument that started a program past the extracted rows of its table starts a copy of the donor's program**,
and that is reported, if its row is past the rows that the table has once the instruments are complete; otherwise the
instrument stays as it is. The table is as it was extracted if no instrument is missing. -/
theorem complete_copies {donor : Song} {source : Table} {e : Extraction} {n : Nat} {i : Instrument} {row : UInt8}
    (hdonor : c.emulated = some donor) (hsource : donor.table? kind = some source)
    (hi : e.song.instruments[n]? = some i) (hrow : i.start? kind = some row)
    (hpast : e.song.tableLength kind ≤ row.toNat) (h : c.complete e j = .ok s j') :
    ∃ filled j₁, c.completeInstruments e.song e.instruments j = .ok filled j₁ ∧
      ((∀ id ∈ instrumentRefs e.song, id < e.song.instruments.length) → filled = e.song) ∧
      if row.toNat < filled.tableLength kind then ∃ i', s.instruments[n]? = some i' ∧ i'.start? kind = some row
      else
        StartsCopy donor source (e.song.tableLength kind) i s n ∧ ∃ given needed,
          j'.degradations = j.degradations ++ given ∧
            .programsImported kind needed (filled.tableLength kind) ∈ given := by
  obtain ⟨filled, j₁, a, b, before, given, after, hfilled, hbefore, hcompleted, hafter, htold⟩ := complete_eq_ok h kind
  obtain ⟨hgrown, -, added, hadded⟩ := completeInstruments_eq_ok hfilled
  refine ⟨filled, j₁, hfilled, fun hwhole => ?_, ?_⟩
  · rw [completeInstruments_of_whole hwhole] at hfilled
    cases hfilled
    rfl
  obtain ⟨i₁, hi₁, hattack, hsustain, hstart₁⟩ := hbefore.exists_instrument (getElem?_mono hgrown.instruments hi)
  have hrow₁ : i₁.start? kind = some row := hstart₁.trans hrow
  cases hcompleted with
  | whole hwhole =>
    have hlt := hwhole row.toNat (List.mem_append_left _ (List.mem_filterMap.mpr
      ⟨i₁, List.mem_of_getElem? hi₁, by rw [hrow₁]; rfl⟩))
    rw [hbefore.tableLength] at hlt
    rw [if_pos hlt]
    obtain ⟨i', hi', -, -, hstart'⟩ := hafter.exists_instrument hi₁
    exact ⟨i', hi', hstart'.trans hrow₁⟩
  | @copied _ _ needed _ hdonor' hsource' hreplaced =>
    cases hdonor.symm.trans hdonor'
    cases hsource.symm.trans hsource'
    obtain ⟨rfl, -⟩ := mem_of_table? hsource
    obtain ⟨i₂, hi₂, hretargeted⟩ := exists_getElem?_right hreplaced.instruments hi₁
    obtain ⟨i', hi', -, -, hstart'⟩ := hafter.exists_instrument hi₂
    rw [hbefore.tableLength] at hretargeted htold
    cases hretargeted with
    | kept hkept =>
      rw [if_pos (hkept row hrow₁)]
      exact ⟨i', hi', hstart'.trans hrow₁⟩
    | copied hrow' hpast' hstart hplaced =>
      cases hrow₁.symm.trans hrow'
      rw [if_neg (Nat.not_lt.mpr hpast')]
      let told : Degradation := .programsImported source.kind needed (filled.tableLength source.kind)
      refine ⟨⟨i', _, hi', hstart'.trans (start?_redirected hrow'), ?_, ?_⟩, added ++ before ++ [told] ++ after, needed,
        ?_, ?_⟩
      · exact Nat.le_trans (tableLength_mono (hgrown.rows _)) hstart
      · rw [hafter.rows, ← donorStart_congr hattack hsustain]
        exact hplaced
      · rw [htold, ← hadded]
        simp only [List.append_assoc, told]
      · simp [told]
  | read hnone =>
    rw [hdonor] at hnone
    exact absurd (hsource.symm.trans hnone) (by simp)

/-- A wave program of two steps. -/
def donorTable : Table := { kind := .wave, rows := [.step [0x11, 0], .step [0x21, 0], .stop] }

def spareCompletion (sequences : Nat) : Completion where
  scanner := spareScanner
  layout := spareLayout 4 sequences
  emulated := some { tempo := 6, instruments := [⟨0, 0, 0, none, none, false⟩], tables := [donorTable] }

theorem complete_copies_spare :
    ∃ donor s j, (spareCompletion 0).emulated = some donor ∧ donor.table? .wave = some donorTable ∧
      (spareCompletion 0).complete (spare spareRows []) {} = .ok s j ∧
      ∃ filled j₁, (spareCompletion 0).completeInstruments (spare spareRows []).song ⟨0x1000, 1⟩ {} = .ok filled j₁ ∧
        ((∀ id ∈ instrumentRefs (spare spareRows []).song, id < 1) → filled = (spare spareRows []).song) ∧
        if 3 < filled.tableLength .wave then ∃ i', s.instruments[0]? = some i' ∧ i'.start? .wave = some 3
        else
          StartsCopy donor donorTable 2 ⟨0, 0, 3, none, none, false⟩ s 0 ∧ ∃ given needed,
            j.degradations = [] ++ given ∧ .programsImported .wave needed (filled.tableLength .wave) ∈ given := by
  have hi : (spare spareRows []).song.instruments[0]? = some ⟨0, 0, 3, none, none, false⟩ := rfl
  have hrow : Instrument.start? ⟨0, 0, 3, none, none, false⟩ .wave = some 3 := rfl
  have hpast : (spare spareRows []).song.tableLength .wave ≤ (3 : UInt8).toNat := by decide
  refine ⟨_, _, _, rfl, rfl, rfl, ?_⟩
  exact complete_copies rfl rfl hi hrow hpast rfl

/-- The instrument that was missing brings a program that reaches from row 2 to row 4, and so the other one, which is
not changed, starts at that program's second step. -/
theorem spare_starts_amid_copy :
    extract spareScanner (spareLayout 4 1) {} = .ok (spare spareRows [{ events := [.setInstrument 1] }]) {} ∧
    ∃ donor s j, (spareCompletion 1).emulated = some donor ∧
      (spareCompletion 1).complete (spare spareRows [{ events := [.setInstrument 1] }]) {} = .ok s j ∧
      ¬ StartsCopy donor donorTable 2 ⟨0, 0, 3, none, none, false⟩ s 0 ∧
      j.degradations = [.instrumentsCompleted 1 2 .emulation] := by
  refine ⟨?_, _, _, _, rfl, rfl, ?_, ?_⟩
  · rw [extract, sortedTables_spareLayout]
    rfl
  · rintro ⟨i', start, hi', hstart, -, hplaced⟩
    cases hi'
    cases hstart
    obtain ⟨r, hshift, hr⟩ := hplaced 0 (.step [0x11, 0]) rfl
    cases hshift
    cases hr
  · rfl

end Completion

end Chiptune.Analysis
