/-
Every mark of a voice has a row of its own.

Since the row length divides the frame of every mark, a mark is where a row
starts, and since a voice has one mark in a frame at most, no two of its marks
are in the same row (`OwnRows`). So rebuilding a song never finds a note off the
grid (`reconstruct_tells`), and a note never takes the row in which another one
ends.
-/
import Chiptune.Proofs.Analysis.Reconstruction

namespace Chiptune.Analysis

open Sound Song Reconstruction

variable {t : Trace} {v : Voice}

/-! ## Marks and rows -/

/-- Each mark of a voice has one of the given rows, of `tempo` frames each, for itself. -/
structure OwnRows (t : Trace) (v : Voice) (tempo : Nat) (rows : List GridRow) : Prop where
  /-- A mark is where a row starts. -/
  starts : ∀ m ∈ marks t v, ∃ r < rows.length, m.1 = r * tempo
  /-- Marks in the same row are the same mark. -/
  alone : ∀ m ∈ marks t v, ∀ m' ∈ marks t v, m.1 / tempo = m'.1 / tempo → m = m'
  /-- Where the gate is opened, the row has the note that starts there. -/
  opened : ∀ frame, (frame, .on) ∈ marks t v → ∃ n ∈ notesOf t v, n.note.frame = frame ∧
    rows[frame / tempo]?.bind (·.event) = some (.note n.note.pitch (UInt8.ofNat n.instrument))
  /-- Where the gate is closed, the row has the end of a note, and no note in its place. -/
  closed : ∀ frame, (frame, .off) ∈ marks t v → rows[frame / tempo]?.bind (·.event) = some .off

theorem ownRows_rowsOf (t : Trace) (options : AnalysisOptions) (commands : List (Nat × Command)) (v : Voice) :
    OwnRows t v (tempoOf t options).toNat (rowsOf t options commands v) := by
  have htempo := tempoOf_pos t options
  have hgrid : ∀ n ∈ notesOf t v, (tempoOf t options).toNat ∣ n.note.frame := fun _ => tempoOf_dvd_note options
  refine ⟨fun m hm => ?_, fun m hm m' hm' hsame => ?_, fun frame hon => ?_, fun frame hoff => ?_⟩
  · rw [rowsOf, gridOf, List.length_map, List.length_range]
    exact exists_row_of_mark options hm
  · obtain ⟨r, -, hr⟩ := exists_row_of_mark options hm
    obtain ⟨r', -, hr'⟩ := exists_row_of_mark options hm'
    rw [hr, hr', Nat.mul_div_cancel r htempo, Nat.mul_div_cancel r' htempo] at hsame
    have hframe : m.1 = m'.1 := by rw [hr, hr', hsame]
    exact eq_of_pairwise ((pairwise_marks t v).imp Nat.ne_of_lt) hm hm' hframe
  · obtain ⟨r, hr, rfl⟩ := exists_row_of_mark options hon
    obtain ⟨n, hn, hframe⟩ := exists_note_of_on hon
    refine ⟨n, hn, hframe, ?_⟩
    rw [Nat.mul_div_cancel r htempo, rowsOf, event_gridOf hr]
    exact rowEvent?_of_on htempo hgrid (pairwise_notesOf t v) hn hframe
  · obtain ⟨r, hr, rfl⟩ := exists_row_of_mark options hoff
    have hnone : ∀ n ∈ notesOf t v, n.note.frame ≠ r * (tempoOf t options).toNat := by
      intro n hn hframe
      cases mark_unique (hframe ▸ (heard_of_mem_notesOf hn).mark) hoff
    rw [Nat.mul_div_cancel r htempo, rowsOf, event_gridOf hr]
    exact rowEvent?_of_off htempo hgrid hnone (mem_framesWith.mpr hoff)

/-- Where a trace closes a voice's gate, the voice of the rebuilt song plays the end of a note. -/
theorem ends_of_reconstruct {options : AnalysisOptions} {song : Song} {j j' : Journal}
    (h : reconstruct t options j = .ok song j') (v : Voice) :
    ∃ l rows, song.orderLists[v.val]? = some l ∧ voiceRows? song.sequences none l.entries = some rows ∧
      ∀ frame, (frame, .off) ∈ marks t v → rows[frame / song.tempo.toNat]? = some .off := by
  obtain ⟨sounds, filter, commands, rfl, -, hshapes, hsequences, -⟩ := reconstruct_eq_ok h
  obtain ⟨l, rows, hl, hrows, -, hmarked, hstarts⟩ := assembled_rows hshapes hsequences v
  refine ⟨l, rows, hl, hrows, fun frame hoff => ?_⟩
  obtain ⟨r, hr, hframe⟩ := hstarts _ hoff
  have hmarked := hmarked r rows[r] (List.getElem?_eq_getElem hr)
  dsimp only at hframe
  rw [← hframe] at hmarked
  show rows[frame / (tempoOf t options).toNat]? = some .off
  rw [hframe, Nat.mul_div_cancel r (tempoOf_pos t options), List.getElem?_eq_getElem hr, hmarked.off.mpr hoff]

/-! ## Notices -/

theorem mod_tempoOf (options : AnalysisOptions) {n : Note} (hn : n ∈ Voice.all.flatMap (notes t)) :
    n.frame % (tempoOf t options).toNat = 0 := by
  obtain ⟨v, -, hn⟩ := List.mem_flatMap.mp hn
  exact Nat.mod_eq_zero_of_dvd (tempoOf_dvd options (heard_of_mem hn).mark)

theorem filterProgram_tells (t : Trace) (start : Nat) :
    Job.Tells (filterProgram t start) (· = .filterCut maxFilterRows) := by
  unfold filterProgram
  dsimp only
  split
  · exact .bind (.notice rfl) fun _ => .pure
  · exact .pure

/-- **Rebuilding a song tells of nothing but a filter program that is cut.** -/
theorem reconstruct_tells (t : Trace) (options : AnalysisOptions) :
    Job.Tells (reconstruct t options) (· = .filterCut maxFilterRows) := by
  unfold reconstruct
  dsimp only
  split
  · exact .throw_bind
  refine .bind (.forIn _ fun n hn _ => ?_) fun _ => ?_
  · split
    next h => exact absurd (mod_tempoOf options hn) h
    · exact .pure
  split
  · exact .throw_bind
  refine .bind .ofExcept fun sounds => ?_
  -- The song is put together in both cases, after the filter's program if there is one.
  generalize filterStart? t = start?
  cases start? with
  | none =>
    refine .bind .pure fun _ => ?_
    split
    · exact .throw_bind
    · exact .pure
  | some start =>
    refine .bind (filterProgram_tells t _) fun program => .bind .pure fun _ => ?_
    split
    · exact .throw_bind
    · exact .pure

/-! ## Every mark -/

/-- **Every mark has a row of its own.** A row is as long as the marks allow, so no note is off the
grid, no two marks of a voice share a row, and the end of a note stays in its row. -/
theorem marks_own_rows :
    (∀ (frames : List Nat) (maxTempo : UInt8),
      IsGreatest {d | 1 ≤ d ∧ d ≤ max 1 maxTempo.toNat ∧ ∀ f ∈ frames, d ∣ f} (rowLength frames maxTempo).toNat) ∧
    ∀ (t : Trace) (options : AnalysisOptions),
      Job.Tells (reconstruct t options) (fun n => ∀ voice frame tempo, n ≠ .offGrid voice frame tempo) ∧
      (∀ v commands, OwnRows t v (tempoOf t options).toNat (rowsOf t options commands v)) ∧
      ∀ song j j', reconstruct t options j = .ok song j' → song.tempo = tempoOf t options ∧
        ∀ v : Voice, ∃ l rows, song.orderLists[v.val]? = some l ∧
          voiceRows? song.sequences none l.entries = some rows ∧
          ∀ frame, (frame, .off) ∈ marks t v → rows[frame / song.tempo.toNat]? = some .off := by
  refine ⟨isGreatest_rowLength, fun t options => ⟨?_, fun v commands => ownRows_rowsOf t options commands v, ?_⟩⟩
  · refine (reconstruct_tells t options).mono ?_
    rintro n rfl
    exact nofun
  · intro song j j' h
    refine ⟨?_, ends_of_reconstruct h⟩
    obtain ⟨sounds, filter, commands, rfl, -⟩ := reconstruct_eq_ok h
    rfl

theorem duet_closed : (4, .off) ∈ marks duet 0 := by decide +kernel

theorem marks_own_rows_duet :
    ∃ song j, reconstruct duet {} {} = .ok song j ∧ (4, .off) ∈ marks duet 0 ∧
      ∃ l rows, song.orderLists[(0 : Voice).val]? = some l ∧
        voiceRows? song.sequences none l.entries = some rows ∧
        rows[4 / song.tempo.toNat]? = some .off := by
  have h := reconstruct_duet
  split at h
  next song j hsong =>
    obtain ⟨l, rows, hl, hrows, hends⟩ := ((marks_own_rows.2 duet {}).2.2 song {} j hsong).2 0
    exact ⟨song, j, hsong, duet_closed, l, rows, hl, hrows, hends 4 duet_closed⟩
  · cases h

end Chiptune.Analysis
