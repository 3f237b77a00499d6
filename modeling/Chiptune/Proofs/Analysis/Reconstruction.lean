/-
What a rebuilt song is made of, and what its voices play.
-/
import Chiptune.Proofs.Analysis.Assignment
import Chiptune.Proofs.Analysis.Grid
import Chiptune.Proofs.Analysis.Score
import Chiptune.Proofs.Outcome

namespace Chiptune.Analysis

open Sound Song Reconstruction

/-- Frames per row of the song rebuilt from a trace. -/
def tempoOf (t : Trace) (options : AnalysisOptions) : UInt8 :=
  rowLength ((Voice.all.map fun v => (v, marks t v)).flatMap fun (_, m) => m.map (·.1)) options.maxTempo

/-- The rows of a voice. -/
def rowsOf (t : Trace) (options : AnalysisOptions) (commands : List (Nat × Command)) (v : Voice) : List GridRow :=
  gridOf (tempoOf t options).toNat (rowCount t.frames (tempoOf t options).toNat) (framesWith .off (marks t v))
    (notesOf t v) (if v.val = 0 then commands else [])

/-- The sequences and order lists of all voices. -/
def voicesOf (t : Trace) (options : AnalysisOptions) (commands : List (Nat × Command)) :
    List Sequence × List OrderList :=
  addVoices (max options.rowsPerSequence 1) (fun v => (notesOf t v).head?.map fun n => UInt8.ofNat n.instrument)
    (rowsOf t options commands) Voice.all ([], [])

/-- The song with the given parts. -/
def assembled (t : Trace) (options : AnalysisOptions) (sounds : Sounds) (filter : List Table)
    (commands : List (Nat × Command)) : Song where
  tempo := tempoOf t options
  instruments := sounds.instruments
  tables := sortTables (([sounds.wave.table, sounds.pulse.table].filter fun t => !t.rows.isEmpty) ++ filter)
  sequences := (voicesOf t options commands).1
  orderLists := (voicesOf t options commands).2
  instrumentProvenance := .dynamic

/-- The table of the filter and the command that starts its program, if the filter is used. -/
inductive Filtering (t : Trace) (frames : Nat) : List Table → List (Nat × Command) → Prop
  | unused : Filtering t frames [] []
  | used {row : Nat} {program : List Row} {j j' : Journal} (h : filterProgram t (row * frames) j = .ok program j') :
    Filtering t frames [{ kind := .filter, rows := program, provenance := .dynamic }] [(row, ⟨.filterProgram, 0, 0⟩)]

theorem Filtering.kind {t : Trace} {frames : Nat} {filter : List Table} {commands : List (Nat × Command)}
    (h : Filtering t frames filter commands) : ∀ table ∈ filter, table.kind = .filter := by
  cases h <;> simp

/-- **What a rebuilt song is made of.** -/
theorem reconstruct_eq_ok {t : Trace} {options : AnalysisOptions} {song : Song} {j j' : Journal}
    (h : reconstruct t options j = .ok song j') :
    ∃ sounds filter commands, song = assembled t options sounds filter commands ∧
      instrumentsOf (assignmentOf t).shapes = .ok sounds ∧ (assignmentOf t).shapes.length ≤ 255 ∧
      song.sequences.length ≤ 255 ∧ Filtering t (tempoOf t options).toNat filter commands := by
  unfold reconstruct at h
  dsimp only at h
  split at h
  · cases h
  obtain ⟨_, j₁, -, h⟩ := run_bind_eq_ok.mp h
  split at h
  · cases h
  next hshapes =>
  obtain ⟨sounds, j₂, hsounds, h⟩ := run_bind_eq_ok.mp h
  have hinstruments := Job.ofExcept_eq_ok hsounds
  generalize filterStart? t = start? at h
  cases start? with
  | none =>
    obtain ⟨_, j₃, hpure, h⟩ := run_bind_eq_ok.mp h
    cases hpure
    split at h
    · cases h
    next hsequences =>
    cases h
    exact ⟨sounds, [], [], rfl, hinstruments, Nat.le_of_not_lt hshapes, Nat.le_of_not_lt hsequences, .unused⟩
  | some start =>
    obtain ⟨program, j₃, hprogram, h⟩ := run_bind_eq_ok.mp h
    obtain ⟨_, j₄, hpure, h⟩ := run_bind_eq_ok.mp h
    cases hpure
    split at h
    · cases h
    next hsequences =>
    cases h
    exact ⟨sounds, [_], _, rfl, hinstruments, Nat.le_of_not_lt hshapes, Nat.le_of_not_lt hsequences, .used hprogram⟩

/-! ## Rows -/

variable {t : Trace} {options : AnalysisOptions} {v : Voice}

theorem tempoOf_pos (t : Trace) (options : AnalysisOptions) : 0 < (tempoOf t options).toNat := rowLength_pos ..

theorem tempoOf_dvd (options : AnalysisOptions) {m : Nat × Mark} (h : m ∈ marks t v) :
    (tempoOf t options).toNat ∣ m.1 := by
  refine dvd_rowLength (List.mem_flatMap.mpr ⟨(v, marks t v), ?_, List.mem_map_of_mem h⟩)
  exact List.mem_map_of_mem (f := fun v => (v, marks t v)) (List.mem_of_getElem? (Voice.all_getElem? v))

theorem tempoOf_dvd_note (options : AnalysisOptions) {n : Assigned} (hn : n ∈ notesOf t v) :
    (tempoOf t options).toNat ∣ n.note.frame :=
  tempoOf_dvd options (heard_of_mem_notesOf hn).mark

/-- A mark is where one of the rows starts. -/
theorem exists_row_of_mark (options : AnalysisOptions) {frame : Nat} {mark : Mark} (h : (frame, mark) ∈ marks t v) :
    ∃ r < rowCount t.frames (tempoOf t options).toNat, frame = r * (tempoOf t options).toNat := by
  obtain ⟨r, hr⟩ := tempoOf_dvd options h
  have hframe : frame = r * (tempoOf t options).toNat := by rw [Nat.mul_comm, ← hr]
  exact ⟨r, lt_rowCount (tempoOf_pos t options) (hframe ▸ mark_lt h), hframe⟩

/-- A row plays what the voice's marks say of a frame. -/
structure Marked (t : Trace) (v : Voice) (frame : Nat) (row : VoiceRow) : Prop where
  note : ∀ pitch instrument, row = .note pitch instrument ↔
    (frame, .on) ∈ marks t v ∧ pitch = (pitchAt t v frame).toNat ∧ instrument = instrumentAt? t v frame
  off : row = .off ↔ (frame, .off) ∈ marks t v
  /-- The note has an instrument. -/
  selected : (frame, .on) ∈ marks t v → (instrumentAt? t v frame).isSome

theorem marked_of_on {n : Assigned} (hn : n ∈ notesOf t v) :
    Marked t v n.note.frame (.note n.note.pitch.toNat (some n.instrument)) := by
  have hheard := heard_of_mem_notesOf hn
  have hinstrument := instrumentAt?_eq_some hn
  refine ⟨fun pitch instrument => ?_, ?_, fun _ => by rw [hinstrument]; rfl⟩
  · rw [VoiceRow.note.injEq, hinstrument, hheard.pitch]
    exact ⟨fun ⟨hp, hi⟩ => ⟨hheard.mark, hp.symm, hi.symm⟩, fun ⟨_, hp, hi⟩ => ⟨hp.symm, hi.symm⟩⟩
  · exact ⟨nofun, fun h => nomatch mark_unique hheard.mark h⟩

theorem marked_of_off {frame : Nat} (h : (frame, .off) ∈ marks t v) : Marked t v frame .off := by
  have hon : (frame, .on) ∉ marks t v := fun hon => nomatch mark_unique hon h
  exact ⟨fun _ _ => ⟨nofun, fun e => absurd e.1 hon⟩, ⟨fun _ => h, fun _ => rfl⟩, fun e => absurd e hon⟩

theorem marked_of_none {frame : Nat} (hon : (frame, .on) ∉ marks t v) (hoff : (frame, .off) ∉ marks t v) :
    Marked t v frame .rest :=
  ⟨fun _ _ => ⟨nofun, fun e => absurd e.1 hon⟩, ⟨nofun, fun e => absurd e hoff⟩, fun e => absurd e hon⟩

/-- What a row of the grid plays is what the marks say of the frame where it starts. -/
theorem marked_row (options : AnalysisOptions) (hshapes : (assignmentOf t).shapes.length ≤ 255) (row : Nat)
    (commands : List Command) :
    Marked t v (row * (tempoOf t options).toNat)
      (GridRow.played ⟨commands, rowEvent? (tempoOf t options).toNat (framesWith .off (marks t v)) (notesOf t v) row⟩) := by
  have htempo := tempoOf_pos t options
  have hgrid : ∀ n ∈ notesOf t v, (tempoOf t options).toNat ∣ n.note.frame := fun _ => tempoOf_dvd_note options
  have hoffs : ∀ f ∈ framesWith .off (marks t v), (tempoOf t options).toNat ∣ f := fun f hf =>
    tempoOf_dvd options (mem_framesWith.mp hf)
  by_cases hon : (row * (tempoOf t options).toNat, .on) ∈ marks t v
  · obtain ⟨n, hn, hframe⟩ := exists_note_of_on hon
    have hbyte : (UInt8.ofNat n.instrument).toNat = n.instrument := by
      have := instrument_lt hn
      rw [UInt8.toNat_ofNat']
      omega
    have hmarked := marked_of_on hn
    rw [hframe] at hmarked
    rw [rowEvent?_of_on htempo hgrid (pairwise_notesOf t v) hn hframe]
    show Marked t v _ (.note n.note.pitch.toNat (some (UInt8.ofNat n.instrument).toNat))
    rw [hbyte]
    exact hmarked
  have hframe : ∀ n ∈ notesOf t v, n.note.frame ≠ row * (tempoOf t options).toNat := fun n hn e =>
    hon (e ▸ (heard_of_mem_notesOf hn).mark)
  by_cases hoff : (row * (tempoOf t options).toNat, .off) ∈ marks t v
  · rw [rowEvent?_of_off htempo hgrid hframe (mem_framesWith.mpr hoff)]
    exact marked_of_off hoff
  · rw [rowEvent?_of_none htempo hgrid hframe hoffs (mt mem_framesWith.mp hoff)]
    exact marked_of_none hon hoff

theorem note_of_rowEvent? {tempo : Nat} {offs : List Nat} {notes : List Assigned} {row : Nat} {pitch id : UInt8}
    (h : rowEvent? tempo offs notes row = some (.note pitch id)) :
    ∃ n ∈ notes, n.note.pitch = pitch ∧ UInt8.ofNat n.instrument = id := by
  unfold rowEvent? at h
  split at h
  next n hn =>
    cases h
    exact ⟨n, List.mem_reverse.mp (List.mem_of_find?_eq_some hn), rfl, rfl⟩
  · split at h <;> cases h

/-- What is played can be transposed. -/
theorem low_rowsOf (t : Trace) (options : AnalysisOptions) (commands : List (Nat × Command)) (v : Voice) :
    Score.Low (rowsOf t options commands v) := by
  intro row hrow pitch id hevent
  obtain ⟨r, -, rfl⟩ := List.mem_map.mp hrow
  obtain ⟨n, hn, rfl, -⟩ := note_of_rowEvent? hevent
  have hle := pitchAt_le t v n.note.frame
  have hhighest : Pitch.highest = 95 := rfl
  rw [(heard_of_mem_notesOf hn).pitch]
  omega

theorem assembled_rows {sounds : Sounds} {filter : List Table} {commands : List (Nat × Command)}
    (hshapes : (assignmentOf t).shapes.length ≤ 255)
    (hsequences : (assembled t options sounds filter commands).sequences.length ≤ 255) (v : Voice) :
    ∃ l rows, (assembled t options sounds filter commands).orderLists[v.val]? = some l ∧
      voiceRows? (assembled t options sounds filter commands).sequences none l.entries = some rows ∧
      rows.length = rowCount t.frames (tempoOf t options).toNat ∧
      (∀ r row, rows[r]? = some row → Marked t v (r * (tempoOf t options).toNat) row) ∧
      ∀ m ∈ marks t v, ∃ r < rows.length, m.1 = r * (tempoOf t options).toNat := by
  have hsize : 0 < max options.rowsPerSequence 1 := by omega
  obtain ⟨-, lists, hlists, hplays⟩ := addVoices_plays hsize (low_rowsOf t options commands)
    (show voicesOf t options commands = voicesOf t options commands from rfl)
    (Nat.le_trans hsequences (by omega))
  obtain ⟨l, hl, hrows⟩ := exists_getElem?_right hplays (Voice.all_getElem? v)
  have hlength : (rowsOf t options commands v).length = rowCount t.frames (tempoOf t options).toNat := by
    rw [rowsOf, gridOf, List.length_map, List.length_range]
  have hlists : (assembled t options sounds filter commands).orderLists = lists := hlists
  refine ⟨l, _, by rw [hlists, hl], hrows, by rw [List.length_map, hlength], ?_, ?_⟩
  · intro r row hrow
    rw [rowsOf, gridOf, List.map_map, List.getElem?_map, Option.map_eq_some_iff] at hrow
    obtain ⟨r', hr', rfl⟩ := hrow
    obtain ⟨hlt, rfl⟩ := List.getElem?_eq_some_iff.mp hr'
    rw [List.getElem_range]
    exact marked_row options hshapes r _
  · intro m hm
    rw [List.length_map, hlength]
    exact exists_row_of_mark options hm

/-- **Every mark of a trace is a row of the song, and every other row rests.** -/
theorem reconstruct_rows {t : Trace} {options : AnalysisOptions} {song : Song} {j j' : Journal}
    (h : reconstruct t options j = .ok song j') (v : Voice) :
    ∃ l rows, song.orderLists[v.val]? = some l ∧ voiceRows? song.sequences none l.entries = some rows ∧
      rows.length = rowCount t.frames song.tempo.toNat ∧
      (∀ r row, rows[r]? = some row → Marked t v (r * song.tempo.toNat) row) ∧
      ∀ m ∈ marks t v, ∃ r < rows.length, m.1 = r * song.tempo.toNat := by
  obtain ⟨sounds, filter, commands, rfl, -, hshapes, hsequences, -⟩ := reconstruct_eq_ok h
  exact assembled_rows hshapes hsequences v

/-- Two notes of the first voice, the second one an octave higher. -/
def duet : Trace where
  frames := 10
  initial := .cleared
  entries :=
    let voice : Voice := .ofNat 0
    #[⟨0, 0, .voice voice .freqLo, 0x34⟩, ⟨0, 4, .voice voice .freqHi, 0x08⟩, ⟨0, 8, .voice voice .control, 0x41⟩,
      ⟨4, 0, .voice voice .control, 0x40⟩, ⟨8, 0, .voice voice .freqLo, 0x68⟩, ⟨8, 4, .voice voice .freqHi, 0x10⟩,
      ⟨8, 8, .voice voice .control, 0x41⟩]

theorem reconstruct_duet :
    (match reconstruct duet {} {} with
      | .ok _ _ => true
      | .error .. => false) = true := by
  decide +kernel

theorem reconstruct_rows_duet :
    ∃ song j, reconstruct duet {} {} = .ok song j ∧
      ∃ l rows, song.orderLists[(0 : Voice).val]? = some l ∧
        voiceRows? song.sequences none l.entries = some rows ∧
        rows.length = rowCount duet.frames song.tempo.toNat ∧
        (∀ r row, rows[r]? = some row → Marked duet 0 (r * song.tempo.toNat) row) ∧
        ∀ m ∈ marks duet 0, ∃ r < rows.length, m.1 = r * song.tempo.toNat := by
  have h := reconstruct_duet
  split at h
  next song j hsong => exact ⟨song, j, hsong, reconstruct_rows hsong 0⟩
  · cases h

end Chiptune.Analysis
