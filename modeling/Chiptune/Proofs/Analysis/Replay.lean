/-
Rebuilt instruments play what was observed.

A note's shape is the start of its instrument's, whose programs stand in the
song's tables. So from the instrument's rows on, the tables show frame by frame
what the trace shows from the note's frame on (`reconstruct_replays`).
-/
import Chiptune.Proofs.Analysis.Instruments
import Chiptune.Proofs.Analysis.Programs
import Chiptune.Proofs.Analysis.Reconstruction

namespace Chiptune.Analysis

open Sound Song Reconstruction Repetition

variable {t : Trace} {v : Voice} {frame : Nat}

/-- The control value and the note offset at the end of a frame, for a note of some pitch. -/
def waveBytes (v : Voice) (pitch : UInt8) (b : Bank) : Bytes :=
  [withoutGate (b.get (.voice v .control)), ((Pitch.nearest? (b.frequency v)).map (· - pitch)).getD 0]

/-- The pulse width at the end of a frame. -/
def pulseBytes (v : Voice) (b : Bank) : Bytes :=
  [b.get (.voice v .pulseHi) &&& 0x0F, b.get (.voice v .pulseLo)]

/-- Whether a voice's pulse width is written while a note is observed. -/
def PulseWritten (t : Trace) (v : Voice) (frame : Nat) : Prop :=
  ∃ e ∈ t.entries.toList, frame ≤ e.frame ∧ e.frame < frame + observedFrames t v frame ∧
    (e.register = .voice v .pulseHi ∨ e.register = .voice v .pulseLo)

/-- An instrument plays the note that a voice starts in a frame as it was observed. -/
structure Replayed (t : Trace) (song : Song) (v : Voice) (frame : Nat) (i : Instrument) : Prop where
  envelope : ∃ b, t.snapshots[frame]? = some b ∧ i.attackDecay = b.get (.voice v .attackDecay) ∧
    i.sustainRelease = b.get (.voice v .sustainRelease)
  wave : ∃ table, song.table? .wave = some table ∧ table.steps? i.wave (observedFrames t v frame) =
    some (((t.snapshots.drop frame).take (observedFrames t v frame)).map (waveBytes v (pitchAt t v frame)))
  pulse_iff : i.pulse.isSome ↔ PulseWritten t v frame
  pulse : ∀ start, i.pulse = some start → ∃ table steps, song.table? .pulse = some table ∧
    table.steps? start (observedFrames t v frame) = some steps ∧
    steps.map (·.take 2) = ((t.snapshots.drop frame).take (observedFrames t v frame)).map (pulseBytes v)

/-! ## What is observed -/

theorem state_map_framesOf (t : Trace) : (framesOf t).map (·.state) = t.snapshots := by
  refine List.ext_getElem (by rw [List.length_map, length_framesOf, Trace.length_snapshots]) fun n hn _ => ?_
  rw [List.length_map] at hn
  have hstate := state_framesOf (List.getElem?_eq_getElem hn)
  rw [List.getElem_map]
  exact (List.getElem?_eq_some_iff.mp hstate).2.symm

theorem window_states (t : Trace) (v : Voice) (frame : Nat) :
    (window t v frame).map (·.state) = (t.snapshots.drop frame).take (observedFrames t v frame) := by
  rw [window, List.map_take, List.map_drop, state_map_framesOf]

theorem waveStep_eq (v : Voice) (pitch : UInt8) (f : Frame) :
    [(f.waveStep v pitch).1, (f.waveStep v pitch).2] = waveBytes v pitch f.state := by
  unfold Frame.waveStep Frame.pitch waveBytes
  cases Pitch.nearest? (f.state.frequency v) with
  | none => simp
  | some p => rfl

theorem writesPulse_iff {n : Nat} {f : Frame} (h : (framesOf t)[n]? = some f) :
    f.writesPulse v = true ↔
      ∃ e ∈ t.entries.toList, e.frame = n ∧ (e.register = .voice v .pulseHi ∨ e.register = .voice v .pulseLo) := by
  rw [Frame.writesPulse, writes_framesOf h, Trace.frame, List.any_eq_true]
  simp only [List.mem_filter, Bool.or_eq_true, beq_iff_eq, and_assoc]

theorem any_writesPulse_iff (h : (frame, .on) ∈ marks t v) :
    (window t v frame).any (·.writesPulse v) = true ↔ PulseWritten t v frame := by
  have hlength := length_window h
  rw [List.any_eq_true]
  constructor
  · rintro ⟨f, hf, hwrites⟩
    obtain ⟨k, hk⟩ := List.getElem?_of_mem hf
    have hlt := (List.getElem?_eq_some_iff.mp hk).1
    rw [hlength] at hlt
    rw [getElem?_window hlt] at hk
    obtain ⟨e, he, hframe, hregister⟩ := (writesPulse_iff hk).mp hwrites
    exact ⟨e, he, by omega, by omega, hregister⟩
  · rintro ⟨e, he, hle, hlt, hregister⟩
    have hk : e.frame - frame < (window t v frame).length := by omega
    have hf := List.getElem?_eq_getElem hk
    refine ⟨_, List.getElem_mem hk, ?_⟩
    rw [getElem?_window (by omega), show frame + (e.frame - frame) = e.frame by omega] at hf
    exact (writesPulse_iff hf).mpr ⟨e, he, rfl, hregister⟩

/-- What a note's shape says of its control values and offsets. -/
theorem wave_of_heard {n : Note} (h : Heard t v n) :
    n.shape.wave.map (fun (control, offset) => [control, offset]) =
      ((t.snapshots.drop n.frame).take (observedFrames t v n.frame)).map (waveBytes v (pitchAt t v n.frame)) := by
  obtain ⟨first, -, hshape⟩ := h.shape
  rw [hshape, ← h.pitch, ← window_states, Shape.of, List.map_map, List.map_map]
  exact List.map_congr_left fun f _ => waveStep_eq v n.pitch f

/-- What a note's shape says of its pulse widths. -/
theorem pulse_of_heard {n : Note} (h : Heard t v n) {widths : List (UInt8 × UInt8)}
    (hwidths : n.shape.pulse = some widths) :
    widths.map (fun (hi, lo) => [hi, lo]) =
      ((t.snapshots.drop n.frame).take (observedFrames t v n.frame)).map (pulseBytes v) := by
  obtain ⟨first, -, hshape⟩ := h.shape
  simp only [hshape, Shape.of, Option.ite_none_right_eq_some, Option.some.injEq] at hwidths
  rw [← hwidths.2, ← window_states, List.map_map, List.map_map]
  rfl

theorem isSome_pulse_iff {n : Note} (h : Heard t v n) : n.shape.pulse.isSome ↔ PulseWritten t v n.frame := by
  obtain ⟨first, -, hshape⟩ := h.shape
  rw [hshape, ← any_writesPulse_iff h.mark]
  simp [Shape.of]

theorem length_states (h : (frame, .on) ∈ marks t v) :
    ((t.snapshots.drop frame).take (observedFrames t v frame)).length = observedFrames t v frame := by
  rw [← window_states, List.length_map, length_window h]

/-! ## What is played -/

/-- A table of programs is the only one of its kind in a song rebuilt. -/
theorem table?_assembled {options : AnalysisOptions} {sounds : Sounds} {filter : List Table}
    {commands : List (Nat × Command)} {shapes : List Shape} (hsounds : sounds.Of shapes)
    (hfilter : ∀ u ∈ filter, u.kind = .filter) {table : Table} {kind : TableKind}
    (htable : table = sounds.wave.table ∨ table = sounds.pulse.table) (hkind : table.kind = kind)
    (hrows : table.rows ≠ []) : (assembled t options sounds filter commands).table? kind = some table := by
  subst hkind
  have hwave := hsounds.waveKind
  have hpulse := hsounds.pulseKind
  refine find?_of_unique (List.mem_mergeSort.mpr (List.mem_append_left _ (List.mem_filter.mpr ⟨?_, ?_⟩)))
    (beq_self_eq_true _) fun u hu hkind => ?_
  · rcases htable with rfl | rfl <;> simp
  · simpa using hrows
  · have hkind : u.kind = table.kind := eq_of_beq hkind
    rcases List.mem_append.mp (List.mem_mergeSort.mp hu) with hu | hu
    · have hu := (List.mem_filter.mp hu).1
      simp only [List.mem_cons, List.not_mem_nil, or_false] at hu
      rcases htable with rfl | rfl <;> rcases hu with rfl | rfl <;> simp_all
    · have hu := hfilter u hu
      rcases htable with rfl | rfl <;> simp_all

/-- The steps of a table that shows these values. -/
theorem steps?_of_replays {β : Type} {table : Table} {kind : TableKind} {start : UInt8} {value : Bytes → β}
    {values : List β} (hkind : table.kind = kind) (h : Replays kind.hold value table.rows start.toNat values) :
    ∃ steps, table.steps? start values.length = some steps ∧ steps.map value = values := by
  obtain ⟨steps, hsteps, rfl⟩ := h
  refine ⟨steps, ?_, rfl⟩
  rw [List.length_map, Table.steps?, hkind]
  exact hsteps

namespace Reconstruction

variable {sounds : Sounds} {shapes : List Shape} {s n : Shape} {i : Instrument}

/-- An instrument's wave program shows what its shape starts with. -/
theorem Plays.replays_wave (h : Plays sounds s i) (hs : s.Playable) (hcovers : s.Covers n) :
    Replays TableKind.wave.hold id sounds.wave.table.rows i.wave.toNat
      (n.wave.map fun (control, offset) => [control, offset]) :=
  (program_replays (fun _ => rfl) (fun _ => rfl) hs.wave.1 hs.wave.2 h.wave).shorter (hcovers.wave.map _)

/-- An instrument's pulse program shows what its shape starts with. -/
theorem Plays.replays_pulse {start : UInt8} (h : Plays sounds s i) (hs : s.Playable) (hcovers : s.Covers n)
    (hstart : i.pulse = some start) : ∃ widths, n.pulse = some widths ∧ sounds.pulse.table.rows ≠ [] ∧
      Replays TableKind.pulse.hold (·.take 2) sounds.pulse.table.rows start.toNat
        (widths.map fun (hi, lo) => [hi, lo]) := by
  have hpulse := h.pulse
  have hshorter := hcovers.pulse
  have hplayable := hs.pulse
  rw [hstart] at hpulse
  generalize s.pulse = p, n.pulse = q at hpulse hshorter hplayable
  cases hpulse with
  | @some _ widths hplaced =>
    cases hshorter with
    | some hwidths =>
      obtain ⟨hne, hlength⟩ := hplayable _ rfl
      have hreplays : Replays TableKind.pulse.hold (·.take 2) sounds.pulse.table.rows start.toNat
          (widths.map fun (hi, lo) => [hi, lo]) :=
        heldProgram_replays (fun _ _ => rfl) (fun _ _ => rfl) hne hlength hplaced
      exact ⟨_, rfl, hplaced.ne_nil (heldProgram_ne_nil _ _), hreplays.shorter (hwidths.map _)⟩

theorem Plays.isSome_pulse (h : Plays sounds s i) (hcovers : s.Covers n) : i.pulse.isSome = n.pulse.isSome := by
  have hpulse := h.pulse
  have hshorter := hcovers.pulse
  generalize s.pulse = p, n.pulse = q, i.pulse = start at hpulse hshorter
  cases hpulse <;> cases hshorter <;> rfl

end Reconstruction

theorem replayed {options : AnalysisOptions} {sounds : Sounds} {filter : List Table}
    {commands : List (Nat × Command)} (hsounds : sounds.Of (assignmentOf t).shapes)
    (hfilter : ∀ u ∈ filter, u.kind = .filter) {n : Assigned} (hn : n ∈ notesOf t v) :
    ∃ i, sounds.instruments[n.instrument]? = some i ∧
      Replayed t (assembled t options sounds filter commands) v n.note.frame i := by
  obtain ⟨s, hs, hplayable, hcovers⟩ := exists_covers hn
  obtain ⟨i, hi, hplays⟩ := exists_getElem?_right hsounds.instruments hs
  have hheard := heard_of_mem_notesOf hn
  obtain ⟨first, hfirst, hshape⟩ := hheard.shape
  have hlength := length_states hheard.mark
  refine ⟨i, hi, ⟨first.state, state_framesOf hfirst, ?_, ?_⟩, ?_, ?_, fun start hstart => ?_⟩
  · rw [hplays.attackDecay, hcovers.attackDecay, hshape]
    rfl
  · rw [hplays.sustainRelease, hcovers.sustainRelease, hshape]
    rfl
  · have hrows := hplays.wave.ne_nil (program_ne_nil _ _)
    obtain ⟨steps, hsteps, hvalues⟩ := steps?_of_replays hsounds.waveKind (hplays.replays_wave hplayable hcovers)
    rw [wave_of_heard hheard, List.map_id] at hvalues
    rw [wave_of_heard hheard, List.length_map, hlength, hvalues] at hsteps
    exact ⟨_, table?_assembled hsounds hfilter (.inl rfl) hsounds.waveKind hrows, hsteps⟩
  · rw [hplays.isSome_pulse hcovers]
    exact isSome_pulse_iff hheard
  · obtain ⟨widths, hwidths, hrows, hreplays⟩ := hplays.replays_pulse hplayable hcovers hstart
    obtain ⟨steps, hsteps, hvalues⟩ := steps?_of_replays hsounds.pulseKind hreplays
    rw [pulse_of_heard hheard hwidths] at hvalues
    rw [pulse_of_heard hheard hwidths, List.length_map, hlength] at hsteps
    exact ⟨_, steps, table?_assembled hsounds hfilter (.inr rfl) hsounds.pulseKind hrows, hsteps, hvalues⟩

/-- **Every note of a trace is a row of the song, and its instrument plays what was observed.** -/
theorem reconstruct_replays {t : Trace} {options : AnalysisOptions} {song : Song} {j j' : Journal}
    (h : reconstruct t options j = .ok song j') {v : Voice} {frame : Nat} (hon : (frame, .on) ∈ marks t v) :
    ∃ l rows number i, song.orderLists[v.val]? = some l ∧
      voiceRows? song.sequences none l.entries = some rows ∧
      rows[frame / song.tempo.toNat]? = some (.note (pitchAt t v frame).toNat (some number)) ∧
      song.instruments[number]? = some i ∧ Replayed t song v frame i := by
  obtain ⟨sounds, filter, commands, rfl, hsounds, hshapes, hsequences, hfilter⟩ := reconstruct_eq_ok h
  obtain ⟨l, rows, hl, hrows, -, hmarked, hmarks⟩ := assembled_rows hshapes hsequences v
  obtain ⟨r, hr, hframe⟩ := hmarks _ hon
  obtain ⟨n, hn, rfl⟩ := exists_note_of_on hon
  obtain ⟨i, hi, hreplayed⟩ := replayed (instrumentsOf_of hsounds) hfilter.kind hn
  have hrow : rows[r]? = some rows[r] := List.getElem?_eq_getElem hr
  have hframe : n.note.frame = r * (tempoOf t options).toNat := hframe
  have hdiv : n.note.frame / (tempoOf t options).toNat = r := by
    rw [hframe, Nat.mul_div_cancel _ (tempoOf_pos t options)]
  have hnote := ((hframe ▸ hmarked r _ hrow).note _ _).mpr ⟨hon, rfl, (instrumentAt?_eq_some hn).symm⟩
  exact ⟨l, rows, n.instrument, i, hl, hrows, by rw [← hnote, ← hrow]; exact congrArg _ hdiv, hi, hreplayed⟩

/-- A note of the second voice whose pitch jumps by an octave and back, with its pulse width set
once. -/
def siren : Trace where
  frames := 8
  initial := .cleared
  entries :=
    let voice : Voice := .ofNat 1
    #[⟨0, 0, .voice voice .freqLo, 0x34⟩, ⟨0, 4, .voice voice .freqHi, 0x08⟩, ⟨0, 8, .voice voice .pulseHi, 0x18⟩,
      ⟨0, 12, .voice voice .attackDecay, 0x2A⟩, ⟨0, 16, .voice voice .control, 0x41⟩,
      ⟨1, 0, .voice voice .freqHi, 0x10⟩, ⟨2, 0, .voice voice .freqHi, 0x08⟩, ⟨3, 0, .voice voice .freqHi, 0x10⟩,
      ⟨4, 0, .voice voice .freqHi, 0x08⟩, ⟨5, 0, .voice voice .freqHi, 0x10⟩, ⟨6, 0, .voice voice .freqHi, 0x08⟩,
      ⟨7, 0, .voice voice .freqHi, 0x10⟩]

theorem reconstruct_siren :
    (match reconstruct siren {} {} with
      | .ok _ _ => true
      | .error .. => false) = true := by
  decide +kernel

theorem siren_on : (0, .on) ∈ marks siren 1 := by
  decide +kernel

theorem reconstruct_replays_siren :
    ∃ song j, reconstruct siren {} {} = .ok song j ∧ (0, .on) ∈ marks siren 1 ∧
      ∃ l rows number i, song.orderLists[(1 : Voice).val]? = some l ∧
        voiceRows? song.sequences none l.entries = some rows ∧
        rows[0 / song.tempo.toNat]? = some (.note (pitchAt siren 1 0).toNat (some number)) ∧
        song.instruments[number]? = some i ∧ Replayed siren song 1 0 i := by
  have h := reconstruct_siren
  split at h
  next song j hsong => exact ⟨song, j, hsong, siren_on, reconstruct_replays hsong siren_on⟩
  · cases h

end Chiptune.Analysis
