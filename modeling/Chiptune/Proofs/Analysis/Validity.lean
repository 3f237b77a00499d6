/-
A rebuilt song has nothing wrong with it.

Every program is steps and a last row that ends it or goes back to one of them
(`IsProgram`), so a table stays sound when one is appended. Whatever events a
row turns into can be played (`Event.Playable`), and a piece that is lowered
and transposed back has the pitches it had, in every song whose sequences start
with those there are (`Score.Valid`).
-/
import Chiptune.Proofs.Analysis.Instruments
import Chiptune.Proofs.Analysis.Programs
import Chiptune.Proofs.Analysis.Reconstruction
import Chiptune.Proofs.Song.Change

namespace Chiptune.Song

/-! ## Programs in tables -/

/-- The row ends a program whose steps are the rows from `first` up to `last`. -/
def Row.Ends (first last : Nat) : Row → Prop
  | .step _ => False
  | .loop target => first ≤ target.toNat ∧ target.toNat < last
  | .stop => True

/-- The rows are steps of a width, and one that ends the program. -/
def IsProgram (width : Nat) (rows : List Row) : Prop :=
  ∃ (steps : List Bytes) (last : Row), rows = steps.map .step ++ [last] ∧ (∀ step ∈ steps, step.length = width) ∧
    last.Ends 0 steps.length

theorem IsProgram.ne_nil {width : Nat} {rows : List Row} (h : IsProgram width rows) : rows ≠ [] := by
  obtain ⟨steps, last, rfl, -⟩ := h
  simp

theorem Row.Ends.shift {first last start : Nat} {row row' : Row} (h : row.Ends first last)
    (hshift : Table.shiftRow? start row = some row') : row'.Ends (first + start) (last + start) := by
  cases row with
  | step bytes => exact h.elim
  | stop =>
    cases hshift
    trivial
  | loop target =>
    rw [Table.shiftRow?] at hshift
    split at hshift
    next hbyte =>
      cases hshift
      have htarget : (UInt8.ofNat (target.toNat + start)).toNat = target.toNat + start :=
        UInt8.toNat_ofNat_of_lt' hbyte
      show _ ≤ (UInt8.ofNat (target.toNat + start)).toNat ∧ (UInt8.ofNat (target.toNat + start)).toNat < _
      obtain ⟨hfirst, hlast⟩ := h
      omega
    · cases hshift

/-- A table is sound if its last rows are a program and the rows before it are sound. -/
theorem sound_of_rows {t : Table} (before : List Row) {steps : List Bytes} {last : Row}
    (hrows : t.rows = before ++ (steps.map .step ++ [last])) (hbefore : ∀ row ∈ before, rowFaults t 0 row = [])
    (hwidth : ∀ step ∈ steps, step.length = t.kind.width)
    (hends : last.Ends before.length (steps.length + before.length)) : t.Sound := by
  constructor
  · have hstep : last.isStep = false := by
      cases last with
      | step bytes => exact hends.elim
      | _ => rfl
    simpa [Table.isOpen, hrows] using hstep
  intro i row hrow
  have hmem := List.mem_of_getElem? hrow
  simp only [hrows, List.mem_append, List.mem_map, List.mem_singleton] at hmem
  rw [rowFaults_eq_nil]
  rcases hmem with hmem | ⟨step, hstep, rfl⟩ | rfl
  · exact rowFaults_eq_nil.mp (hbefore row hmem)
  · exact hwidth step hstep
  · cases row with
    | step bytes => exact hends.elim
    | stop => trivial
    | loop target =>
      obtain ⟨hfirst, hlast⟩ := hends
      have hlt : target.toNat - before.length < steps.length := by omega
      refine ⟨.step steps[target.toNat - before.length], ?_, nofun⟩
      rw [hrows, List.getElem?_append_right hfirst, List.getElem?_append_left (by rwa [List.length_map]),
        List.getElem?_map, List.getElem?_eq_getElem hlt]
      rfl

/-- Steps of a program are appended as they are. -/
theorem mapM_shiftRow?_program (start : Nat) (last : Row) : ∀ steps : List Bytes,
    (steps.map Row.step ++ [last]).mapM (Table.shiftRow? start) =
      (Table.shiftRow? start last).map fun last' => steps.map .step ++ [last']
  | [] => by cases h : Table.shiftRow? start last <;> simp [h]
  | step :: steps => by
    have hstep : Table.shiftRow? start (.step step) = some (.step step) := rfl
    rw [List.map_cons, List.cons_append, List.mapM_cons, hstep, mapM_shiftRow?_program start last steps]
    cases Table.shiftRow? start last <;> rfl

theorem append?_program {t t' : Table} {steps : List Bytes} {last : Row} {first : UInt8}
    (h : t.append? (steps.map .step ++ [last]) = some (first, t')) :
    ∃ last', Table.shiftRow? t.rows.length last = some last' ∧
      t' = { t with rows := t.rows ++ (steps.map .step ++ [last']) } := by
  obtain ⟨-, rows, hrows, happended⟩ := Table.append?_eq_some.mp h
  rw [mapM_shiftRow?_program] at hrows
  obtain ⟨last', hlast, rfl⟩ := Option.map_eq_some_iff.mp hrows
  cases happended
  exact ⟨last', hlast, rfl⟩

/-- Steps have their width and loops lead to steps or ends, whether or not the last row ends a program. -/
def Table.Proper (t : Table) : Prop := ∀ i row, t.rows[i]? = some row → rowFaults t i row = []

/-- Rows stay as they should be when a program is appended, whose last row ends the table. -/
theorem Table.Proper.append {t t' : Table} {steps : List Bytes} {last : Row} {first : UInt8} (ht : t.Proper)
    (hwidth : ∀ step ∈ steps, step.length = t.kind.width) (hends : last.Ends 0 steps.length)
    (h : t.append? (steps.map .step ++ [last]) = some (first, t')) : t'.Sound := by
  obtain ⟨last', hlast, rfl⟩ := append?_program h
  refine sound_of_rows t.rows rfl (fun row hrow => ?_) hwidth (by simpa using hends.shift hlast)
  obtain ⟨i, hi⟩ := List.getElem?_of_mem hrow
  have hproper := rowFaults_eq_nil.mp (ht i row hi)
  rw [rowFaults_eq_nil]
  cases row with
  | step bytes => exact hproper
  | stop => trivial
  | loop target =>
    obtain ⟨r, hr, hloop⟩ := hproper
    exact ⟨r, getElem?_mono (List.prefix_append ..) hr, hloop⟩

/-- **A table stays sound when a program is appended.** -/
theorem Table.Sound.append {t t' : Table} {program : List Row} {first : UInt8} (ht : t.Sound)
    (hprogram : IsProgram t.kind.width program) (h : t.append? program = some (first, t')) : t'.Sound := by
  obtain ⟨steps, last, rfl, hwidth, hends⟩ := hprogram
  have hproper : t.Proper := ht.2
  exact hproper.append hwidth hends h

/-- A table of nothing but a program is sound. -/
theorem IsProgram.sound {kind : TableKind} {rows : List Row} (h : IsProgram kind.width rows) (provenance : Provenance) :
    ({ kind, rows, provenance } : Table).Sound := by
  obtain ⟨steps, last, rfl, hwidth, hends⟩ := h
  exact sound_of_rows [] rfl nofun hwidth hends

end Chiptune.Song

namespace Chiptune.Analysis.Repetition

open Song

variable {α : Type}

/-! ## Programs of values -/

theorem exists_steps_spelled {width : Nat} {spell : List α → List Bytes} {d : Description} {values : List α}
    (hwidth : ∀ part ⊆ values, ∀ step ∈ spell part, step.length = width) (hne : ∀ part, part ≠ [] → spell part ≠ [])
    (hd : Describes d values) :
    ∃ (steps : List Bytes) (last : Row), spelled spell d values = steps.map .step ++ [last] ∧
      (∀ step ∈ steps, step.length = width) ∧ (steps.length < 256 → last.Ends 0 steps.length) := by
  unfold spelled
  dsimp only
  have hstart : values.take d.length ⊆ values := List.take_subset ..
  cases hloop : d.loop with
  | none => exact ⟨_, _, rfl, hwidth _ hstart, fun _ => trivial⟩
  | some target =>
    refine ⟨_, _, rfl, fun step hstep => ?_, fun hlength => ⟨Nat.zero_le _, ?_⟩⟩
    · rcases List.mem_append.mp hstep with h | h
      · exact hwidth _ (List.Subset.trans (List.take_subset ..) hstart) step h
      · exact hwidth _ (List.Subset.trans (List.drop_subset ..) hstart) step h
    · have hlt := (hd.looped target hloop).1
      have hle := hd.length_le
      have hafter : (values.take d.length).drop target ≠ [] := List.ne_nil_of_length_pos (by
        rw [List.length_drop, List.length_take]
        omega)
      have hpos := List.length_pos_of_ne_nil (hne _ hafter)
      rw [List.length_append] at hlength ⊢
      rw [UInt8.toNat_ofNat_of_lt' (by simp [UInt8.size]; omega)]
      omega

theorem isProgram_spelled {width : Nat} {spell : List α → List Bytes} {d : Description} {values : List α}
    (hwidth : ∀ part ⊆ values, ∀ step ∈ spell part, step.length = width) (hne : ∀ part, part ≠ [] → spell part ≠ [])
    (hd : Describes d values) (hlength : (spelled spell d values).length ≤ 256) :
    IsProgram width (spelled spell d values) := by
  obtain ⟨steps, last, h, hsteps, hends⟩ := exists_steps_spelled hwidth hne hd
  rw [h, List.length_append, List.length_map, List.length_singleton] at hlength
  exact ⟨steps, last, h, hsteps, hends (by omega)⟩

theorem width_map {width : Nat} {step : α → Bytes} {values : List α} (hwidth : ∀ v ∈ values, (step v).length = width) :
    ∀ part ⊆ values, ∀ s ∈ part.map step, s.length = width := by
  intro part hpart s hs
  obtain ⟨v, hv, rfl⟩ := List.mem_map.mp hs
  exact hwidth v (hpart hv)

variable [BEq α] [LawfulBEq α]

theorem isProgram_program {width : Nat} {step : α → Bytes} {values : List α}
    (hwidth : ∀ v ∈ values, (step v).length = width) (hlength : (program step values).length ≤ 256) :
    IsProgram width (program step values) := by
  rw [program_eq_spelled] at hlength ⊢
  exact isProgram_spelled (width_map hwidth) (fun part => by simp) (describes_collapse values) hlength

theorem runs_ne_nil {values : List α} (h : values ≠ []) : runs values ≠ [] := by
  intro hruns
  have hexpand := expand_runs values
  rw [hruns] at hexpand
  exact h hexpand.symm

theorem isProgram_heldProgram {width : Nat} {step : α → UInt8 → Bytes} (hwidth : ∀ v n, (step v n).length = width)
    {values : List α} (hlength : (heldProgram step values).length ≤ 256) :
    IsProgram width (heldProgram step values) := by
  rw [heldProgram_eq_spelled] at hlength ⊢
  refine isProgram_spelled (fun part _ s hs => ?_) (fun part hpart => ?_) (describes_collapse values) hlength
  · obtain ⟨run, -, rfl⟩ := List.mem_map.mp hs
    exact hwidth run.1 _
  · simpa using runs_ne_nil hpart

end Chiptune.Analysis.Repetition

namespace Chiptune.Analysis.Reconstruction

open Sound Song Repetition

/-! ## Tables -/

/-- The table of a library is a sound one of a kind. -/
structure Library.Valid (l : Library) (kind : TableKind) : Prop where
  kind : l.table.kind = kind
  sound : l.table.Sound

theorem Library.valid_empty (kind : TableKind) : (Library.empty kind).Valid kind := ⟨rfl, rfl, nofun⟩

theorem Library.Valid.start {l l' : Library} {kind : TableKind} {program : List Row} {first : UInt8} (hl : l.Valid kind)
    (hprogram : program.length ≤ 256 → IsProgram kind.width program) (h : l.start program = .ok (first, l')) :
    l'.Valid kind := by
  unfold Library.start at h
  split at h
  · cases h
    exact hl
  · obtain ⟨⟨start, table⟩, happend, h⟩ := bind_eq_ok.mp h
    cases h
    rw [Table.append_eq_ok] at happend
    obtain ⟨⟨-, hroom⟩, -⟩ := Table.append?_eq_some.mp happend
    have hlength : program.length ≤ 256 := Nat.le_trans (Nat.le_add_left ..) hroom
    have hkind : table.kind = l.table.kind := (Placed.of_append? happend).2.2.2
    exact ⟨hkind.trans hl.kind, hl.sound.append (hl.kind ▸ hprogram hlength) happend⟩

theorem isProgram_waveProgram (s : Shape) (h : (waveProgram s).length ≤ 256) :
    IsProgram TableKind.wave.width (waveProgram s) := by
  unfold waveProgram at h ⊢
  refine isProgram_program ?_ h
  exact fun _ _ => rfl

theorem isProgram_pulseProgram (widths : List (UInt8 × UInt8)) (h : (pulseProgram widths).length ≤ 256) :
    IsProgram TableKind.pulse.width (pulseProgram widths) := by
  unfold pulseProgram at h ⊢
  refine isProgram_heldProgram ?_ h
  exact fun _ _ => rfl

/-- The tables of instruments are sound, and no instrument starts a filter program. -/
structure Sounds.Valid (sounds : Sounds) : Prop where
  wave : sounds.wave.Valid .wave
  pulse : sounds.pulse.Valid .pulse
  filter : ∀ x ∈ sounds.instruments, x.filter = none

theorem Sounds.Valid.add {sounds sounds' : Sounds} {s : Shape} (hsounds : sounds.Valid)
    (h : sounds.add s = .ok sounds') : sounds'.Valid := by
  unfold Sounds.add at h
  obtain ⟨⟨start, wave⟩, hwave, h⟩ := bind_eq_ok.mp h
  have hwave := hsounds.wave.start (isProgram_waveProgram s) hwave
  have hfilter {i : Instrument} (hi : i.filter = none) : ∀ x ∈ sounds.instruments ++ [i], x.filter = none := by
    intro x hx
    rcases List.mem_append.mp hx with hx | hx
    · exact hsounds.filter x hx
    · rw [List.mem_singleton.mp hx, hi]
  dsimp only at h
  split at h
  · cases h
    exact ⟨hwave, hsounds.pulse, hfilter rfl⟩
  next widths hwidths =>
    obtain ⟨⟨start', pulse⟩, hpulse, h⟩ := bind_eq_ok.mp h
    cases h
    exact ⟨hwave, hsounds.pulse.start (isProgram_pulseProgram widths) hpulse, hfilter rfl⟩

theorem valid_of_instrumentsOf {shapes : List Shape} {sounds : Sounds} (h : instrumentsOf shapes = .ok sounds) :
    sounds.Valid :=
  foldlM_eq_ok (fun _ sounds => sounds.Valid) (fun _ _ _ _ hsounds h => hsounds.add h)
    ⟨Library.valid_empty .wave, Library.valid_empty .pulse, nofun⟩ h

/-- A filter program that is cut stops after the steps left. -/
theorem isProgram_filterProgram {t : Trace} {start : Nat} {rows : List Row} {j j' : Journal}
    (h : filterProgram t start j = .ok rows j') : IsProgram TableKind.filter.width rows := by
  have hwidth : ∀ v ∈ (t.snapshots.drop start).map filterValues, (id v : Bytes).length = TableKind.filter.width := by
    intro v hv
    obtain ⟨b, -, rfl⟩ := List.mem_map.mp hv
    rfl
  unfold filterProgram at h
  split at h
  next hlong =>
    obtain ⟨_, _, -, h⟩ := run_bind_eq_ok.mp h
    cases h
    obtain ⟨steps, last, hrows, hsteps, -⟩ :=
      exists_steps_spelled (width_map hwidth) (fun part => by simp) (describes_collapse _)
    rw [← program_eq_spelled] at hrows
    have hlength : maxFilterRows ≤ (steps.map Row.step).length := by
      rw [hrows, List.length_append, List.length_singleton] at hlong
      omega
    rw [hrows, List.take_append_of_le_length hlength, ← List.map_take]
    exact ⟨_, .stop, rfl, fun step hstep => hsteps step (List.mem_of_mem_take hstep), trivial⟩
  next hshort =>
    cases h
    have hrows : maxFilterRows = 127 := rfl
    exact isProgram_program hwidth (by omega)

/-! ## Phrases -/

/-- The event is sound, and a note is one that the chip plays. -/
def Event.Playable (instruments filterLength : Nat) (e : Event) : Prop :=
  e.Sound instruments filterLength ∧ ∀ p, e = .noteOn p → p.toNat ≤ Pitch.highest

/-- The row refers to instruments, filter rows and pitches that there are. -/
structure GridRow.Valid (instruments filterLength : Nat) (row : GridRow) : Prop where
  commands : ∀ c ∈ row.commands, commandFault? filterLength c = none
  note : ∀ pitch id, row.event = some (.note pitch id) → pitch.toNat ≤ Pitch.highest ∧ id.toNat < instruments

/-- The events of a phrase can be played, and the instrument in use is one that there is. -/
structure Phrase.Valid (instruments filterLength : Nat) (p : Phrase) : Prop where
  events : ∀ e ∈ p.events, Event.Playable instruments filterLength e
  instrument : ∀ id, p.instrument = some id → id.toNat < instruments

variable {instruments filterLength : Nat}

theorem playable_rests {rows : Nat} {e : Event} (h : e ∈ rests rows) : Event.Playable instruments filterLength e := by
  have hrest {n : UInt8} (hn : n ≠ 0) : Event.Playable instruments filterLength (.rest n) := ⟨hn, nofun⟩
  rcases List.mem_append.mp h with h | h
  · rw [List.eq_of_mem_replicate h]
    exact hrest (by decide)
  · split at h
    · cases h
    next hrows =>
      rw [List.mem_singleton.mp h]
      refine hrest fun hzero => hrows ?_
      have htoNat := congrArg UInt8.toNat hzero
      rw [UInt8.toNat_ofNat'] at htoNat
      simp only [UInt8.toNat_zero] at htoNat
      omega

namespace Phrase.Valid

variable {p : Phrase}

theorem closed (h : p.Valid instruments filterLength) :
    ∀ e ∈ p.closed, Event.Playable instruments filterLength e :=
  fun e he => (List.mem_append.mp he).elim (h.events e) playable_rests

theorem push (h : p.Valid instruments filterLength) {events : List Event}
    (hevents : ∀ e ∈ events, Event.Playable instruments filterLength e) :
    (p.push events).Valid instruments filterLength :=
  ⟨fun e he => (List.mem_append.mp he).elim (h.closed e) (hevents e), h.instrument⟩

theorem addRow (h : p.Valid instruments filterLength) {row : GridRow} (hrow : row.Valid instruments filterLength) :
    (p.addRow row).Valid instruments filterLength := by
  obtain ⟨commands, event⟩ := row
  have hcommands :
      (if commands.isEmpty then p else p.push (commands.map .setCommand)).Valid instruments filterLength := by
    split
    · exact h
    · refine h.push fun e he => ?_
      obtain ⟨c, hc, rfl⟩ := List.mem_map.mp he
      exact ⟨hrow.commands c hc, nofun⟩
  unfold Phrase.addRow
  generalize (if commands.isEmpty then p else p.push (commands.map .setCommand)) = p at hcommands
  cases event with
  | none => exact ⟨hcommands.events, hcommands.instrument⟩
  | some event =>
    cases event with
    | off => exact hcommands.push fun e he => by rw [List.mem_singleton.mp he]; exact ⟨trivial, nofun⟩
    | note pitch id =>
      obtain ⟨hpitch, hid⟩ := hrow.note pitch id rfl
      have hnote : Event.Playable instruments filterLength (.noteOn pitch) :=
        ⟨trivial, fun p hp => by cases hp; exact hpitch⟩
      dsimp only
      split
      · exact hcommands.push fun e he => by rw [List.mem_singleton.mp he]; exact hnote
      · refine ⟨(hcommands.push fun e he => ?_).events, fun id' hid' => by cases hid'; exact hid⟩
        simp only [List.mem_cons, List.not_mem_nil, or_false] at he
        rcases he with rfl | rfl
        · exact ⟨hid, nofun⟩
        · exact hnote

theorem ofRows {instrument : Option UInt8} (hinstrument : ∀ id, instrument = some id → id.toNat < instruments)
    {rows : List GridRow} (hrows : ∀ row ∈ rows, row.Valid instruments filterLength) :
    (Phrase.ofRows instrument rows).Valid instruments filterLength := by
  refine List.foldlRecOn rows Phrase.addRow ⟨fun e he => ?_, hinstrument⟩ fun _ h row hrow => h.addRow (hrows row hrow)
  obtain ⟨id, hid, rfl⟩ := List.mem_map.mp he
  exact ⟨hinstrument id (Option.mem_toList.mp hid), nofun⟩

end Phrase.Valid

/-! ## Scores -/

/-- All events can be played, and the entries are sound in every song whose sequences start with these. -/
structure Score.Valid (instruments filterLength : Nat) (s : Score) : Prop where
  events : ∀ q ∈ s.sequences, ∀ e ∈ q.events, e.Sound instruments filterLength
  entries : ∀ song : Song, s.sequences <+: song.sequences → song.sequences.length ≤ 256 → ∀ e ∈ s.entries, e.Sound song

namespace Score.Valid

variable {s : Score}

/-- A piece is played at the pitches it was written down for. -/
theorem sound_lowered {events : List Event} (hevents : ∀ e ∈ events, Event.Playable instruments filterLength e)
    {song : Song} {index : Nat} {q : Sequence} (hq : song.sequences[index]? = some q) (hindex : index < 256)
    (hlowered : q.events = events.map (lowered (lowestPitch events))) :
    (⟨(lowestPitch events).toInt8, UInt8.ofNat index⟩ : OrderEntry).Sound song := by
  have hpitch (p : UInt8) (hp : .noteOn p ∈ events) : p.toNat ≤ 95 := (hevents _ hp).2 p rfl
  have hlowest : (lowestPitch events).toNat ≤ 95 := by
    unfold lowestPitch
    split
    next p hp =>
      obtain ⟨e, he, hpitch'⟩ := List.mem_filterMap.mp (List.min?_mem hp)
      cases e with
      | noteOn pitch =>
        cases hpitch'
        exact hpitch p he
      | _ => cases hpitch'
    · decide
  have htranspose : (lowestPitch events).toInt8.toInt = (lowestPitch events).toNat := toInt_toInt8 (by omega)
  have hhighest : Pitch.highest = 95 := rfl
  refine ⟨?_, q, ?_, fun p hp => ?_⟩
  · show (lowestPitch events).toInt8.toInt.natAbs ≤ Pitch.highest
    omega
  · show song.sequences[(UInt8.ofNat index).toNat]? = some q
    rwa [UInt8.toNat_ofNat_of_lt' hindex]
  · obtain ⟨e', he', hp⟩ := List.mem_filterMap.mp hp
    rw [hlowered] at he'
    obtain ⟨e, he, rfl⟩ := List.mem_map.mp he'
    cases e with
    | noteOn pitch =>
      cases hp
      have hle := lowestPitch_le he
      have hsub := UInt8.toNat_sub_of_le _ _ hle
      have hle := UInt8.le_iff_toNat_le.mp hle
      have hpitch := hpitch pitch he
      simp only [inRange, sounding, htranspose, Bool.and_eq_true, decide_eq_true_eq]
      omega
    | _ => cases hp

theorem add (h : s.Valid instruments filterLength) {events : List Event}
    (hevents : ∀ e ∈ events, Event.Playable instruments filterLength e) :
    (s.add events).Valid instruments filterLength := by
  obtain ⟨hgrown, index, q, hq, hlowered, hentries⟩ := s.add_eq events
  refine ⟨fun q' hq' e he => ?_, fun song hsong hlength e he => ?_⟩
  · unfold Score.add at hq'
    dsimp only at hq'
    split at hq'
    · exact h.events q' hq' e he
    rcases List.mem_append.mp hq' with hq' | hq'
    · exact h.events q' hq' e he
    · rw [List.mem_singleton.mp hq'] at he
      obtain ⟨e, hmem, rfl⟩ := List.mem_map.mp he
      have hsound := (hevents e hmem).1
      cases e with
      | noteOn pitch => trivial
      | _ => exact hsound
  · have hindex := getElem?_mono hsong hq
    rw [hentries] at he
    rcases List.mem_append.mp he with he | he
    · exact h.entries song (hgrown.trans hsong) hlength e he
    · rw [List.mem_singleton.mp he]
      exact sound_lowered hevents hindex (Nat.lt_of_lt_of_le (List.getElem?_eq_some_iff.mp hindex).1 hlength) hlowered

theorem addPieces : ∀ (pieces : List (List GridRow)) {s : Score} {instrument : Option UInt8},
    s.Valid instruments filterLength → (∀ id, instrument = some id → id.toNat < instruments) →
      (∀ rows ∈ pieces, ∀ row ∈ rows, row.Valid instruments filterLength) →
      (s.addPieces instrument pieces).Valid instruments filterLength
  | [], _, _, h, _, _ => h
  | rows :: pieces, _, _, h, hinstrument, hpieces => by
    have hphrase := Phrase.Valid.ofRows hinstrument (hpieces rows (by simp))
    exact (h.add hphrase.closed).addPieces pieces hphrase.instrument fun rows hrows => hpieces rows (by simp [hrows])

end Score.Valid

/-- All voices so far stop, and are sound in every song whose sequences start with these. -/
structure VoicesValid (instruments filterLength : Nat) (score : List Sequence × List OrderList) : Prop where
  events : ∀ q ∈ score.1, ∀ e ∈ q.events, e.Sound instruments filterLength
  stops : ∀ l ∈ score.2, l.finish = .stop
  entries : ∀ song : Song, score.1 <+: song.sequences → song.sequences.length ≤ 256 →
    ∀ l ∈ score.2, ∀ e ∈ l.entries, e.Sound song

theorem prefix_addPieces : ∀ (pieces : List (List GridRow)) (s : Score) (instrument : Option UInt8),
    s.sequences <+: (s.addPieces instrument pieces).sequences
  | [], _, _ => List.prefix_refl _
  | rows :: pieces, s, instrument =>
    (s.add_eq (Phrase.ofRows instrument rows).closed).1.trans (prefix_addPieces pieces _ _)

theorem VoicesValid.addVoice (size : Nat) {score : List Sequence × List OrderList} {instrument : Option UInt8}
    {rows : List GridRow} (h : VoicesValid instruments filterLength score)
    (hinstrument : ∀ id, instrument = some id → id.toNat < instruments)
    (hrows : ∀ row ∈ rows, row.Valid instruments filterLength) :
    VoicesValid instruments filterLength (addVoice size score.1 score.2 instrument rows) := by
  have hstart : Score.Valid instruments filterLength { sequences := score.1 } := ⟨h.events, nofun⟩
  have hvoice := hstart.addPieces (pieces size rows) hinstrument fun piece hpiece row hrow =>
    hrows row (mem_pieces hpiece hrow)
  have hgrown := prefix_addPieces (pieces size rows) { sequences := score.1 } instrument
  refine ⟨hvoice.events, fun l hl => ?_, fun song hsong hlength l hl => ?_⟩
  · rcases List.mem_append.mp hl with hl | hl
    · exact h.stops l hl
    · rw [List.mem_singleton.mp hl]
  · rcases List.mem_append.mp hl with hl | hl
    · exact h.entries song (hgrown.trans hsong) hlength l hl
    · rw [List.mem_singleton.mp hl]
      exact hvoice.entries song hsong hlength

theorem VoicesValid.addVoices {ι : Type} (size : Nat) {instrument : ι → Option UInt8} {rows : ι → List GridRow}
    (hinstrument : ∀ i id, instrument i = some id → id.toNat < instruments)
    (hrows : ∀ i, ∀ row ∈ rows i, row.Valid instruments filterLength) :
    ∀ (voices : List ι) {score : List Sequence × List OrderList}, VoicesValid instruments filterLength score →
      VoicesValid instruments filterLength (addVoices size instrument rows voices score) ∧
        (addVoices size instrument rows voices score).2.length = score.2.length + voices.length
  | [], _, h => ⟨h, rfl⟩
  | i :: voices, score, h => by
    obtain ⟨hvalid, hlength⟩ := addVoices size hinstrument hrows voices (h.addVoice size (hinstrument i) (hrows i))
    refine ⟨hvalid, hlength.trans ?_⟩
    rw [Reconstruction.addVoice, List.length_append, List.length_singleton, List.length_cons]
    omega

end Chiptune.Analysis.Reconstruction

namespace Chiptune.Analysis

open Sound Song Reconstruction

variable {t : Trace} {sounds : Sounds} {filter : List Table}
  {commands : List (Nat × Command)}

/-! ## Songs -/

theorem Filtering.sound {frames : Nat} (h : Filtering t frames filter commands) :
    ∀ table ∈ filter, table.Sound := by
  cases h with
  | unused => exact nofun
  | used hprogram =>
    intro table htable
    rw [List.mem_singleton.mp htable]
    exact (isProgram_filterProgram hprogram).sound .dynamic

theorem distinct_assembled (options : AnalysisOptions) {frames : Nat} (hsounds : sounds.Valid)
    (hfilter : Filtering t frames filter commands) :
    Distinct (assembled t options sounds filter commands).tables := by
  have hperm := List.mergeSort_perm
    (([sounds.wave.table, sounds.pulse.table].filter fun t => !t.rows.isEmpty) ++ filter)
    fun a b => decide (a.kind.rank ≤ b.kind.rank)
  refine (hperm.pairwise_iff fun h => h.symm).mpr ?_
  have hall : Distinct ([sounds.wave.table, sounds.pulse.table] ++ filter) := by
    cases hfilter <;> simp [Distinct, hsounds.wave.kind, hsounds.pulse.kind]
  exact hall.sublist (List.filter_sublist.append_right filter)

theorem sound_assembled (options : AnalysisOptions) {frames : Nat} (hsounds : sounds.Valid)
    (hfilter : Filtering t frames filter commands) :
    ∀ table ∈ (assembled t options sounds filter commands).tables, table.Sound := by
  intro table htable
  rcases List.mem_append.mp (List.mem_mergeSort.mp htable) with htable | htable
  · have htable := (List.mem_filter.mp htable).1
    simp only [List.mem_cons, List.not_mem_nil, or_false] at htable
    rcases htable with rfl | rfl
    · exact hsounds.wave.sound
    · exact hsounds.pulse.sound
  · exact hfilter.sound table htable

/-- The length of a table that the song has. -/
theorem tableLength_assembled (options : AnalysisOptions) {frames : Nat} (hsounds : sounds.Valid)
    (hfilter : Filtering t frames filter commands)
    {table : Table} (htable : table ∈ (assembled t options sounds filter commands).tables) :
    (assembled t options sounds filter commands).tableLength table.kind = table.rows.length := by
  have hdistinct : (assembled t options sounds filter commands).tables.Pairwise fun t u => t.kind ≠ u.kind :=
    distinct_assembled options hsounds hfilter
  have hfind := find?_of_pairwise hdistinct htable
  rw [Song.tableLength, Song.table?, hfind]

/-- The commands start programs that there are. -/
theorem commandFault?_assembled (options : AnalysisOptions) {frames : Nat} (hsounds : sounds.Valid)
    (hfilter : Filtering t frames filter commands) :
    ∀ c ∈ commands, commandFault? ((assembled t options sounds filter commands).tableLength .filter) c.2 = none := by
  cases hfilter with
  | unused => exact nofun
  | used hprogram =>
    intro c hc
    have htable := tableLength_assembled options hsounds (.used hprogram)
      (List.mem_mergeSort.mpr (List.mem_append_right _ (List.mem_singleton_self _)))
    rw [List.mem_singleton.mp hc, commandFault?, htable]
    exact if_pos (List.length_pos_of_ne_nil (isProgram_filterProgram hprogram).ne_nil)

theorem starts_assembled (options : AnalysisOptions) {frames : Nat}
    (hinstruments : instrumentsOf (assignmentOf t).shapes = .ok sounds) (hfilter : Filtering t frames filter commands) :
    ∀ x ∈ sounds.instruments, ∀ kind row, x.start? kind = some row →
      row.toNat < (assembled t options sounds filter commands).tableLength kind := by
  have hsounds := valid_of_instrumentsOf hinstruments
  have hlength {table : Table} {program : List Row} {row : UInt8} (hne : program ≠ [])
      (htable : table = sounds.wave.table ∨ table = sounds.pulse.table)
      (hplaced : Placed table.rows row.toNat program) :
      row.toNat < (assembled t options sounds filter commands).tableLength table.kind := by
    have hrows := hplaced.ne_nil hne
    rw [tableLength_assembled options hsounds hfilter]
    · exact hplaced.lt_length hne
    · refine List.mem_mergeSort.mpr (List.mem_append_left _ (List.mem_filter.mpr ⟨?_, by simpa using hrows⟩))
      rcases htable with rfl | rfl <;> simp
  intro x hx kind row hrow
  obtain ⟨s, -, hplays⟩ := exists_of_mem_right (instrumentsOf_of hinstruments).instruments hx
  cases kind with
  | wave =>
    cases hrow
    rw [← hsounds.wave.kind]
    exact hlength (Repetition.program_ne_nil _ _) (.inl rfl) hplays.wave
  | pulse =>
    have hpulse := hplays.pulse
    rw [show x.pulse = some row from hrow] at hpulse
    cases hwidths : s.pulse with
    | none =>
      rw [hwidths] at hpulse
      cases hpulse
    | some widths =>
      rw [hwidths] at hpulse
      cases hpulse with
      | some hplaced =>
        rw [← hsounds.pulse.kind]
        exact hlength (Repetition.heldProgram_ne_nil _ _) (.inr rfl) hplaced
  | filter =>
    have hnone : x.filter = some row := hrow
    rw [hsounds.filter x hx] at hnone
    cases hnone
  | arpeggio => cases hrow

/-- The number of a note's instrument is a byte. -/
theorem toNat_instrument {v : Voice} {n : Assigned} (hshapes : (assignmentOf t).shapes.length ≤ 255)
    (hn : n ∈ notesOf t v) : (UInt8.ofNat n.instrument).toNat < (assignmentOf t).shapes.length := by
  have hlt := instrument_lt hn
  rwa [UInt8.toNat_ofNat_of_lt' (show n.instrument < 256 by omega)]

theorem valid_rowsOf {options : AnalysisOptions} {filterLength : Nat} (hshapes : (assignmentOf t).shapes.length ≤ 255)
    (hcommands : ∀ c ∈ commands, commandFault? filterLength c.2 = none) (v : Voice) :
    ∀ row ∈ rowsOf t options commands v, row.Valid (assignmentOf t).shapes.length filterLength := by
  intro row hrow
  obtain ⟨r, -, rfl⟩ := List.mem_map.mp hrow
  constructor
  · intro c hc
    obtain ⟨numbered, hmem, rfl⟩ := List.mem_map.mp hc
    have hmem := List.mem_of_mem_filter hmem
    split at hmem
    · exact hcommands numbered hmem
    · cases hmem
  · intro pitch id hevent
    obtain ⟨n, hn, rfl, rfl⟩ := note_of_rowEvent? hevent
    rw [(heard_of_mem_notesOf hn).pitch]
    exact ⟨pitchAt_le t v _, toNat_instrument hshapes hn⟩

/-- **A song rebuilt from a trace has nothing wrong with it.** -/
theorem wellFormed_of_reconstruct {t : Trace} {options : AnalysisOptions} {song : Song} {j j' : Journal}
    (h : reconstruct t options j = .ok song j') : song.WellFormed := by
  obtain ⟨sounds, filter, commands, rfl, hinstruments, hshapes, hsequences, hfilter⟩ := reconstruct_eq_ok h
  have hsounds := valid_of_instrumentsOf hinstruments
  have hcount : sounds.instruments.length = (assignmentOf t).shapes.length :=
    (instrumentsOf_of hinstruments).instruments.length_eq.symm
  have hhead (v : Voice) (id : UInt8)
      (hid : ((notesOf t v).head?.map fun n => UInt8.ofNat n.instrument) = some id) :
      id.toNat < (assignmentOf t).shapes.length := by
    obtain ⟨n, hn, rfl⟩ := Option.map_eq_some_iff.mp hid
    exact toNat_instrument hshapes (List.mem_of_mem_head? hn)
  have hnone : VoicesValid (assignmentOf t).shapes.length
      ((assembled t options sounds filter commands).tableLength .filter) ([], []) := ⟨nofun, nofun, nofun⟩
  obtain ⟨hvoices, hlists⟩ : VoicesValid (assignmentOf t).shapes.length
      ((assembled t options sounds filter commands).tableLength .filter) (voicesOf t options commands) ∧
        (voicesOf t options commands).2.length = _ :=
    hnone.addVoices _ hhead (valid_rowsOf hshapes (commandFault?_assembled options hsounds hfilter)) _
  refine wellFormed_iff_consistent.mpr ⟨?_, fun l hl target hloop => ?_⟩
  · exact
      { tempo := fun hzero => absurd (congrArg UInt8.toNat hzero) (Nat.ne_of_gt (tempoOf_pos t options))
        voices := hlists
        distinct := distinct_assembled options hsounds hfilter
        tables := sound_assembled options hsounds hfilter
        starts := starts_assembled options hinstruments hfilter
        events := fun q hq e he => by
          have hsound := hvoices.events q hq e he
          rwa [← hcount] at hsound
        entries := hvoices.entries _ (List.prefix_refl _) (Nat.le_trans hsequences (by omega))
        loops := fun l hl target hloop => nomatch (hvoices.stops l hl).symm.trans hloop }
  · exact nomatch (hvoices.stops l hl).symm.trans hloop

theorem wellFormed_of_reconstruct_duet : ∃ song j, reconstruct duet {} {} = .ok song j ∧ song.WellFormed := by
  have h := reconstruct_duet
  split at h
  next song j hsong => exact ⟨song, j, hsong, wellFormed_of_reconstruct hsong⟩
  · cases h

end Chiptune.Analysis
