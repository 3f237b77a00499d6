/-
The rows of a voice are played as they are, however they are written down.

A phrase plays the rows it is made of (`Phrase.Plays`), lowering it and
transposing it back cancel out, and a sequence that is there already stands
for every phrase with the same lowered events. Sequences are only ever added
at the end, so what an entry plays stays the same (`Score.Plays`).
-/
import Chiptune.Analysis.Reconstruction
import Chiptune.Proofs.Song.Flatten

namespace Chiptune.Analysis.Reconstruction

open Song

/-- How a row of a voice is played. -/
def GridRow.played (row : GridRow) : VoiceRow :=
  match row.event with
  | some (.note pitch id) => .note pitch.toNat (some id.toNat)
  | some .off => .off
  | none => .rest

/-! ## Phrases -/

theorem played_replicate_rest (transpose : Int) (selected : Option Nat) (n : UInt8) : ∀ count : Nat,
    played transpose selected (List.replicate count (.rest n)) = List.replicate (count * n.toNat) .rest
  | 0 => by simp [played]
  | count + 1 => by
    rw [List.replicate_succ, played, played_replicate_rest transpose selected n count,
      List.replicate_append_replicate, Nat.succ_mul, Nat.add_comm]

theorem selectedAfter_replicate_rest (selected : Option Nat) (n : UInt8) : ∀ count : Nat,
    selectedAfter selected (List.replicate count (.rest n)) = selected
  | 0 => rfl
  | count + 1 => selectedAfter_replicate_rest selected n count

theorem played_rests (transpose : Int) (selected : Option Nat) (rows : Nat) :
    played transpose selected (rests rows) = List.replicate rows .rest := by
  rw [rests, played_append, played_replicate_rest, selectedAfter_replicate_rest]
  have h255 : (255 : UInt8).toNat = 255 := rfl
  split
  next h =>
    rw [played, List.append_nil, h255]
    congr 1
    omega
  next h =>
    have hlast : (UInt8.ofNat (rows % 255)).toNat = rows % 255 := by
      rw [UInt8.toNat_ofNat']
      omega
    rw [played, played, List.append_nil, List.replicate_append_replicate, hlast, h255]
    congr 1
    omega

theorem selectedAfter_rests (selected : Option Nat) (rows : Nat) : selectedAfter selected (rests rows) = selected := by
  rw [rests, selectedAfter_append, selectedAfter_replicate_rest]
  split <;> rfl

namespace Phrase

/-- The phrase plays rows when it starts with an instrument in use, and knows which one is in use
after them. -/
structure Plays (selected : Option Nat) (p : Phrase) (rows : List VoiceRow) : Prop where
  rows : played 0 selected p.closed = rows
  instrument : selectedAfter selected p.closed = p.instrument.map (·.toNat)

variable {selected : Option Nat} {p : Phrase} {rows : List VoiceRow}

theorem closed_push (p : Phrase) (events : List Event) : (p.push events).closed = p.closed ++ events := by
  show p.closed ++ events ++ rests 0 = _
  rw [show rests 0 = [] from rfl, List.append_nil]

theorem Plays.push {events : List Event} {added : List VoiceRow} {instrument : Option UInt8}
    (h : p.Plays selected rows) (hrows : played 0 (p.instrument.map (·.toNat)) events = added)
    (hinstrument : selectedAfter (p.instrument.map (·.toNat)) events = instrument.map (·.toNat)) :
    ({ p.push events with instrument } : Phrase).Plays selected (rows ++ added) := by
  have hclosed : ({ p.push events with instrument } : Phrase).closed = p.closed ++ events := closed_push p events
  constructor
  · rw [hclosed, played_append, h.rows, h.instrument, hrows]
  · rw [hclosed, selectedAfter_append, h.instrument, hinstrument]

theorem Plays.rest (h : p.Plays selected rows) :
    ({ p with resting := p.resting + 1 } : Phrase).Plays selected (rows ++ [.rest]) := by
  have hrows := h.rows
  have hinstrument := h.instrument
  rw [closed, played_append, played_rests] at hrows
  rw [closed, selectedAfter_append, selectedAfter_rests] at hinstrument
  constructor
  · rw [closed, played_append, played_rests, List.replicate_succ', ← List.append_assoc, hrows]
  · rw [closed, selectedAfter_append, selectedAfter_rests, hinstrument]

/-- A row that is added is played last. -/
theorem Plays.addRow (h : p.Plays selected rows) (row : GridRow) :
    (p.addRow row).Plays selected (rows ++ [row.played]) := by
  obtain ⟨commands, event⟩ := row
  have hcommands : (if commands.isEmpty then p else p.push (commands.map .setCommand)).Plays selected rows := by
    split
    · exact h
    · have hpush := h.push (played_commands commands) (selectedAfter_commands commands)
      rwa [List.append_nil] at hpush
  unfold Phrase.addRow GridRow.played
  generalize (if commands.isEmpty then p else p.push (commands.map .setCommand)) = p at hcommands
  cases event with
  | none => exact hcommands.rest
  | some event =>
    cases event with
    | note pitch id =>
      dsimp only
      split
      next hid => exact hcommands.push (by simp [hid, Song.played]) rfl
      · exact hcommands.push (by simp [Song.played]) rfl
    | off => exact hcommands.push rfl rfl

theorem Plays.addRows : ∀ {p : Phrase} {played : List VoiceRow} (rows : List GridRow), p.Plays selected played →
    (rows.foldl Phrase.addRow p).Plays selected (played ++ rows.map (·.played))
  | _, _, [], h => by simpa using h
  | _, _, row :: rows, h => by
    have hrows := (h.addRow row).addRows rows
    rwa [List.append_assoc, List.singleton_append, ← List.map_cons] at hrows

/-- **A phrase plays its rows.** It selects the instrument in use itself, so it does so after any
phrase, and also where no instrument was selected before. -/
theorem plays_ofRows {instrument : Option UInt8} (h : selected = none ∨ selected = instrument.map (·.toNat))
    (rows : List GridRow) : (ofRows instrument rows).Plays selected (rows.map (·.played)) := by
  have hstart : ({ events := instrument.toList.map .setInstrument, instrument } : Phrase).Plays selected [] := by
    have hclosed : ({ events := instrument.toList.map .setInstrument, instrument } : Phrase).closed =
        instrument.toList.map .setInstrument := by simp [closed, rests]
    cases instrument with
    | none => exact ⟨by rw [hclosed]; rfl, by rw [hclosed]; simpa [selectedAfter] using h⟩
    | some id => exact ⟨by rw [hclosed]; rfl, by rw [hclosed]; rfl⟩
  exact hstart.addRows rows

end Phrase

/-! ## Lowering -/

theorem toInt_toInt8 {base : UInt8} (h : base.toNat < 128) : base.toInt8.toInt = base.toNat := by
  have hall : ∀ n : Fin 128, (UInt8.ofNat n).toInt8.toInt = n.val := by decide +kernel
  simpa using hall ⟨base.toNat, h⟩

theorem lowestPitch_le {events : List Event} {pitch : UInt8} (h : .noteOn pitch ∈ events) :
    lowestPitch events ≤ pitch := by
  have hmem : pitch ∈ events.filterMap Event.pitch? := List.mem_filterMap.mpr ⟨_, h, rfl⟩
  unfold lowestPitch
  split
  next p hp => exact (List.min?_eq_some_iff.mp hp).2 pitch hmem
  next hp =>
    rw [List.min?_eq_none_iff] at hp
    rw [hp] at hmem
    cases hmem

theorem lowestPitch_lt {events : List Event} (h : ∀ pitch, .noteOn pitch ∈ events → pitch.toNat < 128) :
    (lowestPitch events).toNat < 128 := by
  unfold lowestPitch
  split
  next p hp =>
    obtain ⟨e, he, hpitch⟩ := List.mem_filterMap.mp (List.min?_mem hp)
    cases e with
    | noteOn pitch =>
      cases hpitch
      exact h p he
    | _ => cases hpitch
  · decide

/-- Events that are lowered and transposed back play the same rows. -/
theorem played_lowered {base : UInt8} (hbase : base.toNat < 128) : ∀ {events : List Event} (selected : Option Nat),
    (∀ pitch, .noteOn pitch ∈ events → base ≤ pitch) →
      played base.toInt8.toInt selected (events.map (lowered base)) = played 0 selected events
  | [], _, _ => rfl
  | e :: events, selected, h => by
    have hevents := fun selected => @played_lowered base hbase events selected
      fun pitch hpitch => h pitch (by simp [hpitch])
    cases e with
    | noteOn pitch =>
      have hle := UInt8.le_iff_toNat_le.mp (h pitch (by simp))
      have hpitch : ((pitch - base).toNat : Int) + base.toInt8.toInt = pitch.toNat + 0 := by
        rw [toInt_toInt8 hbase, UInt8.toNat_sub_of_le _ _ (h pitch (by simp))]
        omega
      rw [List.map_cons, lowered, played, played, hpitch, hevents]
    | _ => simp only [List.map_cons, lowered, played, hevents]

theorem selectedAfter_lowered (base : UInt8) : ∀ (events : List Event) (selected : Option Nat),
    selectedAfter selected (events.map (lowered base)) = selectedAfter selected events
  | [], _ => rfl
  | e :: events, selected => by
    cases e <;> exact selectedAfter_lowered base events _

/-! ## Scores -/

namespace Score

/-- Adding events adds an entry for a sequence with them, lowered, and keeps all sequences. -/
theorem add_eq (s : Score) (events : List Event) :
    s.sequences <+: (s.add events).sequences ∧ ∃ index q, (s.add events).sequences[index]? = some q ∧
      q.events = events.map (lowered (lowestPitch events)) ∧
      (s.add events).entries = s.entries ++ [⟨(lowestPitch events).toInt8, UInt8.ofNat index⟩] := by
  unfold Score.add
  dsimp only
  split
  next index hindex =>
    obtain ⟨hlt, hevents, -⟩ := List.findIdx?_eq_some_iff_getElem.mp hindex
    exact ⟨List.prefix_refl _, index, _, List.getElem?_eq_getElem hlt, by simpa using hevents, rfl⟩
  · refine ⟨List.prefix_append .., s.sequences.length,
      { events := events.map (lowered (lowestPitch events)), provenance := .dynamic }, ?_, rfl, rfl⟩
    simp

/-- All notes of the rows can be transposed. -/
def Low (rows : List GridRow) : Prop :=
  ∀ row ∈ rows, ∀ pitch id, row.event = some (.note pitch id) → pitch.toNat < 128

theorem noteOn_lt {selected : Option Nat} {p : Phrase} {rows : List GridRow} (hrows : Low rows)
    (h : p.Plays selected (rows.map (·.played))) {pitch : UInt8} (hpitch : .noteOn pitch ∈ p.closed) :
    pitch.toNat < 128 := by
  obtain ⟨instrument, hmem⟩ := @note_mem_played 0 pitch p.closed selected hpitch
  rw [h.rows] at hmem
  obtain ⟨row, hrow, hplayed⟩ := List.mem_map.mp hmem
  unfold GridRow.played at hplayed
  split at hplayed
  next pitch' id hevent =>
    have hlt := hrows row hrow pitch' id hevent
    rw [VoiceRow.note.injEq] at hplayed
    omega
  · cases hplayed
  · cases hplayed

/-- **Pieces of a voice are played in order.** -/
theorem addPieces_plays : ∀ {pieces : List (List GridRow)} {s : Score} {instrument : Option UInt8}
    {selected : Option Nat}, selected = none ∨ selected = instrument.map (·.toNat) →
      (∀ rows ∈ pieces, Low rows) → (s.addPieces instrument pieces).sequences.length ≤ 256 →
      s.sequences <+: (s.addPieces instrument pieces).sequences ∧
        ∃ added, (s.addPieces instrument pieces).entries = s.entries ++ added ∧
          voiceRows? (s.addPieces instrument pieces).sequences selected added =
            some (pieces.flatten.map (·.played))
  | [], s, _, _, _, _, _ => ⟨List.prefix_refl _, [], (List.append_nil _).symm, rfl⟩
  | rows :: pieces, s, instrument, selected, hselected, hlow, hlength => by
    have hplays := Phrase.plays_ofRows hselected rows
    have hnotes : ∀ pitch, .noteOn pitch ∈ (Phrase.ofRows instrument rows).closed → pitch.toNat < 128 :=
      fun pitch hpitch => noteOn_lt (hlow rows (by simp)) hplays hpitch
    obtain ⟨hgrown, index, q, hq, hevents, hentries⟩ := s.add_eq (Phrase.ofRows instrument rows).closed
    obtain ⟨hgrown', added, hadded, hrows⟩ := @addPieces_plays pieces
      (s.add (Phrase.ofRows instrument rows).closed) (Phrase.ofRows instrument rows).instrument _ (.inr rfl)
      (fun rows hrows => hlow rows (by simp [hrows])) hlength
    refine ⟨hgrown.trans hgrown',
      ⟨(lowestPitch (Phrase.ofRows instrument rows).closed).toInt8, UInt8.ofNat index⟩ :: added, ?_, ?_⟩
    · rw [addPieces, hadded, hentries, List.append_assoc, List.singleton_append]
    · have hq' : (s.addPieces instrument (rows :: pieces)).sequences[index]? = some q :=
        getElem?_mono hgrown' hq
      have hindex : index < 256 := Nat.lt_of_lt_of_le (List.getElem?_eq_some_iff.mp hq').1 hlength
      have hafter : selectedAfter selected q.events = (Phrase.ofRows instrument rows).instrument.map (·.toNat) := by
        rw [hevents, selectedAfter_lowered, hplays.instrument]
      have hphrase : played (lowestPitch (Phrase.ofRows instrument rows).closed).toInt8.toInt selected q.events =
          rows.map (·.played) := by
        rw [hevents, played_lowered (lowestPitch_lt hnotes) selected fun _ h => lowestPitch_le h, hplays.rows]
      rw [voiceRows?_cons hq' hindex (by rw [hafter]; exact hrows), hphrase, List.flatten_cons, List.map_append]

end Score

/-! ## Voices -/

theorem flatten_pieces {α : Type} {size : Nat} (hsize : 0 < size) (xs : List α) : (pieces size xs).flatten = xs := by
  have htake : ∀ n, ((List.range n).map fun i => (xs.drop (i * size)).take size).flatten = xs.take (n * size) := by
    intro n
    induction n with
    | zero => simp
    | succ n ih =>
      rw [List.range_succ, List.map_append, List.flatten_append, ih, List.map_singleton,
        List.flatten_singleton, Nat.succ_mul, List.take_add]
  rw [pieces, htake, List.take_of_length_le]
  have hdiv := Nat.div_add_mod (xs.length + size - 1) size
  have hmod := Nat.mod_lt (xs.length + size - 1) hsize
  rw [Nat.mul_comm] at hdiv
  omega

theorem mem_pieces {α : Type} {size : Nat} {xs piece : List α} (h : piece ∈ pieces size xs) {x : α}
    (hx : x ∈ piece) : x ∈ xs := by
  obtain ⟨i, -, rfl⟩ := List.mem_map.mp h
  exact List.mem_of_mem_drop (List.mem_of_mem_take hx)

/-- The sequences and order lists with those of more voices. -/
def addVoices {ι : Type} (size : Nat) (instrument : ι → Option UInt8) (rows : ι → List GridRow) (voices : List ι)
    (score : List Sequence × List OrderList) : List Sequence × List OrderList :=
  voices.foldl (fun (sequences, lists) i => addVoice size sequences lists (instrument i) (rows i)) score

/-- **Every voice plays its own rows**, also after sequences of later voices are added. -/
theorem addVoices_plays {ι : Type} {size : Nat} (hsize : 0 < size) {instrument : ι → Option UInt8}
    {rows : ι → List GridRow} (hlow : ∀ i, Score.Low (rows i)) : ∀ {voices : List ι}
    {score final : List Sequence × List OrderList}, addVoices size instrument rows voices score = final →
      final.1.length ≤ 256 → score.1 <+: final.1 ∧ ∃ added, final.2 = score.2 ++ added ∧
        List.Forall₂ (fun i l => voiceRows? final.1 none l.entries = some ((rows i).map (·.played))) voices added
  | [], score, final, h, _ => by
    cases h
    exact ⟨List.prefix_refl _, [], (List.append_nil _).symm, .nil⟩
  | i :: voices, score, final, h, hlength => by
    have hrest : addVoices size instrument rows voices
        (addVoice size score.1 score.2 (instrument i) (rows i)) = final := h
    obtain ⟨hlater, added, hadded, hplays⟩ := addVoices_plays hsize hlow hrest hlength
    have hfirst := @Score.addPieces_plays (pieces size (rows i)) { sequences := score.1 } (instrument i) none
      (.inl rfl) (fun piece hpiece row hrow => hlow i row (mem_pieces hpiece hrow))
      (Nat.le_trans hlater.length_le hlength)
    obtain ⟨hgrown, entries, hentries, hrows⟩ := hfirst
    rw [flatten_pieces hsize] at hrows
    have hentries : (Score.addPieces { sequences := score.1 } (instrument i) (pieces size (rows i))).entries =
      entries := hentries
    refine ⟨hgrown.trans hlater, { entries } :: added, ?_, .cons (voiceRows?_mono hlater hrows) hplays⟩
    rw [hadded, ← hentries]
    simp [addVoice]

end Chiptune.Analysis.Reconstruction
