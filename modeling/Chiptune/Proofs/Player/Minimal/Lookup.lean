/-
Where the minimal player looks its frequencies up.

A song without faults keeps every transposed note among the pitches. The offset
that a wave program adds to the note is not looked at, so that what is looked up
is a pitch exactly when note and offset make one (`lookup_le_highest`). Whatever
is played, every voice has its note from its order list and its offset from a
program that it can be in (`Part.Sourced`).
-/
import Chiptune.Proofs.Player.Minimal.Endless
import Chiptune.Proofs.Player.Minimal.Encoded

namespace Chiptune.Player.Minimal

open Song Sound

variable {song : Song} {r : Rendition} {v : Voice}

/-! ## What there is to look up -/

/-- The rows that a program comes to from the row where it starts. -/
inductive Visits (rows : List Row) (start : UInt8) : UInt8 → Prop
  | start : Visits rows start start
  | loop {row target : UInt8} (h : Visits rows start row) (hrow : rows[row.toNat]? = some (.loop target)) :
    Visits rows start target
  | step {row : UInt8} {bytes : Bytes} (h : Visits rows start row) (hrow : rows[row.toNat]? = some (.step bytes)) :
    Visits rows start (row + 1)

/-- A row where a wave program starts: that of an instrument, or the first one of the table, where a voice
is before it has struck an instrument. -/
def StartsWave (song : Song) (start : UInt8) : Prop := start = 0 ∨ ∃ i ∈ song.instruments, i.wave = start

/-- A step that a wave program comes to. -/
def WaveStep (song : Song) (bytes : Bytes) : Prop :=
  ∃ start row, StartsWave song start ∧ Visits (programRows song .wave) start row ∧
    (programRows song .wave)[row.toNat]? = some (.step bytes)

/-- A note of a sequence that a voice plays under a transposition. -/
def PlaysNote (song : Song) (v : Voice) (transpose : Int8) (pitch : UInt8) : Prop :=
  ∃ e ∈ (orderListOf song v).entries, e.transpose = transpose ∧ Event.noteOn pitch ∈ eventsOf song e.sequence

/-! ## What is in the table -/

/-- A signed byte in two's complement. -/
theorem toInt_eq_ite (x : Int8) :
    x.toInt = if x.toUInt8.toNat < 128 then (x.toUInt8.toNat : Int) else x.toUInt8.toNat - 256 := by
  have h : x.toInt = if 2 * x.toUInt8.toNat < 256 then (x.toUInt8.toNat : Int) else x.toUInt8.toNat - 256 :=
    BitVec.toInt_eq_toNat_cond x.toBitVec
  rw [h]
  split <;> split <;> omega

theorem inRange_eq_true {pitch : Int} : inRange pitch = true ↔ 0 ≤ pitch ∧ pitch ≤ 95 := by
  rw [inRange, Bool.and_eq_true, decide_eq_true_iff, decide_eq_true_iff]
  rfl

/-- A note that stays among the pitches is transposed without wrapping round. -/
theorem toNat_add_transpose {pitch : UInt8} {transpose : Int8} (h : inRange (sounding transpose pitch) = true) :
    ((pitch + transpose.toUInt8).toNat : Int) = sounding transpose pitch := by
  have hlt := transpose.toUInt8.toNat_lt
  rw [inRange_eq_true, sounding, toInt_eq_ite] at h
  rw [sounding, toInt_eq_ite, UInt8.toNat_add]
  split at h <;> omega

/-- The sum of a pitch and an offset is a pitch exactly when it is one with the offset signed. -/
theorem add_le_highest_iff {note offset : UInt8} (h : note.toNat ≤ Pitch.highest) :
    (note + offset).toNat ≤ Pitch.highest ↔ inRange (note.toNat + offset.toInt8.toInt) = true := by
  have hhighest : Pitch.highest = 95 := rfl
  have hsame : offset.toInt8.toUInt8 = offset := rfl
  have hlt := offset.toNat_lt
  rw [inRange_eq_true, toInt_eq_ite, hsame, UInt8.toNat_add]
  split <;> omega

/-- Every note that a song without faults plays is a pitch when it is transposed. -/
theorem PlaysNote.inRange (h : song.WellFormed) {transpose : Int8} {pitch : UInt8} (hnote : PlaysNote song v transpose pitch) :
    inRange (sounding transpose pitch) = true := by
  obtain ⟨e, he, rfl, hon⟩ := hnote
  obtain ⟨-, q, hq, hpitches⟩ := (wellFormed_iff_consistent.mp h).1.entries _ (orderListOf_mem h v) e he
  rw [eventsOf, hq] at hon
  exact hpitches pitch (List.mem_filterMap.mpr ⟨_, hon, rfl⟩)

/-- A wave step is a control value and an offset. -/
theorem WaveStep.eq_pair (h : song.WellFormed) {bytes : Bytes} (hstep : WaveStep song bytes) :
    ∃ control offset, bytes = [control, offset] := by
  obtain ⟨-, row, -, -, hrow⟩ := hstep
  have hlength : bytes.length = TableKind.wave.width := by
    unfold programRows at hrow
    cases htable : song.table? .wave with
    | none => simp [htable] at hrow
    | some t =>
      obtain ⟨hkind, hmem⟩ := mem_of_table? htable
      rw [htable] at hrow
      exact hkind ▸ h.step_length hmem (List.mem_of_getElem? hrow)
  exact List.length_eq_two.mp hlength

/-! ## Where a voice has its note and its offset from -/

/-- A voice plays what its order list says, from rows that wave programs come to. -/
structure Part.Sourced (song : Song) (v : Voice) (p : Part) : Prop where
  events : ∀ pitch, Event.noteOn pitch ∈ p.events → PlaysNote song v p.transpose pitch
  note : p.active = true → ∃ transpose pitch, PlaysNote song v transpose pitch ∧ p.note = pitch + transpose.toUInt8
  wave : ∃ start, StartsWave song start ∧ Visits (programRows song .wave) start p.wave
  offset : p.offset = 0 ∨ ∃ bytes, WaveStep song bytes ∧ p.offset = bytes[1]?.getD 0

theorem visits_reached {rows : List Row} {start row : UInt8} (h : Visits rows start row) :
    Visits rows start (reached rows row).1 := by
  unfold reached
  split
  next target hrow =>
    cases hat : rows[row.toNat]? with
    | none => simp [hat] at hrow
    | some found =>
      obtain rfl : found = .loop target := by simpa [hat] using hrow
      exact h.loop hat
  · exact h

theorem getElem?_reached {rows : List Row} {row : UInt8} {bytes : Bytes} (h : (reached rows row).2 = .step bytes) :
    rows[(reached rows row).1.toNat]? = some (.step bytes) := by
  have hat {i : UInt8} (hi : (rows[i.toNat]?).getD .stop = .step bytes) : rows[i.toNat]? = some (.step bytes) := by
    cases hfound : rows[i.toNat]? with
    | none => simp [hfound] at hi
    | some found => simpa [hfound] using hi
  unfold reached at h ⊢
  split at h
  · exact hat h
  · exact hat h

namespace Part.Sourced

variable {p : Part}

theorem stepWave (hp : p.Sourced song v) : (p.stepWave song).Sourced song v := by
  obtain ⟨start, hstart, hvisits⟩ := hp.wave
  have hreached := visits_reached hvisits
  unfold Part.stepWave
  split
  next row bytes hfound =>
    have hrow := getElem?_reached (congrArg Prod.snd hfound)
    rw [hfound] at hreached hrow
    exact { hp with wave := ⟨start, hstart, hreached.step hrow⟩, offset := .inr ⟨bytes, ⟨start, row, hstart, hreached, hrow⟩, rfl⟩ }
  next row _ hfound =>
    rw [hfound] at hreached
    exact { hp with wave := ⟨start, hstart, hreached⟩ }

theorem stepPulse (hp : p.Sourced song v) : (p.stepPulse song).Sourced song v := by
  unfold Part.stepPulse
  split
  · exact hp
  · split
    · split <;> exact { hp with }
    · exact { hp with }

end Part.Sourced

namespace Rendition

/-- Every voice plays what its order list says. -/
def Sourced (song : Song) (r : Rendition) : Prop := ∀ v, (r.part v).Sourced song v

namespace Sourced

theorem withPart (h : r.Sourced song) {p : Part} (hp : p.Sourced song v) : (r.withPart v p).Sourced song := by
  intro u
  by_cases huv : u = v
  · subst huv
    rw [part_withPart]
    exact hp
  · rw [show (r.withPart v p).part u = r.part u from Function.update_of_ne huv ..]
    exact h u

theorem enter (hsong : song.WellFormed) (h : r.Sourced song) : (r.enter song v).Sourced song := by
  have hp := h v
  unfold Rendition.enter
  dsimp only
  split
  next k hk =>
    have hloops := (wellFormed_iff_consistent.mp hsong).1.loops _ (orderListOf_mem hsong v)
    have hlt := nextEntry?_lt hloops hk
    rw [List.getElem?_eq_getElem hlt, Option.getD_some]
    exact h.withPart { hp with events := fun pitch hon => ⟨_, List.getElem_mem hlt, rfl, hon⟩ }
  · exact Sourced.withPart (r := r.write ..) h { hp with }

theorem strike (h : r.Sourced song) {i : Instrument} (hi : i ∈ song.instruments) : (r.strike v i).Sourced song := by
  have hp := h v
  have hstarts : StartsWave song i.wave := .inr ⟨i, hi, rfl⟩
  unfold Rendition.strike
  refine Sourced.withPart ?_ { hp with wave := ⟨_, hstarts, .start⟩ }
  split <;> exact h

theorem playNote (h : r.Sourced song) {pitch : UInt8} (hnote : PlaysNote song v (r.part v).transpose pitch) :
    (r.playNote song v pitch).Sourced song := by
  have hp := h v
  have hplayed : { r.part v with note := pitch + (r.part v).transpose.toUInt8, active := true }.Sourced song v :=
    { hp with note := fun _ => ⟨_, pitch, hnote, rfl⟩ }
  unfold Rendition.playNote
  dsimp only
  split
  · exact h.withPart { hplayed with }
  · split
    next i hi => exact (h.withPart hplayed).strike (List.mem_of_getElem? hi)
    · exact h.withPart hplayed

theorem runCommand (h : r.Sourced song) (c : Command) : (r.runCommand v c).Sourced song := by
  unfold Rendition.runCommand
  split <;> exact h

theorem playEvent (h : r.Sourced song) {e : Event}
    (hnote : ∀ pitch, e = .noteOn pitch → PlaysNote song v (r.part v).transpose pitch) :
    (r.playEvent song v e).Sourced song := by
  have hp := h v
  cases e with
  | noteOn pitch => exact h.playNote (hnote pitch rfl)
  | setCommand c => exact h.runCommand c
  | noteOff | tie | setInstrument | rest => exact h.withPart { hp with }

theorem playEvents {transpose : Int8} : ∀ {events : List Event} {r : Rendition}, r.Sourced song →
    (r.part v).transpose = transpose → (∀ pitch, Event.noteOn pitch ∈ events → PlaysNote song v transpose pitch) →
      (r.playEvents song v events).2.Sourced song
  | [], _, h, _, _ => h
  | e :: events, r, h, htranspose, hevents => by
    have hp := h v
    obtain ⟨hfirst, hrest⟩ : (∀ pitch, e = .noteOn pitch → PlaysNote song v transpose pitch) ∧
        ∀ pitch, Event.noteOn pitch ∈ events → PlaysNote song v transpose pitch :=
      ⟨fun pitch he => hevents pitch (he ▸ List.mem_cons_self), fun pitch hon => hevents pitch (List.mem_cons_of_mem _ hon)⟩
    unfold Rendition.playEvents
    dsimp only
    generalize hread : r.withPart v { r.part v with events } = r₁
    have h₁ : r₁.Sourced song := by
      subst htranspose hread
      exact h.withPart { hp with events := hrest }
    have htranspose₁ : (r₁.part v).transpose = transpose := by
      rw [← hread, part_withPart]
      exact htranspose
    have hplayed := h₁.playEvent (v := v) (e := e) (htranspose₁ ▸ hfirst)
    split
    · exact hplayed
    · exact hplayed.playEvents ((congrArg (·.2.2) (place_playEvent r₁ e)).trans htranspose₁) hrest

theorem update (h : r.Sourced song) (v : Voice) : (r.update song v).Sourced song := by
  unfold Rendition.update
  split
  · exact h.withPart (h v).stepWave.stepPulse
  · exact h

theorem stepFilter (h : r.Sourced song) : (r.stepFilter song).Sourced song := by
  unfold Rendition.stepFilter
  split
  · exact h
  · split <;> exact h

theorem invariant (hsong : song.WellFormed) : Invariant song (Sourced song) where
  playEvents {_ v} h := h.playEvents rfl (h v).events
  enter h := h.enter hsong
  wait _ h := h.withPart { h _ with }
  tick _ h := h
  update h := h.update _
  stepFilter h := h.stepFilter

theorem start (hsong : song.WellFormed) : (Rendition.start song).Sourced song :=
  (invariant hsong).foldl_enter _ fun _ => ⟨nofun, nofun, ⟨0, .inl rfl, .start⟩, .inl rfl⟩

end Sourced

end Rendition

/-! ## Lookups -/

/-- **What a voice looks up** in a song without faults is a note of its order list, which is a pitch when it is
transposed, plus what a wave program adds; with that it is in the table of frequencies exactly when the sum
with the offset signed is a pitch. No voice looks anything else up, however long the song is played. -/
theorem lookup_le_highest (h : song.WellFormed) :
    (∀ v : Voice, ∀ e ∈ (orderListOf song v).entries, ∀ pitch, .noteOn pitch ∈ eventsOf song e.sequence →
      ((pitch + e.transpose.toUInt8).toNat : Int) = sounding e.transpose pitch ∧
      (pitch + e.transpose.toUInt8).toNat ≤ Pitch.highest ∧
      ∀ bytes, WaveStep song bytes → ∃ control offset, bytes = [control, offset] ∧
        ((pitch + e.transpose.toUInt8 + offset).toNat ≤ Pitch.highest ↔
          inRange (sounding e.transpose pitch + offset.toInt8.toInt) = true)) ∧
    ∀ n rs, rendered song n = some rs → ∀ r ∈ rs, ∀ v, (r.part v).active = true →
      ∃ e ∈ (orderListOf song v).entries, ∃ pitch, .noteOn pitch ∈ eventsOf song e.sequence ∧
        ∃ offset, (offset = 0 ∨ ∃ control, WaveStep song [control, offset]) ∧
          (r.part v).pitch = pitch + e.transpose.toUInt8 + offset := by
  constructor
  · intro v e he pitch hon
    have hrange := PlaysNote.inRange h ⟨e, he, rfl, hon⟩
    have hsum := toNat_add_transpose hrange
    have hle : (pitch + e.transpose.toUInt8).toNat ≤ Pitch.highest := by
      rw [inRange_eq_true, ← hsum] at hrange
      exact Int.ofNat_le.mp hrange.2
    refine ⟨hsum, hle, fun bytes hstep => ?_⟩
    obtain ⟨control, offset, rfl⟩ := hstep.eq_pair h
    exact ⟨control, offset, rfl, hsum ▸ add_le_highest_iff hle⟩
  · intro n rs hrs r hr v hactive
    have hp := (Rendition.Sourced.invariant h).frames (Rendition.Sourced.start h) hrs r hr v
    obtain ⟨transpose, pitch, ⟨e, he, rfl, hon⟩, hnote⟩ := hp.note hactive
    refine ⟨e, he, pitch, hon, (r.part v).offset, ?_, congrArg (· + (r.part v).offset) hnote⟩
    rcases hp.offset with hzero | ⟨bytes, hstep, hoffset⟩
    · exact .inl hzero
    · obtain ⟨control, offset, rfl⟩ := hstep.eq_pair h
      exact .inr ⟨control, hoffset ▸ hstep⟩

theorem lookup_le_highest_overreach :
    overreach.WellFormed ∧ WaveStep overreach [0x41, 5] ∧
      ((95 + (0 : Int8).toUInt8 + 5).toNat ≤ Pitch.highest ↔ inRange (sounding 0 95 + (5 : UInt8).toInt8.toInt) = true) ∧
      ∃ rs, rendered overreach 2 = some rs ∧ ∀ r ∈ rs, (r.part 0).active = true →
        ∃ e ∈ (orderListOf overreach 0).entries, ∃ pitch, .noteOn pitch ∈ eventsOf overreach e.sequence ∧
          ∃ offset, (offset = 0 ∨ ∃ control, WaveStep overreach [control, offset]) ∧
            (r.part 0).pitch = pitch + e.transpose.toUInt8 + offset := by
  have hsong : overreach.WellFormed := by decide
  have hstep : WaveStep overreach [0x41, 5] :=
    ⟨0, 1, .inl rfl, .step .start (show _ = some (Row.step [0x41, 0]) by decide), by decide⟩
  obtain ⟨hnotes, hrendered⟩ := lookup_le_highest hsong
  obtain ⟨-, -, hoffsets⟩ := hnotes 0 ⟨0, 0⟩ (by decide) 95 (by decide)
  obtain ⟨control, offset, hbytes, hiff⟩ := hoffsets _ hstep
  obtain ⟨rs, hrs⟩ := Option.isSome_iff_exists.mp (rendered_isSome hsong (by decide) 2)
  cases hbytes
  exact ⟨hsong, hstep, hiff, rs, hrs, fun r hr => hrendered 2 rs hrs r hr 0⟩

/-- Nothing is wrong with this song, whose instrument takes its highest note past the table in the second frame. -/
theorem overreach_looks_up :
    overreach.WellFormed ∧
      (∃ e ∈ (orderListOf overreach 0).entries, ∃ pitch, eventsOf overreach e.sequence = [.setInstrument 0, .noteOn pitch, .rest 3] ∧
        ∃ i, overreach.instruments[0]? = some i ∧ ∃ row, Visits (programRows overreach .wave) i.wave row ∧
          ∃ control offset, (programRows overreach .wave)[row.toNat]? = some (.step [control, offset]) ∧
            (pitch + e.transpose.toUInt8 + offset).toNat = 100 ∧ ¬(pitch + e.transpose.toUInt8 + offset).toNat ≤ Pitch.highest) ∧
      (rendered overreach 2).map (·.map fun r => (r.part 0).pitch) = some [95, 100] := by
  have hvisits : Visits (programRows overreach .wave) 0 1 := .step .start (show _ = some (Row.step [0x41, 0]) by decide)
  refine ⟨by decide, ⟨⟨0, 0⟩, by decide, 95, by decide, _, rfl, 1, hvisits, 0x41, 5, by decide, by decide, by decide⟩, ?_⟩
  decide +kernel

end Chiptune.Player.Minimal
