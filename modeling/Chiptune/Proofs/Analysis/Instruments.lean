/-
The instruments of shapes and the tables of their programs.

A program once placed in a table stays where it is, since the table only grows.
So every instrument made keeps playing its shape (`Plays`), and an instrument
that shares a program finds it at the row noted for it.
-/
import Chiptune.Analysis.Reconstruction
import Chiptune.Proofs.Outcome
import Chiptune.Proofs.Song.Walk

namespace Chiptune.Analysis.Reconstruction

open Song

/-! ## Tables of programs -/

/-- Every program noted stands at its row. -/
def Library.Noted (l : Library) : Prop := ∀ e ∈ l.starts, Placed l.table.rows e.2.toNat e.1

theorem Library.noted_empty (kind : TableKind) : (Library.empty kind).Noted := nofun

/-- A program started is in the table, and what the table held it holds still. -/
theorem Library.start_noted {l l' : Library} {program : List Row} {first : UInt8} (hl : l.Noted)
    (h : l.start program = .ok (first, l')) :
    l'.Noted ∧ Placed l'.table.rows first.toNat program ∧ l.table.rows <+: l'.table.rows ∧
      l'.table.kind = l.table.kind := by
  unfold Library.start at h
  split at h
  next p start hfind =>
    cases h
    have hprogram : p = program := by simpa using List.find?_some hfind
    exact ⟨hl, hprogram ▸ hl _ (List.mem_of_find?_eq_some hfind), List.prefix_refl _, rfl⟩
  · obtain ⟨⟨start, table⟩, happend, h⟩ := bind_eq_ok.mp h
    cases h
    obtain ⟨-, hplaced, hrows, hkind⟩ := Placed.of_append? (Table.append_eq_ok.mp happend)
    refine ⟨fun e he => ?_, hplaced, hrows, hkind⟩
    rcases List.mem_append.mp he with he | he
    · exact (hl e he).mono hrows
    · rw [List.mem_singleton.mp he]
      exact hplaced

/-! ## Instruments -/

/-- An instrument has a shape's envelope and starts its programs. -/
structure Plays (sounds : Sounds) (s : Shape) (i : Instrument) : Prop where
  attackDecay : i.attackDecay = s.attackDecay
  sustainRelease : i.sustainRelease = s.sustainRelease
  wave : Placed sounds.wave.table.rows i.wave.toNat (waveProgram s)
  pulse : Option.Rel (fun start widths => Placed sounds.pulse.table.rows start.toNat (pulseProgram widths))
    i.pulse s.pulse

/-- The sounds of these shapes. -/
structure Sounds.Of (sounds : Sounds) (shapes : List Shape) : Prop where
  wave : sounds.wave.Noted
  pulse : sounds.pulse.Noted
  waveKind : sounds.wave.table.kind = .wave
  pulseKind : sounds.pulse.table.kind = .pulse
  instruments : List.Forall₂ (Plays sounds) shapes sounds.instruments

theorem Plays.mono {sounds sounds' : Sounds} {s : Shape} {i : Instrument} (h : Plays sounds s i)
    (hwave : sounds.wave.table.rows <+: sounds'.wave.table.rows)
    (hpulse : sounds.pulse.table.rows <+: sounds'.pulse.table.rows) : Plays sounds' s i := by
  refine ⟨h.attackDecay, h.sustainRelease, h.wave.mono hwave, ?_⟩
  obtain ⟨-, -, -, h⟩ := h
  generalize i.pulse = start, s.pulse = widths at h
  cases h with
  | none => exact .none
  | some h => exact .some (h.mono hpulse)

theorem Sounds.Of.add {sounds sounds' : Sounds} {shapes : List Shape} {s : Shape} (hsounds : sounds.Of shapes)
    (h : sounds.add s = .ok sounds') : sounds'.Of (shapes ++ [s]) := by
  unfold Sounds.add at h
  obtain ⟨⟨start, wave⟩, hwave, h⟩ := bind_eq_ok.mp h
  obtain ⟨hnoted, hplaced, hrows, hkind⟩ := Library.start_noted hsounds.wave hwave
  dsimp only at h
  split at h
  next hpulse =>
    cases h
    refine ⟨hnoted, hsounds.pulse, hkind.trans hsounds.waveKind, hsounds.pulseKind, ?_⟩
    refine List.rel_append (hsounds.instruments.imp fun _ _ h => h.mono hrows (List.prefix_refl _)) ?_
    exact .cons ⟨rfl, rfl, hplaced, by rw [hpulse]; exact .none⟩ .nil
  next widths hpulse =>
    obtain ⟨⟨start', pulse⟩, hpulse', h⟩ := bind_eq_ok.mp h
    cases h
    obtain ⟨hnoted', hplaced', hrows', hkind'⟩ := Library.start_noted hsounds.pulse hpulse'
    refine ⟨hnoted, hnoted', hkind.trans hsounds.waveKind, hkind'.trans hsounds.pulseKind, ?_⟩
    refine List.rel_append (hsounds.instruments.imp fun _ _ h => h.mono hrows hrows') ?_
    exact .cons ⟨rfl, rfl, hplaced, by rw [hpulse]; exact .some hplaced'⟩ .nil

theorem foldlM_add_of : ∀ {later shapes : List Shape} {sounds sounds' : Sounds}, sounds.Of shapes →
    later.foldlM Sounds.add sounds = .ok sounds' → sounds'.Of (shapes ++ later)
  | [], shapes, _, _, hsounds, h => by
    cases h
    rwa [List.append_nil]
  | s :: later, shapes, _, _, hsounds, h => by
    rw [List.foldlM_cons] at h
    obtain ⟨sounds₁, hadd, h⟩ := bind_eq_ok.mp h
    rw [List.append_cons]
    exact foldlM_add_of (hsounds.add hadd) h

/-- **Every shape has an instrument that plays it.** -/
theorem instrumentsOf_of {shapes : List Shape} {sounds : Sounds} (h : instrumentsOf shapes = .ok sounds) :
    sounds.Of shapes := by
  have hnone : ({} : Sounds).Of [] := ⟨Library.noted_empty .wave, Library.noted_empty .pulse, rfl, rfl, .nil⟩
  exact foldlM_add_of hnone h

end Chiptune.Analysis.Reconstruction
