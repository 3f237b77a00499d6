/-
What a voice plays, row by row.

Notes and releases take a row and rests take several; other events take none,
but an event that selects an instrument says what the notes after it are
played with, also past the end of its sequence (`selectedAfter`).
-/
import Chiptune.Proofs.Lists
import Chiptune.Song.Sequence

namespace Chiptune.Song

/-- A row of a voice. -/
inductive VoiceRow where
  /-- A pitch is played with the instrument in use. -/
  | note (pitch : Int) (instrument : Option Nat)
  | off
  | rest
deriving DecidableEq, Repr

/-- The rows of events that are transposed and start with an instrument in use. -/
def played (transpose : Int) (selected : Option Nat) : List Event → List VoiceRow
  | [] => []
  | .noteOn pitch :: events => .note (pitch.toNat + transpose) selected :: played transpose selected events
  | .noteOff :: events => .off :: played transpose selected events
  | .rest rows :: events => List.replicate rows.toNat .rest ++ played transpose selected events
  | .setInstrument id :: events => played transpose (some id.toNat) events
  | .tie :: events | .setCommand _ :: events => played transpose selected events

/-- The instrument in use after events. -/
def selectedAfter (selected : Option Nat) : List Event → Option Nat
  | [] => selected
  | .setInstrument id :: events => selectedAfter (some id.toNat) events
  | _ :: events => selectedAfter selected events

/-- The rows of order list entries; there are none if an entry names a sequence that does not
exist. -/
def voiceRows? (sequences : List Sequence) (selected : Option Nat) :
    List OrderEntry → Option (List VoiceRow)
  | [] => some []
  | e :: entries => do
    let q ← sequences[e.sequence.toNat]?
    let rows ← voiceRows? sequences (selectedAfter selected q.events) entries
    return played e.transpose.toInt selected q.events ++ rows

variable {transpose : Int} {selected : Option Nat}

/-! ## Events -/

theorem played_append : ∀ (xs ys : List Event) (selected : Option Nat),
    played transpose selected (xs ++ ys) =
      played transpose selected xs ++ played transpose (selectedAfter selected xs) ys
  | [], _, _ => rfl
  | e :: xs, ys, selected => by
    cases e <;> simp [played, selectedAfter, played_append xs ys]

theorem selectedAfter_append : ∀ (xs ys : List Event) (selected : Option Nat),
    selectedAfter selected (xs ++ ys) = selectedAfter (selectedAfter selected xs) ys
  | [], _, _ => rfl
  | e :: xs, ys, selected => by
    cases e <;> simp [selectedAfter, selectedAfter_append xs ys]

theorem played_commands : ∀ commands : List Command,
    played transpose selected (commands.map .setCommand) = []
  | [] => rfl
  | _ :: commands => played_commands commands

theorem selectedAfter_commands : ∀ commands : List Command,
    selectedAfter selected (commands.map .setCommand) = selected
  | [] => rfl
  | _ :: commands => selectedAfter_commands commands

/-- A note of some events is in one of their rows. -/
theorem note_mem_played {pitch : UInt8} : ∀ {events : List Event} (selected : Option Nat),
    .noteOn pitch ∈ events → ∃ instrument, .note (pitch.toNat + transpose) instrument ∈ played transpose selected events
  | e :: events, selected, h => by
    rcases List.mem_cons.mp h with rfl | hlater
    · exact ⟨selected, by simp [played]⟩
    · cases e with
      | setInstrument id =>
        obtain ⟨instrument, hmem⟩ := note_mem_played (some id.toNat) hlater
        exact ⟨instrument, hmem⟩
      | _ =>
        obtain ⟨instrument, hmem⟩ := note_mem_played selected hlater
        exact ⟨instrument, by simp [played, hmem]⟩

/-! ## Entries -/

theorem voiceRows?_cons {sequences : List Sequence} {index : Nat} {q : Sequence} {transpose : Int8}
    {entries : List OrderEntry} {rows : List VoiceRow} (hq : sequences[index]? = some q) (hindex : index < 256)
    (hrows : voiceRows? sequences (selectedAfter selected q.events) entries = some rows) :
    voiceRows? sequences selected (⟨transpose, UInt8.ofNat index⟩ :: entries) =
      some (played transpose.toInt selected q.events ++ rows) := by
  have hbyte : (UInt8.ofNat index).toNat = index := by
    rw [UInt8.toNat_ofNat']
    omega
  simp only [voiceRows?, hbyte, hq, hrows, Option.bind_eq_bind, Option.bind_some, Option.pure_def]

/-- Entries keep their rows when sequences are added after those there are. -/
theorem voiceRows?_mono {sequences later : List Sequence} (h : sequences <+: later) :
    ∀ {entries : List OrderEntry} {selected : Option Nat} {rows : List VoiceRow},
      voiceRows? sequences selected entries = some rows → voiceRows? later selected entries = some rows
  | [], _, _, hrows => hrows
  | e :: entries, selected, rows, hrows => by
    obtain ⟨q, hq, hrows⟩ := Option.bind_eq_some_iff.mp hrows
    obtain ⟨rest, hrest, hrows⟩ := Option.bind_eq_some_iff.mp hrows
    have hrest' := voiceRows?_mono h hrest
    exact Option.bind_eq_some_iff.mpr ⟨q, getElem?_mono h hq, Option.bind_eq_some_iff.mpr ⟨rest, hrest', hrows⟩⟩

end Chiptune.Song
