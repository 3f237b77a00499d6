/-
Notes and the instruments they are given.

Every note gets one instrument, in the order of the notes. What the note shows
frame by frame is the start of what its instrument shows, and stays that when
the instrument takes in more notes (`assign_covering`): a shape is only ever
replaced by a longer one that starts with it.
-/
import Chiptune.Analysis.Reconstruction
import Chiptune.Proofs.Analysis.Performance
import Chiptune.Proofs.Analysis.Repetition

namespace Chiptune.Analysis

variable {α : Type}

/-! ## Shapes -/

section

variable [BEq α] [LawfulBEq α]

theorem agree_comm : ∀ a b : List α, agree a b = agree b a
  | [], b => by simp [agree]
  | _ :: _, [] => rfl
  | x :: a, y :: b => by
    have h := agree_comm a b
    unfold agree at h ⊢
    rw [List.zip_cons_cons, List.zip_cons_cons, List.all_cons, List.all_cons, h]
    exact congrArg (· && _) BEq.comm

theorem prefix_longer_right {a b : List α} (h : agree a b = true) : b <+: longer a b := by
  unfold longer
  split
  · exact List.prefix_refl b
  · exact Repetition.prefix_of_all_zip h (by omega)

theorem prefix_longer_left {a b : List α} (h : agree a b = true) : a <+: longer a b := by
  unfold longer
  split
  · rw [agree_comm] at h
    exact Repetition.prefix_of_all_zip h (by omega)
  · exact List.prefix_refl a

end

namespace Shape

/-- What a shape shows starts with what another one shows. -/
structure Covers (s n : Shape) : Prop where
  attackDecay : s.attackDecay = n.attackDecay
  sustainRelease : s.sustainRelease = n.sustainRelease
  wave : n.wave <+: s.wave
  pulse : Option.Rel (fun p q => q <+: p) s.pulse n.pulse

namespace Covers

theorem refl (s : Shape) : s.Covers s := by
  refine ⟨rfl, rfl, List.prefix_refl _, ?_⟩
  cases s.pulse with
  | none => exact .none
  | some p => exact .some (List.prefix_refl p)

theorem trans {a b c : Shape} (hab : a.Covers b) (hbc : b.Covers c) : a.Covers c := by
  refine ⟨hab.attackDecay.trans hbc.attackDecay, hab.sustainRelease.trans hbc.sustainRelease,
    hbc.wave.trans hab.wave, ?_⟩
  obtain ⟨-, -, -, hpulse⟩ := hab
  obtain ⟨-, -, -, hpulse'⟩ := hbc
  generalize a.pulse = p, b.pulse = q, c.pulse = r at hpulse hpulse'
  cases hpulse with
  | none => exact hpulse'
  | some hqp =>
    cases hpulse' with
    | some hrq => exact .some (hrq.trans hqp)

end Covers

theorem absorb_covers {a b : Shape} (h : a.mergesWith b = true) : (a.absorb b).Covers a ∧ (a.absorb b).Covers b := by
  unfold mergesWith at h
  simp only [Bool.and_eq_true, beq_iff_eq] at h
  obtain ⟨⟨⟨⟨hattack, hsustain⟩, -⟩, hwave⟩, hpulse⟩ := h
  have hwidths : Option.Rel (fun p q => q <+: p) (a.absorb b).pulse a.pulse ∧
      Option.Rel (fun p q => q <+: p) (a.absorb b).pulse b.pulse := by
    unfold absorb
    generalize a.pulse = p, b.pulse = q at hpulse
    cases p with
    | none =>
      cases q with
      | none => exact ⟨.none, .none⟩
      | some q => cases hpulse
    | some p =>
      cases q with
      | none => cases hpulse
      | some q => exact ⟨.some (prefix_longer_left hpulse), .some (prefix_longer_right hpulse)⟩
  exact ⟨⟨rfl, rfl, prefix_longer_left hwave, hwidths.1⟩,
    ⟨hattack, hsustain, prefix_longer_right hwave, hwidths.2⟩⟩

/-- A shape whose programs a table can hold. -/
structure Playable (s : Shape) : Prop where
  wave : s.wave ≠ [] ∧ s.wave.length < 256
  pulse : ∀ widths, s.pulse = some widths → widths ≠ [] ∧ widths.length < 256

theorem Playable.absorb {a b : Shape} (ha : a.Playable) (hb : b.Playable) : (a.absorb b).Playable := by
  have hlonger : ∀ {β : Type} {p q : List β}, p ≠ [] ∧ p.length < 256 → q ≠ [] ∧ q.length < 256 →
      longer p q ≠ [] ∧ (longer p q).length < 256 := by
    intro β p q hp hq
    unfold longer
    split
    · exact hq
    · exact hp
  refine ⟨hlonger ha.wave hb.wave, fun widths h => ?_⟩
  unfold Shape.absorb at h
  dsimp only at h
  split at h
  next p q hp hq =>
    cases h
    exact hlonger (ha.pulse p hp) (hb.pulse q hq)
  · exact ha.pulse widths h

end Shape

end Chiptune.Analysis

namespace Chiptune.Analysis.Reconstruction

open Sound Song

namespace Assignment

theorem add_notes (a : Assignment) (n : Note) : (a.add n).notes.map (·.note) = a.notes.map (·.note) ++ [n] := by
  unfold Assignment.add
  split <;> simp

theorem foldl_add_notes : ∀ (notes : List Note) (a : Assignment),
    (notes.foldl Assignment.add a).notes.map (·.note) = a.notes.map (·.note) ++ notes
  | [], a => (List.append_nil _).symm
  | n :: notes, a => by
    rw [List.foldl_cons, foldl_add_notes notes, add_notes, List.append_assoc, List.singleton_append]

/-- The instruments of notes can be played, and show what each of their notes shows. -/
structure Covering (a : Assignment) : Prop where
  playable : ∀ s ∈ a.shapes, s.Playable
  covers : ∀ n ∈ a.notes, ∃ s, a.shapes[n.instrument]? = some s ∧ s.Covers n.note.shape

theorem Covering.add {a : Assignment} (h : a.Covering) {n : Note} (hn : n.shape.Playable) : (a.add n).Covering := by
  unfold Assignment.add
  split
  next i hi =>
    obtain ⟨hlt, hmerges, -⟩ := List.findIdx?_eq_some_iff_getElem.mp hi
    have hshape : a.shapes[i]? = some a.shapes[i] := List.getElem?_eq_getElem hlt
    have hself : (a.shapes.modify i (·.absorb n.shape))[i]? = some (a.shapes[i].absorb n.shape) := by
      rw [List.getElem?_modify_eq, hshape]
      rfl
    refine ⟨fun s hs => ?_, fun m hm => ?_⟩
    · obtain ⟨j, hj⟩ := List.getElem?_of_mem hs
      rw [List.getElem?_modify, Option.map_eq_map, Option.map_eq_some_iff] at hj
      obtain ⟨s, hj, rfl⟩ := hj
      have hs := h.playable s (List.mem_of_getElem? hj)
      split
      · exact hs.absorb hn
      · exact hs
    · rcases List.mem_append.mp hm with hm | hm
      -- An earlier note of the same instrument is still covered, since the shape only grew.
      · obtain ⟨s, hs, hcovers⟩ := h.covers m hm
        by_cases hsame : i = m.instrument
        · rw [← hsame, hshape, Option.some.injEq] at hs
          rw [← hsame]
          exact ⟨_, hself, (Shape.absorb_covers hmerges).1.trans (hs ▸ hcovers)⟩
        · exact ⟨s, (List.getElem?_modify_ne _ _ hsame).trans hs, hcovers⟩
      · rw [List.mem_singleton.mp hm]
        exact ⟨_, hself, (Shape.absorb_covers hmerges).2⟩
  · refine ⟨fun s hs => ?_, fun m hm => ?_⟩
    · rcases List.mem_append.mp hs with hs | hs
      · exact h.playable s hs
      · rw [List.mem_singleton.mp hs]
        exact hn
    · rcases List.mem_append.mp hm with hm | hm
      · obtain ⟨s, hs, hcovers⟩ := h.covers m hm
        exact ⟨s, by rw [List.getElem?_append_left (List.getElem?_eq_some_iff.mp hs).1, hs], hcovers⟩
      · rw [List.mem_singleton.mp hm]
        exact ⟨n.shape, by simp, .refl _⟩

end Assignment

theorem assign_notes (notes : List Note) : (assign notes).notes.map (·.note) = notes :=
  Assignment.foldl_add_notes notes {}

/-- **Every instrument shows what each of its notes shows.** -/
theorem assign_covering {notes : List Note} (h : ∀ n ∈ notes, n.shape.Playable) : (assign notes).Covering :=
  List.foldlRecOn notes Assignment.add ⟨nofun, nofun⟩ fun _ ha n hn => ha.add (h n hn)

end Chiptune.Analysis.Reconstruction

namespace Chiptune.Analysis

open Sound Reconstruction

variable {t : Trace} {v : Voice}

/-- The notes of a trace with their instruments. -/
def assignmentOf (t : Trace) : Assignment := assign (Voice.all.flatMap (notes t))

/-- A voice's notes with their instruments. -/
def notesOf (t : Trace) (v : Voice) : List Assigned := (assignmentOf t).notes.filter (·.note.voice == v)

/-- The instrument of the note that a voice starts in a frame. -/
def instrumentAt? (t : Trace) (v : Voice) (frame : Nat) : Option Nat :=
  ((notesOf t v).find? (·.note.frame == frame)).map (·.instrument)

theorem notesOf_note (t : Trace) (v : Voice) : (notesOf t v).map (·.note) = notes t v := by
  have hfilter : ∀ w, (notes t w).filter (·.voice == v) = if w = v then notes t w else [] := by
    intro w
    split
    next h =>
      rw [List.filter_eq_self]
      intro n hn
      rw [(heard_of_mem hn).voice, h, beq_self_eq_true]
    next h =>
      rw [List.filter_eq_nil_iff]
      intro n hn
      rw [(heard_of_mem hn).voice, beq_iff_eq]
      exact h
  have hall : (assignmentOf t).notes.map (·.note) = notes t 0 ++ (notes t 1 ++ notes t 2) := by
    rw [assignmentOf, assign_notes]
    simp [Voice.all]
  have hmap : (notesOf t v).map (·.note) = ((assignmentOf t).notes.map (·.note)).filter (·.voice == v) := by
    rw [notesOf, List.filter_map]
    rfl
  rw [hmap, hall, List.filter_append, List.filter_append, hfilter, hfilter, hfilter]
  match v with
  | 0 => simp
  | 1 => simp
  | 2 => simp

theorem notesOf_frames (t : Trace) (v : Voice) :
    (notesOf t v).map (·.note.frame) = framesWith .on (marks t v) := by
  rw [← notes_frames, ← notesOf_note, List.map_map]
  rfl

theorem pairwise_notesOf (t : Trace) (v : Voice) :
    (notesOf t v).Pairwise fun a b => a.note.frame ≠ b.note.frame := by
  have h := (pairwise_framesWith t v .on).imp Nat.ne_of_lt
  rwa [← notesOf_frames, List.pairwise_map] at h

theorem heard_of_mem_notesOf {n : Assigned} (hn : n ∈ notesOf t v) : Heard t v n.note := by
  refine heard_of_mem ?_
  rw [← notesOf_note]
  exact List.mem_map_of_mem hn

theorem exists_note_of_on {frame : Nat} (h : (frame, .on) ∈ marks t v) :
    ∃ n ∈ notesOf t v, n.note.frame = frame := by
  have hmem := mem_framesWith.mpr h
  rwa [← notesOf_frames, List.mem_map] at hmem

theorem instrumentAt?_eq_some {n : Assigned} (hn : n ∈ notesOf t v) :
    instrumentAt? t v n.note.frame = some n.instrument := by
  rw [instrumentAt?, find?_of_pairwise (pairwise_notesOf t v) hn]
  rfl

theorem playable_of_heard {n : Note} (h : Heard t v n) : n.shape.Playable := by
  have hbounds := observedFrames_bounds h.mark
  have hlength := length_window h.mark
  have hobserved : observed = 32 := rfl
  have hne : window t v n.frame ≠ [] := List.ne_nil_of_length_pos (by omega)
  obtain ⟨first, -, hshape⟩ := h.shape
  rw [hshape]
  refine ⟨⟨by simpa [Shape.of] using hne, by simp only [Shape.of, List.length_map]; omega⟩, fun widths hwidths => ?_⟩
  simp only [Shape.of, Option.ite_none_right_eq_some, Option.some.injEq] at hwidths
  rw [← hwidths.2]
  exact ⟨by simpa using hne, by rw [List.length_map]; omega⟩

theorem assignmentOf_covering (t : Trace) : (assignmentOf t).Covering := by
  refine assign_covering fun n hn => ?_
  obtain ⟨v, -, hn⟩ := List.mem_flatMap.mp hn
  exact playable_of_heard (heard_of_mem hn)

/-- What a note shows is the start of what its instrument shows. -/
theorem exists_covers {n : Assigned} (hn : n ∈ notesOf t v) :
    ∃ s, (assignmentOf t).shapes[n.instrument]? = some s ∧ s.Playable ∧ s.Covers n.note.shape := by
  obtain ⟨s, hs, hcovers⟩ := (assignmentOf_covering t).covers n (List.mem_of_mem_filter hn)
  exact ⟨s, hs, (assignmentOf_covering t).playable s (List.mem_of_getElem? hs), hcovers⟩

theorem instrument_lt {n : Assigned} (hn : n ∈ notesOf t v) :
    n.instrument < (assignmentOf t).shapes.length := by
  obtain ⟨s, hs, -⟩ := exists_covers hn
  exact (List.getElem?_eq_some_iff.mp hs).1

end Chiptune.Analysis
