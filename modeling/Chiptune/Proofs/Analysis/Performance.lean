/-
Marks and notes of a trace, by the frames they are in.

A voice has one mark in a frame at most, and one note for each mark that opens
its gate. A note's pitch and shape are those of the frames of its window, which
ends with the next such mark (`Heard`).
-/
import Chiptune.Analysis.Performance
import Chiptune.Proofs.Lists
import Chiptune.Proofs.Sound.Trace

namespace Chiptune

namespace Sound

theorem Voice.all_getElem? (v : Voice) : Voice.all[v.val]? = some v := by
  match v with
  | 0 => rfl
  | 1 => rfl
  | 2 => rfl

/-! ## Pitches -/

namespace Pitch

theorem nearestFrom_le {f : Nat} : ∀ {values : List Nat} {best gap index bound : Nat}, best ≤ bound →
    index + values.length ≤ bound + 1 → nearestFrom f best gap index values ≤ bound
  | [], best, gap, index, bound, hbest, _ => hbest
  | g :: values, best, gap, index, bound, hbest, hindex => by
    rw [List.length_cons] at hindex
    unfold nearestFrom
    split
    · exact nearestFrom_le (by omega) (by omega)
    · exact nearestFrom_le hbest (by omega)

theorem nearest?_le {f : UInt16} {p : UInt8} (h : nearest? f = some p) : p.toNat ≤ highest := by
  unfold nearest? at h
  split at h
  · cases h
  · cases h
    have hle := @nearestFrom_le f.toNat frequencies 0 0x10000 0 highest (by decide) (by decide)
    have hhighest : highest = 95 := rfl
    rw [UInt8.toNat_ofNat']
    omega

end Pitch

end Sound

namespace Analysis

open Sound

variable {t : Trace} {v : Voice}

theorem length_framesOf (t : Trace) : (framesOf t).length = t.frames := by
  simp [framesOf, Trace.length_snapshots, Trace.size_byFrame]

theorem state_framesOf {n : Nat} {f : Frame} (h : (framesOf t)[n]? = some f) :
    t.snapshots[n]? = some f.state := by
  rw [framesOf, List.getElem?_zipWith] at h
  split at h
  next b _ hb _ =>
    cases h
    exact hb
  · cases h

theorem writes_framesOf {n : Nat} {f : Frame} (h : (framesOf t)[n]? = some f) : f.writes = t.frame n := by
  have hn := (List.getElem?_eq_some_iff.mp h).1
  rw [length_framesOf] at hn
  have hwrites : (t.byFrame t.frames).toList[n]? = some (t.frame n) := by
    rw [Array.getElem?_toList, Trace.getElem?_byFrame t hn]
  rw [framesOf, List.getElem?_zipWith, hwrites] at h
  split at h
  next _ _ _ hframe =>
    cases h
    exact (Option.some.inj hframe).symm
  · cases h

/-- The pitch nearest to a voice's frequency at the end of a frame; a voice without a frequency
has pitch zero. -/
def pitchAt (t : Trace) (v : Voice) (frame : Nat) : UInt8 :=
  (t.snapshots[frame]?.bind fun b => Pitch.nearest? (b.frequency v)).getD 0

theorem pitchAt_le (t : Trace) (v : Voice) (frame : Nat) : (pitchAt t v frame).toNat ≤ Pitch.highest := by
  unfold pitchAt
  cases h : t.snapshots[frame]?.bind fun b => Pitch.nearest? (b.frequency v) with
  | none => exact Nat.zero_le _
  | some p =>
    obtain ⟨b, -, hb⟩ := Option.bind_eq_some_iff.mp h
    exact Pitch.nearest?_le hb

theorem pitch_framesOf {n : Nat} {f : Frame} (h : (framesOf t)[n]? = some f) : f.pitch v 0 = pitchAt t v n := by
  rw [pitchAt, state_framesOf h]
  rfl

/-! ## Marks -/

theorem mem_marksFrom {m : Nat × Mark} : ∀ {frames : List Frame} {before : Bool} {first : Nat},
    m ∈ marksFrom v before first frames → first ≤ m.1 ∧ m.1 < first + frames.length
  | [], _, _, h => by cases h
  | f :: frames, before, first, h => by
    rw [List.length_cons]
    unfold marksFrom at h
    dsimp only at h
    split at h
    · rcases List.mem_cons.mp h with rfl | h
      · exact ⟨Nat.le_refl _, by omega⟩
      · have := mem_marksFrom h
        omega
    · have := mem_marksFrom h
      omega

theorem pairwise_marksFrom : ∀ (frames : List Frame) (before : Bool) (first : Nat),
    (marksFrom v before first frames).Pairwise fun a b => a.1 < b.1
  | [], _, _ => .nil
  | f :: frames, before, first => by
    unfold marksFrom
    dsimp only
    split
    · refine List.pairwise_cons.mpr ⟨fun m hm => ?_, pairwise_marksFrom ..⟩
      have := (mem_marksFrom hm).1
      omega
    · exact pairwise_marksFrom ..

theorem pairwise_marks (t : Trace) (v : Voice) : (marks t v).Pairwise fun a b => a.1 < b.1 :=
  pairwise_marksFrom ..

theorem mark_lt {m : Nat × Mark} (h : m ∈ marks t v) : m.1 < t.frames := by
  have := (mem_marksFrom h).2
  rw [length_framesOf] at this
  omega

/-- A voice has one mark in a frame at most. -/
theorem mark_unique {frame : Nat} {m m' : Mark} (h : (frame, m) ∈ marks t v) (h' : (frame, m') ∈ marks t v) :
    m = m' := by
  have hframes : (marks t v).Pairwise fun a b => a.1 ≠ b.1 := (pairwise_marks t v).imp Nat.ne_of_lt
  exact congrArg Prod.snd (eq_of_pairwise hframes h h' rfl)

theorem mem_framesWith {mark : Mark} {marks : List (Nat × Mark)} {frame : Nat} :
    frame ∈ framesWith mark marks ↔ (frame, mark) ∈ marks := by
  simp [framesWith]

theorem pairwise_framesWith (t : Trace) (v : Voice) (mark : Mark) :
    (framesWith mark (marks t v)).Pairwise (· < ·) :=
  List.pairwise_map.mpr ((pairwise_marks t v).filter _)

/-! ## Notes -/

/-- Where the window of a note that starts in some frame ends: before the next frame that opens
the gate, and when enough of the note has been observed. -/
def windowEnd (frames : Nat) (onsets : List Nat) (frame : Nat) : Nat :=
  min ((onsets.find? (frame < ·)).getD frames) (frame + observed)

/-- Frames for which the note that a voice starts in some frame is observed. -/
def observedFrames (t : Trace) (v : Voice) (frame : Nat) : Nat :=
  windowEnd t.frames (framesWith .on (marks t v)) frame - frame

/-- The frames that note's shape is made from. -/
def window (t : Trace) (v : Voice) (frame : Nat) : List Frame :=
  ((framesOf t).drop frame).take (observedFrames t v frame)

theorem observedFrames_bounds {frame : Nat} (h : (frame, .on) ∈ marks t v) :
    0 < observedFrames t v frame ∧ frame + observedFrames t v frame ≤ t.frames ∧
      observedFrames t v frame ≤ observed := by
  have hframe := mark_lt h
  have hobserved : observed = 32 := rfl
  unfold observedFrames windowEnd
  cases hnext : (framesWith .on (marks t v)).find? (frame < ·) with
  | none =>
    simp only [Option.getD_none]
    omega
  | some next =>
    have hlater := List.find?_some hnext
    have hmark := mark_lt (mem_framesWith.mp (List.mem_of_find?_eq_some hnext))
    rw [decide_eq_true_eq] at hlater
    simp only [Option.getD_some]
    omega

theorem length_window {frame : Nat} (h : (frame, .on) ∈ marks t v) :
    (window t v frame).length = observedFrames t v frame := by
  have hbounds := observedFrames_bounds h
  rw [window, List.length_take, List.length_drop, length_framesOf]
  omega

theorem getElem?_window {frame k : Nat} (h : k < observedFrames t v frame) :
    (window t v frame)[k]? = (framesOf t)[frame + k]? := by
  rw [window, List.getElem?_take_of_lt h, List.getElem?_drop]

/-- The note is what is heard of a voice from a frame on that opens its gate. -/
structure Heard (t : Trace) (v : Voice) (n : Note) : Prop where
  voice : n.voice = v
  mark : (n.frame, .on) ∈ marks t v
  pitch : n.pitch = pitchAt t v n.frame
  shape : ∃ first, (framesOf t)[n.frame]? = some first ∧
    n.shape = .of v n.pitch first (window t v n.frame)

theorem find?_next {before rest : List Nat} {onset : Nat} (h : (before ++ onset :: rest).Pairwise (· < ·)) :
    (before ++ onset :: rest).find? (onset < ·) = rest.head? := by
  obtain ⟨-, hlater, hbefore⟩ := List.pairwise_append.mp h
  have hmiss : before.find? (onset < ·) = none := by
    rw [List.find?_eq_none]
    intro n hn
    have := hbefore n hn onset (by simp)
    simp only [decide_eq_true_eq]
    omega
  rw [List.find?_append, hmiss, List.find?_cons_of_neg (by simp)]
  cases rest with
  | nil => rfl
  | cons next rest =>
    have hnext := (List.pairwise_cons.mp hlater).1 next (by simp)
    simp [hnext]

/-- One note for each onset, and each in its window. -/
theorem notesAt_eq {frames : List Frame} : ∀ {onsets before : List Nat},
    (before ++ onsets).Pairwise (· < ·) → (∀ o ∈ onsets, o < frames.length) →
      List.Forall₂ (fun onset n => ∃ first, frames[onset]? = some first ∧
        n = ⟨v, onset, first.pitch v 0, .of v (first.pitch v 0) first
          ((frames.drop onset).take (windowEnd frames.length (before ++ onsets) onset - onset))⟩)
        onsets (notesAt frames v onsets)
  | [], _, _, _ => .nil
  | onset :: rest, before, h, hlt => by
    have honset := hlt onset (by simp)
    have hnext : onset < (rest.head?.getD frames.length) := by
      cases rest with
      | nil => exact honset
      | cons next rest =>
        exact (List.pairwise_cons.mp (List.pairwise_append.mp h).2.1).1 next (by simp)
    have hend : windowEnd frames.length (before ++ onset :: rest) onset =
        min (rest.head?.getD frames.length) (onset + observed) := by
      rw [windowEnd, find?_next h]
    have hrest := @notesAt_eq frames rest (before ++ [onset]) (by simpa using h)
      fun o ho => hlt o (by simp [ho])
    obtain ⟨count, hcount⟩ : ∃ count,
        min (rest.head?.getD frames.length) (onset + observed) - onset = count + 1 := by
      have : 0 < observed := by decide
      exact ⟨min (rest.head?.getD frames.length) (onset + observed) - onset - 1, by omega⟩
    have hwindow : (frames.drop onset).take (count + 1) =
        frames[onset] :: (frames.drop (onset + 1)).take count := by
      rw [List.drop_eq_getElem_cons honset, List.take_succ_cons]
    unfold notesAt
    dsimp only
    rw [hcount, hwindow]
    refine .cons ⟨frames[onset], List.getElem?_eq_getElem honset, by rw [hend, hcount, hwindow]⟩ ?_
    simpa using hrest

theorem forall₂_notes (t : Trace) (v : Voice) :
    List.Forall₂ (fun onset n => n.frame = onset ∧ Heard t v n) (framesWith .on (marks t v)) (notes t v) := by
  have hlt : ∀ o ∈ framesWith .on (marks t v), o < (framesOf t).length := fun o ho => by
    rw [length_framesOf]
    exact mark_lt (mem_framesWith.mp ho)
  have h := @notesAt_eq v (framesOf t) _ [] (pairwise_framesWith t v .on) hlt
  have hmem := (List.forall₂_and_left _ _).mpr ⟨fun _ h => h, h⟩
  refine hmem.imp fun onset n hn => ?_
  obtain ⟨honset, first, hfirst, rfl⟩ := hn
  refine ⟨rfl, rfl, mem_framesWith.mp honset, pitch_framesOf hfirst, first, hfirst, ?_⟩
  rw [window, observedFrames, ← length_framesOf]
  rfl

/-- **A voice has one note for each frame that opens its gate.** -/
theorem notes_frames (t : Trace) (v : Voice) : (notes t v).map (·.frame) = framesWith .on (marks t v) :=
  map_eq_of_forall₂ ((forall₂_notes t v).imp fun _ _ h => h.1)

theorem heard_of_mem {n : Note} (hn : n ∈ notes t v) : Heard t v n := by
  obtain ⟨_, _, -, h⟩ := exists_of_mem_right (forall₂_notes t v) hn
  exact h

end Analysis

end Chiptune
