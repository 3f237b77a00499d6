/-
What the snapshots of a trace are, as writes are added and frames end.

Writes of a frame that has not ended are in no snapshot yet, and when it ends
its snapshot is the registers after all writes so far. Both need the writes to
be in the order of their frames. Of a finished trace each snapshot is read off the
writes by itself (`snapshots_eq`).
-/
import Chiptune.Sound.Trace
import Mathlib.Data.List.TakeWhile

namespace Chiptune.Sound

theorem Bank.replay_append (b : Bank) (entries later : List Entry) :
    b.replay (entries ++ later) = (b.replay entries).replay later :=
  List.foldl_append

namespace Trace

/-! ## Lengths -/

theorem length_snapshotsFrom : ∀ (b : Bank) (entries : List Entry) (frame count : Nat),
    (snapshotsFrom b entries frame count).length = count
  | _, _, _, 0 => rfl
  | b, entries, frame, count + 1 => by
    rw [snapshotsFrom]
    simp only [List.length_cons, length_snapshotsFrom]

theorem length_snapshots (t : Trace) : t.snapshots.length = t.frames := length_snapshotsFrom ..

theorem size_byFrame (t : Trace) (count : Nat) : (t.byFrame count).size = count := by
  unfold byFrame
  rw [← Array.foldr_toList]
  induction t.entries.toList with
  | nil => simp
  | cons e entries ih => simp [ih]

theorem getElem?_byFrame (t : Trace) {count n : Nat} (h : n < count) : (t.byFrame count)[n]? = some (t.frame n) := by
  unfold byFrame frame
  rw [← Array.foldr_toList]
  induction t.entries.toList with
  | nil => simp [h]
  | cons e entries ih =>
    rw [List.foldr_cons, Array.getElem?_modify, ih, List.filter_cons]
    by_cases hframe : e.frame = n
    · simp [hframe]
    · simp [hframe]

/-! ## More writes and more frames -/

/-- Writes are in the order of their frames. -/
def Ordered (entries : List Entry) : Prop := entries.Pairwise fun a b => a.frame ≤ b.frame

theorem takeWhile_append_later {frame : Nat} {later : List Entry} (hlater : ∀ e ∈ later, frame < e.frame) :
    ∀ entries : List Entry, (entries ++ later).takeWhile (·.frame == frame) = entries.takeWhile (·.frame == frame)
  | [] => by
    cases later with
    | nil => rfl
    | cons e later =>
      have := hlater e (by simp)
      rw [List.nil_append, List.takeWhile_cons_of_neg (by simp; omega), List.takeWhile_nil]
  | e :: entries => by
    rw [List.cons_append, List.takeWhile_cons, List.takeWhile_cons, takeWhile_append_later hlater entries]

/-- Writes of later frames change no snapshot. -/
theorem snapshotsFrom_append {later : List Entry} : ∀ {count : Nat} {b : Bank} {entries : List Entry} {frame : Nat},
    (∀ e ∈ later, frame + count ≤ e.frame) →
      snapshotsFrom b (entries ++ later) frame count = snapshotsFrom b entries frame count
  | 0, _, _, _, _ => rfl
  | count + 1, b, entries, frame, h => by
    have hnow := @takeWhile_append_later frame later (fun e he => by have := h e he; omega) entries
    have hlength : (entries.takeWhile (·.frame == frame)).length ≤ entries.length :=
      (List.takeWhile_prefix _).length_le
    rw [snapshotsFrom, snapshotsFrom]
    simp only [hnow, List.drop_append_of_le_length hlength]
    rw [snapshotsFrom_append fun e he => by have := h e he; omega]

theorem frame_drop_takeWhile {frame : Nat} : ∀ {entries : List Entry}, Ordered entries →
    (∀ e ∈ entries, frame ≤ e.frame) →
      ∀ e ∈ entries.drop (entries.takeWhile (·.frame == frame)).length, frame < e.frame
  | [], _, _, _, he => by simp at he
  | a :: entries, hordered, hframe, e, he => by
    obtain ⟨hfirst, hordered⟩ := List.pairwise_cons.mp hordered
    by_cases ha : a.frame = frame
    · rw [List.takeWhile_cons_of_pos (by simpa using ha), List.length_cons, List.drop_succ_cons] at he
      exact frame_drop_takeWhile hordered (fun e he => hframe e (by simp [he])) e he
    · rw [List.takeWhile_cons_of_neg (by simpa using ha), List.length_nil, List.drop_zero] at he
      have hlt := hframe a (by simp)
      rcases List.mem_cons.mp he with rfl | he
      · omega
      · have := hfirst e he
        omega

/-- One frame more adds the registers after all writes so far. -/
theorem snapshotsFrom_succ : ∀ {count : Nat} {b : Bank} {entries : List Entry} {frame : Nat}, Ordered entries →
    (∀ e ∈ entries, frame ≤ e.frame ∧ e.frame ≤ frame + count) →
      snapshotsFrom b entries frame (count + 1) = snapshotsFrom b entries frame count ++ [b.replay entries]
  | 0, b, entries, frame, _, h => by
    have hall : entries.takeWhile (·.frame == frame) = entries := by
      rw [List.takeWhile_eq_self_iff]
      intro e he
      have := h e he
      simp only [beq_iff_eq]
      omega
    simp only [snapshotsFrom, hall, List.nil_append]
  | count + 1, b, entries, frame, hordered, h => by
    have hsplit := List.prefix_iff_eq_append.mp (List.takeWhile_prefix (l := entries) (·.frame == frame))
    -- What the first frame leaves is of later frames, so the claim holds of it with `frame + 1`.
    have hlater := frame_drop_takeWhile hordered fun e he => (h e he).1
    unfold snapshotsFrom
    dsimp only
    generalize entries.takeWhile (·.frame == frame) = now at hsplit hlater
    generalize hrest : entries.drop now.length = rest at hsplit hlater
    have hbounds : ∀ e ∈ rest, frame + 1 ≤ e.frame ∧ e.frame ≤ frame + 1 + count := fun e he => by
      have := hlater e he
      have := (h e (by rw [← hsplit]; simp [he])).2
      omega
    have hrestOrdered : Ordered rest := hrest ▸ List.Pairwise.drop hordered
    rw [snapshotsFrom_succ hrestOrdered hbounds, ← hsplit, Bank.replay_append]
    rfl

/-! ## A frame by itself -/

/-- The registers at the end of a frame: after the writes of all frames up to it. -/
def heard (t : Trace) (k : Nat) : Bank := t.initial.replay (t.entries.toList.filter (·.frame ≤ k))

/-- A snapshot is the registers after all writes of its frame and of those before it. -/
theorem snapshotsFrom_eq : ∀ {count : Nat} {b : Bank} {entries : List Entry} {frame : Nat}, Ordered entries →
    (∀ e ∈ entries, frame ≤ e.frame) →
      snapshotsFrom b entries frame count =
        (List.range count).map fun k => b.replay (entries.filter (·.frame ≤ frame + k))
  | 0, _, _, _, _, _ => rfl
  | count + 1, b, entries, frame, hordered, h => by
    have hsplit := List.prefix_iff_eq_append.mp (List.takeWhile_prefix (l := entries) (·.frame == frame))
    have hlater := frame_drop_takeWhile hordered h
    have hnow : ∀ e ∈ entries.takeWhile (·.frame == frame), e.frame = frame := fun e he => by
      simpa using List.mem_takeWhile_imp he
    unfold snapshotsFrom
    dsimp only
    generalize entries.takeWhile (·.frame == frame) = now at hsplit hlater hnow ⊢
    generalize hrest : entries.drop now.length = rest at hsplit hlater ⊢
    have hrestOrdered : Ordered rest := hrest ▸ List.Pairwise.drop hordered
    have hkept (k : Nat) : now.filter (·.frame ≤ frame + k) = now :=
      List.filter_eq_self.mpr fun e he => by simp [hnow e he]
    have hlast : rest.filter (·.frame ≤ frame + 0) = [] :=
      List.filter_eq_nil_iff.mpr fun e he => by simpa using hlater e he
    rw [snapshotsFrom_eq hrestOrdered hlater, List.range_succ_eq_map, List.map_cons, List.map_map, ← hsplit,
      List.filter_append, hkept, hlast, List.append_nil]
    congr 1
    refine List.map_congr_left fun k _ => ?_
    rw [Function.comp_apply, List.filter_append, hkept, Bank.replay_append, Nat.succ_add_eq_add_succ]

theorem snapshots_eq {t : Trace} (h : Ordered t.entries.toList) : t.snapshots = (List.range t.frames).map t.heard := by
  rw [snapshots, snapshotsFrom_eq h fun e _ => Nat.zero_le e.frame]
  simp only [Nat.zero_add]
  rfl

end Trace

end Chiptune.Sound
