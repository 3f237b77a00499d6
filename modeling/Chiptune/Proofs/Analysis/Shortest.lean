/-
No description of a list is shorter than the one that is found.

A list with a period has it from some position on, and the position that
`collapse` looks for is the first of them: whatever describes the list with
that period starts there or later (`periodicFrom_le_of_prefix`). A held tail is
one of period one. So each description that could be meant is as long as one
of the candidates at least, and the shortest candidate is kept
(`collapse_least`).
-/
import Chiptune.Proofs.Analysis.Repetition

namespace Chiptune.Analysis.Repetition

variable {α : Type} {values : List α}

/-- A loop of a description is one of at least two values that the list has twice in full. -/
def Repeats (d : Description) (values : List α) : Prop :=
  ∀ start, d.loop = some start → start + 2 ≤ d.length ∧ start + 2 * (d.length - start) ≤ values.length

/-! ## What a description says of the periods of a list -/

/-- Values that go round a cycle come again after its length. -/
theorem drop_prefix_of_prefix_cycles {cycle l : List α} : ∀ {m : Nat}, l <+: (List.replicate m cycle).flatten →
    l.drop cycle.length <+: l
  | 0, h => by
    rw [List.replicate_zero, List.flatten_nil, List.prefix_nil] at h
    rw [h, List.drop_nil]
  | m + 1, h => by
    have hshorter : (l.drop cycle.length).length ≤ l.length := by
      rw [List.length_drop]
      exact Nat.sub_le ..
    have hrest := h.drop cycle.length
    rw [List.replicate_succ, List.flatten_cons, List.drop_left] at hrest
    -- one cycle less at the front is one less at the end
    have hround : (List.replicate m cycle).flatten <+: (List.replicate (m + 1) cycle).flatten := by
      rw [List.replicate_succ', List.flatten_append]
      exact List.prefix_append ..
    exact List.prefix_of_prefix_length_le (hrest.trans hround) h hshorter

theorem Describes.held_again {d : Description} (h : Describes d values) (hloop : d.loop = none) :
    (values.drop (d.length - 1)).drop 1 <+: values.drop (d.length - 1) := by
  by_cases hnone : values = []
  · rw [hnone, List.drop_nil]
    exact List.prefix_rfl
  have hpos := h.length_pos hnone
  have hsome : values.take d.length ≠ [] := fun e => (List.take_eq_nil_iff.mp e).elim (by omega) hnone
  obtain ⟨front, v, hfront⟩ : ∃ front v, values.take d.length = front ++ [v] :=
    ⟨_, _, (List.dropLast_concat_getLast hsome).symm⟩
  have hlength : front.length = d.length - 1 := by
    have := congrArg List.length hfront
    rw [List.length_take, Nat.min_eq_left h.length_le, List.length_append, List.length_singleton] at this
    omega
  obtain ⟨n, hn⟩ := h.held hloop
  have hvalues := hn v (by rw [hfront, List.getLast?_concat])
  rw [hfront, List.append_assoc, List.singleton_append, ← List.replicate_succ] at hvalues
  rw [hvalues, ← hlength, List.drop_left, List.drop_one, List.tail_replicate, Nat.add_sub_cancel, List.replicate_succ']
  exact List.prefix_append ..

theorem Describes.looped_again {d : Description} {start : Nat} (h : Describes d values) (hloop : d.loop = some start) :
    (values.drop start).drop (d.length - start) <+: values.drop start := by
  obtain ⟨hlt, m, hm⟩ := h.looped start hloop
  have hcycle : ((values.take d.length).drop start).length = d.length - start := by
    rw [List.length_drop, List.length_take, Nat.min_eq_left h.length_le]
  have hrest := hm.drop start
  have hbefore : (values.take start).length = start := by
    rw [List.length_take]
    exact Nat.min_eq_left (Nat.le_trans (Nat.le_of_lt hlt) h.length_le)
  rw [List.drop_left' hbefore] at hrest
  rw [← hcycle]
  exact drop_prefix_of_prefix_cycles hrest

/-! ## The first position with a period -/

theorem le_length_takeWhile_reverse {p : α → Bool} {l : List α} {n : Nat} (h : (l.drop n).all p = true) :
    l.length - (l.reverse.takeWhile p).length ≤ n := by
  have hback : l.reverse = (l.drop n).reverse ++ (l.take n).reverse := by
    rw [← List.reverse_append, List.take_append_drop]
  rw [hback, List.takeWhile_append_of_pos (by simpa using h), List.length_append, List.length_reverse, List.length_drop]
  omega

section

variable [BEq α]

theorem all_zip_of_prefix [LawfulBEq α] {a b : List α} (h : b <+: a) : ((a.zip b).all fun (x, y) => x == y) = true := by
  obtain ⟨rest, rfl⟩ := h
  induction b with
  | nil => rw [List.zip_nil_right, List.all_nil]
  | cons y b ih =>
    rw [List.cons_append, List.zip_cons_cons, List.all_cons, ih, Bool.and_true]
    exact beq_self_eq_true y

/-- The position found is the first from which on the values come again one period later. -/
theorem periodicFrom_le_of_prefix [LawfulBEq α] {start period : Nat}
    (h : (values.drop start).drop period <+: values.drop start) : periodicFrom values period ≤ start := by
  refine le_length_takeWhile_reverse ?_
  rw [List.zip_eq_zipWith, List.drop_zipWith, ← List.zip_eq_zipWith, List.drop_drop, Nat.add_comm, ← List.drop_drop]
  exact all_zip_of_prefix h

/-! ## The shortest candidate -/

theorem shorter_le_left (a : Description) (b : Option Description) : (shorter a b).length ≤ a.length := by
  cases b with
  | none => exact Nat.le_refl _
  | some b =>
    unfold shorter
    dsimp only
    split <;> omega

theorem shorter_le_right {b : Description} (a : Description) : (shorter a (some b)).length ≤ b.length := by
  unfold shorter
  dsimp only
  split <;> omega

theorem foldl_shorter_le (candidate : Nat → Option Description) : ∀ (periods : List Nat) (best : Description),
    (periods.foldl (fun best period => shorter best (candidate period)) best).length ≤ best.length ∧
      ∀ period ∈ periods, ∀ d ∈ candidate period,
        (periods.foldl (fun best period => shorter best (candidate period)) best).length ≤ d.length
  | [], best => ⟨Nat.le_refl _, by simp⟩
  | period :: periods, best => by
    obtain ⟨hstart, hothers⟩ := foldl_shorter_le candidate periods (shorter best (candidate period))
    refine ⟨hstart.trans (shorter_le_left ..), fun q hq d hd => ?_⟩
    rcases List.mem_cons.mp hq with rfl | hq
    · rw [Option.mem_def.mp hd] at hstart
      rw [List.foldl_cons, Option.mem_def.mp hd]
      exact hstart.trans (shorter_le_right best)
    · exact hothers q hq d hd

theorem collapse_le_length (values : List α) : (collapse values).length ≤ values.length :=
  (foldl_shorter_le (describe? values) _ _).1

theorem collapse_le {period : Nat} {d : Description} (hpos : 0 < period) (hlt : period < values.length)
    (h : describe? values period = some d) : (collapse values).length ≤ d.length :=
  (foldl_shorter_le (describe? values) _ _).2 period (List.mem_range'_1.mpr ⟨hpos, by omega⟩) d h

theorem repeats_of_describe? {period : Nat} {d : Description} (hpos : 0 < period)
    (h : describe? values period = some d) : Repeats d values := by
  unfold describe? at h
  dsimp only at h
  intro start hloop
  split at h
  · cases h
    cases hloop
  · split at h
    · cases h
    · cases h
      cases hloop
      dsimp only
      omega

theorem repeats_collapse (values : List α) : Repeats (collapse values) values := by
  have hwhole : Repeats ⟨values.length, none⟩ values := fun start hloop => by cases hloop
  refine List.foldlRecOn (motive := (Repeats · values)) _ _ hwhole fun best hbest period hperiod => ?_
  rw [List.mem_range'_1] at hperiod
  cases hd : describe? values period with
  | none => exact hbest
  | some d =>
    unfold shorter
    dsimp only
    split
    · exact repeats_of_describe? hperiod.1 hd
    · exact hbest

/-- What describes the list by a period starts it no sooner than the candidate with that period. -/
theorem collapse_le_of_describes [LawfulBEq α] {d : Description} (h : Describes d values) (hr : Repeats d values) :
    (collapse values).length ≤ d.length := by
  rcases Nat.lt_or_ge d.length values.length with hshort | hlong
  · cases hloop : d.loop with
    | none =>
      have hpos := h.length_pos (List.ne_nil_of_length_pos (by omega))
      have hstart := periodicFrom_le_of_prefix (h.held_again hloop)
      have hcandidate : describe? values 1 = some ⟨periodicFrom values 1 + 1, none⟩ := rfl
      have := collapse_le Nat.one_pos (by omega) hcandidate
      dsimp only at this
      omega
    | some start =>
      obtain ⟨htwo, htwice⟩ := hr start hloop
      have hstart := periodicFrom_le_of_prefix (h.looped_again hloop)
      have hcandidate : describe? values (d.length - start) =
          some ⟨periodicFrom values (d.length - start) + (d.length - start),
            some (periodicFrom values (d.length - start))⟩ := by
        unfold describe?
        dsimp only
        rw [if_neg (by omega), if_neg (by omega)]
      have := collapse_le (by omega) (by omega) hcandidate
      dsimp only at this
      omega
  · exact (collapse_le_length values).trans hlong

/-- **The description found is the shortest**: it describes the list, and no held tail and no loop of at least two
values that the list has twice in full describes it with fewer. -/
theorem collapse_least [LawfulBEq α] (values : List α) :
    Describes (collapse values) values ∧ Repeats (collapse values) values ∧
      ∀ d, Describes d values → Repeats d values → (collapse values).length ≤ d.length :=
  ⟨describes_collapse values, repeats_collapse values, fun _ h hr => collapse_le_of_describes h hr⟩

/-- Of 9, 1, 2, 1, 2, 1, 2 it takes three values; going round from a place later takes four. -/
theorem collapse_least_round :
    let values := [9, 1, 2, 1, 2, 1, 2]
    (Describes (collapse values) values ∧ collapse values = ⟨3, some 1⟩) ∧
      (Describes ⟨4, some 2⟩ values ∧ Repeats ⟨4, some 2⟩ values) ∧ (collapse values).length ≤ 4 := by
  intro values
  have hdescribes : Describes ⟨4, some 2⟩ values := by
    refine ⟨by decide, fun _ => by decide, fun h => (by cases h), fun start h => ?_⟩
    cases h
    exact ⟨by decide, 3, by decide⟩
  have hrepeats : Repeats ⟨4, some 2⟩ values := by
    intro start h
    cases h
    exact ⟨by decide, by decide⟩
  obtain ⟨hfound, -, hleast⟩ := collapse_least values
  exact ⟨⟨hfound, by decide⟩, ⟨hdescribes, hrepeats⟩, hleast _ hdescribes hrepeats⟩

end

end Chiptune.Analysis.Repetition
