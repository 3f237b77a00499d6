/-
A description of a list says what the list is.

The values after the described start either repeat its last value or go round
the part of it that the loop leads back to (`Describes`). Each candidate that
`collapse` compares describes the list, so the shortest one does.
-/
import Chiptune.Analysis.Repetition
import Mathlib.Data.List.Infix

namespace Chiptune.Analysis.Repetition

variable {α β : Type}

/-! ## Lists that go on as they started -/

/-- A list that continues with itself goes round its start for ever. -/
theorem prefix_flatten_replicate {cycle l : List α} (h : l <+: cycle ++ l) : ∀ m : Nat,
    l <+: (List.replicate m cycle).flatten ++ l
  | 0 => by simp
  | m + 1 => by
    have hrest := (List.prefix_append_right_inj cycle).mpr (prefix_flatten_replicate h m)
    rw [List.replicate_succ, List.flatten_cons, List.append_assoc]
    exact h.trans hrest

theorem prefix_cycles {cycle l : List α} (hcycle : 0 < cycle.length) (h : l <+: cycle ++ l) :
    l <+: (List.replicate l.length cycle).flatten := by
  have hlength : l.length ≤ (List.replicate l.length cycle).flatten.length := by
    rw [List.length_flatten, List.map_replicate, List.sum_replicate_nat]
    exact Nat.le_mul_of_pos_right _ hcycle
  exact List.prefix_of_prefix_length_le (prefix_flatten_replicate h l.length) (List.prefix_append ..) hlength

theorem eq_replicate_of_prefix {v : α} : ∀ {l : List α}, l <+: v :: l → l = List.replicate l.length v
  | [], _ => rfl
  | w :: l, h => by
    obtain ⟨rfl, hl⟩ := List.cons_prefix_cons.mp h
    rw [List.length_cons, List.replicate_succ, ← eq_replicate_of_prefix hl]

/-! ## Descriptions -/

/-- The list is what the description says of it. -/
structure Describes (d : Description) (values : List α) : Prop where
  length_le : d.length ≤ values.length
  length_pos : values ≠ [] → 0 < d.length
  /-- Without a loop the last value is held. -/
  held : d.loop = none → ∃ n, ∀ v, (values.take d.length).getLast? = some v →
    values = values.take d.length ++ List.replicate n v
  /-- With a loop the values from its target on come again and again. -/
  looped : ∀ start, d.loop = some start → start < d.length ∧
    ∃ m, values <+: values.take start ++ (List.replicate m ((values.take d.length).drop start)).flatten

theorem Describes.map {d : Description} {values : List α} (h : Describes d values) (f : α → β) :
    Describes d (values.map f) := by
  refine ⟨by rw [List.length_map]; exact h.length_le,
    fun hne => h.length_pos (fun e => hne (by rw [e]; rfl)), fun hloop => ?_, fun start hloop => ?_⟩
  · obtain ⟨n, hn⟩ := h.held hloop
    refine ⟨n, fun w hw => ?_⟩
    rw [← List.map_take, List.getLast?_map, Option.map_eq_some_iff] at hw
    obtain ⟨v, hv, rfl⟩ := hw
    rw [← List.map_take, ← List.map_replicate, ← List.map_append, ← hn v hv]
  · obtain ⟨hlt, m, hm⟩ := h.looped start hloop
    refine ⟨hlt, m, ?_⟩
    have hmap := hm.map f
    rwa [List.map_append, List.map_flatten, List.map_replicate, List.map_drop, List.map_take, List.map_take] at hmap

theorem all_drop_takeWhile (p : α → Bool) (l : List α) :
    (l.drop (l.length - (l.reverse.takeWhile p).length)).all p = true := by
  obtain ⟨front, hfront⟩ : ∃ front, l = front ++ (l.reverse.takeWhile p).reverse := by
    refine ⟨(l.reverse.dropWhile p).reverse, ?_⟩
    rw [← List.reverse_append, List.takeWhile_append_dropWhile, List.reverse_reverse]
  have hall : ((l.reverse.takeWhile p).reverse).all p = true := by
    rw [List.all_reverse]
    exact List.all_takeWhile
  generalize l.reverse.takeWhile p = back at hfront hall
  rw [hfront, List.length_append, List.length_reverse, Nat.add_sub_cancel, List.drop_left]
  exact hall

section

variable [BEq α]

theorem periodicFrom_le (values : List α) (period : Nat) : periodicFrom values period ≤ values.length - period := by
  unfold periodicFrom
  simp only [List.length_zip, List.length_drop]
  omega

variable [LawfulBEq α]

theorem prefix_of_all_zip : ∀ {a b : List α}, ((a.zip b).all fun (x, y) => x == y) = true →
    b.length ≤ a.length → b <+: a
  | _, [], _, _ => List.nil_prefix
  | [], _ :: _, _, h => by simp at h
  | x :: a, y :: b, h, hlength => by
    simp only [List.zip_cons_cons, List.all_cons, Bool.and_eq_true, beq_iff_eq] at h
    rw [h.1]
    exact List.cons_prefix_cons.mpr ⟨rfl, prefix_of_all_zip h.2 (Nat.le_of_succ_le_succ hlength)⟩

/-- From the position found on, the values come again one period later. -/
theorem drop_periodicFrom (values : List α) (period : Nat) :
    (values.drop (periodicFrom values period)).drop period <+: values.drop (periodicFrom values period) := by
  have hall := all_drop_takeWhile (fun (a, b) => a == b) (values.zip (values.drop period))
  rw [show _ - _ = periodicFrom values period from rfl, List.zip_eq_zipWith, List.drop_zipWith,
    ← List.zip_eq_zipWith, List.drop_drop, Nat.add_comm, ← List.drop_drop] at hall
  refine prefix_of_all_zip hall ?_
  simp only [List.length_drop]
  omega

theorem describes_of_describe? {values : List α} {period : Nat} {d : Description} (hperiod : 0 < period)
    (hlt : period < values.length) (h : describe? values period = some d) : Describes d values := by
  have hstart := periodicFrom_le values period
  have hagain := drop_periodicFrom values period
  unfold describe? at h
  dsimp only at h
  generalize periodicFrom values period = start at h hstart hagain
  split at h
  next hone =>
    cases h
    subst hone
    have hlength : start + 1 ≤ values.length := by omega
    refine ⟨hlength, fun _ => Nat.succ_pos start, fun _ => ?_, nofun⟩
    obtain ⟨v, rest, hrest⟩ : ∃ v rest, values.drop start = v :: rest :=
      List.exists_cons_of_length_pos (by rw [List.length_drop]; omega)
    rw [hrest, List.drop_one, List.tail_cons] at hagain
    have hfront : values.take (start + 1) = values.take start ++ [v] := by
      rw [List.take_add_one, ← List.head?_drop, hrest]
      rfl
    refine ⟨rest.length, fun w hw => ?_⟩
    rw [hfront, List.getLast?_concat, Option.some.injEq] at hw
    rw [hfront, ← hw, ← eq_replicate_of_prefix hagain, List.append_assoc, List.singleton_append, ← hrest,
      List.take_append_drop]
  next hone =>
    split at h
    · cases h
    next hlong =>
      cases h
      have hlength : start + period ≤ values.length := by omega
      refine ⟨hlength, fun _ => by show 0 < start + period; omega, nofun, fun s hs => ?_⟩
      cases hs
      have hcycle : (values.take (start + period)).drop start = (values.drop start).take period := by
        rw [List.drop_take, Nat.add_sub_cancel_left]
      have hrest : values.drop start <+: (values.drop start).take period ++ values.drop start := by
        conv => lhs; rw [← List.take_append_drop period (values.drop start)]
        exact (List.prefix_append_right_inj _).mpr hagain
      refine ⟨by show start < start + period; omega, (values.drop start).length, ?_⟩
      show values <+: values.take start ++
        (List.replicate (values.drop start).length ((values.take (start + period)).drop start)).flatten
      rw [hcycle]
      conv => lhs; rw [← List.take_append_drop start values]
      refine (List.prefix_append_right_inj _).mpr (prefix_cycles ?_ hrest)
      rw [List.length_take, List.length_drop]
      omega

theorem Describes.shorter {values : List α} {best : Description} {period : Nat} (h : Describes best values)
    (hpos : 0 < period) (hlt : period < values.length) : Describes (shorter best (describe? values period)) values := by
  cases hd : describe? values period with
  | none => exact h
  | some d =>
    unfold Repetition.shorter
    dsimp only
    split
    · exact describes_of_describe? hpos hlt hd
    · exact h

/-- **The shortest description describes the list.** -/
theorem describes_collapse (values : List α) : Describes (collapse values) values := by
  have hwhole : Describes ⟨values.length, none⟩ values :=
    ⟨Nat.le_refl _, List.length_pos_of_ne_nil, fun _ => ⟨0, fun v _ => by simp⟩, nofun⟩
  refine List.foldlRecOn (motive := (Describes · values)) _ _ hwhole fun best hbest period hperiod => ?_
  rw [List.mem_range'_1] at hperiod
  exact hbest.shorter (by omega) (by omega)

end

end Chiptune.Analysis.Repetition
