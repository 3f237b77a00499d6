/-
A program replays the values it was made from.

What a program shows frame by frame is a start of the values, held for as long
as its steps say (`Spells`), and then what the description of the values says
comes after it. Either way that is the values for as many frames as there are.
-/
import Chiptune.Proofs.Analysis.Repetition
import Chiptune.Proofs.Song.Walk

namespace Chiptune.Analysis.Repetition

open Song

variable {α β : Type} {hold : Bytes → Nat} {value : Bytes → β}

/-! ## Runs -/

/-- The values of runs. -/
def expand (runs : List (α × Nat)) : List α := runs.flatMap fun (v, n) => List.replicate n v

theorem expand_append (a b : List (α × Nat)) : expand (a ++ b) = expand a ++ expand b := List.flatMap_append

section

variable [BEq α]

theorem length_runsOnto (runs : List (α × Nat)) (v : α) : (runsOnto runs v).length ≤ runs.length + 1 := by
  unfold runsOnto
  split
  · split <;> simp
  · simp

theorem length_runs (values : List α) : (runs values).length ≤ values.length := by
  have hfold : ∀ (values : List α) (acc : List (α × Nat)),
      (values.foldl runsOnto acc).length ≤ acc.length + values.length := by
    intro values
    induction values with
    | nil => exact fun acc => Nat.le_refl _
    | cons v values ih =>
      intro acc
      have := ih (runsOnto acc v)
      have := length_runsOnto acc v
      rw [List.foldl_cons, List.length_cons]
      omega
  rw [runs, List.length_reverse]
  simpa using hfold values []

/-- Every run can be held for a byte's number of frames. -/
def Short (runs : List (α × Nat)) : Prop := ∀ run ∈ runs, 0 < run.2 ∧ run.2 < 256

theorem short_runsOnto {runs : List (α × Nat)} (h : Short runs) (v : α) : Short (runsOnto runs v) := by
  unfold runsOnto
  split
  next w n rest =>
    split
    next hcontinue =>
      rw [Bool.and_eq_true, decide_eq_true_eq] at hcontinue
      intro run hrun
      rcases List.mem_cons.mp hrun with rfl | hrun
      · exact ⟨Nat.succ_pos n, Nat.succ_lt_succ hcontinue.2⟩
      · exact h run (by simp [hrun])
    · intro run hrun
      rcases List.mem_cons.mp hrun with rfl | hrun
      · exact ⟨Nat.one_pos, by simp⟩
      · exact h run hrun
  · intro run hrun
    rw [List.mem_singleton.mp hrun]
    exact ⟨Nat.one_pos, by simp⟩

theorem short_runs (values : List α) : Short (runs values) := by
  have hruns : Short (values.foldl runsOnto []) :=
    List.foldlRecOn _ _ nofun fun _ h v _ => short_runsOnto h v
  intro run hrun
  exact hruns run (List.mem_reverse.mp hrun)

variable [LawfulBEq α]

theorem expand_runsOnto (runs : List (α × Nat)) (v : α) :
    expand (runsOnto runs v).reverse = expand runs.reverse ++ [v] := by
  unfold runsOnto
  split
  next w n rest =>
    split
    next hcontinue =>
      rw [Bool.and_eq_true, beq_iff_eq] at hcontinue
      rw [List.reverse_cons, List.reverse_cons, expand_append, expand_append, List.append_assoc, hcontinue.1]
      congr 1
      simp [expand, List.replicate_succ']
    · rw [List.reverse_cons, expand_append]
      rfl
  · rfl

theorem expand_runs (values : List α) : expand (runs values) = values := by
  have hfold : ∀ (values : List α) (acc : List (α × Nat)),
      expand (values.foldl runsOnto acc).reverse = expand acc.reverse ++ values := by
    intro values
    induction values with
    | nil => exact fun acc => (List.append_nil _).symm
    | cons v values ih =>
      intro acc
      rw [List.foldl_cons, ih, expand_runsOnto, List.append_assoc, List.singleton_append]
  exact hfold values []

end

/-! ## Steps -/

/-- Held for as long as they say, the steps show these values. -/
structure Spells (hold : Bytes → Nat) (value : Bytes → β) (steps : List Bytes) (values : List β) : Prop where
  shown : (heldSteps hold steps).map value = values
  held : ∀ step ∈ steps, 0 < hold step

namespace Spells

variable {a b : List Bytes} {v w : List β}

theorem append (ha : Spells hold value a v) (hb : Spells hold value b w) : Spells hold value (a ++ b) (v ++ w) := by
  refine ⟨?_, fun step hstep => (List.mem_append.mp hstep).elim (ha.held step) (hb.held step)⟩
  rw [heldSteps, List.flatMap_append, List.map_append, ← ha.shown, ← hb.shown]
  rfl

/-- The last step shows the last value. -/
theorem getLast? (h : Spells hold value a v) : a.getLast?.map value = v.getLast? := by
  rw [← h.shown, List.getLast?_map, getLast?_heldSteps h.held]

theorem ne_nil (h : Spells hold value a v) (hv : v ≠ []) : a ≠ [] := by
  rintro rfl
  exact hv h.shown.symm

/-- A step for each value. -/
theorem of_map {step : α → Bytes} {f : α → β} (hhold : ∀ v, hold (step v) = 1) (hvalue : ∀ v, value (step v) = f v)
    (values : List α) : Spells hold value (values.map step) (values.map f) := by
  constructor
  · induction values with
    | nil => rfl
    | cons v values ih => rw [List.map_cons, heldSteps_cons, hhold, List.map_append, ih, List.map_cons, ← hvalue]; rfl
  · intro s hs
    obtain ⟨v, -, rfl⟩ := List.mem_map.mp hs
    rw [hhold]
    exact Nat.one_pos

/-- A step for each run of values. -/
theorem of_runs [BEq α] [LawfulBEq α] {step : α → UInt8 → Bytes} {f : α → β}
    (hhold : ∀ v n, hold (step v n) = n.toNat) (hvalue : ∀ v n, value (step v n) = f v) (values : List α) :
    Spells hold value ((runs values).map fun (v, n) => step v (UInt8.ofNat n)) (values.map f) := by
  have hbyte : ∀ run ∈ runs values, hold (step run.1 (UInt8.ofNat run.2)) = run.2 := fun run hrun => by
    have hshort := short_runs values run hrun
    rw [hhold, UInt8.toNat_ofNat']
    omega
  constructor
  · conv => rhs; rw [← expand_runs values]
    revert hbyte
    generalize runs values = runs
    intro hbyte
    induction runs with
    | nil => rfl
    | cons run runs ih =>
      have hrun : hold (step run.1 (UInt8.ofNat run.2)) = run.2 := hbyte run (by simp)
      rw [List.map_cons, heldSteps_cons, List.map_append, ih fun r hr => hbyte r (by simp [hr])]
      simp [expand, hrun, hvalue]
  · intro s hs
    obtain ⟨run, hrun, rfl⟩ := List.mem_map.mp hs
    show 0 < hold (step run.1 (UInt8.ofNat run.2))
    rw [hbyte run hrun]
    exact (short_runs values run hrun).1

end Spells

/-! ## Programs -/

/-- From a row on, the rows show these values. -/
def Replays (hold : Bytes → Nat) (value : Bytes → β) (rows : List Row) (start : Nat) (values : List β) : Prop :=
  ∃ steps, Walks hold rows ⟨start, none, 0⟩ steps ∧ steps.map value = values

theorem Replays.of_walks {rows : List Row} {start : Nat} {steps : List Bytes} {values : List β}
    (h : Walks hold rows ⟨start, none, 0⟩ steps) (hvalues : values <+: steps.map value) :
    Replays hold value rows start values := by
  refine ⟨steps.take values.length, h.shorter (List.take_prefix ..), ?_⟩
  rw [List.map_take, ← List.prefix_iff_eq_take.mp hvalues]

/-- What starts with less shows less. -/
theorem Replays.shorter {rows : List Row} {start : Nat} {values values' : List β}
    (h : Replays hold value rows start values) (hvalues : values' <+: values) :
    Replays hold value rows start values' := by
  obtain ⟨steps, hsteps, rfl⟩ := h
  exact .of_walks hsteps hvalues

variable {d : Description} {values : List β} {rows : List Row} {start : Nat}

theorem replays_of_stop {steps : List Bytes} (hd : Describes d values) (hne : values ≠ []) (hloop : d.loop = none)
    (hsteps : Spells hold value steps (values.take d.length))
    (h : Placed rows start (steps.map .step ++ [.stop])) : Replays hold value rows start values := by
  obtain ⟨n, hn⟩ := hd.held hloop
  have hlength := hd.length_pos hne
  obtain ⟨step, hstep⟩ : ∃ step, steps.getLast? = some step := by
    have hshown : values.take d.length ≠ [] := by simpa using ⟨by omega, hne⟩
    exact ⟨_, List.getLast?_eq_some_getLast (hsteps.ne_nil hshown)⟩
  have hlast := hsteps.getLast?
  rw [hstep, Option.map_some] at hlast
  refine .of_walks (h.walks_stop hsteps.held hstep n) ?_
  rw [List.map_append, List.map_replicate, hsteps.shown, ← hn _ hlast.symm]

theorem replays_of_loop {before after : List Bytes} {target : Nat} (hd : Describes d values)
    (hloop : d.loop = some target) (hbefore : Spells hold value before ((values.take d.length).take target))
    (hafter : Spells hold value after ((values.take d.length).drop target)) (hbyte : before.length < 256)
    (h : Placed rows start ((before ++ after).map .step ++ [.loop (UInt8.ofNat before.length)])) :
    Replays hold value rows start values := by
  obtain ⟨hlt, m, hm⟩ := hd.looped target hloop
  have hlength := hd.length_le
  have hne : after ≠ [] := hafter.ne_nil fun e => by
    have := congrArg List.length e
    rw [List.length_drop, List.length_take, List.length_nil] at this
    omega
  have htarget : before.length < (before ++ after).length := by
    rw [List.length_append]
    have := List.length_pos_of_ne_nil hne
    omega
  refine .of_walks (h.walks_loop (hbefore.append hafter).held htarget hbyte m) ?_
  rw [List.take_left, List.drop_left, List.map_append, List.map_flatten, List.map_replicate, hbefore.shown,
    hafter.shown, List.take_take, Nat.min_eq_left (Nat.le_of_lt hlt)]
  exact hm

variable {original : List α} {f : α → β} {spell : List α → List Bytes}

/-- The program of a list of values, given how to spell a part of it. -/
def spelled (spell : List α → List Bytes) (d : Description) (values : List α) : List Row :=
  let start := values.take d.length
  match d.loop with
  | some target =>
    let before := spell (start.take target)
    (before ++ spell (start.drop target)).map .step ++ [.loop (UInt8.ofNat before.length)]
  | none => (spell start).map .step ++ [.stop]

theorem spelled_replays (hspell : ∀ part, Spells hold value (spell part) (part.map f))
    (hlength : ∀ part, (spell part).length ≤ part.length) (hd : Describes d original) (hne : original ≠ [])
    (hbytes : original.length < 256) (h : Placed rows start (spelled spell d original)) :
    Replays hold value rows start (original.map f) := by
  unfold spelled at h
  dsimp only at h
  cases hloop : d.loop with
  | none =>
    rw [hloop] at h
    have hfront := hspell (original.take d.length)
    rw [List.map_take] at hfront
    exact replays_of_stop (hd.map f) (by simpa using hne) hloop hfront h
  | some target =>
    rw [hloop] at h
    have hlt := (hd.looped target hloop).1
    have hle := hd.length_le
    have hbefore := hspell ((original.take d.length).take target)
    have hafter := hspell ((original.take d.length).drop target)
    rw [List.map_take, List.map_take] at hbefore
    rw [List.map_drop, List.map_take] at hafter
    have hbyte := hlength ((original.take d.length).take target)
    rw [List.length_take, List.length_take] at hbyte
    exact replays_of_loop (hd.map f) hloop hbefore hafter (by omega) h

theorem program_ne_nil [BEq α] (step : α → Bytes) (values : List α) : program step values ≠ [] := by
  unfold program
  dsimp only
  split <;> simp

theorem heldProgram_ne_nil [BEq α] (step : α → UInt8 → Bytes) (values : List α) : heldProgram step values ≠ [] := by
  unfold heldProgram
  dsimp only
  split <;> simp

theorem heldProgram_eq_spelled [BEq α] (step : α → UInt8 → Bytes) (values : List α) : heldProgram step values =
    spelled (fun part => (runs part).map fun (v, n) => step v (UInt8.ofNat n)) (collapse values) values := by
  unfold heldProgram spelled
  dsimp only
  cases (collapse values).loop with
  | none => rw [List.map_map]; rfl
  | some target =>
    simp only [List.map_append, List.map_map, List.length_map]
    rfl

variable [BEq α] [LawfulBEq α]

theorem program_eq_spelled (step : α → Bytes) (values : List α) :
    program step values = spelled (·.map step) (collapse values) values := by
  have hd := describes_collapse values
  unfold program spelled
  dsimp only
  cases hloop : (collapse values).loop with
  | none => rw [List.map_map]; rfl
  | some target =>
    have hlt := (hd.looped target hloop).1
    have hle := hd.length_le
    have htarget : (((values.take (collapse values).length).take target).map step).length = target := by
      rw [List.length_map, List.length_take, List.length_take]
      omega
    dsimp only
    rw [htarget, ← List.map_append, List.take_append_drop, List.map_map]
    rfl

/-- **A program of steps shows the values it was made from.** -/
theorem program_replays {step : α → Bytes} (hhold : ∀ v, hold (step v) = 1) (hvalue : ∀ v, value (step v) = f v)
    (hne : original ≠ []) (hbytes : original.length < 256) (h : Placed rows start (program step original)) :
    Replays hold value rows start (original.map f) := by
  rw [program_eq_spelled] at h
  exact spelled_replays (.of_map hhold hvalue) (fun part => by rw [List.length_map]) (describes_collapse original) hne
    hbytes h

/-- **A program of held steps shows the values it was made from.** -/
theorem heldProgram_replays {step : α → UInt8 → Bytes} (hhold : ∀ v n, hold (step v n) = n.toNat)
    (hvalue : ∀ v n, value (step v n) = f v) (hne : original ≠ []) (hbytes : original.length < 256)
    (h : Placed rows start (heldProgram step original)) : Replays hold value rows start (original.map f) := by
  rw [heldProgram_eq_spelled] at h
  refine spelled_replays (.of_runs hhold hvalue) (fun part => ?_) (describes_collapse original) hne hbytes h
  rw [List.length_map]
  exact length_runs part

end Chiptune.Analysis.Repetition
