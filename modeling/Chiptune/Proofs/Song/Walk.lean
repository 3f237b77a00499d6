/-
How a program table is walked, frame by frame.

A step is in effect for the frames it is held, a loop goes on at its target in
the same frame, and a stop stays with the last step. A walk follows a program
wherever it stands in the table (`Placed`): through its steps once, and then
round its loop or with its last step for as long as it likes.
-/
import Chiptune.Failure
import Chiptune.Proofs.Lists

namespace Chiptune.Song

/-- Frames a step of a table is held. -/
def TableKind.hold : TableKind → Bytes → Nat
  | .pulse, step => (step[2]?.getD 0).toNat
  | .wave, _ | .filter, _ | .arpeggio, _ => 1

/-- Where a walk is. -/
structure Cursor where
  /-- The row to go on at. -/
  row : Nat
  /-- The step in effect. -/
  step : Option Bytes := none
  /-- Frames for which it still is. -/
  held : Nat := 0

/-- The step or stop that a row leads to, by no more than so many loops. -/
def settle (rows : List Row) (row : Nat) : (loops : Nat) → Option (Nat × Row)
  | 0 => none
  | loops + 1 =>
    match rows[row]? with
    | some (.loop target) => settle rows target.toNat loops
    | some r => some (row, r)
    | none => none

/-- One frame: the step in effect, and where the walk is after it. -/
def tick (hold : Bytes → Nat) (rows : List Row) (c : Cursor) : Option (Bytes × Cursor) :=
  match c.step, c.held with
  | some step, held + 1 => some (step, { c with held })
  | _, _ =>
    match settle rows c.row rows.length with
    | some (row, .step step) =>
      match hold step with
      | 0 => none
      | held + 1 => some (step, { row := row + 1, step := some step, held })
    | some (row, .stop) => c.step.map fun step => (step, { row, step := some step })
    | _ => none

/-- The steps in effect in so many frames. -/
def walk (hold : Bytes → Nat) (rows : List Row) : (frames : Nat) → Cursor → Option (List Bytes)
  | 0, _ => some []
  | frames + 1, c => do
    let (step, c) ← tick hold rows c
    return step :: (← walk hold rows frames c)

/-- The steps in effect in so many frames of the program at a row. -/
def Table.steps? (t : Table) (start : UInt8) (frames : Nat) : Option (List Bytes) :=
  walk t.kind.hold t.rows frames { row := start.toNat }

/-- Steps, each for the frames it is held. -/
def heldSteps (hold : Bytes → Nat) (steps : List Bytes) : List Bytes :=
  steps.flatMap fun step => List.replicate (hold step) step

theorem heldSteps_cons (hold : Bytes → Nat) (step : Bytes) (steps : List Bytes) :
    heldSteps hold (step :: steps) = List.replicate (hold step) step ++ heldSteps hold steps :=
  List.flatMap_cons

theorem getLast?_heldSteps {hold : Bytes → Nat} : ∀ {steps : List Bytes}, (∀ step ∈ steps, 0 < hold step) →
    (heldSteps hold steps).getLast? = steps.getLast?
  | [], _ => rfl
  | step :: steps, h => by
    have hstep := h step (by simp)
    rw [heldSteps_cons, List.getLast?_append, List.getLast?_replicate, if_neg (by omega),
      getLast?_heldSteps fun step hstep => h step (by simp [hstep]), List.getLast?_cons]
    cases steps.getLast? <;> rfl

/-! ## Walks -/

/-- The walk goes on with these steps, frame by frame. -/
def Walks (hold : Bytes → Nat) (rows : List Row) (c : Cursor) (steps : List Bytes) : Prop :=
  walk hold rows steps.length c = some steps

variable {hold : Bytes → Nat} {rows : List Row} {row : Nat} {s : Option Bytes} {b : Bytes} {steps : List Bytes}

namespace Walks

theorem nil {c : Cursor} : Walks hold rows c [] := rfl

theorem cons {c c' : Cursor} (h : tick hold rows c = some (b, c')) (hsteps : Walks hold rows c' steps) :
    Walks hold rows c (b :: steps) := by
  have hsteps : walk hold rows steps.length c' = some steps := hsteps
  simp only [Walks, List.length_cons, walk, h, hsteps, Option.bind_eq_bind, Option.bind_some, Option.pure_def]

/-- A walk has the steps of any shorter one. -/
theorem shorter : ∀ {steps steps' : List Bytes} {c : Cursor}, steps' <+: steps → Walks hold rows c steps →
    Walks hold rows c steps'
  | _, [], _, _, _ => nil
  | [], _ :: _, _, h, _ => absurd (List.prefix_nil.mp h) (List.cons_ne_nil _ _)
  | s :: steps, s' :: steps', c, h, hwalks => by
    obtain ⟨rfl, hlater⟩ := List.cons_prefix_cons.mp h
    obtain ⟨⟨b, c'⟩, htick, hwalks⟩ := Option.bind_eq_some_iff.mp hwalks
    obtain ⟨rest, hrest, hsteps⟩ := Option.bind_eq_some_iff.mp hwalks
    obtain ⟨rfl, rfl⟩ := List.cons.inj (Option.some.inj hsteps)
    exact cons htick (shorter hlater hrest)

theorem of_tick {c c' : Cursor} (h : tick hold rows c = tick hold rows c') (hwalks : Walks hold rows c' steps) :
    Walks hold rows c steps := by
  cases steps with
  | nil => exact nil
  | cons b steps =>
    obtain ⟨⟨b', c''⟩, htick, hlater⟩ := Option.bind_eq_some_iff.mp hwalks
    obtain ⟨rest, hrest, hsteps⟩ := Option.bind_eq_some_iff.mp hlater
    obtain ⟨rfl, rfl⟩ := List.cons.inj (Option.some.inj hsteps)
    exact cons (h.trans htick) hrest

theorem of_held (h : Walks hold rows ⟨row, some b, 0⟩ steps) : ∀ n : Nat,
    Walks hold rows ⟨row, some b, n⟩ (List.replicate n b ++ steps)
  | 0 => h
  | n + 1 => cons rfl (of_held h n)

theorem of_step (hrow : rows[row]? = some (.step b)) (hhold : 0 < hold b)
    (h : Walks hold rows ⟨row + 1, some b, 0⟩ steps) :
    Walks hold rows ⟨row, s, 0⟩ (List.replicate (hold b) b ++ steps) := by
  obtain ⟨n, hn⟩ : ∃ n, hold b = n + 1 := ⟨hold b - 1, by omega⟩
  obtain ⟨loops, hloops⟩ : ∃ loops, rows.length = loops + 1 :=
    ⟨rows.length - 1, by have := (List.getElem?_eq_some_iff.mp hrow).1; omega⟩
  have htick : tick hold rows ⟨row, s, 0⟩ = some (b, ⟨row + 1, some b, n⟩) := by
    cases s <;> simp only [tick, hloops, settle, hrow, hn]
  rw [hn, List.replicate_succ, List.cons_append]
  exact cons htick (of_held h n)

/-- A loop to a step goes on there. -/
theorem of_loop {target : UInt8} (hrow : rows[row]? = some (.loop target))
    (htarget : rows[target.toNat]? = some (.step b)) (h : Walks hold rows ⟨target.toNat, s, 0⟩ steps) :
    Walks hold rows ⟨row, s, 0⟩ steps := by
  have hne : row ≠ target.toNat := by
    rintro rfl
    rw [hrow] at htarget
    cases htarget
  obtain ⟨loops, hloops⟩ : ∃ loops, rows.length = loops + 2 :=
    ⟨rows.length - 2, by
      have := (List.getElem?_eq_some_iff.mp hrow).1
      have := (List.getElem?_eq_some_iff.mp htarget).1
      omega⟩
  refine of_tick ?_ h
  cases s <;> simp only [tick, hloops, settle, hrow, htarget]

theorem of_stop (hrow : rows[row]? = some .stop) : ∀ n : Nat,
    Walks hold rows ⟨row, some b, 0⟩ (List.replicate n b)
  | 0 => nil
  | n + 1 => by
    obtain ⟨loops, hloops⟩ : ∃ loops, rows.length = loops + 1 :=
      ⟨rows.length - 1, by have := (List.getElem?_eq_some_iff.mp hrow).1; omega⟩
    have htick : tick hold rows ⟨row, some b, 0⟩ = some (b, ⟨row, some b, 0⟩) := by
      simp only [tick, hloops, settle, hrow, Option.map_some]
    exact cons htick (of_stop hrow n)

theorem of_steps : ∀ {bs : List Bytes} {row : Nat} {s : Option Bytes},
    (∀ i b, bs[i]? = some b → rows[row + i]? = some (.step b)) → (∀ b ∈ bs, 0 < hold b) →
      Walks hold rows ⟨row + bs.length, bs.getLast?.or s, 0⟩ steps →
        Walks hold rows ⟨row, s, 0⟩ (heldSteps hold bs ++ steps)
  | [], _, _, _, _, h => h
  | b :: bs, row, s, hrows, hhold, h => by
    rw [heldSteps_cons, List.append_assoc]
    refine of_step (by simpa using hrows 0 b rfl) (hhold b (by simp)) (of_steps (fun i b' hb' => ?_)
      (fun b' hb' => hhold b' (by simp [hb'])) ?_)
    · rw [Nat.add_assoc, Nat.add_comm 1 i]
      exact hrows (i + 1) b' hb'
    · rw [List.getLast?_cons, List.length_cons] at h
      rw [Nat.add_assoc, Nat.add_comm 1]
      cases hlast : bs.getLast? with
      | none => rwa [hlast] at h
      | some b' => rwa [hlast] at h

end Walks

/-! ## Programs in a table -/

namespace Table

variable {t : Table} {program : List Row} {result : UInt8 × Table}

/-- A program is appended if its rows have numbers, and its loops get them. -/
theorem append?_eq_some :
    t.append? program = some result ↔
      (t.rows.length < maxRows ∧ t.rows.length + program.length ≤ maxRows) ∧
        ∃ rows, program.mapM (shiftRow? t.rows.length) = some rows ∧
          (UInt8.ofNat t.rows.length, { t with rows := t.rows ++ rows }) = result := by
  unfold append?
  by_cases hroom : t.rows.length < maxRows ∧ t.rows.length + program.length ≤ maxRows
  · rw [if_pos hroom]
    cases program.mapM (shiftRow? t.rows.length) <;> simp [hroom]
  · simp [hroom]

theorem append_eq_ok : t.append program = .ok result ↔ t.append? program = some result := by
  unfold append
  cases t.append? program <;> simp

end Table

/-- The rows of a table from some row on are a program's. -/
def Placed (rows : List Row) (start : Nat) (program : List Row) : Prop :=
  ∀ i r, program[i]? = some r → ∃ r', Table.shiftRow? start r = some r' ∧ rows[start + i]? = some r'

namespace Placed

variable {start target : Nat} {bs : List Bytes}

/-- Rows that are appended leave a program where it is. -/
theorem mono {program rows' : List Row} (h : Placed rows start program) (hrows : rows <+: rows') :
    Placed rows' start program := by
  intro i r hr
  obtain ⟨r', hshift, hr'⟩ := h i r hr
  exact ⟨r', hshift, getElem?_mono hrows hr'⟩

theorem lt_length {program : List Row} (h : Placed rows start program) (hprogram : program ≠ []) :
    start < rows.length := by
  obtain ⟨r', -, hr'⟩ := h 0 _ (List.getElem?_eq_getElem (List.length_pos_of_ne_nil hprogram))
  exact (List.getElem?_eq_some_iff.mp hr').1

theorem ne_nil {program : List Row} (h : Placed rows start program) (hprogram : program ≠ []) : rows ≠ [] :=
  List.ne_nil_of_length_pos (Nat.lt_of_le_of_lt (Nat.zero_le _) (h.lt_length hprogram))

theorem step {last : Row} (h : Placed rows start (bs.map .step ++ [last])) {i : Nat} {b : Bytes}
    (hb : bs[i]? = some b) : rows[start + i]? = some (.step b) := by
  obtain ⟨r', hshift, hr'⟩ := h i (.step b) (by
    rw [List.getElem?_append_left (by simpa using (List.getElem?_eq_some_iff.mp hb).1), List.getElem?_map, hb]
    rfl)
  cases hshift
  exact hr'

theorem last {last : Row} (h : Placed rows start (bs.map .step ++ [last])) :
    ∃ r, Table.shiftRow? start last = some r ∧ rows[start + bs.length]? = some r :=
  h bs.length last (by rw [List.getElem?_append_right (by simp)]; simp)

/-- A program that stops is walked through and then stays with its last step. -/
theorem walks_stop (h : Placed rows start (bs.map .step ++ [.stop])) (hhold : ∀ b ∈ bs, 0 < hold b)
    (hb : bs.getLast? = some b) (n : Nat) :
    Walks hold rows ⟨start, none, 0⟩ (heldSteps hold bs ++ List.replicate n b) := by
  obtain ⟨r, hshift, hr⟩ := h.last
  cases hshift
  refine .of_steps (fun i b' => h.step) hhold ?_
  rw [hb]
  exact .of_stop hr n

/-- A program that loops is walked through and then round its loop. -/
theorem walks_loop (h : Placed rows start (bs.map .step ++ [.loop (UInt8.ofNat target)]))
    (hhold : ∀ b ∈ bs, 0 < hold b) (htarget : target < bs.length) (hbyte : target < 256) (m : Nat) :
    Walks hold rows ⟨start, none, 0⟩
      (heldSteps hold (bs.take target) ++ (List.replicate m (heldSteps hold (bs.drop target))).flatten) := by
  obtain ⟨r, hshift, hr⟩ := h.last
  have htoNat : (UInt8.ofNat target).toNat = target := by
    rw [UInt8.toNat_ofNat']
    omega
  rw [Table.shiftRow?, htoNat] at hshift
  split at hshift
  next hrow =>
    cases hshift
    have hloop : (UInt8.ofNat (target + start)).toNat = start + target := by
      rw [UInt8.toNat_ofNat']
      unfold maxRows at hrow
      omega
    -- A round may start after the steps before the loop or after another round, so `s` is arbitrary.
    have hround : ∀ (m : Nat) (s : Option Bytes), Walks hold rows ⟨start + target, s, 0⟩
        (List.replicate m (heldSteps hold (bs.drop target))).flatten := by
      intro m
      induction m with
      | zero => exact fun _ => .nil
      | succ m ih =>
        intro s
        rw [List.replicate_succ, List.flatten_cons]
        refine .of_steps (fun i b' hb' => ?_) (fun b' hb' => hhold b' (List.mem_of_mem_drop hb')) ?_
        · rw [List.getElem?_drop] at hb'
          rw [Nat.add_assoc]
          exact h.step hb'
        · have hrow : start + target + (bs.drop target).length = start + bs.length := by
            rw [List.length_drop]
            omega
          rw [hrow]
          refine .of_loop hr (b := bs[target]) ?_ ?_
          · rw [hloop]
            exact h.step (List.getElem?_eq_getElem htarget)
          · rw [hloop]
            exact ih _
    refine .of_steps (fun i b' hb' => ?_) (fun b' hb' => hhold b' (List.mem_of_mem_take hb')) ?_
    · obtain ⟨hi, rfl⟩ := List.getElem?_eq_some_iff.mp hb'
      rw [List.length_take] at hi
      refine h.step ?_
      rw [List.getElem_take, List.getElem?_eq_getElem]
    · have hrow : (bs.take target).length = target := by
        rw [List.length_take]
        omega
      rw [hrow]
      exact hround m _
  · cases hshift

/-- A program stands where it has been appended, and the rows before it stay. -/
theorem of_append? {t t' : Table} {program : List Row} {first : UInt8} (h : t.append? program = some (first, t')) :
    first.toNat = t.rows.length ∧ Placed t'.rows first.toNat program ∧ t.rows <+: t'.rows ∧ t'.kind = t.kind := by
  obtain ⟨⟨hlength, -⟩, rows, hrows, happended⟩ := Table.append?_eq_some.mp h
  cases happended
  have hfirst : (UInt8.ofNat t.rows.length).toNat = t.rows.length := UInt8.toNat_ofNat_of_lt' hlength
  refine ⟨hfirst, fun i r hr => ?_, List.prefix_append .., rfl⟩
  obtain ⟨r', hshift, hr'⟩ := exists_getElem?_of_mapM hrows hr
  rw [hfirst]
  exact ⟨r', hshift, by rw [List.getElem?_append_right (by omega), Nat.add_sub_cancel_left, hr']⟩

end Placed

end Chiptune.Song
