/-
Copying programs from table to table.

A program is taken out of a table with its loops counted from its own first
row (`programAt`), and they are counted from the table's first row again when
it is appended. The two undo each other (`append_extract`). Appending is all or
nothing: carried out on a table in place, it has changed nothing when it fails
(`Table.run_extend`).
-/
import Chiptune.Analysis.Completion
import Chiptune.Proofs.Analysis.Validity

namespace Chiptune.Song

/-! ## In place -/

/-- The value, or a failure that leaves the table as it is. -/
def orThrow {α : Type} (f : Failure) : Option α → EStateM Failure Table α
  | some a => pure a
  | none => throw f

/-- Append a program in place. Rows are counted, then loops are moved one by one, and the table is changed at last. -/
def Table.extend (program : List Row) : EStateM Failure Table UInt8 := do
  let t ← get
  let overflow : Failure := .malformedSong [.tableOverflow t.kind (t.rows.length + program.length)]
  if maxRows ≤ t.rows.length then throw overflow
  else if maxRows < t.rows.length + program.length then throw overflow
  else
    let rows ← program.mapM fun row => orThrow overflow (shiftRow? t.rows.length row)
    set { t with rows := t.rows ++ rows }
    return UInt8.ofNat t.rows.length

@[simp] theorem run_orThrow {α : Type} (f : Failure) (value : Option α) (t : Table) :
    (orThrow f value).run t =
      match value with
      | some a => .ok a t
      | none => .error f t := by
  cases value <;> rfl

theorem run_mapM_orThrow (f : Failure) (shift : Row → Option Row) (t : Table) : ∀ program : List Row,
    (program.mapM fun row => orThrow f (shift row)).run t =
      match program.mapM shift with
      | some rows => .ok rows t
      | none => .error f t
  | [] => rfl
  | row :: program => by
    have hrest := run_mapM_orThrow f shift t program
    cases hrow : shift row with
    | none => simp [hrow]
    | some row' =>
      simp only [List.mapM_cons, EStateM.run_bind, run_orThrow, hrow, hrest]
      cases program.mapM shift <;> rfl

/-- Appending in place does to the table what `append` says. **One that fails changes nothing.** -/
theorem Table.run_extend (t : Table) (program : List Row) :
    (extend program).run t =
      match t.append program with
      | .ok (start, t') => .ok start t'
      | .error f => .error f t := by
  unfold extend Table.append Table.append?
  by_cases hrows : t.rows.length < maxRows
  · by_cases hroom : t.rows.length + program.length ≤ maxRows
    · simp only [EStateM.run_bind, EStateM.run_get, if_neg (Nat.not_le.mpr hrows), if_neg (Nat.not_lt.mpr hroom),
        run_mapM_orThrow, hrows, hroom, and_self, if_true]
      cases program.mapM (shiftRow? t.rows.length) <;> rfl
    · simp [hrows, hroom, Nat.not_le.mp hroom, Nat.not_le.mpr hrows]
      rfl
  · simp [hrows, Nat.not_lt.mp hrows]
    rfl

/-! ## Room -/

section Programs

variable {t t' : Table} {steps : List Bytes} {last : Row} {first : UInt8}

/-- The last row of a program can be moved into a table with room for the program. -/
theorem Row.Ends.exists_shifted {n start : Nat} (h : last.Ends 0 n) (hroom : start + n ≤ maxRows) :
    ∃ last', Table.shiftRow? start last = some last' := by
  cases last with
  | step bytes => exact h.elim
  | stop => exact ⟨.stop, rfl⟩
  | loop target =>
    obtain ⟨-, hlast⟩ := h
    exact ⟨_, if_pos (by omega)⟩

/-- A program can be appended where its rows have room. -/
theorem exists_append?_iff (hends : last.Ends 0 steps.length) :
    (∃ result, t.append? (steps.map .step ++ [last]) = some result) ↔
      t.rows.length < maxRows ∧ t.rows.length + (steps.map Row.step ++ [last]).length ≤ maxRows := by
  constructor
  · rintro ⟨result, h⟩
    exact (Table.append?_eq_some.mp h).1
  · intro hroom
    have hfits : t.rows.length + steps.length ≤ maxRows := by
      simp only [List.length_append, List.length_map] at hroom
      omega
    obtain ⟨last', hlast⟩ := hends.exists_shifted hfits
    have hrows : (steps.map Row.step ++ [last]).mapM (Table.shiftRow? t.rows.length) =
        some (steps.map .step ++ [last']) := by
      rw [mapM_shiftRow?_program, hlast]
      rfl
    exact ⟨_, Table.append?_eq_some.mpr ⟨hroom, _, hrows, rfl⟩⟩

/-- Steps of a program that has no faults have the width of the table's kind. -/
theorem Table.Proper.step_length (h : ({ t with rows := steps.map .step ++ [last] } : Table).Proper) :
    ∀ step ∈ steps, step.length = t.kind.width := by
  intro step hstep
  have hmem : Row.step step ∈ steps.map Row.step ++ [last] := List.mem_append_left _ (List.mem_map_of_mem hstep)
  obtain ⟨i, hi⟩ := List.getElem?_of_mem hmem
  exact rowFaults_eq_nil.mp (h i _ hi)

end Programs

end Chiptune.Song

namespace Chiptune.Analysis

open Song

variable {t t' : Table} {steps : List Bytes} {last : Row} {first : UInt8}

theorem programRows_steps (start : Nat) (rest : List Row) : ∀ (n : Nat) (steps : List Bytes),
    programRows start n (steps.map .step ++ rest) = steps.map .step ++ programRows start (n + steps.length) rest
  | _, [] => rfl
  | n, step :: steps => by
    have hrest := programRows_steps start rest (n + 1) steps
    rw [Nat.add_right_comm] at hrest
    simp only [List.map_cons, List.cons_append, programRows, hrest, List.length_cons, Nat.add_assoc]

/-- The end of a program that was moved down is the one it had. -/
theorem programRows_shifted {start n : Nat} {last' : Row} (hends : last.Ends 0 n)
    (h : Table.shiftRow? start last = some last') : programRows start n [last'] = [last] := by
  cases last with
  | step bytes => exact hends.elim
  | stop =>
    cases h
    rfl
  | loop target =>
    obtain ⟨-, hlast⟩ := hends
    rw [Table.shiftRow?] at h
    split at h
    next hbyte =>
      cases h
      rw [programRows, UInt8.toNat_ofNat_of_lt' hbyte, Nat.add_sub_cancel, Nat.min_eq_left (by omega),
        UInt8.ofNat_toNat]
    · cases h

/-- **A program that was appended is found where it starts**, with the loops it had. -/
theorem programAt_of_append? (hends : last.Ends 0 steps.length)
    (h : t.append? (steps.map .step ++ [last]) = some (first, t')) :
    programAt t' first.toNat = steps.map .step ++ [last] := by
  obtain ⟨last', hlast, ht'⟩ := append?_program h
  have hfirst := (Placed.of_append? h).1
  rw [programAt, hfirst, ht', List.drop_left, programRows_steps, Nat.zero_add, programRows_shifted hends hlast]

/-- **Appending and extracting.** A program of steps and a row that ends it or goes back to one of them can be appended
to a table exactly if its rows get numbers that fit a byte. It starts at the first new row, the rows before it stay, and
it is the program that is found there; a table without faults has none afterwards. Any append that fails, in place,
leaves the table as it was. -/
theorem append_extract (t : Table) :
    (∀ (steps : List Bytes) (last : Row), last.Ends 0 steps.length →
      let program := steps.map Row.step ++ [last]
      ((∃ result, t.append program = .ok result) ↔ t.rows.length ≤ 255 ∧ t.rows.length + program.length ≤ 256) ∧
      ∀ first t', t.append program = .ok (first, t') →
        first.toNat = t.rows.length ∧ t'.kind = t.kind ∧ t'.provenance = t.provenance ∧
        t'.rows.length = t.rows.length + program.length ∧ t.rows <+: t'.rows ∧ programAt t' first.toNat = program ∧
        (t.Proper → ({ t with rows := program } : Table).Proper → t'.Sound)) ∧
    ∀ program, (Table.extend program).run t =
      match t.append program with
      | .ok (first, t') => .ok first t'
      | .error f => .error f t := by
  refine ⟨?_, t.run_extend⟩
  intro steps last hends program
  simp only [Table.append_eq_ok]
  refine ⟨?_, ?_⟩
  · rw [exists_append?_iff hends]
    simp only [maxRows, program]
    omega
  · intro first t' h
    obtain ⟨last', hlast, ht'⟩ := append?_program h
    obtain ⟨hfirst, -, hprefix, hkind⟩ := Placed.of_append? h
    refine ⟨hfirst, hkind, ?_, ?_, hprefix, programAt_of_append? hends h, ?_⟩
    · rw [ht']
    · rw [ht']
      simp [program]
    · intro ht hprogram
      exact ht.append hprogram.step_length hends h

/-- A table with room for six more rows. -/
def nearlyFull : Table := { kind := .pulse, rows := List.replicate 250 (.step [8, 0, 1]) }

/-- Steps of a pulse width that gets smaller. -/
def fading : List Bytes := [[8, 0, 1], [6, 0, 1], [4, 0, 1], [2, 0, 1], [1, 0, 1]]

/-- Five steps with a loop to the first of them can be appended once. A second time there is no row for them, and the
full table stays as it is. -/
theorem append_extract_nearlyFull :
    let program := fading.map Row.step ++ [.loop 0]
    (Row.loop 0).Ends 0 fading.length ∧ nearlyFull.Proper ∧ ({ nearlyFull with rows := program } : Table).Proper ∧
      ∃ t', nearlyFull.append program = .ok (250, t') ∧ programAt t' 250 = program ∧ t'.Sound ∧
        ∃ f, (Table.extend program).run t' = .error f t' := by
  intro program
  have hends : (Row.loop 0).Ends 0 fading.length := ⟨Nat.zero_le _, by decide⟩
  have hproper : nearlyFull.Proper := by
    intro i row hrow
    obtain rfl := List.eq_of_mem_replicate (List.mem_of_getElem? hrow)
    rfl
  have hprogram : ({ nearlyFull with rows := program } : Table).Proper :=
    (IsProgram.sound ⟨fading, _, rfl, by decide, hends⟩ .static).2
  have hlength : nearlyFull.rows.length = 250 := List.length_replicate
  refine ⟨hends, hproper, hprogram, ?_⟩
  obtain ⟨hroom, happended⟩ := (append_extract nearlyFull).1 fading (.loop 0) hends
  obtain ⟨⟨first, t'⟩, happend⟩ := hroom.mpr (by rw [hlength]; decide)
  obtain ⟨hfirst, -, -, hlength', -, hat, hsound⟩ := happended first t' happend
  obtain rfl : first = 250 := UInt8.toNat_inj.mp (hfirst.trans hlength)
  refine ⟨t', happend, hat, hsound hproper hprogram, ?_⟩
  obtain ⟨hagain, -⟩ := (append_extract t').1 fading (.loop 0) hends
  have hrun := (append_extract t').2 program
  cases hfull : t'.append program with
  | error f =>
    rw [hfull] at hrun
    exact ⟨f, hrun⟩
  | ok result =>
    have hle := (hagain.mp ⟨result, hfull⟩).1
    have hrows : t'.rows.length = 256 := by rw [hlength', hlength]; decide
    omega

end Chiptune.Analysis
