/-
Rows of a player's slots read back as they were written, each in as many bytes
as its slot has columns.

A step reads back only if its first byte is not a marker, a loop of an
arpeggio only if its target fits in seven bits, and an instrument only if none
of its programs starts at the row that stands for none.
-/
import Chiptune.Player.Rows
import Chiptune.Proofs.Outcome

namespace Chiptune.Player.Rows

open Song

/-! ## Programs -/

theorem length_fill (length : Nat) (bytes : Bytes) : (fill length bytes).length = length := by
  simp only [fill, List.length_append, List.length_take, List.length_replicate]
  omega

theorem fill_of_length {length : Nat} {bytes : Bytes} (h : bytes.length = length) :
    fill length bytes = bytes := by
  simp [fill, ← h]

theorem length_encodeRow {kind : TableKind} {columns : Nat} {row : Row} {bytes : Bytes}
    (h : encodeRow kind columns row = .ok bytes) : bytes.length = columns := by
  unfold encodeRow at h
  split at h
  case h_2 =>
    split at h
    · cases h
      exact length_fill ..
    · cases h
  all_goals
    cases h
    exact length_fill ..

theorem stepBytes_of_not_collides {kind : TableKind} {bytes : Bytes}
    (h : collides kind (.step bytes) = false) : stepBytes kind bytes = bytes := by
  cases bytes with
  | nil => rfl
  | cons first rest =>
    simp only [collides] at h
    simp [stepBytes, h]

/-- The byte of an arpeggio's loop is no end, has the loop's bit and names its target. -/
theorem arpeggioLoop_or {target : UInt8} (h : target.toNat < arpeggioRows) :
    arpeggioLoop ||| target ≠ arpeggioEnd ∧ (arpeggioLoop ||| target) &&& arpeggioLoop ≠ 0 ∧
      (arpeggioLoop ||| target) &&& 0x7F = target := by
  have hall : ∀ n : Fin 128, arpeggioLoop ||| UInt8.ofNat n ≠ arpeggioEnd ∧
      (arpeggioLoop ||| UInt8.ofNat n) &&& arpeggioLoop ≠ 0 ∧
        (arpeggioLoop ||| UInt8.ofNat n) &&& 0x7F = UInt8.ofNat n := by
    decide +kernel
  simpa using hall ⟨target.toNat, h⟩

/-- A byte below the markers of an arpeggio is a step. -/
theorem and_arpeggioLoop {first : UInt8} (h : ¬ arpeggioEnd ≤ first) :
    first ≠ arpeggioEnd ∧ first &&& arpeggioLoop = 0 := by
  have hall : ∀ n : Fin 127, UInt8.ofNat n ≠ arpeggioEnd ∧ UInt8.ofNat n &&& arpeggioLoop = 0 := by
    decide +kernel
  have hlt : first.toNat < 127 := by
    rw [UInt8.not_le] at h
    exact h
  simpa using hall ⟨first.toNat, hlt⟩

/-- **A row reads back** if it is no step that looks like a marker. -/
theorem decodeRow_encodeRow {kind : TableKind} {row : Row} {bytes : Bytes}
    (hwidth : ∀ step, row = .step step → step.length = kind.width)
    (hcollides : collides kind row = false) (h : encodeRow kind kind.width row = .ok bytes) :
    decodeRow kind bytes = row := by
  cases row with
  | step step =>
    have hstep := stepBytes_of_not_collides hcollides
    have hlength := hwidth step rfl
    obtain ⟨first, rest, rfl⟩ : ∃ first rest, step = first :: rest := by
      cases step with
      | nil => cases kind <;> cases hlength
      | cons first rest => exact ⟨first, rest, rfl⟩
    simp only [collides, isMarker] at hcollides
    cases kind with
    | arpeggio =>
      obtain rfl : rest = [] := by simpa [TableKind.width] using hlength
      have hbyte := and_arpeggioLoop (of_decide_eq_false hcollides)
      simp only [encodeRow, hstep] at h
      cases h
      simp [decodeRow, fill, TableKind.width, hbyte]
    | wave | pulse | filter =>
      cases h
      simp only [Bool.or_eq_false_iff, beq_eq_false_iff_ne, ne_eq] at hcollides
      simp only [decodeRow, hstep, fill_of_length hlength, List.headD_cons, hcollides, if_false]
  | loop target =>
    cases kind with
    | arpeggio =>
      simp only [encodeRow] at h
      split at h
      case isFalse => cases h
      case isTrue htarget =>
        have hbyte := arpeggioLoop_or htarget
        cases h
        simp [decodeRow, fill, TableKind.width, hbyte]
    | wave | pulse | filter => cases h; rfl
  | stop => cases kind <;> cases h <;> rfl

theorem length_of_encodeTable {t : Table} {columns : Nat} {rows : List Bytes}
    (h : encodeTable t columns = .ok rows) :
    rows.length = t.rows.length ∧ ∀ r ∈ rows, r.length = columns :=
  ⟨(mapM_eq_ok.mp h).length_eq.symm, forall_of_mapM_eq_ok (fun _ _ => length_encodeRow) h⟩

/-- **A table reads back** if none of its steps looks like a marker. -/
theorem decodeTable_encodeTable {t : Table} {rows : List Bytes}
    (hwidth : ∀ step, .step step ∈ t.rows → step.length = t.kind.width) (hloss : tableLoss? t = none)
    (h : encodeTable t t.kind.width = .ok rows) :
    decodeTable t.kind rows = { t with provenance := .static } := by
  have hcollides : ∀ row ∈ t.rows, collides t.kind row = false := by
    simpa [tableLoss?] using hloss
  have hrows : rows.map (decodeRow t.kind) = t.rows := by
    refine map_of_mapM_eq_ok (fun row hrow bytes hbytes => ?_) h
    exact decodeRow_encodeRow (fun step e => hwidth step (e ▸ hrow)) (hcollides row hrow) hbytes
  rw [decodeTable, hrows]

/-! ## Instruments and commands -/

theorem length_encodeInstrument (i : Instrument) : (encodeInstrument i).length = 6 := rfl

theorem length_encodeCommand (c : Command) : (encodeCommand c).length = 3 := rfl

theorem program?_getD {start : Option UInt8} (h : start ≠ some noProgram) :
    program? (start.getD noProgram) = start := by
  cases start with
  | none => rfl
  | some row =>
    have hrow : row ≠ noProgram := fun e => h (by rw [e])
    simp [program?, hrow]

theorem decodeInstrument_encodeInstrument {i : Instrument} (hpulse : i.pulse ≠ some noProgram)
    (hfilter : i.filter ≠ some noProgram) : decodeInstrument (encodeInstrument i) = i := by
  have hp := program?_getD hpulse
  have hf := program?_getD hfilter
  cases i with
  | mk attackDecay sustainRelease wave pulse filter hardRestart =>
    cases hardRestart <;> simp_all [decodeInstrument, encodeInstrument, hardRestartFlag]

theorem decodeCommand_encodeCommand (c : Command) : decodeCommand (encodeCommand c) = .ok c := by
  simp [decodeCommand, encodeCommand, CommandKind.ofId?_id]

theorem mapM_decodeCommand (commands : List Command) :
    (commands.map encodeCommand).mapM decodeCommand = .ok commands := by
  rw [mapM_eq_ok, List.forall₂_map_left_iff, List.forall₂_same]
  exact fun c _ => decodeCommand_encodeCommand c

end Chiptune.Player.Rows
