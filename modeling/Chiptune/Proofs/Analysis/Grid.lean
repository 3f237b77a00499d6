/-
The grid of rows that fits every mark of a trace.

A row lasts the greatest number of frames that divides the frame of every mark
(`isGreatest_rowLength`), so a mark is where a row starts and no two marks of a
voice share a row (`rowEvent?_of_on`, `rowEvent?_of_off`).
-/
import Chiptune.Analysis.Reconstruction
import Chiptune.Proofs.Analysis.Performance
import Mathlib.Data.List.Find
import Mathlib.Order.Bounds.Basic

namespace Chiptune.Analysis.Reconstruction

open Sound Song

/-! ## Row length -/

theorem greatestDivisor_dvd (n : Nat) : ∀ bound, greatestDivisor n bound ∣ n
  | 0 => Nat.one_dvd n
  | d + 1 => by
    unfold greatestDivisor
    split
    next h => exact Nat.dvd_of_mod_eq_zero h
    · exact greatestDivisor_dvd n d

theorem greatestDivisor_pos (n : Nat) : ∀ bound, 0 < greatestDivisor n bound
  | 0 => Nat.one_pos
  | d + 1 => by
    unfold greatestDivisor
    split
    · exact Nat.succ_pos d
    · exact greatestDivisor_pos n d

theorem greatestDivisor_le (n : Nat) : ∀ bound, greatestDivisor n bound ≤ max bound 1
  | 0 => Nat.le_refl 1
  | d + 1 => by
    have hle := greatestDivisor_le n d
    unfold greatestDivisor
    split <;> omega

theorem le_greatestDivisor {n d : Nat} (hd : d ∣ n) : ∀ {bound : Nat}, d ≤ bound → d ≤ greatestDivisor n bound
  | 0, hle => Nat.le_trans hle (Nat.zero_le 1)
  | bound + 1, hle => by
    unfold greatestDivisor
    split
    · exact hle
    next h =>
      have hne : d ≠ bound + 1 := by
        rintro rfl
        exact h (Nat.mod_eq_zero_of_dvd hd)
      exact le_greatestDivisor hd (by omega)

theorem foldl_gcd_dvd : ∀ (frames : List Nat) (g : Nat),
    frames.foldl Nat.gcd g ∣ g ∧ ∀ f ∈ frames, frames.foldl Nat.gcd g ∣ f
  | [], g => ⟨Nat.dvd_refl g, by simp⟩
  | f :: frames, g => by
    obtain ⟨hg, hframes⟩ := foldl_gcd_dvd frames (Nat.gcd g f)
    rw [List.foldl_cons]
    refine ⟨Nat.dvd_trans hg (Nat.gcd_dvd_left g f), ?_⟩
    intro f' hf'
    rcases List.mem_cons.mp hf' with rfl | hf'
    · exact Nat.dvd_trans hg (Nat.gcd_dvd_right g f')
    · exact hframes f' hf'

theorem dvd_foldl_gcd {d : Nat} : ∀ {frames : List Nat} {g : Nat}, d ∣ g → (∀ f ∈ frames, d ∣ f) →
    d ∣ frames.foldl Nat.gcd g
  | [], _, hg, _ => hg
  | f :: frames, g, hg, h => by
    rw [List.foldl_cons]
    exact dvd_foldl_gcd (Nat.dvd_gcd hg (h f (by simp))) fun f' hf' => h f' (by simp [hf'])

theorem toNat_max_one (b : UInt8) : (max b 1).toNat = max 1 b.toNat := by
  rw [UInt8.toNat_max]
  exact Nat.max_comm _ _

variable {frames : List Nat} {maxTempo : UInt8}

theorem toNat_rowLength (h : frames.foldl Nat.gcd 0 ≠ 0) :
    (rowLength frames maxTempo).toNat =
      greatestDivisor (frames.foldl Nat.gcd 0) (max maxTempo 1).toNat := by
  have hle := greatestDivisor_le (frames.foldl Nat.gcd 0) (max maxTempo 1).toNat
  have hlt := (max maxTempo 1).toNat_lt
  rw [rowLength, if_neg h, UInt8.toNat_ofNat', Nat.mod_eq_of_lt]
  omega

theorem rowLength_pos (frames : List Nat) (maxTempo : UInt8) : 0 < (rowLength frames maxTempo).toNat := by
  by_cases h : frames.foldl Nat.gcd 0 = 0
  · rw [rowLength, if_pos h, toNat_max_one]
    omega
  · rw [toNat_rowLength h]
    exact greatestDivisor_pos ..

theorem rowLength_le (frames : List Nat) (maxTempo : UInt8) :
    (rowLength frames maxTempo).toNat ≤ max 1 maxTempo.toNat := by
  by_cases h : frames.foldl Nat.gcd 0 = 0
  · rw [rowLength, if_pos h, toNat_max_one]
  · have hle := greatestDivisor_le (frames.foldl Nat.gcd 0) (max 1 maxTempo.toNat)
    rw [toNat_rowLength h, toNat_max_one]
    omega

theorem dvd_rowLength {f : Nat} (hf : f ∈ frames) : (rowLength frames maxTempo).toNat ∣ f := by
  have hdvd := (foldl_gcd_dvd frames 0).2 f hf
  by_cases h : frames.foldl Nat.gcd 0 = 0
  · rw [h, Nat.zero_dvd] at hdvd
    rw [hdvd]
    exact Nat.dvd_zero _
  · rw [toNat_rowLength h]
    exact Nat.dvd_trans (greatestDivisor_dvd _ _) hdvd

/-- No length up to the bound that fits every frame is longer. -/
theorem le_rowLength {d : Nat} (hle : d ≤ max 1 maxTempo.toNat) (hd : ∀ f ∈ frames, d ∣ f) :
    d ≤ (rowLength frames maxTempo).toNat := by
  by_cases h : frames.foldl Nat.gcd 0 = 0
  · rw [rowLength, if_pos h, toNat_max_one]
    exact hle
  · rw [toNat_rowLength h, toNat_max_one]
    exact le_greatestDivisor (dvd_foldl_gcd (Nat.dvd_zero d) hd) hle

/-- **A row lasts as long as the frames and the bound allow.** -/
theorem isGreatest_rowLength (frames : List Nat) (maxTempo : UInt8) :
    IsGreatest {d | 1 ≤ d ∧ d ≤ max 1 maxTempo.toNat ∧ ∀ f ∈ frames, d ∣ f} (rowLength frames maxTempo).toNat :=
  ⟨⟨rowLength_pos frames maxTempo, rowLength_le frames maxTempo, fun _ => dvd_rowLength⟩,
    fun _ hd => le_rowLength hd.2.1 hd.2.2⟩

/-- If all that happens is in the first frame, a row is as long as it may be. -/
example : rowLength [12, 20] 16 = 4 ∧ rowLength [0, 0] 16 = 16 := by decide +kernel

/-! ## Rows -/

theorem lt_rowCount {frames tempo row : Nat} (htempo : 0 < tempo) (h : row * tempo < frames) :
    row < rowCount frames tempo := by
  rw [rowCount, Nat.lt_iff_add_one_le, Nat.le_div_iff_mul_le htempo, Nat.succ_mul]
  omega

section Events

variable {tempo row : Nat} {offs : List Nat} {notes : List Assigned}

theorem div_eq_iff {frame : Nat} (htempo : 0 < tempo) (h : tempo ∣ frame) :
    frame / tempo = row ↔ frame = row * tempo := by
  obtain ⟨k, rfl⟩ := h
  rw [Nat.mul_div_cancel_left k htempo, Nat.mul_comm tempo k, Nat.mul_left_inj (by omega)]

theorem rowEvent?_of_on (htempo : 0 < tempo) (hgrid : ∀ n ∈ notes, tempo ∣ n.note.frame)
    (hdistinct : notes.Pairwise fun a b => a.note.frame ≠ b.note.frame) {n : Assigned} (hn : n ∈ notes)
    (hframe : n.note.frame = row * tempo) :
    rowEvent? tempo offs notes row = some (.note n.note.pitch (UInt8.ofNat n.instrument)) := by
  have hfind : notes.reverse.find? (·.note.frame / tempo == row) = some n := by
    have hrow : ∀ m ∈ notes.reverse, (m.note.frame / tempo == row) = (m.note.frame == n.note.frame) := by
      intro m hm
      rw [Bool.eq_iff_iff, beq_iff_eq, beq_iff_eq, div_eq_iff htempo (hgrid m (List.mem_reverse.mp hm)), hframe]
    have hreverse : notes.reverse.Pairwise fun a b => a.note.frame ≠ b.note.frame :=
      List.pairwise_reverse.mpr (hdistinct.imp Ne.symm)
    rw [List.find?_congr hrow, find?_of_pairwise hreverse (List.mem_reverse.mpr hn)]
  rw [rowEvent?, hfind]

theorem find?_eq_none_of_off (htempo : 0 < tempo) (hgrid : ∀ n ∈ notes, tempo ∣ n.note.frame)
    (hframe : ∀ n ∈ notes, n.note.frame ≠ row * tempo) :
    notes.reverse.find? (·.note.frame / tempo == row) = none := by
  rw [List.find?_eq_none]
  intro n hn
  have hn := List.mem_reverse.mp hn
  rw [beq_iff_eq, div_eq_iff htempo (hgrid n hn)]
  exact hframe n hn

theorem rowEvent?_of_off (htempo : 0 < tempo) (hgrid : ∀ n ∈ notes, tempo ∣ n.note.frame)
    (hframe : ∀ n ∈ notes, n.note.frame ≠ row * tempo) (hoff : row * tempo ∈ offs) :
    rowEvent? tempo offs notes row = some .off := by
  have hany : offs.any (· / tempo == row) = true := by
    rw [List.any_eq_true]
    exact ⟨_, hoff, by rw [Nat.mul_div_cancel _ htempo, beq_self_eq_true]⟩
  rw [rowEvent?, find?_eq_none_of_off htempo hgrid hframe, if_pos hany]

theorem rowEvent?_of_none (htempo : 0 < tempo) (hgrid : ∀ n ∈ notes, tempo ∣ n.note.frame)
    (hframe : ∀ n ∈ notes, n.note.frame ≠ row * tempo) (hoffs : ∀ f ∈ offs, tempo ∣ f)
    (hoff : row * tempo ∉ offs) : rowEvent? tempo offs notes row = none := by
  have hany : ¬ offs.any (· / tempo == row) = true := by
    rw [List.any_eq_true]
    rintro ⟨f, hf, hrow⟩
    rw [beq_iff_eq, div_eq_iff htempo (hoffs f hf)] at hrow
    exact hoff (hrow ▸ hf)
  rw [rowEvent?, find?_eq_none_of_off htempo hgrid hframe, if_neg hany]

theorem event_gridOf {rows : Nat} {commands : List (Nat × Command)} (h : row < rows) :
    (gridOf tempo rows offs notes commands)[row]?.bind (·.event) = rowEvent? tempo offs notes row := by
  rw [gridOf, List.getElem?_map, List.getElem?_range h]
  rfl

end Events

end Chiptune.Analysis.Reconstruction
