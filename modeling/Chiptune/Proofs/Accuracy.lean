/-
The report of a comparison, read off the two traces.

What is counted comes from one list of differences for each frame: nothing in
it is of a register exactly when the two banks agree there
(`agreesOn_differences`). With the snapshots read off the writes
(`Trace.snapshots_eq`) every part of a report is a statement about the frames
that both traces have (`Report.Exact`).
-/
import Mathlib.Algebra.GroupWithZero.Nat
import Chiptune.Accuracy
import Chiptune.Proofs.Sound.Trace

namespace Chiptune

open Sound

namespace Sound

/-! ## Banks -/

theorem Register.exists_offset : ∀ i : Fin 25, ∃ r ∈ Register.all, r.offset = i.val := by decide

theorem Bank.eq_of_get {x y : Bank} (h : ∀ r, x.get r = y.get r) : x = y := by
  obtain ⟨x⟩ := x
  obtain ⟨y⟩ := y
  congr 1
  refine Vector.ext fun i hi => ?_
  obtain ⟨r, -, rfl⟩ := Register.exists_offset ⟨i, hi⟩
  exact h r

end Sound

namespace Accuracy

/-- The registers of a voice are the same. -/
def SameVoice (x y : Bank) (v : Voice) : Prop := ∀ r ∈ VoiceRegister.all, x.get (.voice v r) = y.get (.voice v r)

instance (x y : Bank) (v : Voice) : Decidable (SameVoice x y v) := inferInstanceAs (Decidable (∀ _ ∈ _, _))

/-- Filter and volume are the same. -/
def SameFilter (x y : Bank) : Prop :=
  x.get .cutoffLo = y.get .cutoffLo ∧ x.get .cutoffHi = y.get .cutoffHi ∧ x.get .resonance = y.get .resonance ∧
    x.get .modeVolume = y.get .modeVolume

instance (x y : Bank) : Decidable (SameFilter x y) := inferInstanceAs (Decidable (_ ∧ _))

/-- How many voices are the same. -/
def sameVoices (x y : Bank) : Nat := Voice.all.countP fun v => SameVoice x y v

/-- How many registers are the same. -/
def sameRegisters (x y : Bank) : Nat := Register.all.countP fun r => x.get r = y.get r

theorem same_self (x : Bank) : sameVoices x x = 3 ∧ sameRegisters x x = 25 ∧ SameFilter x x :=
  ⟨List.countP_eq_length.mpr fun _ _ => decide_eq_true fun _ _ => rfl,
    List.countP_eq_length.mpr fun _ _ => decide_eq_true rfl, rfl, rfl, rfl, rfl⟩

/-! ## One frame -/

variable {x y : Bank}

theorem mem_differences {d : Difference} :
    d ∈ differences x y ↔ d.source = x.get d.register ∧ d.converted = y.get d.register ∧ d.source ≠ d.converted := by
  obtain ⟨r, source, converted⟩ := d
  simp only [differences, List.mem_map, List.mem_filter, Register.mem_all, true_and, bne_iff_ne, Difference.mk.injEq]
  constructor
  · rintro ⟨r, hne, rfl, rfl, rfl⟩
    exact ⟨rfl, rfl, hne⟩
  · rintro ⟨rfl, rfl, hne⟩
    exact ⟨r, hne, rfl, rfl, rfl⟩

theorem pairwise_differences : (differences x y).Pairwise fun d e => d.register.offset < e.register.offset := by
  have hall : Register.all.Pairwise fun r s => r.offset < s.offset := by decide
  exact List.pairwise_map.mpr (hall.filter _)

theorem agreesOn_differences {p : Register → Bool} :
    agreesOn p (differences x y) = true ↔ ∀ r, p r = true → x.get r = y.get r := by
  simp only [agreesOn, differences, List.all_map, List.all_filter, List.all_eq_true, Register.mem_all, true_imp_iff,
    Function.comp_apply, Bool.or_eq_true, Bool.not_eq_true', bne_eq_false_iff_eq]
  grind

theorem differences_eq_nil : differences x y = [] ↔ x = y := by
  have hall := agreesOn_differences (p := fun _ => true) (x := x) (y := y)
  simp only [agreesOn, Bool.not_true, List.all_eq_true, Bool.false_eq_true, true_imp_iff] at hall
  rw [List.eq_nil_iff_forall_not_mem]
  exact hall.trans ⟨Bank.eq_of_get, fun h r => h ▸ rfl⟩

theorem isEmpty_differences : (differences x y).isEmpty = decide (x = y) := by
  rw [Bool.eq_iff_iff, List.isEmpty_iff, differences_eq_nil, decide_eq_true_iff]

theorem agreesOn_voice {v : Voice} : agreesOn (·.voice? == some v) (differences x y) = decide (SameVoice x y v) := by
  rw [Bool.eq_iff_iff, agreesOn_differences, decide_eq_true_iff]
  constructor
  · exact fun h r _ => h (.voice v r) (by simp [Register.voice?])
  · rintro h (⟨u, r⟩ | _) hr <;> simp [Register.voice?] at hr
    subst hr
    exact h r (by cases r <;> decide)

theorem agreesOn_filter : agreesOn Register.isFilter (differences x y) = decide (SameFilter x y) := by
  rw [Bool.eq_iff_iff, agreesOn_differences, decide_eq_true_iff]
  constructor
  · exact fun h => ⟨h _ rfl, h _ rfl, h _ rfl, h _ rfl⟩
  · rintro ⟨hlo, hhi, hresonance, hvolume⟩ r hr
    cases r with
    | voice => cases hr
    | cutoffLo => exact hlo
    | cutoffHi => exact hhi
    | resonance => exact hresonance
    | modeVolume => exact hvolume

theorem length_differences : Register.all.length - (differences x y).length = sameRegisters x y := by
  rw [differences, List.length_map, ← List.countP_eq_length_filter,
    List.length_eq_countP_add_countP fun r => x.get r != y.get r, Nat.add_sub_cancel_left, sameRegisters]
  congr
  ext r
  simp

theorem toNat_decide (p : Prop) [Decidable p] : (decide p).toNat = if p then 1 else 0 := by
  by_cases h : p <;> simp [h]

/-- The hits of one more frame. -/
theorem add_differences (h : Hits) :
    h.add (differences x y) =
      { frames := h.frames + if x = y then 1 else 0, voices := h.voices + sameVoices x y,
        registers := h.registers + sameRegisters x y, filters := h.filters + if SameFilter x y then 1 else 0 } := by
  simp only [Hits.add, isEmpty_differences, agreesOn_voice, agreesOn_filter, length_differences, toNat_decide,
    sameVoices]

/-! ## All frames -/

variable {a b : Trace}

/-- The frames that both traces have, each with what differs at its end. -/
theorem frames_eq (ha : Trace.Ordered a.entries.toList) (hb : Trace.Ordered b.entries.toList) :
    frames a b = (List.range (min a.frames b.frames)).map fun k => ⟨k, differences (a.heard k) (b.heard k)⟩ := by
  rw [frames, Trace.snapshots_eq ha, Trace.snapshots_eq hb]
  refine List.ext_getElem (by simp) fun k hk _ => ?_
  simp

theorem divergent_eq (ha : Trace.Ordered a.entries.toList) (hb : Trace.Ordered b.entries.toList) :
    (frames a b).filter (fun f => !f.registers.isEmpty) =
      ((List.range (min a.frames b.frames)).filter fun k => a.heard k ≠ b.heard k).map fun k =>
        ⟨k, differences (a.heard k) (b.heard k)⟩ := by
  rw [frames_eq ha hb, List.filter_map]
  congr 2
  ext k
  simp [isEmpty_differences]

theorem hits_eq (f g : Nat → Bank) (n : Nat) :
    Hits.of ((List.range n).map fun k => ⟨k, differences (f k) (g k)⟩) =
      { frames := (List.range n).countP fun k => f k = g k
        voices := ((List.range n).map fun k => sameVoices (f k) (g k)).sum
        registers := ((List.range n).map fun k => sameRegisters (f k) (g k)).sum
        filters := (List.range n).countP fun k => SameFilter (f k) (g k) } := by
  induction n with
  | zero => rfl
  | succ n ih =>
    unfold Hits.of at ih ⊢
    rw [List.range_succ, List.map_append, List.foldl_append, ih]
    simp [add_differences]

namespace Report

/-- A report says of two traces what there is to say: which frames differ and in what, and of how
many frames, voices, registers and filter settings the percentages are. -/
structure Exact (a b : Trace) (maxReported : Nat) (r : Report) : Prop where
  frames : r.frames = min a.frames b.frames
  diverges : ∀ k, r.firstDivergence = some k ↔
    k < r.frames ∧ a.heard k ≠ b.heard k ∧ ∀ j < k, a.heard j = b.heard j
  agrees : r.firstDivergence = none ↔ ∀ k < r.frames, a.heard k = b.heard k
  divergent : r.divergent.map (·.frame) = ((List.range r.frames).filter fun k => a.heard k ≠ b.heard k).take maxReported
  sorted : ∀ f ∈ r.divergent, f.registers.Pairwise fun d e => d.register.offset < e.register.offset
  registers : ∀ f ∈ r.divergent, ∀ d, d ∈ f.registers ↔
    d.source = (a.heard f.frame).get d.register ∧ d.converted = (b.heard f.frame).get d.register ∧ d.source ≠ d.converted
  frameMatch : r.frameMatch = percent ((List.range r.frames).countP fun k => a.heard k = b.heard k) r.frames
  voiceMatch : r.voiceMatch =
    percent ((List.range r.frames).map fun k => sameVoices (a.heard k) (b.heard k)).sum (r.frames * 3)
  registerMatch : r.registerMatch =
    percent ((List.range r.frames).map fun k => sameRegisters (a.heard k) (b.heard k)).sum (r.frames * 25)
  filterMatch : r.filterMatch = percent ((List.range r.frames).countP fun k => SameFilter (a.heard k) (b.heard k)) r.frames
  /-- A frame that is the same counts in full by every count. -/
  full : ∀ k < r.frames, a.heard k = b.heard k → sameVoices (a.heard k) (b.heard k) = 3 ∧
    sameRegisters (a.heard k) (b.heard k) = 25 ∧ SameFilter (a.heard k) (b.heard k)
  writes : r.sourceWrites = a.entries.size ∧ r.convertedWrites = b.entries.size

end Report

theorem exact_compare (ha : Trace.Ordered a.entries.toList) (hb : Trace.Ordered b.entries.toList) (w : Weights)
    (maxReported : Nat) : (compare a b w maxReported).Exact a b maxReported := by
  have hframes : (compare a b w maxReported).frames = min a.frames b.frames := by simp [compare, frames_eq ha hb]
  have hhits : (compare a b w maxReported).hits = _ := (congrArg Hits.of (frames_eq ha hb)).trans (hits_eq ..)
  have hdivergent : (compare a b w maxReported).divergent = _ := congrArg (List.take maxReported) (divergent_eq ha hb)
  have hfirst : (compare a b w maxReported).firstDivergence =
      (List.range (min a.frames b.frames)).find? fun k => a.heard k ≠ b.heard k := by
    show Option.map _ (List.head? (List.filter _ (frames a b))) = _
    rw [divergent_eq ha hb, List.head?_map, Option.map_map, List.head?_filter]
    exact Option.map_id' ..
  have hlisted : ∀ f ∈ (compare a b w maxReported).divergent,
      f.registers = differences (a.heard f.frame) (b.heard f.frame) := fun f hf => by
    rw [hdivergent] at hf
    obtain ⟨k, -, rfl⟩ := List.mem_map.mp (List.mem_of_mem_take hf)
    rfl
  exact {
    frames := hframes
    diverges := fun k => by
      rw [hfirst, hframes, List.find?_range_eq_some]
      simp [and_left_comm]
    agrees := by
      rw [hfirst, hframes, List.find?_range_eq_none]
      simp
    divergent := by
      rw [hdivergent, hframes, List.map_take, List.map_map]
      congr 1
      exact List.map_id' ..
    sorted := fun f hf => hlisted f hf ▸ pairwise_differences
    registers := fun f hf d => hlisted f hf ▸ mem_differences
    frameMatch := by rw [Report.frameMatch, hhits, hframes]
    voiceMatch := by rw [Report.voiceMatch, hhits, hframes]; rfl
    registerMatch := by rw [Report.registerMatch, hhits, hframes]; rfl
    filterMatch := by rw [Report.filterMatch, hhits, hframes]
    full := fun k _ h => h ▸ same_self _
    writes := ⟨rfl, rfl⟩ }

/-! ## The traces exchanged -/

/-- A difference seen from the other side. -/
def Difference.swap (d : Difference) : Difference := { d with source := d.converted, converted := d.source }

/-- A frame that differs, seen from the other side. -/
def DivergentFrame.swap (f : DivergentFrame) : DivergentFrame := { f with registers := f.registers.map Difference.swap }

/-- A report with source and conversion exchanged. -/
def Report.swap (r : Report) : Report :=
  { r with sourceWrites := r.convertedWrites, convertedWrites := r.sourceWrites, divergent := r.divergent.map .swap }

theorem differences_swap (x y : Bank) : differences y x = (differences x y).map .swap := by
  simp only [differences, List.map_map]
  congr 1
  exact List.filter_congr fun r _ => bne_comm

theorem frames_swap (a b : Trace) : frames b a = (frames a b).map .swap := by
  refine List.ext_getElem (by simp [frames, Nat.min_comm]) fun k _ _ => ?_
  simp [frames, DivergentFrame.swap, ← differences_swap]

theorem agreesOn_swap (p : Register → Bool) (ds : List Difference) : agreesOn p (ds.map .swap) = agreesOn p ds := by
  rw [agreesOn, List.all_map]
  rfl

theorem hits_swap (fs : List DivergentFrame) : Hits.of (fs.map .swap) = Hits.of fs := by
  rw [Hits.of, List.foldl_map]
  congr 1
  funext h f
  simp [Hits.add, DivergentFrame.swap, agreesOn_swap]

theorem compare_swap (a b : Trace) (w : Weights) (maxReported : Nat) :
    compare b a w maxReported = (compare a b w maxReported).swap := by
  have hdivergent : ((frames a b).map DivergentFrame.swap).filter (fun f => !f.registers.isEmpty) =
      ((frames a b).filter fun f => !f.registers.isEmpty).map DivergentFrame.swap := by
    rw [List.filter_map]
    congr 2
    ext f
    simp [DivergentFrame.swap]
  simp only [compare, Report.swap, frames_swap a b, hdivergent, hits_swap, List.length_map, List.head?_map,
    Option.map_map, List.map_take]
  rfl

/-- A pulse width that is changed for one frame, past a frame without writes. -/
def pulse : Trace where
  frames := 4
  initial := .cleared
  entries := #[⟨0, 7, .modeVolume, 15⟩, ⟨2, 3, .voice (Voice.ofNat 1) .pulseLo, 0x40⟩,
    ⟨3, 3, .voice (Voice.ofNat 1) .pulseLo, 0⟩]

/-- The same volume and no pulse, for longer. -/
def steady : Trace where
  frames := 6
  initial := .cleared
  entries := #[⟨0, 9, .modeVolume, 15⟩, ⟨5, 0, .modeVolume, 0⟩]

end Accuracy

end Chiptune
