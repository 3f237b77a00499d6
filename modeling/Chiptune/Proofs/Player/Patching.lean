/-
Patches whose operands share no byte.

A list of them can be applied when each of its patches `Applies` to the code as it
is before the first one. What comes out is `written`, which neither looks at what
the operands held nor depends on the order; the count is that of the patches that
`Changes` something (`apply_eq`).
-/
import Mathlib.Data.List.Pairwise
import Mathlib.Data.List.Perm.Basic
import Chiptune.Player.Patch
import Chiptune.Proofs.Player.Encode

namespace Chiptune.Player.Patch

variable {code code' : Bytes} {offset other k : Nat} {v w : UInt16} {p q : Patch} {patches patches' : List Patch}

/-! ## One operand -/

theorem operand?_eq_some :
    operand? code offset = some v ↔ code[offset]? = some (Word.low v) ∧ code[offset + 1]? = some (Word.high v) := by
  have hfirst : code[offset]? = (code.drop offset)[0]? := by simp
  have hsecond : code[offset + 1]? = (code.drop offset)[1]? := by simp
  rw [operand?, hfirst, hsecond]
  rcases code.drop offset with _ | ⟨lo, _ | ⟨hi, rest⟩⟩
  · simp
  · simp
  · simp only [List.getElem?_cons_zero, List.getElem?_cons_succ, Option.some.injEq]
    constructor
    · rintro rfl
      simp
    · rintro ⟨rfl, rfl⟩
      simp

theorem le_length_of_operand? (h : operand? code offset = some v) : offset + 2 ≤ code.length := by
  obtain ⟨hi, -⟩ := List.getElem?_eq_some_iff.mp (operand?_eq_some.mp h).2
  omega

theorem getElem?_put (hfits : offset + 2 ≤ code.length) :
    (put code offset v)[k]? =
      if k = offset then some (Word.low v) else if k = offset + 1 then some (Word.high v) else code[k]? := by
  simp only [put, List.getElem?_set, List.length_set]
  split <;> split <;> grind

theorem operand?_put (hfits : offset + 2 ≤ code.length) : operand? (put code offset v) offset = some v := by
  simp [operand?_eq_some, getElem?_put hfits]

theorem operand?_put_of_apart (hfits : offset + 2 ≤ code.length) (hapart : offset + 2 ≤ other ∨ other + 2 ≤ offset) :
    operand? (put code offset v) other = operand? code other := by
  have hfirst : ¬other = offset ∧ ¬other = offset + 1 := by omega
  have hsecond : ¬other + 1 = offset ∧ ¬other = offset := by omega
  ext w
  simp [operand?_eq_some, getElem?_put hfits, hfirst, hsecond]

/-- An operand is not changed by what it holds already. -/
theorem put_operand (h : operand? code offset = some v) : put code offset v = code := by
  have hfits := le_length_of_operand? h
  obtain ⟨hlow, hhigh⟩ := operand?_eq_some.mp h
  ext k : 1
  rw [getElem?_put hfits]
  split_ifs with hfirst hsecond
  · rw [hfirst, hlow]
  · rw [hsecond, hhigh]
  · rfl

theorem put_comm (hapart : offset + 2 ≤ other ∨ other + 2 ≤ offset) :
    put (put code offset v) other w = put (put code other w) offset v := by
  simp only [put]
  rw [List.set_comm _ _ (by omega : offset + 1 ≠ other), List.set_comm _ _ (by omega : offset + 1 ≠ other + 1),
    List.set_comm _ _ (by omega : offset ≠ other), List.set_comm _ _ (by omega : offset ≠ other + 1)]

/-! ## Patches -/

/-- The operands of two patches share no byte. -/
def Apart (p q : Patch) : Prop := p.offset + 2 ≤ q.offset ∨ q.offset + 2 ≤ p.offset

instance : Std.Symm Apart where
  symm _ _ h := Or.symm h

instance (p q : Patch) : Decidable (p.Apart q) := inferInstanceAs (Decidable (_ ∨ _))

/-- The operand of a patch lies in the code and holds one of the patch's two addresses. -/
def Applies (code : Bytes) (p : Patch) : Prop :=
  p.offset + 2 ≤ code.length ∧ (operand? code p.offset = some p.assembled ∨ operand? code p.offset = some p.moved)

instance (code : Bytes) (p : Patch) : Decidable (p.Applies code) := inferInstanceAs (Decidable (_ ∧ _))

/-- The operand of a patch holds the address it was assembled with, and that is not the new one. -/
def Changes (code : Bytes) (p : Patch) : Prop :=
  operand? code p.offset = some p.assembled ∧ p.assembled ≠ p.moved

instance (code : Bytes) (p : Patch) : Decidable (p.Changes code) := inferInstanceAs (Decidable (_ ∧ _))

/-- The code with every operand replaced, whatever it held. -/
def written (code : Bytes) (patches : List Patch) : Bytes :=
  patches.foldl (fun code p => put code p.offset p.moved) code

theorem written_cons : written code (p :: patches) = written (put code p.offset p.moved) patches := rfl

@[simp] theorem length_written : ∀ (patches : List Patch) (code : Bytes), (written code patches).length = code.length
  | [], _ => rfl
  | p :: patches, code => by rw [written_cons, length_written patches, length_put]

/-! ### What one patch does to the next -/

theorem operand?_put_apart (hfits : p.offset + 2 ≤ code.length) (hapart : p.Apart q) :
    operand? (put code p.offset w) q.offset = operand? code q.offset := operand?_put_of_apart hfits hapart

theorem applies_put (hfits : p.offset + 2 ≤ code.length) (hapart : p.Apart q) :
    q.Applies (put code p.offset w) ↔ q.Applies code := by
  rw [Applies, Applies, length_put, operand?_put_apart hfits hapart]

theorem changes_put (hfits : p.offset + 2 ≤ code.length) (hapart : p.Apart q) :
    q.Changes (put code p.offset w) ↔ q.Changes code := by
  rw [Changes, Changes, operand?_put_apart hfits hapart]

/-! ### A whole list -/

/-- When every operand holds one of its addresses the list goes through. The induction is on the
patches: what the first one writes is not what the others read. -/
theorem apply_eq (hapart : patches.Pairwise Apart) (happlies : ∀ p ∈ patches, p.Applies code) :
    apply code patches = (.ok (patches.countP (Changes code)), written code patches) := by
  induction patches generalizing code with
  | nil => rfl
  | cons p patches ih =>
    obtain ⟨hfirst, hrest⟩ := List.pairwise_cons.mp hapart
    obtain ⟨⟨hfits, hholds⟩, hothers⟩ := List.forall_mem_cons.mp happlies
    rw [written_cons, List.countP_cons]
    by_cases hmoved : operand? code p.offset = some p.moved
    · have hkept : ¬p.Changes code := fun ⟨hassembled, hne⟩ => hne (Option.some.inj (hassembled.symm.trans hmoved))
      rw [apply, hmoved, put_operand hmoved]
      simp [hkept, ih hrest hothers]
    · have hassembled := hholds.resolve_right hmoved
      have hne : p.assembled ≠ p.moved := fun h => hmoved (h ▸ hassembled)
      have hchanges : p.Changes code := ⟨hassembled, hne⟩
      have hcount : patches.countP (Changes (put code p.offset p.moved)) = patches.countP (Changes code) :=
        List.countP_congr fun q hq => by simp [changes_put hfits (hfirst q hq)]
      rw [apply, hassembled]
      simp [hne, hchanges, hcount, ih hrest fun q hq => (applies_put hfits (hfirst q hq)).mpr (hothers q hq)]

/-- A list that goes through finds one of its addresses in every operand. -/
theorem applies_of_apply {count : Nat} (hapart : patches.Pairwise Apart) (h : apply code patches = (.ok count, code')) :
    ∀ p ∈ patches, p.Applies code := by
  induction patches generalizing code count with
  | nil => simp
  | cons p patches ih =>
    obtain ⟨hfirst, hrest⟩ := List.pairwise_cons.mp hapart
    rw [apply] at h
    split at h
    · cases h
    next found hfound =>
    have hfits := le_length_of_operand? hfound
    refine List.forall_mem_cons.mpr ?_
    split at h
    next hmoved => exact ⟨⟨hfits, .inr (hmoved ▸ hfound)⟩, ih hrest h⟩
    split at h
    · cases h
    next hassembled =>
    split at h
    next happly =>
      obtain rfl := not_not.mp hassembled
      obtain ⟨-, rfl⟩ := Prod.mk.inj h
      have hothers := ih hrest happly
      exact ⟨⟨hfits, .inl hfound⟩, fun q hq => (applies_put hfits (hfirst q hq)).mp (hothers q hq)⟩
    · cases h

/-! ### What is written -/

theorem getElem?_written (hout : ∀ p ∈ patches, k < p.offset ∨ p.offset + 2 ≤ k) :
    (written code patches)[k]? = code[k]? := by
  induction patches generalizing code with
  | nil => rfl
  | cons p patches ih =>
    obtain ⟨hfirst, hrest⟩ := List.forall_mem_cons.mp hout
    rw [written_cons, ih hrest, put, List.getElem?_set_ne (by omega), List.getElem?_set_ne (by omega)]

theorem operand?_written (hapart : patches.Pairwise Apart) (hfits : ∀ p ∈ patches, p.offset + 2 ≤ code.length)
    (hp : p ∈ patches) : operand? (written code patches) p.offset = some p.moved := by
  induction patches generalizing code with
  | nil => cases hp
  | cons q patches ih =>
    obtain ⟨hfirst, hrest⟩ := List.pairwise_cons.mp hapart
    obtain ⟨hfit, hothers⟩ := List.forall_mem_cons.mp hfits
    rw [written_cons]
    rcases List.mem_cons.mp hp with rfl | hp
    · obtain ⟨hlow, hhigh⟩ := operand?_eq_some.mp (operand?_put (v := p.moved) hfit)
      refine operand?_eq_some.mpr ⟨?_, ?_⟩
      · rw [getElem?_written fun q hq => by have := hfirst q hq; unfold Apart at this; omega, hlow]
      · rw [getElem?_written fun q hq => by have := hfirst q hq; unfold Apart at this; omega, hhigh]
    · exact ih hrest (by rwa [length_put]) hp

theorem written_eq_self (h : ∀ p ∈ patches, operand? code p.offset = some p.moved) : written code patches = code := by
  induction patches with
  | nil => rfl
  | cons p patches ih =>
    obtain ⟨hfirst, hrest⟩ := List.forall_mem_cons.mp h
    rw [written_cons, put_operand hfirst, ih hrest]

theorem written_perm (hapart : patches.Pairwise Apart) (hperm : patches'.Perm patches) :
    written code patches' = written code patches := by
  refine (hperm.symm.foldl_eq' (fun p hp q hq code => ?_) code).symm
  rcases eq_or_ne p q with rfl | hne
  · rfl
  · exact put_comm (hapart.forall hp hq hne)

/-- **Patches are applied exactly, in any order and once.** With operands that share no byte the list
goes through exactly when each operand lies in the code and holds one of its two addresses, in
whatever order it is applied; then every operand has its new address and nothing else is changed,
the count is that of the operands that held another one, and a second time there is nothing to do. -/
theorem apply_apart (hapart : patches.Pairwise Apart) :
    ((∃ count, (apply code patches).1 = .ok count) ↔
      ∀ p ∈ patches, p.offset + 2 ≤ code.length ∧
        (operand? code p.offset = some p.assembled ∨ operand? code p.offset = some p.moved)) ∧
    ∀ count code', apply code patches = (.ok count, code') →
      (∀ p ∈ patches, operand? code' p.offset = some p.moved) ∧
      code'.length = code.length ∧
      (∀ k, (∀ p ∈ patches, k < p.offset ∨ p.offset + 2 ≤ k) → code'[k]? = code[k]?) ∧
      count = patches.countP (fun p => operand? code p.offset = some p.assembled ∧ p.assembled ≠ p.moved) ∧
      (∀ patches', patches'.Perm patches → apply code patches' = (.ok count, code')) ∧
      apply code' patches = (.ok 0, code') := by
  refine ⟨⟨fun ⟨count, h⟩ => applies_of_apply hapart (Prod.ext h rfl), fun h => ⟨_, by rw [apply_eq hapart h]⟩⟩, ?_⟩
  intro count code' h
  have happlies := applies_of_apply hapart h
  obtain ⟨rfl, rfl⟩ : patches.countP (Changes code) = count ∧ written code patches = code' := by
    rw [apply_eq hapart happlies] at h
    exact ⟨Except.ok.inj (Prod.mk.inj h).1, (Prod.mk.inj h).2⟩
  have hmoved : ∀ p ∈ patches, operand? (written code patches) p.offset = some p.moved :=
    fun p hp => operand?_written hapart (fun p hp => (happlies p hp).1) hp
  refine ⟨hmoved, length_written patches code, fun k => getElem?_written, rfl, fun patches' hperm => ?_, ?_⟩
  · have hapart' := hapart.perm hperm.symm Or.symm
    rw [apply_eq hapart' fun p hp => happlies p (hperm.mem_iff.mp hp), hperm.countP_eq, written_perm hapart hperm]
  · have happlies' : ∀ p ∈ patches, p.Applies (written code patches) :=
      fun p hp => ⟨le_length_of_operand? (hmoved p hp), .inr (hmoved p hp)⟩
    have hkept : ∀ p ∈ patches, ¬p.Changes (written code patches) :=
      fun p hp h => h.2 (Option.some.inj (h.1.symm.trans (hmoved p hp)))
    rw [apply_eq hapart happlies', List.countP_eq_zero.mpr (by simpa using hkept), written_eq_self hmoved]

/-- Patches that swap two addresses, and one that finds its operand moved already. -/
def swap : List Patch := [⟨1, 0x1003, 0x2000⟩, ⟨4, 0x2000, 0x1003⟩, ⟨8, 0x1000, 0x1006⟩]

theorem apply_apart_swap :
    swap.Pairwise Apart ∧
      apply [0xAD, 0x03, 0x10, 0x8D, 0x00, 0x20, 0xEA, 0x4C, 0x06, 0x10] swap =
        (.ok 2, [0xAD, 0x00, 0x20, 0x8D, 0x03, 0x10, 0xEA, 0x4C, 0x06, 0x10]) ∧
      apply [0xAD, 0x03, 0x10, 0x8D, 0x00, 0x20, 0xEA, 0x4C, 0x06, 0x10] swap.reverse =
        (.ok 2, [0xAD, 0x00, 0x20, 0x8D, 0x03, 0x10, 0xEA, 0x4C, 0x06, 0x10]) ∧
      apply [0xAD, 0x00, 0x20, 0x8D, 0x03, 0x10, 0xEA, 0x4C, 0x06, 0x10] swap =
        (.ok 0, [0xAD, 0x00, 0x20, 0x8D, 0x03, 0x10, 0xEA, 0x4C, 0x06, 0x10]) := by
  have hapart : swap.Pairwise Apart := by decide
  have happly : apply [0xAD, 0x03, 0x10, 0x8D, 0x00, 0x20, 0xEA, 0x4C, 0x06, 0x10] swap =
      (.ok 2, [0xAD, 0x00, 0x20, 0x8D, 0x03, 0x10, 0xEA, 0x4C, 0x06, 0x10]) := by decide
  obtain ⟨-, -, -, -, hperm, hagain⟩ := (apply_apart hapart).2 _ _ happly
  exact ⟨hapart, happly, hperm _ swap.reverse_perm, hagain⟩

end Chiptune.Player.Patch
