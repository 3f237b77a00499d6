/-
Lists whose elements have keys of their own, lists that start alike, and lists
related element by element.
-/
import Mathlib.Data.List.Forall2

namespace Chiptune

variable {α β κ : Type}

/-! ## Keys -/

section Keys

variable [DecidableEq κ] {key : α → κ} {l : List α}

theorem find?_of_pairwise (h : l.Pairwise fun a b => key a ≠ key b) {a : α} (ha : a ∈ l) :
    l.find? (key · == key a) = some a := by
  obtain ⟨before, after, rfl⟩ := List.append_of_mem ha
  have hbefore : before.find? (key · == key a) = none := by
    rw [List.find?_eq_none]
    intro b hb
    simpa using (List.pairwise_append.mp h).2.2 b hb a (by simp)
  rw [List.find?_append, hbefore]
  simp

theorem eq_of_pairwise (h : l.Pairwise fun a b => key a ≠ key b) {a b : α} (ha : a ∈ l) (hb : b ∈ l)
    (hkey : key a = key b) : a = b := by
  have hfirst := find?_of_pairwise h ha
  rw [hkey, find?_of_pairwise h hb] at hfirst
  exact (Option.some.inj hfirst).symm

end Keys

/-- Each element is left once. -/
theorem nodup_eraseDups [DecidableEq α] : ∀ l : List α, l.eraseDups.Nodup
  | [] => by
    rw [List.eraseDups_nil]
    exact .nil
  | a :: l => by
    rw [List.eraseDups_cons, List.nodup_cons]
    refine ⟨fun hmem => ?_, nodup_eraseDups _⟩
    rw [List.mem_eraseDups, List.mem_filter] at hmem
    simp at hmem
termination_by l => l.length
decreasing_by exact Nat.lt_succ_of_le (List.length_filter_le ..)

theorem find?_of_unique {p : α → Bool} {l : List α} {a : α} (ha : a ∈ l) (hp : p a = true)
    (hunique : ∀ b ∈ l, p b = true → b = a) : l.find? p = some a := by
  cases hfind : l.find? p with
  | none => exact absurd hp (List.find?_eq_none.mp hfind a ha)
  | some b => rw [hunique b (List.mem_of_find?_eq_some hfind) (List.find?_some hfind)]

/-! ## Prefixes -/

theorem getElem?_mono {l l' : List α} (h : l <+: l') {i : Nat} {a : α} (ha : l[i]? = some a) :
    l'[i]? = some a := by
  obtain ⟨added, rfl⟩ := h
  rw [List.getElem?_append_left (List.getElem?_eq_some_iff.mp ha).1, ha]

/-! ## Element by element -/

theorem exists_of_mem_right {R : α → β → Prop} {l : List α} {r : List β} (h : List.Forall₂ R l r) {b : β}
    (hb : b ∈ r) : ∃ a ∈ l, R a b := by
  induction h with
  | nil => cases hb
  | cons hab _ ih =>
    rcases List.mem_cons.mp hb with rfl | hb
    · exact ⟨_, by simp, hab⟩
    · obtain ⟨a, ha, hR⟩ := ih hb
      exact ⟨a, by simp [ha], hR⟩

theorem exists_getElem?_right {R : α → β → Prop} {l : List α} {r : List β} (h : List.Forall₂ R l r) {i : Nat}
    {a : α} (ha : l[i]? = some a) : ∃ b, r[i]? = some b ∧ R a b := by
  obtain ⟨hlength, hR⟩ := List.forall₂_iff_get.mp h
  obtain ⟨hi, rfl⟩ := List.getElem?_eq_some_iff.mp ha
  exact ⟨_, List.getElem?_eq_getElem (hlength ▸ hi), hR i hi (hlength ▸ hi)⟩

theorem forall₂_of_getElem? {R : α → β → Prop} {l : List α} {r : List β} (hlength : l.length = r.length)
    (h : ∀ (i : Nat) (a : α), l[i]? = some a → ∃ b, r[i]? = some b ∧ R a b) : List.Forall₂ R l r := by
  refine List.forall₂_iff_get.mpr ⟨hlength, fun i hi hi' => ?_⟩
  obtain ⟨b, hb, hR⟩ := h i l[i] (List.getElem?_eq_getElem hi)
  obtain ⟨hi', rfl⟩ := List.getElem?_eq_some_iff.mp hb
  exact hR

theorem map_eq_of_forall₂ {f : β → α} {l : List α} {r : List β}
    (h : List.Forall₂ (fun a b => f b = a) l r) : r.map f = l := by
  induction h with
  | nil => rfl
  | cons hab _ ih => rw [List.map_cons, hab, ih]

theorem exists_getElem?_of_mapM {f : α → Option β} : ∀ {l : List α} {r : List β}, l.mapM f = some r →
    ∀ {i : Nat} {a : α}, l[i]? = some a → ∃ b, f a = some b ∧ r[i]? = some b
  | [], _, _, _, _, ha => by cases ha
  | c :: l, r, h, i, a, ha => by
    rw [List.mapM_cons] at h
    obtain ⟨d, hd, h⟩ := Option.bind_eq_some_iff.mp h
    obtain ⟨rest, hrest, h⟩ := Option.bind_eq_some_iff.mp h
    cases h
    cases i with
    | zero =>
      cases ha
      exact ⟨d, hd, rfl⟩
    | succ i => exact exists_getElem?_of_mapM hrest ha

end Chiptune
