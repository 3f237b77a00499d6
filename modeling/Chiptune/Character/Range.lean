/-
Sets of characters as ranges.

A property of characters is a table of the ranges that have it, in ascending
order. A range that does not end before a character decides about it, because
every later range begins even further up.
-/

namespace Chiptune.Character

/-- The characters from a first to a last code point, both included. -/
structure Range where
  first : Nat
  last : Nat
deriving DecidableEq, Repr

/-- Whether one of the ranges holds a code point, for ranges in ascending order. -/
def covers : List Range → Nat → Bool
  | [], _ => false
  | r :: rest, n => if n ≤ r.last then decide (r.first ≤ n) else covers rest n

/-- Whether no range is empty and each ends before the next begins. -/
def ascending : List Range → Bool
  | [] => true
  | [r] => decide (r.first ≤ r.last)
  | r :: s :: rest =>
    decide (r.first ≤ r.last) && decide (r.last < s.first) && ascending (s :: rest)

/-- Every later range of an ascending table begins after the first one has ended. -/
theorem last_lt_first_of_mem {r : Range} {rest : List Range}
    (h : ascending (r :: rest) = true) : ∀ s ∈ rest, r.last < s.first := by
  induction rest generalizing r with
  | nil => simp
  | cons t rest ih =>
    simp only [ascending, Bool.and_eq_true, decide_eq_true_eq] at h
    obtain ⟨⟨_, hrt⟩, ht⟩ := h
    have htt : t.first ≤ t.last := by
      cases rest with
      | nil => simpa [ascending] using ht
      | cons u rest =>
        simp only [ascending, Bool.and_eq_true, decide_eq_true_eq] at ht
        exact ht.1.1
    intro s hs
    rcases List.mem_cons.mp hs with rfl | hs
    · exact hrt
    · have := ih ht s hs
      omega

/-- The table of an ascending table's later ranges is ascending. -/
theorem ascending_of_cons {r : Range} {rest : List Range}
    (h : ascending (r :: rest) = true) : ascending rest = true := by
  cases rest with
  | nil => rfl
  | cons s rest =>
    simp only [ascending, Bool.and_eq_true] at h
    exact h.2

/-- An ascending table covers exactly the code points of its ranges. -/
theorem covers_iff {ranges : List Range} (h : ascending ranges = true) (n : Nat) :
    covers ranges n = true ↔ ∃ r ∈ ranges, r.first ≤ n ∧ n ≤ r.last := by
  induction ranges with
  | nil => simp [covers]
  | cons r rest ih =>
    have later := last_lt_first_of_mem h
    simp only [covers]
    split
    · rename_i hn
      simp only [decide_eq_true_eq]
      refine ⟨fun hr => ⟨r, List.mem_cons_self, hr, hn⟩, ?_⟩
      rintro ⟨s, hs, hsn, _⟩
      rcases List.mem_cons.mp hs with rfl | hs
      · exact hsn
      · have := later s hs
        omega
    · rename_i hn
      rw [ih (ascending_of_cons h)]
      constructor
      · rintro ⟨s, hs, hb⟩
        exact ⟨s, List.mem_cons_of_mem _ hs, hb⟩
      · rintro ⟨s, hs, hb⟩
        rcases List.mem_cons.mp hs with rfl | hs
        · exact absurd hb.2 hn
        · exact ⟨s, hs, hb⟩

end Chiptune.Character
