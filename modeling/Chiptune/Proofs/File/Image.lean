/-
Where a container's image holds what.

`Container.Holds` says that some bytes stand at an address, which is counted
without wrapping: parts that follow each other are found by adding up the
lengths before them, and only what lies below the top of memory can be read.
-/
import Chiptune.File.Container

namespace Chiptune.File.Container

/-- The image holds `bytes` from address `n` on. -/
def Holds (c : Container) (n : Nat) (bytes : Bytes) : Prop :=
  ∃ before after, c.image = before ++ bytes ++ after ∧ n = c.loadAddress.toNat + before.length

namespace Holds

variable {c : Container} {n : Nat} {xs ys : Bytes}

theorem image (c : Container) : c.Holds c.loadAddress.toNat c.image := ⟨[], [], by simp, by simp⟩

theorem left (h : c.Holds n (xs ++ ys)) : c.Holds n xs := by
  obtain ⟨before, after, himage, hn⟩ := h
  exact ⟨before, ys ++ after, by simp [himage], hn⟩

theorem right (h : c.Holds n (xs ++ ys)) : c.Holds (n + xs.length) ys := by
  obtain ⟨before, after, himage, hn⟩ := h
  exact ⟨before ++ xs, after, by simp [himage], by simp [hn]; omega⟩

theorem memoryFrom? (h : c.Holds n xs) (hn : n < Machine.addressSpace) :
    ∃ rest, c.memoryFrom? (UInt16.ofNat n) = some (xs ++ rest) := by
  obtain ⟨before, after, himage, rfl⟩ := h
  have haddress : (UInt16.ofNat (c.loadAddress.toNat + before.length)).toNat =
      c.loadAddress.toNat + before.length := UInt16.toNat_ofNat_of_lt' hn
  have hle : c.loadAddress ≤ UInt16.ofNat (c.loadAddress.toNat + before.length) := by
    rw [UInt16.le_iff_toNat_le, haddress]
    omega
  refine ⟨after, ?_⟩
  rw [Container.memoryFrom?, haddress, if_pos]
  · simp [himage]
  · exact ⟨hle, by simp [himage]⟩

theorem memory? (h : c.Holds n xs) (hn : n < Machine.addressSpace) :
    c.memory? (UInt16.ofNat n) xs.length = some xs := by
  obtain ⟨rest, hrest⟩ := h.memoryFrom? hn
  simp [Container.memory?, hrest]

theorem byte? {b : UInt8} (h : c.Holds n xs) {i : Nat} (hi : xs[i]? = some b)
    (hn : n + i < Machine.addressSpace) : c.byte? (UInt16.ofNat n + UInt16.ofNat i) = some b := by
  obtain ⟨hlt, hb⟩ := List.getElem?_eq_some_iff.mp hi
  have hsplit : xs = xs.take i ++ b :: xs.drop (i + 1) := by
    rw [← hb, List.getElem_cons_drop, List.take_append_drop]
  rw [hsplit] at h
  have hpart := h.right
  rw [List.length_take, Nat.min_eq_left (by omega)] at hpart
  obtain ⟨rest, hrest⟩ := hpart.memoryFrom? hn
  rw [← UInt16.ofNat_add, Container.byte?, hrest]
  rfl

end Holds

/-- A byte that can be read lies below the end of the image. -/
theorem lt_of_byte? {c : Container} {address : UInt16} {b : UInt8} (h : c.byte? address = some b) :
    address.toNat < c.loadAddress.toNat + c.image.length := by
  unfold byte? at h
  split at h
  next b' rest hfrom =>
    unfold Container.memoryFrom? at hfrom
    split at hfrom
    next hbounds =>
      have hlength := congrArg List.length (Option.some.inj hfrom)
      rw [List.length_drop, List.length_cons] at hlength
      omega
    · cases hfrom
  · cases h

end Chiptune.File.Container
