/-
Writing the container of a player never fails for a template with short names.

A block of the header has at most 255 bytes. What a song brings to it is clipped
or of fixed size, so only the names in the template can make one longer
(`Template.HeaderFits`).
-/
import Chiptune.Player.Encode
import Chiptune.Proofs.File.Container
import Chiptune.Proofs.Player.Layout
import Mathlib.Algebra.GroupWithZero.Nat

namespace Chiptune.Player

open File

/-- The names that a template writes into a header leave every block short enough. -/
structure Template.HeaderFits (t : Template) : Prop where
  descriptor : t.name.length + 6 ≤ 255
  common : (t.statePointers.map fun p => p.name.length + 3).sum + 6 ≤ 255
  tables : (t.tables.map fun spec => (((t.spec? spec.slot).map (·.name)).getD "").length + 9).sum ≤ 255

namespace Encode

variable {t : Template}

theorem sum_states_le (l : Layout) : ∀ pointers : List StatePointer,
    ((pointers.filterMap fun p => (l.address? p.symbol).map fun address =>
      (⟨p.name, address + p.addend⟩ : StateAddress)).map fun s => s.name.length + 3).sum ≤
      (pointers.map fun p => p.name.length + 3).sum
  | [] => Nat.le_refl _
  | p :: pointers => by
    have hrest := sum_states_le l pointers
    cases hp : l.address? p.symbol with
    | none =>
      simp only [List.filterMap_cons, hp, Option.map_none, List.map_cons, List.sum_cons] at hrest ⊢
      omega
    | some address =>
      simp only [List.filterMap_cons, hp, Option.map_some, List.map_cons, List.sum_cons] at hrest ⊢
      omega

theorem length_tables {cursor : Nat} {slots : List (SlotPlace × List Bytes)}
    (h : slots.map (·.1) = Layout.placeSlots cursor t.tables) :
    ((slots.zipIdx.map fun ((place, rows), id) => slotDescriptor t id place rows.length).flatMap
      TableDescriptor.toBytes).length =
      (t.tables.map fun spec => (((t.spec? spec.slot).map (·.name)).getD "").length + 9).sum := by
  have hslots : (slots.map fun p => p.1.slot) = t.tables.map (·.slot) := by
    rw [← Layout.map_slot_placeSlots t.tables cursor, ← h, List.map_map]
    rfl
  let bytes (slot : Slot) : Nat := (((t.spec? slot).map (·.name)).getD "").length + 9
  have hbytes (p : SlotPlace × List Bytes) (id : Nat) :
      (slotDescriptor t id p.1 p.2.length).toBytes.length = bytes p.1.slot := TableDescriptor.length_toBytes _
  calc
    _ = (slots.zipIdx.map fun p => bytes p.1.1.slot).sum := by
      simp only [List.length_flatMap, List.map_map, Function.comp_def, hbytes]
    _ = ((slots.map fun p => p.1.slot).map bytes).sum := by
      have hfst := congrArg (List.map fun p : SlotPlace × List Bytes => bytes p.1.slot) (List.zipIdx_map_fst 0 slots)
      rw [List.map_map] at hfst ⊢
      exact congrArg List.sum hfst
    _ = _ := by
      rw [hslots, List.map_map]
      rfl

/-- **A player's container can be written** if the template's names leave its header short. -/
theorem exists_toBytes (h : t.HeaderFits) {base : UInt16} (code : Bytes) (s : Song)
    {slots : List (SlotPlace × List Bytes)} (music : MusicData)
    (hplaces : slots.map (·.1) = (Layout.placed t base).slots) :
    ∃ bytes, (container t (Layout.placed t base) code s slots music).toBytes = .ok bytes := by
  refine Container.exists_toBytes fun b hb => ?_
  simp only [Container.blocks, container, List.append_nil, List.mem_cons, List.not_mem_nil, or_false] at hb
  rcases hb with rfl | rfl | rfl | rfl | rfl
  · rw [Descriptor.length_toBytes]
    exact h.descriptor
  · rw [DriverCommon.length_toBytes]
    exact Nat.le_trans (Nat.add_le_add_right (sum_states_le _ t.statePointers) 6) h.common
  · rw [length_tables hplaces]
    exact h.tables
  · exact Nat.le_of_ble_eq_true rfl
  · exact SongInfo.length_toBytes_le _

end Encode

end Chiptune.Player
