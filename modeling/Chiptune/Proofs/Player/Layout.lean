/-
The addresses of a player, counted without wrapping.

`Layout.make` cuts every address down to sixteen bits. A part starts where the
parts before it end (`slotsAt` to `musicAt`), and a layout whose music does not
start before its base has all of them below the top of memory (`musicAt_lt`),
so that nothing was cut off.
-/
import Chiptune.Player.Layout

namespace Chiptune.Player

/-! ## Where the parts start -/

namespace Template

/-- Bytes of all slots. -/
def slotBytes (t : Template) : Nat := t.tables.foldr (fun s bytes => s.size + bytes) 0

/-- Where the slots start. -/
def slotsAt (t : Template) (base : UInt16) : Nat :=
  base.toNat + t.code.length + t.variableBytes.toNat

/-- Where the frequency table starts. -/
def frequenciesAt (t : Template) (base : UInt16) : Nat := t.slotsAt base + t.slotBytes

/-- Where the tempo is. -/
def tempoAt (t : Template) (base : UInt16) : Nat :=
  t.frequenciesAt base + Sound.Pitch.count + Sound.Pitch.count

/-- Where the pointers to the order lists start. -/
def ordersAt (t : Template) (base : UInt16) : Nat := t.tempoAt base + 1

/-- Where the pointers to the sequences start. -/
def sequencesAt (t : Template) (base : UInt16) : Nat :=
  t.ordersAt base + Song.voiceCount + Song.voiceCount

/-- Where the music data starts. -/
def musicAt (t : Template) (base : UInt16) : Nat :=
  t.sequencesAt base + t.maxSequences.toNat + t.maxSequences.toNat

end Template

/-! ## Layouts -/

namespace Layout

variable {t : Template} {base : UInt16} {l : Layout}

/-- The layout at a base, if there is room for it. -/
def placed (t : Template) (base : UInt16) : Layout where
  base
  workArea := UInt16.ofNat (base.toNat + t.code.length)
  slots := placeSlots (t.slotsAt base) t.tables
  freqLo := UInt16.ofNat (t.frequenciesAt base)
  freqHi := UInt16.ofNat (t.frequenciesAt base + Sound.Pitch.count)
  settings := UInt16.ofNat (t.tempoAt base)
  orderLo := UInt16.ofNat (t.ordersAt base)
  orderHi := UInt16.ofNat (t.ordersAt base + Song.voiceCount)
  sequenceLo := UInt16.ofNat (t.sequencesAt base)
  sequenceHi := UInt16.ofNat (t.sequencesAt base + t.maxSequences.toNat)
  music := UInt16.ofNat (t.musicAt base)
  limit := limitOf base

theorem of_eq_ok : Layout.of t base = .ok l ↔ t.musicAt base ≤ limitOf base ∧ placed t base = l := by
  have hof : Layout.of t base = if limitOf base < t.musicAt base then
      .error (.invalidTemplate t.name (.noRoom base (t.musicAt base) (limitOf base)))
    else .ok (placed t base) := rfl
  rw [hof]
  split
  next h =>
    simp only [reduceCtorEq, false_iff, not_and]
    omega
  next h =>
    rw [Except.ok.injEq]
    exact ⟨fun e => ⟨by omega, e⟩, fun e => e.2⟩

theorem limitOf_le (base : UInt16) : limitOf base ≤ Machine.addressSpace := by
  unfold limitOf
  split
  · decide
  · exact Nat.le_refl _

/-- Music at the very top of memory has no address, and its wrapped one is before the base. -/
theorem musicAt_lt (hlimit : t.musicAt base ≤ limitOf base) (hmusic : base ≤ (placed t base).music) :
    t.musicAt base < Machine.addressSpace := by
  have hle := limitOf_le base
  rcases Nat.lt_or_eq_of_le (Nat.le_trans hlimit hle) with h | h
  · exact h
  · have hzero : (placed t base).music = 0 := by
      rw [placed, h]
      rfl
    rw [hzero, UInt16.le_iff_toNat_le] at hmusic
    have hbase : base.toNat = 0 := Nat.le_zero.mp hmusic
    have hwindow : limitOf base = Sound.windowStart := by
      rw [limitOf, hbase, if_pos (by decide)]
    have : Sound.windowStart < Machine.addressSpace := by decide
    omega

/-! ## Slots -/

theorem map_slot_placeSlots : ∀ (specs : List SlotSpec) (cursor : Nat),
    (placeSlots cursor specs).map (·.slot) = specs.map (·.slot)
  | [], _ => rfl
  | spec :: specs, cursor => by
    simp only [placeSlots, List.map_cons, map_slot_placeSlots specs]

theorem exists_spec_of_mem_placeSlots {place : SlotPlace} : ∀ {specs : List SlotSpec} {cursor : Nat},
    place ∈ placeSlots cursor specs →
      ∃ spec ∈ specs, spec.slot = place.slot ∧ spec.columns = place.columns ∧
        spec.capacity = place.capacity
  | spec :: specs, cursor, h => by
    rcases List.mem_cons.mp h with rfl | h
    · exact ⟨spec, by simp, rfl, rfl, rfl⟩
    · obtain ⟨spec', hspec', hfields⟩ := exists_spec_of_mem_placeSlots h
      exact ⟨spec', by simp [hspec'], hfields⟩

end Layout

end Chiptune.Player
