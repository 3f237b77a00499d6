/-
What stands where in the memory of a filled player.

Each part of the image starts where the layout puts it (`Filled.holds_slots`
and the like), each slot at its own address, and each order list and sequence
where its pointer points (`memoryFrom?_of_addresses`).
-/
import Chiptune.Player.Decode
import Chiptune.Proofs.File.Container
import Chiptune.Proofs.File.Image
import Chiptune.Proofs.Player.Columns
import Chiptune.Proofs.Player.Encode
import Chiptune.Proofs.Player.Rows

namespace Chiptune.Player.Encode

open File Song

variable {t : Template} {s : Song} {commands : List Command} {c : Container}

/-! ## Lengths -/

theorem length_slotBlock (place : SlotPlace) (rows : List Bytes) :
    (slotBlock place rows).length = place.size := by
  have hwrite : (Columns.write place.capacity.toNat (List.replicate place.size 0) rows).length =
      place.size := by
    rw [Columns.length_write, List.length_replicate]
  unfold slotBlock
  dsimp only
  split
  · split
    · rw [List.length_set, hwrite]
    · exact hwrite
  · exact hwrite

theorem length_slotBlocks : ∀ {specs : List SlotSpec} {cursor : Nat} {slots : List (SlotPlace × List Bytes)},
    slots.map (·.1) = Layout.placeSlots cursor specs →
      (slots.flatMap fun (place, rows) => slotBlock place rows).length =
        specs.foldr (fun s bytes => s.size + bytes) 0
  | [], _, slots, h => by
    rw [List.map_eq_nil_iff.mp h]
    rfl
  | spec :: specs, cursor, slots, h => by
    obtain ⟨p, rest, rfl, hp, hrest⟩ := List.map_eq_cons_iff.mp h
    rw [List.flatMap_cons, List.length_append, length_slotBlock, length_slotBlocks hrest,
      List.foldr_cons, hp]
    rfl

theorem length_pointerTable (capacity : Nat) (pointers : List UInt16) :
    (pointerTable capacity pointers).length = capacity + capacity := by
  rw [pointerTable, List.length_append, Rows.length_fill, Rows.length_fill]

/-- The image reaches from the base to the end of the music. -/
theorem length_image_placed {base : UInt16} {code : Bytes} {slots : List (SlotPlace × List Bytes)} (music : MusicData)
    (hcode : code.length = t.code.length) (hplaces : slots.map (·.1) = (Layout.placed t base).slots) :
    base.toNat + (image t (Layout.placed t base) code s slots music).length = t.musicAt base + music.bytes.length := by
  have hslots := length_slotBlocks hplaces
  simp only [image, List.length_append, List.length_replicate, length_pointerTable, List.length_singleton,
    Template.musicAt, Template.sequencesAt, Template.ordersAt, Template.tempoAt, Template.frequenciesAt,
    Template.slotsAt, Template.slotBytes] at hslots ⊢
  omega

/-! ## Slots -/

/-- The blocks of slots that follow each other stand at the addresses of their places. -/
theorem holds_slotBlock : ∀ {specs : List SlotSpec} {cursor : Nat} {slots : List (SlotPlace × List Bytes)},
    slots.map (·.1) = Layout.placeSlots cursor specs →
      c.Holds cursor (slots.flatMap fun (place, rows) => slotBlock place rows) →
      ∀ p ∈ slots, ∃ n ≤ cursor + specs.foldr (fun s bytes => s.size + bytes) 0,
        p.1.address = UInt16.ofNat n ∧ c.Holds n (slotBlock p.1 p.2)
  | [], _, slots, h, _, p, hp => by
    rw [List.map_eq_nil_iff.mp h] at hp
    cases hp
  | spec :: specs, cursor, slots, h, hholds, p, hp => by
    obtain ⟨first, rest, rfl, hfirst, hrest⟩ := List.map_eq_cons_iff.mp h
    rw [List.flatMap_cons] at hholds
    have hsize : (slotBlock first.1 first.2).length = spec.size := by
      rw [length_slotBlock, hfirst]
      rfl
    rcases List.mem_cons.mp hp with rfl | hp
    · exact ⟨cursor, Nat.le_add_right .., by rw [hfirst], hholds.left⟩
    · have hlater := hholds.right
      rw [hsize] at hlater
      obtain ⟨n, hn, haddress, hblock⟩ := holds_slotBlock hrest hlater p hp
      refine ⟨n, ?_, haddress, hblock⟩
      rw [List.foldr_cons]
      omega

/-- A slot has its rows column by column, and its end mark in none of their cells. -/
theorem getElem?_slotBlock {place : SlotPlace} {rows : List Bytes} (hrows : rows.length ≤ place.capacity.toNat)
    (hlength : ∀ r ∈ rows, r.length = place.columns.toNat) {row column : Nat} (hrow : row < rows.length)
    (hcolumn : column < place.columns.toNat) :
    (slotBlock place rows)[Columns.cell place.capacity.toNat row column]? = rows[row][column]? := by
  have hcell := Columns.cell_lt (show row < place.capacity.toNat by omega) hcolumn
  have hzeros : Columns.cell place.capacity.toNat row column < (List.replicate place.size (0 : UInt8)).length := by
    rw [List.length_replicate]
    exact hcell
  have hwrite := Columns.getElem?_write hrow hrows
    (by rw [hlength _ (List.getElem_mem hrow)]; exact hcolumn) hzeros
  -- the end mark is in the row after the last one, so in no cell of the rows
  have hmark : rows.length ≠ Columns.cell place.capacity.toNat row column ∨
      ¬ rows.length < place.capacity.toNat := by
    rcases Nat.lt_or_ge rows.length place.capacity.toNat with hlt | hge
    · refine .inl fun e => ?_
      have hmod := @Columns.cell_mod place.capacity.toNat row column (by omega)
      rw [← e, Nat.mod_eq_of_lt hlt] at hmod
      omega
    · exact .inr (by omega)
  unfold slotBlock
  dsimp only
  split
  · split
    next hlt =>
      rw [List.getElem?_set_ne (hmark.resolve_right (not_not.mpr hlt)), hwrite]
    · exact hwrite
  · exact hwrite

/-- A slot reads back as the rows it was filled with. -/
theorem read_slotBlock {place : SlotPlace} {rows : List Bytes} (hrows : rows.length ≤ place.capacity.toNat)
    (hlength : ∀ r ∈ rows, r.length = place.columns.toNat) :
    Columns.read (slotBlock place rows) place.columns.toNat place.capacity.toNat rows.length = rows :=
  Columns.read_eq hlength fun _ hrow _ hcolumn => getElem?_slotBlock hrows hlength hrow hcolumn

/-! ## Pointers -/

theorem getElem?_fill {length i : Nat} {bytes : Bytes} {b : UInt8} (hlength : bytes.length ≤ length)
    (h : bytes[i]? = some b) : (Rows.fill length bytes)[i]? = some b := by
  rw [Rows.fill, List.take_of_length_le hlength,
    List.getElem?_append_left (List.getElem?_eq_some_iff.mp h).1, h]

/-- A pointer table reads back. -/
theorem pointer_eq_ok {n capacity index : Nat} {pointers : List UInt16} {p : UInt16}
    (h : c.Holds n (pointerTable capacity pointers)) (hn : n + capacity + capacity ≤ Machine.addressSpace)
    (hlength : pointers.length ≤ capacity) (hp : pointers[index]? = some p) :
    Decode.pointer c (UInt16.ofNat n) (UInt16.ofNat (n + capacity)) index = .ok p := by
  have hindex := (List.getElem?_eq_some_iff.mp hp).1
  have hlo := h.left
  have hhi := h.right
  rw [Rows.length_fill] at hhi
  have hlow := hlo.byte? (getElem?_fill (by simpa using hlength)
    (by rw [List.getElem?_map, hp]; rfl)) (i := index) (by omega)
  have hhigh := hhi.byte? (getElem?_fill (by simpa using hlength)
    (by rw [List.getElem?_map, hp]; rfl)) (i := index) (by omega)
  have hroom : ¬ Machine.addressSpace ≤
      max (UInt16.ofNat n).toNat (UInt16.ofNat (n + capacity)).toNat + index := by
    rw [UInt16.toNat_ofNat', UInt16.toNat_ofNat']
    simp only [Machine.addressSpace] at hn ⊢
    omega
  simp only [Decode.pointer, if_neg hroom, hlow, hhigh, Word.ofBytes_low_high]

/-- Blocks that follow each other stand at their addresses. -/
theorem memoryFrom?_of_addresses : ∀ {blocks : List Bytes} {n index : Nat} {block : Bytes},
    c.Holds n blocks.flatten → n + blocks.flatten.length ≤ Machine.addressSpace →
      (∀ b ∈ blocks, 0 < b.length) → blocks[index]? = some block →
      ∃ p rest, (addresses n blocks)[index]? = some p ∧ c.memoryFrom? p = some (block ++ rest)
  | [], _, _, _, _, _, _, h => by simp at h
  | first :: blocks, n, index, block, hholds, hn, hpositive, h => by
    rw [List.flatten_cons] at hholds
    rw [List.flatten_cons, List.length_append] at hn
    have hfirst := hpositive first (by simp)
    cases index with
    | zero =>
      cases h
      obtain ⟨rest, hrest⟩ := hholds.left.memoryFrom? (by omega)
      exact ⟨_, rest, rfl, hrest⟩
    | succ index =>
      obtain ⟨p, rest, hp, hrest⟩ := @memoryFrom?_of_addresses _ _ index block
        hholds.right (by omega) (fun b hb => hpositive b (by simp [hb])) (by simpa using h)
      exact ⟨p, rest, by simpa [addresses] using hp, hrest⟩

theorem length_addresses : ∀ (blocks : List Bytes) (n : Nat), (addresses n blocks).length = blocks.length
  | [], _ => rfl
  | _ :: blocks, n => by simp [addresses, length_addresses blocks]

/-- A table of pointers to blocks that follow each other leads to each of them. -/
theorem memoryFrom?_of_pointer {n start capacity index : Nat} {blocks : List Bytes} {block : Bytes}
    (hpointers : c.Holds n (pointerTable capacity (addresses start blocks)))
    (hblocks : c.Holds start blocks.flatten) (hn : n + capacity + capacity ≤ Machine.addressSpace)
    (hstart : start + blocks.flatten.length ≤ Machine.addressSpace) (hlength : blocks.length ≤ capacity)
    (hpositive : ∀ b ∈ blocks, 0 < b.length) (hblock : blocks[index]? = some block) :
    ∃ p rest, Decode.pointer c (UInt16.ofNat n) (UInt16.ofNat (n + capacity)) index = .ok p ∧
      c.memoryFrom? p = some (block ++ rest) := by
  obtain ⟨p, rest, hp, hrest⟩ := memoryFrom?_of_addresses hblocks hstart hpositive hblock
  have hpointer := pointer_eq_ok hpointers hn (by rw [length_addresses]; exact hlength) hp
  exact ⟨p, rest, hpointer, hrest⟩

/-! ## Players -/

namespace Filled

variable (f : Filled t s commands)

/-- The player as its file is read. -/
def written : Container := f.container.written

theorem toNat_music : (Layout.placed t f.base).music.toNat = t.musicAt f.base :=
  UInt16.toNat_ofNat_of_lt' (Layout.musicAt_lt f.limit f.ascending)

theorem musicAt_lt : t.musicAt f.base < Machine.addressSpace := Layout.musicAt_lt f.limit f.ascending

/-- The music data ends below the top of memory. -/
theorem musicAt_add_le : t.musicAt f.base + f.music.bytes.length ≤ Machine.addressSpace := by
  have hlength := f.musicLength
  have hlimit := f.limit
  have hle := Layout.limitOf_le f.base
  rw [Layout.musicCapacity, f.toNat_music] at hlength
  have hlimit' : (Layout.placed t f.base).limit = Layout.limitOf f.base := rfl
  have hbytes : f.music.bytes.length ≤ (Layout.placed t f.base).limit - t.musicAt f.base := hlength
  omega

/-- **Every part stands where the layout puts it.** -/
theorem holds :
    f.written.Holds (t.slotsAt f.base) (f.slots.flatMap fun (place, rows) => slotBlock place rows) ∧
      f.written.Holds (t.tempoAt f.base) [s.tempo] ∧
      f.written.Holds (t.ordersAt f.base)
        (pointerTable voiceCount (addresses (t.musicAt f.base) f.music.orders)) ∧
      f.written.Holds (t.sequencesAt f.base)
        (pointerTable t.maxSequences.toNat
          (addresses (t.musicAt f.base + f.music.orders.flatten.length) f.music.sequences)) ∧
      f.written.Holds (t.musicAt f.base) f.music.bytes := by
  have himage : f.written.image = f.code ++ List.replicate t.variableBytes.toNat 0 ++
      ((f.slots.flatMap fun (place, rows) => slotBlock place rows) ++
        (pointerTable Sound.Pitch.count frequencies ++ ([s.tempo] ++
          (pointerTable voiceCount (addresses (t.musicAt f.base) f.music.orders) ++
            (pointerTable t.maxSequences.toNat
              (addresses (t.musicAt f.base + f.music.orders.flatten.length) f.music.sequences) ++
                f.music.bytes))))) := by
    show Encode.image t _ f.code s f.slots f.music = _
    simp only [Encode.image, MusicData.orderPointers, MusicData.sequencePointers, f.toNat_music,
      List.append_assoc]
  have hcode : f.written.loadAddress.toNat + (f.code ++ List.replicate t.variableBytes.toNat 0).length =
      t.slotsAt f.base := by
    rw [List.length_append, List.length_replicate, f.codeLength, ← Nat.add_assoc]
    rfl
  have h := Container.Holds.image f.written
  rw [himage] at h
  have hslots := h.right
  rw [hcode] at hslots
  have hfrequencies := hslots.right
  rw [length_slotBlocks f.places] at hfrequencies
  have htempo := hfrequencies.right
  rw [length_pointerTable, ← Nat.add_assoc] at htempo
  have horders := htempo.right
  have hsequences := horders.right
  rw [length_pointerTable, ← Nat.add_assoc] at hsequences
  have hmusic := hsequences.right
  rw [length_pointerTable, ← Nat.add_assoc] at hmusic
  exact ⟨hslots.left, htempo.left, horders.left, hsequences.left, hmusic⟩

/-- The image ends below the top of memory. -/
theorem length_image_le : f.base.toNat + f.written.image.length ≤ Machine.addressSpace := by
  have hend := f.musicAt_add_le
  have hlength : f.base.toNat + f.written.image.length = t.musicAt f.base + f.music.bytes.length :=
    length_image_placed f.music f.codeLength f.places
  omega

end Filled

end Chiptune.Player.Encode
