/-
The minimal player in memory, with a song in it.

Its image is the code that is assembled for where it stands (`stands`), bytes
that are the same wherever that is (`twin`), and order lists and sequences that
tables of pointers lead to (`stored`).
-/
import Chiptune.Proofs.Player.Memory
import Chiptune.Proofs.Player.Minimal.Pairs
import Chiptune.Proofs.Player.Minimal.Simulation
import Chiptune.Proofs.Player.Music
import Chiptune.Proofs.Player.Packed

namespace Chiptune.Player.Minimal

open Machine Sound Song Encode

/-! ## Bytes at offsets -/

namespace Site

variable {here : Site} {n : Nat} {xs ys : Bytes}

/-- The bytes are in memory from an offset on. -/
def Reads (here : Site) (n : Nat) (bytes : Bytes) : Prop := ∀ i b, bytes[i]? = some b → here.byte (n + i) = b

namespace Reads

theorem left (h : here.Reads n (xs ++ ys)) : here.Reads n xs := by
  intro i b hb
  refine h i b ?_
  rw [List.getElem?_append_left (List.getElem?_eq_some_iff.mp hb).1, hb]

theorem right (h : here.Reads n (xs ++ ys)) {k : Nat} (hk : n + xs.length = k) : here.Reads k ys := by
  intro i b hb
  rw [← hk, Nat.add_assoc]
  refine h _ b ?_
  rw [List.getElem?_append_right (Nat.le_add_right ..), Nat.add_sub_cancel_left, hb]

/-- Blocks that follow each other are where those before them end. -/
theorem flatten : ∀ {blocks : List Bytes} {n k : Nat} {block : Bytes}, here.Reads n blocks.flatten →
    blocks[k]? = some block → here.Reads (n + (blocks.take k).flatten.length) block
  | [], _, _, _, _, h => by simp at h
  | first :: blocks, n, 0, block, hreads, h => by
    cases h
    exact hreads.left
  | first :: blocks, n, k + 1, block, hreads, h => by
    have hrest := flatten (hreads.right rfl) (by simpa using h : blocks[k]? = some block)
    rw [List.take_succ_cons, List.flatten_cons, List.length_append, ← Nat.add_assoc]
    exact hrest

end Reads

end Site

theorem length_flatten_take {blocks : List Bytes} {k : Nat} {block : Bytes} (h : blocks[k]? = some block) :
    (blocks.take k).flatten.length + block.length ≤ blocks.flatten.length := by
  obtain ⟨hk, hblock⟩ := List.getElem?_eq_some_iff.mp h
  have hsplit : blocks = blocks.take k ++ block :: blocks.drop (k + 1) := by
    rw [← hblock, List.getElem_cons_drop, List.take_append_drop]
  have hlength := congrArg (fun blocks => blocks.flatten.length) hsplit
  simp only [List.flatten_append, List.flatten_cons, List.length_append] at hlength
  omega

theorem getElem?_addresses : ∀ {blocks : List Bytes} {n k : Nat}, k < blocks.length →
    (addresses n blocks)[k]? = some (UInt16.ofNat (n + (blocks.take k).flatten.length))
  | [], _, _, h => by simp at h
  | first :: blocks, n, 0, _ => rfl
  | first :: blocks, n, k + 1, h => by
    have hrest := @getElem?_addresses blocks (n + first.length) k (by simpa using h)
    rw [List.take_succ_cons, List.flatten_cons, List.length_append, ← Nat.add_assoc]
    simpa [addresses] using hrest

/-! ## The layout -/

theorem length_code : template.code.length = 771 := template_assembled.length_code.trans listing_assembles.1

theorem slotsAt_eq (base : UInt16) : template.slotsAt base = base.toNat + slotsAt := by
  rw [Template.slotsAt, length_code]
  rfl

theorem layout_address (base : UInt16) (n : Nat) : UInt16.ofNat (base.toNat + n) = base + UInt16.ofNat n := by
  rw [UInt16.ofNat_add, UInt16.ofNat_toNat]

/-- **The layout has every symbol where the code's meaning has it.** -/
theorem address?_placed (here : Site) (symbol : Symbol) :
    (Layout.placed template here.base).address? symbol = here.resolve symbol := by
  have hslots := slotsAt_eq here.base
  have hplace (n : Nat) : UInt16.ofNat (here.base.toNat + n) = here.address n := layout_address here.base n
  cases symbol with
  | code => exact congrArg some (UInt16.add_zero here.base).symm
  | workArea =>
    show some (UInt16.ofNat (here.base.toNat + template.code.length)) = some (here.address 771)
    rw [length_code, hplace]
  | table slot =>
    have hplaced : (Layout.placed template here.base).slots = Layout.placeSlots (here.base.toNat + 841) slots := by
      show Layout.placeSlots (template.slotsAt here.base) _ = _
      rw [hslots]
      rfl
    rw [Layout.address?, Layout.slot?, hplaced]
    cases slot <;>
      simp [slots, Layout.placeSlots, Site.resolve, offsetOf?, slotsAt, SlotSpec.size, hplace, Nat.add_assoc]
  | _ =>
    refine congrArg some ((congrArg UInt16.ofNat ?_).trans (hplace _))
    simp only [Template.musicAt, Template.sequencesAt, Template.ordersAt, Template.tempoAt,
      Template.frequenciesAt, hslots]
    rfl

/-- **The player is moved** wherever there is room for it, and its code is then that assembled for its site. -/
theorem moved_template (here : Site) (hfits : template.musicAt here.base ≤ Layout.limitOf here.base) :
    ∃ patches, Patch.derive template (Layout.placed template here.base) = .ok patches ∧
      Patch.applied template.code patches = .ok (Assembly.codeFrom here.base labels here.resolve 0 listing) := by
  have hresolve : (Layout.placed template here.base).address? = here.resolve := funext (address?_placed here)
  rw [← hresolve]
  exact template_assembled.moved hfits

/-! ## Packed players -/

variable {s : Song} {commands : List Command}

/-- Where a player stands, with what is in memory. -/
def siteOf (p : Packed template s commands) (image : Memory) : Site := ⟨p.base, image⟩

/-- The code is that assembled for its base. -/
theorem code_eq (p : Packed template s commands) (image : Memory) :
    p.code = Assembly.codeFrom p.base labels (siteOf p image).resolve 0 listing := by
  obtain ⟨patches, hpatches, hmoved⟩ := moved_template (siteOf p image) p.limit
  cases p.derive.symm.trans hpatches
  exact Except.ok.inj (p.applied.symm.trans hmoved)

/-- The bytes of the slots. -/
def slotBytesOf (p : Packed template s commands) : Bytes := p.slots.flatMap fun (place, rows) => slotBlock place rows

/-- The parts of the image, each at its offset. -/
structure Holds (p : Packed template s commands) (here : Site) : Prop where
  code : here.Reads 0 p.code
  common : here.Reads slotsAt (slotBytesOf p ++ (pointerTable Pitch.count frequencies ++ [s.tempo]))
  orders : here.Reads 2474 (pointerTable voiceCount (addresses (p.base.toNat + musicAt) (MusicData.of s commands).orders))
  sequences : here.Reads 2480 (pointerTable 128 (addresses
    (p.base.toNat + musicAt + (MusicData.of s commands).orders.flatten.length) (MusicData.of s commands).sequences))
  music : here.Reads musicAt (MusicData.of s commands).bytes

theorem length_packed_code (p : Packed template s commands) : p.code.length = 771 :=
  (Patch.length_applied p.applied).trans length_code

theorem length_slotBytesOf (p : Packed template s commands) : (slotBytesOf p).length = 1440 := by
  rw [slotBytesOf, length_slotBlocks p.places]
  decide

theorem toNat_music_placed (p : Packed template s commands) :
    (Layout.placed template p.base).music.toNat = p.base.toNat + musicAt := by
  rw [p.toNat_music]
  simp only [Template.musicAt, Template.sequencesAt, Template.ordersAt, Template.tempoAt, Template.frequenciesAt,
    slotsAt_eq]
  rfl

theorem image_eq (p : Packed template s commands) : p.container.image =
    p.code ++ (List.replicate 70 0 ++ ((slotBytesOf p ++ (pointerTable Pitch.count frequencies ++ [s.tempo])) ++
      (pointerTable voiceCount (addresses (p.base.toNat + musicAt) (MusicData.of s commands).orders) ++
        (pointerTable 128 (addresses (p.base.toNat + musicAt + (MusicData.of s commands).orders.flatten.length)
          (MusicData.of s commands).sequences) ++ (MusicData.of s commands).bytes)))) := by
  show Encode.image template _ p.code s p.slots _ = _
  simp only [Encode.image, MusicData.orderPointers, MusicData.sequencePointers, toNat_music_placed, slotBytesOf,
    List.append_assoc]
  rfl

theorem length_image (p : Packed template s commands) :
    p.container.image.length = musicAt + (MusicData.of s commands).bytes.length := by
  simp only [image_eq, List.length_append, length_packed_code, length_slotBytesOf, length_pointerTable,
    List.length_replicate, List.length_singleton, musicAt]
  have hvoices : voiceCount = 3 := rfl
  have hpitches : Pitch.count = 96 := rfl
  omega

theorem holds_parts {p : Packed template s commands} {here : Site} (h : here.Reads 0 p.container.image) :
    Holds p here := by
  rw [image_eq] at h
  have hwork := h.right (by rw [length_packed_code])
  have hcommon := hwork.right (k := slotsAt) (by rw [List.length_replicate]; rfl)
  have horders := hcommon.right (k := 2474) (by
    simp only [List.length_append, length_slotBytesOf, length_pointerTable, List.length_singleton]
    rfl)
  have hsequences := horders.right (k := 2480) (by rw [length_pointerTable]; rfl)
  exact ⟨h.left, hcommon.left, horders.left, hsequences.left, hsequences.right (by rw [length_pointerTable]; rfl)⟩

/-- The player is where it is meant to be: above the stack and below the chip. -/
structure Within (p : Packed template s commands) : Prop where
  low : 0x200 ≤ p.base.toNat
  high : p.base.toNat + p.container.image.length ≤ windowStart

/-- The player is clear of the stack and of the chip. -/
structure Clear (p : Packed template s commands) : Prop where
  low : 0x200 ≤ p.base.toNat
  clear : p.base.toNat < windowStart ∨ windowEnd ≤ p.base.toNat

section Sites

variable {p : Packed template s commands} {image : Memory}

theorem Within.clear (h : Within p) : Clear p := by
  refine ⟨h.low, .inl ?_⟩
  have hhigh := h.high
  rw [length_image] at hhigh
  have hmusic : 0 < musicAt := by decide
  omega

theorem reads_image (h : Memory.ofBlock p.base p.container.image = .ok image) :
    (siteOf p image).Reads 0 p.container.image := by
  intro i b hb
  unfold Memory.ofBlock Memory.load at h
  split at h
  · cases h
  next hroom =>
    cases h
    rw [Nat.zero_add]
    exact Memory.read_writeAll (Nat.not_lt.mp hroom) hb

/-- **The code is in memory.** -/
theorem stands (hclear : Clear p) (h : Holds p (siteOf p image)) : (siteOf p image).Stands := by
  refine ⟨hclear.low, hclear.clear, ?_, fun i b hb => ?_⟩
  · have hroom := p.image_le_limit
    rw [length_image] at hroom
    show p.base.toNat + musicAt ≤ Layout.limitOf p.base
    omega
  · have hread := h.code i b (by rw [code_eq p image]; exact hb)
    rwa [Nat.zero_add] at hread

end Sites

/-! ## Two bases -/

/-- The bytes among the code are at their place. -/
theorem byte_data {here : Site} (hhere : here.Stands) {i : Nat} {b : UInt8} (hb : ([0, 7, 14] : Bytes)[i]? = some b) :
    here.byte (9 + i) = b := by
  have hitems : listing = entries.take 4 ++ Item.data [0, 7, 14] :: listing.drop 5 := rfl
  exact Assembly.Loaded.read_item hhere.loaded hitems (k := i) hb

/-- **What is before the music** is the same wherever the player stands, but for the code and pointers. -/
theorem twin {p p' : Packed template s commands} {image image' : Memory} (hstands : (siteOf p image).Stands)
    (hstands' : (siteOf p' image').Stands) (h : Holds p (siteOf p image)) (h' : Holds p' (siteOf p' image')) :
    Twin (siteOf p image) (siteOf p' image') := by
  have hslots : slotBytesOf p = slotBytesOf p' := slotBlocks_congr p.places p'.places p.rows p'.rows
  intro n hn
  simp only [isCommon, Bool.or_eq_true, Bool.and_eq_true, decide_eq_true_eq] at hn
  rcases hn with ⟨hlow, hhigh⟩ | ⟨hlow, hhigh⟩
  · have hi : n - 9 < ([0, 7, 14] : Bytes).length := show n - 9 < 3 by omega
    have hbyte := List.getElem?_eq_getElem hi
    have hhere := byte_data hstands hbyte
    have hthere := byte_data hstands' hbyte
    rw [Nat.add_sub_of_le hlow] at hhere hthere
    rw [hhere, hthere]
  · have hi : n - slotsAt < (slotBytesOf p ++ (pointerTable Pitch.count frequencies ++ [s.tempo])).length := by
      simp only [List.length_append, length_slotBytesOf, length_pointerTable, List.length_singleton]
      have hpitches : Pitch.count = 96 := rfl
      have hstart : slotsAt = 841 := rfl
      omega
    obtain ⟨b, hbyte⟩ : ∃ b, (slotBytesOf p ++ (pointerTable Pitch.count frequencies ++ [s.tempo]))[n - slotsAt]? = some b :=
      ⟨_, List.getElem?_eq_getElem hi⟩
    have hhere := h.common _ _ hbyte
    rw [hslots] at hbyte
    have hthere := h'.common _ _ hbyte
    rw [Nat.add_sub_of_le hlow] at hhere hthere
    rw [hhere, hthere]

/-! ## The score -/

/-- The score of a song, in the music of its player. -/
def scoreOf (s : Song) (commands : List Command) : Score where
  list v := (s.orderLists[v]?).getD {}
  listAt v := musicAt + ((MusicData.of s commands).orders.take v).flatten.length
  sequence i := ((s.sequences[i]?).map (Music.encodeSequence commands)).getD []
  sequenceAt i := musicAt + (MusicData.of s commands).orders.flatten.length +
    ((MusicData.of s commands).sequences.take i).flatten.length
  count := s.sequences.length

/-- **A song that keeps within the limits** can be played. -/
theorem playable_scoreOf (h : s.WellFormed) (hfew : s.sequences.length ≤ 128)
    (hshort : ∀ l ∈ s.orderLists, l.entries.length ≤ 127) (commands : List Command) : (scoreOf s commands).Playable := by
  have hconsistent := (wellFormed_iff_consistent.mp h).1
  have hlist (v : Nat) (hv : v < voiceCount) : (scoreOf s commands).list v ∈ s.orderLists := by
    rw [← h.orderLists_length] at hv
    show (s.orderLists[v]?).getD {} ∈ s.orderLists
    rw [List.getElem?_eq_getElem hv]
    exact List.getElem_mem hv
  refine ⟨hfew, fun v hv => hshort _ (hlist v hv), fun v hv => hconsistent.loops _ (hlist v hv), fun v hv e he => ?_,
    fun v hv e he => ?_, fun i hi => ?_⟩
  · obtain ⟨hloop, hstop, -⟩ := Music.toInt8_bias (h.transpose_le (hlist v hv) he)
    exact ⟨hloop, hstop⟩
  · obtain ⟨-, q, hq, -⟩ := hconsistent.entries _ (hlist v hv) e he
    exact (List.getElem?_eq_some_iff.mp hq).1
  · show Readable (((s.sequences[i]?).map _).getD [])
    rw [List.getElem?_eq_getElem hi]
    exact readable_encodeSequence commands _

/-- The halves of a pointer are in the halves of its table. -/
theorem halves_pointerTable {here : Site} {n m capacity k : Nat} {pointers : List UInt16} {p : UInt16}
    (h : here.Reads n (pointerTable capacity pointers)) (hm : n + capacity = m) (hlength : pointers.length ≤ capacity)
    (hp : pointers[k]? = some p) : here.byte (n + k) = Word.low p ∧ here.byte (m + k) = Word.high p :=
  ⟨h.left k (Word.low p) (getElem?_fill (by simpa using hlength) (by rw [List.getElem?_map, hp]; rfl)),
    (h.right (by rw [Rows.length_fill, hm])) k (Word.high p)
      (getElem?_fill (by simpa using hlength) (by rw [List.getElem?_map, hp]; rfl))⟩

/-- A pointer in a table reads back. -/
theorem ofBytes_pointerTable {here : Site} {n m capacity k : Nat} {pointers : List UInt16} {p : UInt16}
    (h : here.Reads n (pointerTable capacity pointers)) (hm : n + capacity = m) (hlength : pointers.length ≤ capacity)
    (hp : pointers[k]? = some p) : Word.ofBytes (here.byte (n + k)) (here.byte (m + k)) = p := by
  obtain ⟨hlow, hhigh⟩ := halves_pointerTable h hm hlength hp
  rw [hlow, hhigh, Word.ofBytes_low_high]

/-- **The score is in memory.** -/
theorem stored {p : Packed template s commands} {image : Memory} (h : Holds p (siteOf p image))
    (hfew : s.sequences.length ≤ 128) : (scoreOf s commands).Stored (siteOf p image) := by
  have hvoices := p.wellFormed.orderLists_length
  have hroom := p.image_le_limit
  rw [length_image] at hroom
  have hbytes : (MusicData.of s commands).bytes.length = (MusicData.of s commands).orders.flatten.length +
      (MusicData.of s commands).sequences.flatten.length := List.length_append
  have hmusic : (siteOf p image).Reads musicAt
      ((MusicData.of s commands).orders.flatten ++ (MusicData.of s commands).sequences.flatten) := h.music
  have hslots : slotsAt ≤ musicAt := by decide
  have horder {v : Nat} (hv : v < voiceCount) : (MusicData.of s commands).orders[v]? =
      some (Music.encodeOrderList ((scoreOf s commands).list v)) := by
    rw [← hvoices] at hv
    simp only [MusicData.of, scoreOf, List.getElem?_map, List.getElem?_eq_getElem hv, Option.map_some, Option.getD_some]
  have hsequence {i : Nat} (hi : i < s.sequences.length) : (MusicData.of s commands).sequences[i]? =
      some ((scoreOf s commands).sequence i) := by
    simp only [MusicData.of, scoreOf, List.getElem?_map, List.getElem?_eq_getElem hi, Option.map_some, Option.getD_some]
  refine ⟨fun v hv => ?_, fun v hv => ?_, fun i hi => ?_, fun i hi => ?_⟩
  · have horders := length_flatten_take (horder hv)
    refine ⟨Nat.le_add_right_of_le hslots, ?_, hmusic.left.flatten (horder hv)⟩
    show p.base.toNat + (musicAt + _) + _ ≤ Layout.limitOf p.base
    omega
  · have hlength : (MusicData.of s commands).orders.length = voiceCount := by
      rw [MusicData.of, List.length_map, hvoices]
    have hpointer := ofBytes_pointerTable h.orders (m := 2477) rfl (by rw [length_addresses, hlength])
      (getElem?_addresses (by rw [hlength]; exact hv))
    rw [hpointer, Nat.add_assoc]
    exact layout_address p.base _
  · have hsequences := length_flatten_take (hsequence hi)
    refine ⟨?_, ?_, (hmusic.right rfl).flatten (hsequence hi)⟩
    · show slotsAt ≤ musicAt + _ + _
      omega
    · show p.base.toNat + (musicAt + _ + _) + _ ≤ Layout.limitOf p.base
      omega
  · have hlength : (MusicData.of s commands).sequences.length = s.sequences.length := List.length_map ..
    have hpointer := ofBytes_pointerTable h.sequences (m := 2608) rfl (by rw [length_addresses, hlength]; exact hfew)
      (getElem?_addresses (by rw [hlength]; exact hi))
    rw [hpointer, Nat.add_assoc, Nat.add_assoc, ← Nat.add_assoc musicAt]
    exact layout_address p.base _

end Chiptune.Player.Minimal
