/-
The sections of a player.

The parts of a layout, each with its bytes, follow each other from the base on:
a section starts where the bytes of the sections before it end, and the music
where those of all of them do (`of_exact`). That holds of every layout but one
whose sections fill memory up to its last byte. The music of such a layout
would start at 65536, which sixteen bits do not hold (`music_lt_base`).
-/
import Chiptune.Proofs.Player.Layout
import Chiptune.Proofs.Player.Minimal

namespace Chiptune.Player

/-- A part of a player in memory. -/
structure Section where
  address : UInt16
  /-- Its bytes. -/
  size : Nat
deriving DecidableEq, Repr

namespace Section

/-- The bytes of sections. -/
def bytes (sections : List Section) : Nat := sections.foldr (fun s bytes => s.size + bytes) 0

/-- Sections that lie one after another from one address to another, without a gap. -/
def Consecutive (start : Nat) : List Section → Nat → Prop
  | [], stop => stop = start
  | s :: rest, stop => s.address.toNat = start ∧ Consecutive (start + s.size) rest stop

variable {a b : Section} {start middle stop : Nat} {first rest sections : List Section}

@[simp] theorem bytes_nil : bytes [] = 0 := rfl

@[simp] theorem bytes_cons (s : Section) (rest : List Section) : bytes (s :: rest) = s.size + bytes rest := rfl

theorem bytes_append (first rest : List Section) : bytes (first ++ rest) = bytes first + bytes rest := by
  induction first with
  | nil => simp
  | cons s first ih =>
    rw [List.cons_append, bytes_cons, bytes_cons, ih]
    omega

namespace Consecutive

theorem append (hfirst : Consecutive start first middle) (hrest : Consecutive middle rest stop) :
    Consecutive start (first ++ rest) stop := by
  induction first generalizing start with
  | nil =>
    cases hfirst
    exact hrest
  | cons s first ih => exact ⟨hfirst.1, ih hfirst.2⟩

theorem stop_eq (h : Consecutive start sections stop) : stop = start + bytes sections := by
  induction sections generalizing start with
  | nil => exact h
  | cons s rest ih =>
    rw [ih h.2, bytes_cons]
    omega

/-- A section starts after the bytes of those before it. -/
theorem address_getElem (h : Consecutive start sections stop) (i : Nat) (hi : i < sections.length) :
    sections[i].address.toNat = start + bytes (sections.take i) := by
  induction sections generalizing start i with
  | nil => cases hi
  | cons s rest ih =>
    cases i with
    | zero => exact h.1
    | succ i =>
      have hlength : i < rest.length := Nat.lt_of_succ_lt_succ hi
      rw [List.getElem_cons_succ, List.take_succ_cons, bytes_cons, ih h.2 i hlength]
      omega

theorem start_le_address (h : Consecutive start sections stop) (ha : a ∈ sections) : start ≤ a.address.toNat := by
  obtain ⟨i, hi, rfl⟩ := List.getElem_of_mem ha
  rw [h.address_getElem i hi]
  exact Nat.le_add_right ..

/-- A section ends before the next one starts. -/
theorem pairwise (h : Consecutive start sections stop) :
    sections.Pairwise fun a b => a.address.toNat + a.size ≤ b.address.toNat := by
  induction sections generalizing start with
  | nil => exact .nil
  | cons s rest ih =>
    refine .cons (fun b hb => ?_) (ih h.2)
    rw [h.1]
    exact h.2.start_le_address hb

theorem end_le_stop (h : Consecutive start sections stop) (ha : a ∈ sections) : a.address.toNat + a.size ≤ stop := by
  induction sections generalizing start with
  | nil => cases ha
  | cons s rest ih =>
    rcases List.mem_cons.mp ha with rfl | ha
    · rw [h.1, h.2.stop_eq]
      exact Nat.le_add_right ..
    · exact ih h.2 ha

end Consecutive

end Section

/-! ## The sections of a layout -/

/-- The slot in memory. -/
def SlotPlace.toSection (s : SlotPlace) : Section := ⟨s.address, s.size⟩

namespace Layout

variable {t : Template} {base : UInt16} {l : Layout}

/-- The sections before the music data, in memory order. -/
def sections (t : Template) (l : Layout) : List Section :=
  [⟨l.base, t.code.length⟩, ⟨l.workArea, t.variableBytes.toNat⟩] ++ l.slots.map SlotPlace.toSection ++
    [⟨l.freqLo, Sound.Pitch.count⟩, ⟨l.freqHi, Sound.Pitch.count⟩, ⟨l.settings, 1⟩,
      ⟨l.orderLo, Song.voiceCount⟩, ⟨l.orderHi, Song.voiceCount⟩,
      ⟨l.sequenceLo, t.maxSequences.toNat⟩, ⟨l.sequenceHi, t.maxSequences.toNat⟩]

theorem bytes_map_placeSlots (specs : List SlotSpec) (cursor : Nat) :
    Section.bytes ((placeSlots cursor specs).map SlotPlace.toSection) =
      specs.foldr (fun s bytes => s.size + bytes) 0 := by
  induction specs generalizing cursor with
  | nil => rfl
  | cons spec specs ih =>
    rw [placeSlots, List.map_cons, Section.bytes_cons, ih, List.foldr_cons]
    rfl

/-- The sections' bytes are what `make` adds up, cut down or not. -/
theorem bytes_sections_placed (t : Template) (base : UInt16) :
    base.toNat + Section.bytes ((placed t base).sections t) = t.musicAt base := by
  have hslots : Section.bytes ((placed t base).slots.map SlotPlace.toSection) = t.slotBytes :=
    bytes_map_placeSlots ..
  simp only [sections, Section.bytes_append, Section.bytes_cons, Section.bytes_nil, hslots, Template.musicAt,
    Template.sequencesAt, Template.ordersAt, Template.tempoAt, Template.frequenciesAt, Template.slotsAt]
  omega

theorem consecutive_placeSlots (specs : List SlotSpec) (cursor : Nat)
    (hstop : cursor + specs.foldr (fun s bytes => s.size + bytes) 0 < Machine.addressSpace) :
    Section.Consecutive cursor ((placeSlots cursor specs).map SlotPlace.toSection)
      (cursor + specs.foldr (fun s bytes => s.size + bytes) 0) := by
  induction specs generalizing cursor with
  | nil => rfl
  | cons spec specs ih =>
    rw [List.foldr_cons, ← Nat.add_assoc] at hstop ⊢
    refine ⟨UInt16.toNat_ofNat_of_lt' ?_, ih _ hstop⟩
    exact Nat.lt_of_le_of_lt (by omega) hstop

/-- Below the top of memory no address was cut down. -/
theorem consecutive_placed (hmusic : t.musicAt base < Machine.addressSpace) :
    Section.Consecutive base.toNat ((placed t base).sections t) (t.musicAt base) := by
  have hslots : Section.Consecutive (t.slotsAt base) ((placed t base).slots.map SlotPlace.toSection)
      (t.frequenciesAt base) := by
    refine consecutive_placeSlots t.tables (t.slotsAt base) (Nat.lt_of_le_of_lt ?_ hmusic)
    simp only [Template.musicAt, Template.sequencesAt, Template.ordersAt, Template.tempoAt, Template.frequenciesAt,
      Template.slotBytes]
    omega
  refine .append (.append ⟨rfl, ?_, rfl⟩ hslots) ⟨?_, ?_, ?_, ?_, ?_, ?_, ?_, rfl⟩
  all_goals
    refine UInt16.toNat_ofNat_of_lt' (Nat.lt_of_le_of_lt ?_ hmusic)
    simp only [Template.musicAt, Template.sequencesAt, Template.ordersAt, Template.tempoAt, Template.frequenciesAt,
      Template.slotsAt]
    omega

theorem map_placeSlots (specs : List SlotSpec) (cursor : Nat) :
    (placeSlots cursor specs).map (fun place => (place.slot, place.columns, place.capacity)) =
      specs.map fun spec => (spec.slot, spec.columns, spec.capacity) := by
  induction specs generalizing cursor with
  | nil => rfl
  | cons spec specs ih => rw [placeSlots, List.map_cons, List.map_cons, ih]

/-- **The addresses of a layout are exact**, unless its sections end at the very top of memory: each is the base
and the bytes of the sections before it. The slots are the template's, the sections do not overlap, and they and
the room for the music fill memory from the base to the limit. -/
theorem of_exact (h : Layout.of t base = .ok l)
    (htop : base.toNat + Section.bytes (l.sections t) ≠ Machine.addressSpace) :
    (∀ (i : Nat) (hi : i < (l.sections t).length),
        (l.sections t)[i].address.toNat = base.toNat + Section.bytes ((l.sections t).take i)) ∧
      l.music.toNat = base.toNat + Section.bytes (l.sections t) ∧
      l.slots.map (fun place => (place.slot, place.columns, place.capacity)) =
        t.tables.map (fun spec => (spec.slot, spec.columns, spec.capacity)) ∧
      (l.sections t).Pairwise (fun a b => a.address.toNat + a.size ≤ b.address.toNat) ∧
      (∀ a ∈ l.sections t, a.address.toNat + a.size ≤ l.music.toNat) ∧
      l.base ≤ l.music ∧ l.music.toNat ≤ l.limit ∧ l.limit = limitOf base ∧
      l.fixedSize = Section.bytes (l.sections t) ∧
      l.fixedSize + l.musicCapacity = l.limit - base.toNat := by
  obtain ⟨hlimit, rfl⟩ := of_eq_ok.mp h
  rw [bytes_sections_placed] at htop
  have hmusic : t.musicAt base < Machine.addressSpace :=
    Nat.lt_of_le_of_ne (Nat.le_trans hlimit (limitOf_le base)) htop
  have hconsecutive := consecutive_placed hmusic
  have haddress : (placed t base).music.toNat = t.musicAt base := UInt16.toNat_ofNat_of_lt' hmusic
  have hbytes := bytes_sections_placed t base
  have hfixed : (placed t base).fixedSize = Section.bytes ((placed t base).sections t) := by
    show (placed t base).music.toNat - base.toNat = _
    omega
  refine ⟨hconsecutive.address_getElem, by rw [haddress, hbytes], map_placeSlots .., hconsecutive.pairwise,
    fun a ha => ?_, UInt16.le_iff_toNat_le.mpr ?_, ?_, rfl, hfixed, ?_⟩
  · rw [haddress]
    exact hconsecutive.end_le_stop ha
  · show base.toNat ≤ _
    omega
  · rw [haddress]
    exact hlimit
  · show _ + (limitOf base - (placed t base).music.toNat) = limitOf base - base.toNat
    omega

/-- **Sections that fill memory to its top** leave no address for the music: it wraps to the first one, which is
before the base, although the layout is accepted. -/
theorem music_lt_base (h : Layout.of t base = .ok l)
    (htop : base.toNat + Section.bytes (l.sections t) = Machine.addressSpace) : l.music = 0 ∧ l.music < l.base := by
  obtain ⟨hlimit, rfl⟩ := of_eq_ok.mp h
  rw [bytes_sections_placed] at htop
  have hmusic : (placed t base).music = 0 := by
    rw [placed, htop]
    rfl
  refine ⟨hmusic, ?_⟩
  by_contra hle
  have hlt := musicAt_lt hlimit (UInt16.not_lt.mp hle)
  omega

end Layout

/-! ## The minimal player at the top of memory -/

namespace Minimal

theorem layout_template {base : UInt16} (h : base.toNat + 2736 ≤ Layout.limitOf base) :
    Layout.of template base = .ok (Layout.placed template base) :=
  Layout.of_eq_ok.mpr ⟨by rwa [musicAt_template], rfl⟩

/-- At the highest base with an address for the music, which is the last one. -/
theorem sections_below_top : Layout.of template 0xF54F = .ok (Layout.placed template 0xF54F) ∧
    (Layout.placed template 0xF54F).music.toNat = 0xFFFF ∧
    (Layout.placed template 0xF54F).fixedSize + (Layout.placed template 0xF54F).musicCapacity = 2737 := by
  have hlayout := @layout_template 0xF54F (by decide)
  have hbytes := Layout.bytes_sections_placed template 0xF54F
  rw [musicAt_template] at hbytes
  obtain ⟨-, hmusic, -, -, -, -, -, -, -, hroom⟩ := Layout.of_exact hlayout (by rw [hbytes]; decide)
  rw [hbytes] at hmusic
  exact ⟨hlayout, hmusic, hroom⟩

/-- One byte higher the layout is accepted with music before its base, and nothing adds up. -/
theorem sections_at_top : ∃ l, Layout.of template 0xF550 = .ok l ∧ l.music < l.base ∧
    l.music.toNat ≠ l.base.toNat + Section.bytes (l.sections template) ∧
    l.fixedSize + l.musicCapacity ≠ l.limit - l.base.toNat := by
  have hlayout := @layout_template 0xF550 (by decide)
  have hbytes := Layout.bytes_sections_placed template 0xF550
  rw [musicAt_template] at hbytes
  obtain ⟨hmusic, hlt⟩ := Layout.music_lt_base hlayout hbytes
  refine ⟨_, hlayout, hlt, fun hexact => ?_, ?_⟩
  · have hbase : (Layout.placed template 0xF550).base = 0xF550 := rfl
    rw [hmusic, hbase, hbytes] at hexact
    exact absurd hexact (by decide)
  · rw [Layout.fixedSize, Layout.musicCapacity, hmusic]
    decide

end Minimal

end Chiptune.Player
