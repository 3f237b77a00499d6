/-
The song that is decoded is the one in the player.

A slot of the player has its rows column by column (`exists_slot`). With the
tables of frequencies and the tempo this is what the code reads of the song
(`carries`), and its order lists and sequences are the score (`ready`).
-/
import Chiptune.Proofs.Player.Decoded
import Chiptune.Proofs.Player.Minimal.Carried
import Chiptune.Proofs.Player.Minimal.Endless
import Chiptune.Proofs.Player.Minimal.Image
import Chiptune.Proofs.Player.Minimal.Reading

namespace Chiptune.Player.Minimal

open Machine Sound Song Encode

variable {here : Site} {s d : Song} {commands : List Command}

/-! ## Slots -/

/-- Slots that follow each other are where those before them end. -/
theorem reads_slotBlock : ∀ {specs : List SlotSpec} {cursor n k : Nat} {slots : List (SlotPlace × List Bytes)}
    {spec : SlotSpec}, slots.map (·.1) = Layout.placeSlots cursor specs →
      here.Reads n (slots.flatMap fun (place, rows) => slotBlock place rows) → specs[k]? = some spec →
      ∃ q ∈ slots, q.1.slot = spec.slot ∧ q.1.capacity = spec.capacity ∧
        here.Reads (n + (specs.take k).foldr (fun s bytes => s.size + bytes) 0) (slotBlock q.1 q.2)
  | [], _, _, _, _, _, _, _, h => by simp at h
  | first :: specs, cursor, n, k, slots, spec, hplaces, hreads, h => by
    obtain ⟨q, rest, rfl, hq, hrest⟩ := List.map_eq_cons_iff.mp hplaces
    rw [List.flatMap_cons] at hreads
    cases k with
    | zero =>
      cases h
      exact ⟨q, List.mem_cons_self, by rw [hq], by rw [hq], hreads.left⟩
    | succ k =>
      have hsize : (slotBlock q.1 q.2).length = first.size := by
        rw [length_slotBlock, hq]
        rfl
      have hlater := hreads.right rfl
      obtain ⟨q', hq', hslot, hcapacity, hblock⟩ := reads_slotBlock hrest hlater (by simpa using h : specs[k]? = some spec)
      refine ⟨q', List.mem_cons_of_mem _ hq', hslot, hcapacity, ?_⟩
      rw [List.take_succ_cons, List.foldr_cons, ← Nat.add_assoc, ← hsize]
      exact hblock

/-- The rows of a slot are in its columns. -/
theorem inColumns_slotBlock {place : SlotPlace} {rows : List Bytes} {start i : Nat} {bytes : Bytes}
    (hroom : rows.length ≤ place.capacity.toNat) (hwidth : ∀ bytes ∈ rows, bytes.length = place.columns.toNat)
    (hreads : here.Reads start (slotBlock place rows)) (hi : rows[i]? = some bytes) :
    here.InColumns start place.capacity.toNat i bytes := by
  intro column b hb
  obtain ⟨hrow, rfl⟩ := List.getElem?_eq_some_iff.mp hi
  have hcolumn : column < place.columns.toNat := by
    rw [← hwidth _ (List.getElem_mem hrow)]
    exact (List.getElem?_eq_some_iff.mp hb).1
  have hcell := getElem?_slotBlock hroom hwidth hrow hcolumn
  rw [hb] at hcell
  have hbyte := hreads _ _ hcell
  rw [Columns.cell, ← Nat.add_assoc, Nat.mul_comm] at hbyte
  exact hbyte

/-- Where each slot of the player is. -/
theorem offsetOf?_slot {slot : Slot} {start : Nat} (h : offsetOf? (.table slot) = some start) : ∃ k spec,
    slots[k]? = some spec ∧ spec.slot = slot ∧
      slotsAt + (slots.take k).foldr (fun s bytes => s.size + bytes) 0 = start := by
  cases slot with
  | instruments => exact ⟨0, _, rfl, rfl, Option.some.inj h⟩
  | commands => exact ⟨1, _, rfl, rfl, Option.some.inj h⟩
  | wave => exact ⟨2, _, rfl, rfl, Option.some.inj h⟩
  | pulse => exact ⟨3, _, rfl, rfl, Option.some.inj h⟩
  | filter => exact ⟨4, _, rfl, rfl, Option.some.inj h⟩
  | arpeggio => cases h

/-- **A slot of the player** has rows of the song, column by column. -/
theorem exists_slot {p : Packed template s commands} {f : Filled template d commands} (hslots : f.slots = p.slots)
    (h : Holds p here) {slot : Slot} {start : Nat} (hstart : offsetOf? (.table slot) = some start) :
    ∃ spec, template.spec? slot = some spec ∧ ∃ place rows, place.slot = slot ∧
      place.columns.toNat = slot.columns ∧ SlotRows d commands place rows ∧
      ∀ (i : Nat) bytes, rows[i]? = some bytes → here.InColumns start spec.capacity.toNat i bytes := by
  obtain ⟨k, spec, hspec, rfl, hoffset⟩ := offsetOf?_slot hstart
  have hmem : spec ∈ template.tables := List.mem_of_getElem? hspec
  have hplaces : p.slots.map (·.1) = Layout.placeSlots (template.slotsAt p.base) slots := p.places
  obtain ⟨⟨place, rows⟩, hq, hslot, hcapacity, hreads⟩ := reads_slotBlock hplaces h.common.left hspec
  rw [← hslots] at hq
  obtain ⟨hroom, hwidth⟩ := f.length_rows minimal_schematic hq
  have hcolumns := (f.exists_spec minimal_schematic hq).1
  dsimp only at hslot hcapacity hreads hroom hwidth hcolumns
  refine ⟨spec, minimal_schematic.spec?_eq_some hmem, place, rows, hslot, hslot ▸ hcolumns, f.rows _ hq,
    fun i bytes hi => ?_⟩
  rw [← hcapacity, ← hoffset]
  exact inColumns_slotBlock hroom hwidth hreads hi

/-! ## Programs -/

/-- The file keeps the rows of each program. -/
theorem programRows_normal (h : d.WellFormed) (kind : TableKind) : programRows d.normal kind = programRows d kind := by
  unfold programRows
  cases htable : d.table? kind with
  | none =>
    have hnone : d.normal.table? kind = none := Option.eq_none_iff_forall_ne_some.mpr fun u hu => by
      obtain ⟨table, hsome, -⟩ := (table?_normal h).mp hu
      rw [htable] at hsome
      cases hsome
    rw [hnone]
  | some table =>
    by_cases hempty : table.rows = []
    · have hnone : d.normal.table? kind = none := Option.eq_none_iff_forall_ne_some.mpr fun u hu => by
        obtain ⟨table', hsome, hrows, -⟩ := (table?_normal h).mp hu
        rw [htable] at hsome
        cases hsome
        exact hrows hempty
      rw [hnone]
      exact hempty.symm
    · rw [(table?_normal h).mpr ⟨table, htable, hempty, rfl⟩]
      rfl

/-- The bytes of a row are the first ones of what it is encoded to. -/
theorem getElem?_encodeRow {kind : TableKind} {row : Row} {bytes : Bytes} (hkind : kind ≠ .arpeggio)
    (hwidth : ∀ step, row = .step step → step.length = kind.width) (hcollides : Rows.collides kind row = false)
    (h : Rows.encodeRow kind kind.width row = .ok bytes) {k : Nat} {b : UInt8} (hb : (rowBytes row)[k]? = some b) :
    bytes[k]? = some b := by
  have hfill : Rows.fill kind.width (rowBytes row) = bytes ∧ (rowBytes row).length ≤ kind.width := by
    cases kind with
    | arpeggio => exact absurd rfl hkind
    | _ =>
      cases row with
      | step step =>
        have hsame := Rows.stepBytes_of_not_collides hcollides
        cases h
        exact ⟨by rw [hsame]; rfl, Nat.le_of_eq (hwidth step rfl)⟩
      | loop | stop =>
        cases h
        exact ⟨rfl, Nat.le_of_ble_eq_true rfl⟩
  rw [← hfill.1]
  exact getElem?_fill hfill.2 hb

section Carries

variable {p : Packed template s commands} {f : Filled template d commands}

/-- The player has no table of arpeggios. -/
theorem programRows_arpeggio (f : Filled template d commands) : programRows d .arpeggio = [] := by
  unfold programRows
  cases htable : d.table? .arpeggio with
  | none => rfl
  | some table =>
    obtain ⟨hkind, hmem⟩ := mem_of_table? htable
    have hslot := f.supported.tables table hmem
    rw [Fit.hasSlot, hkind] at hslot
    exact List.isEmpty_iff.mp hslot

/-- **A program table** is in its slot, and none of its steps looks like a marker. -/
theorem exists_table (hslots : f.slots = p.slots) (h : Holds p here) {kind : TableKind} {start : Nat}
    (hstart : offsetOf? (.table (.ofTable kind)) = some start) :
    (programRows d kind).length ≤ 128 ∧ (∀ row ∈ programRows d kind, Rows.collides kind row = false) ∧
      ∀ (i : Nat) row, (programRows d kind)[i]? = some row → here.InColumns start 128 i (rowBytes row) := by
  obtain ⟨spec, hspec, place, rows, hslot, hcolumns, hrows, hin⟩ := exists_slot hslots h hstart
  have hkind := ne_arpeggio hstart
  have hcapacity : spec.capacity.toNat = 128 := by
    cases kind with
    | arpeggio => exact absurd rfl hkind
    | _ =>
      rw [← Option.some.inj hspec]
      rfl
  have hshort := f.fits.tableLength_le hspec
  rw [← length_programRows, hcapacity] at hshort
  refine ⟨hshort, ?_⟩
  have htable? : place.slot.table? = some kind := by rw [hslot, Slot.table?_ofTable]
  unfold programRows
  cases hrows with
  | instruments hslot' | commands hslot' =>
    rw [hslot'] at htable?
    cases htable?
  | noTable hslot' htable =>
    cases htable?.symm.trans hslot'
    rw [htable]
    exact ⟨nofun, nofun⟩
  | @table _ table _ hslot' htable hloss hencode =>
    cases htable?.symm.trans hslot'
    rw [htable]
    obtain ⟨rfl, hmem⟩ := mem_of_table? htable
    have hcollides : ∀ row ∈ table.rows, Rows.collides table.kind row = false := by
      simpa [Rows.tableLoss?] using hloss
    rw [hcolumns, Slot.columns_of_table? (Slot.table?_ofTable _)] at hencode
    refine ⟨hcollides, fun i row hrow k b hb => ?_⟩
    obtain ⟨bytes, hbytes, hrowBytes⟩ := exists_getElem?_right (mapM_eq_ok.mp hencode) hrow
    have hmemRow := List.mem_of_getElem? hrow
    rw [← hcapacity]
    exact hin i bytes hbytes k b (getElem?_encodeRow hkind
      (fun step he => f.wellFormed.step_length hmem (he ▸ hmemRow)) (hcollides row hmemRow) hrowBytes hb)

/-- The tables of frequencies have those of every pitch. -/
theorem frequency_halves (h : Holds p here) {i : Nat} (hi : i ≤ Pitch.highest) :
    here.byte (2281 + i) = Word.low (Pitch.frequency i) ∧ here.byte (2377 + i) = Word.high (Pitch.frequency i) := by
  have hbytes := h.common.right (k := 2281) (by rw [length_slotBytesOf]; rfl)
  have hlt : i < Pitch.count := Nat.lt_succ_of_le hi
  refine halves_pointerTable hbytes.left (m := 2377) rfl ?_ ?_
  · rw [frequencies, List.length_map, List.length_range]
  · rw [frequencies, List.getElem?_map, List.getElem?_range hlt]
    rfl

theorem byte_tempo (h : Holds p here) : here.byte 2473 = s.tempo := by
  have hbytes := h.common.right (k := 2281) (by rw [length_slotBytesOf]; rfl)
  exact hbytes.right (k := 2473) (by rw [length_pointerTable]; rfl) 0 s.tempo rfl

theorem instrument_inColumns (hslots : f.slots = p.slots) (h : Holds p here) {i : Nat} {x : Instrument}
    (hx : d.instruments[i]? = some x) : here.InColumns slotsAt 32 i (Rows.encodeInstrument x) := by
  have hstart : offsetOf? (.table .instruments) = some slotsAt := rfl
  obtain ⟨spec, hspec, place, rows, hslot, -, hrows, hin⟩ := exists_slot hslots h hstart
  have hcapacity : spec.capacity.toNat = 32 := by
    rw [← Option.some.inj hspec]
    rfl
  rw [hcapacity] at hin
  exact hin i _ (by rw [hrows.eq_of_instruments hslot, List.getElem?_map, hx]; rfl)

theorem command_inColumns (hslots : f.slots = p.slots) (h : Holds p here) {i : Nat} {c : Command}
    (hc : commands[i]? = some c) : here.InColumns 1033 32 i (Rows.encodeCommand c) := by
  have hstart : offsetOf? (.table .commands) = some 1033 := rfl
  obtain ⟨spec, hspec, place, rows, hslot, -, hrows, hin⟩ := exists_slot hslots h hstart
  have hcapacity : spec.capacity.toNat = 32 := by
    rw [← Option.some.inj hspec]
    rfl
  rw [hcapacity] at hin
  exact hin i _ (by rw [hrows.eq_of_commands hslot, List.getElem?_map, hc]; rfl)

/-- **The decoded song is in the player.** -/
theorem carries (hslots : f.slots = p.slots) (hhere : here.Stands) (h : Holds p here) (htempo : d.tempo = s.tempo) :
    here.Carries d.normal commands := by
  have htables := programRows_normal f.wellFormed
  have hevents : d.normal.events = d.events := (alike_normal f.wellFormed).events
  refine ⟨fun v hv => ?_, (byte_tempo h).trans htempo.symm, fun i hi => (frequency_halves h hi).1,
    fun i hi => (frequency_halves h hi).2, fun i x hx => ?_, fun i c hc => ?_, fun kind start hstart i row hrow => ?_,
    fun kind => ?_, fun kind first bytes hstep => ?_, f.length_commands_le, fun c hc => ?_⟩
  · have hb : ([0, 7, 14] : Bytes)[v]? = some (UInt8.ofNat (7 * v)) := by
      revert v
      decide
    have hvoices : voiceCount = 3 := rfl
    rw [byte_data hhere hb, UInt8.toNat_ofNat']
    omega
  · exact instrument_inColumns hslots h hx
  · exact command_inColumns hslots h hc
  · rw [htables] at hrow
    exact (exists_table hslots h hstart).2.2 i row hrow
  · rw [htables]
    cases kind with
    | arpeggio =>
      rw [programRows_arpeggio f]
      exact Nat.zero_le _
    | _ => exact (exists_table hslots h rfl).1
  · rw [htables] at hstep
    cases kind with
    | arpeggio =>
      rw [programRows_arpeggio f] at hstep
      cases hstep
    | _ => exact (exists_table hslots h rfl).2.1 _ hstep
  · rw [hevents] at hc
    obtain ⟨q, hq, hc⟩ := List.mem_flatMap.mp hc
    exact f.known q hq c hc

end Carries

/-! ## Scores -/

/-- The decoded song has the score that was encoded. -/
theorem scoreOf_legible (s : Song) (commands : List Command) :
    scoreOf (legible s).normal commands = scoreOf s commands := by
  have hmusic : MusicData.of (legible s).normal commands = MusicData.of s commands := music_normal (legible s) commands
  have hsequence (i : Nat) : (((legible s).normal.sequences[i]?).map (Music.encodeSequence commands)).getD [] =
      ((s.sequences[i]?).map (Music.encodeSequence commands)).getD [] := by
    show (((s.sequences.map Sequence.static)[i]?).map _).getD [] = _
    rw [List.getElem?_map, Option.map_map]
    rfl
  have hcount : (legible s).normal.sequences.length = s.sequences.length := List.length_map ..
  simp only [scoreOf, hmusic, hsequence, hcount]
  rfl

/-- **A player that was encoded** is ready to play the song that it decodes to. -/
theorem ready {p : Packed template s commands} {f : Filled template (legible s) commands} {image : Memory}
    (hslots : f.slots = p.slots) (hsequences : s.sequences.length ≤ 128)
    (hentries : ∀ l ∈ s.orderLists, l.entries.length ≤ 127) (hwithin : Within p)
    (h : p.container.program.image = .ok image) : (siteOf p image).Ready (legible s).normal commands := by
  have hholds := holds_parts (reads_image h)
  refine ⟨f.wellFormed.normal, carries hslots (stands hwithin.clear hholds) hholds rfl, ?_, ?_⟩
  · rw [scoreOf_legible]
    exact playable_scoreOf p.wellFormed hsequences hentries commands
  · rw [scoreOf_legible]
    exact stored hholds hsequences

end Chiptune.Player.Minimal
