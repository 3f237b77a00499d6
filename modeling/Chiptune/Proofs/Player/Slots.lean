/-
The slots of a filled player read back.

Each slot gives back its part of the song (`Filled.add_slot`). A container's
tables come in the order of the template's slots, so the song's tables are
found in that order and get their own by sorting (`Filled.foldlM_tables`).
-/
import Chiptune.Proofs.Player.Memory
import Chiptune.Proofs.Player.Schema
import Chiptune.Proofs.Song.Normal

namespace Chiptune.Player

open File Song

/-! ## Reading a table -/

namespace Decode

section Add

variable {c : Container} {t : TableDescriptor} {slot : Slot} {rows : List Bytes} {found : Found}

theorem add_instruments (hkind : Slot.ofId? t.kind = some .instruments) (hused : t.used = 0 ↔ rows = [])
    (hread : tableRows c t = .ok rows) :
    found.add c t =
      .ok (if rows = [] then found else { found with instruments := rows.map Rows.decodeInstrument }) := by
  simp only [Found.add, hkind, hused, hread]
  split <;> rfl

theorem add_commands {commands : List Command} (hkind : Slot.ofId? t.kind = some .commands)
    (hused : t.used = 0 ↔ rows = []) (hread : tableRows c t = .ok rows)
    (hcommands : rows.mapM Rows.decodeCommand = .ok commands) :
    found.add c t = .ok (if rows = [] then found else { found with commands }) := by
  simp only [Found.add, hkind, hused, hread]
  split
  · rfl
  · show (do return { found with commands := ← rows.mapM Rows.decodeCommand } : Except Failure Found) = _
    rw [hcommands]
    rfl

theorem add_table {kind : TableKind} (hkind : Slot.ofId? t.kind = some slot)
    (hused : t.used = 0 ↔ rows = []) (hread : tableRows c t = .ok rows) (htable : slot.table? = some kind) :
    found.add c t =
      .ok (if rows = [] then found
        else { found with tables := found.tables ++ [(Rows.decodeTable kind rows).closed] }) := by
  simp only [Found.add, hkind, hused, hread]
  split
  · rfl
  · cases slot <;> cases htable <;> rfl

end Add

end Decode

namespace Encode

variable {t : Template} {s : Song} {commands : List Command}

/-! ## What the slots hold together -/

/-- The table a slot holds, if it has rows. -/
def tableIn? (s : Song) (slot : Slot) : Option Table := do
  let table ← s.table? (← slot.table?)
  if table.rows = [] then none else some table.static

/-- What was found, with what a slot of a song with its commands adds to it. -/
def put (s : Song) (commands : List Command) (found : Decode.Found) (slot : Slot) : Decode.Found where
  instruments := if slot = .instruments ∧ s.instruments ≠ [] then s.instruments else found.instruments
  commands := if slot = .commands ∧ commands ≠ [] then commands else found.commands
  tables := found.tables ++ (tableIn? s slot).toList

theorem put_instruments (found : Decode.Found) :
    put s commands found .instruments =
      if s.instruments = [] then found else { found with instruments := s.instruments } := by
  split <;> simp [put, tableIn?, Slot.table?, *]

theorem put_commands (found : Decode.Found) :
    put s commands found .commands =
      if commands = [] then found else { found with commands } := by
  split <;> simp [put, tableIn?, Slot.table?, *]

theorem put_table {slot : Slot} {kind : TableKind} (h : slot.table? = some kind) (found : Decode.Found) :
    put s commands found slot = { found with tables := found.tables ++ (tableIn? s slot).toList } := by
  cases slot <;> cases h <;> rfl

/-- What all slots hold together, in whatever order they stand. -/
theorem foldl_put : ∀ (slots : List Slot) (found : Decode.Found),
    slots.foldl (put s commands) found =
      { instruments := if .instruments ∈ slots ∧ s.instruments ≠ [] then s.instruments else found.instruments
        commands := if .commands ∈ slots ∧ commands ≠ [] then commands else found.commands
        tables := found.tables ++ slots.filterMap (tableIn? s) }
  | [], found => by simp
  | slot :: slots, found => by
    rw [List.foldl_cons, foldl_put slots]
    simp only [put, Decode.Found.mk.injEq]
    refine ⟨by grind, by grind, ?_⟩
    cases htable : tableIn? s slot <;> simp [htable]

end Encode

namespace Encode.Filled

variable {t : Template} {s : Song} {commands : List Command} (f : Filled t s commands)
include f

/-! ## Rows of the slots -/

theorem exists_spec (ht : t.Schematic) {p : SlotPlace × List Bytes} (hp : p ∈ f.slots) :
    p.1.columns.toNat = p.1.slot.columns ∧
      ∃ spec, t.spec? p.1.slot = some spec ∧ spec.capacity = p.1.capacity := by
  have hplace : p.1 ∈ (Layout.placed t f.base).slots := by
    rw [← f.places]
    exact List.mem_map_of_mem hp
  obtain ⟨spec, hspec, hslot, hcolumns, hcapacity⟩ := Layout.exists_spec_of_mem_placeSlots hplace
  refine ⟨?_, spec, ?_, hcapacity⟩
  · rw [← hcolumns, ← hslot, ht.columns spec hspec]
  · rw [← hslot, ht.spec?_eq_some hspec]

theorem length_rows (ht : t.Schematic) {p : SlotPlace × List Bytes} (hp : p ∈ f.slots) :
    p.2.length ≤ p.1.capacity.toNat ∧ ∀ r ∈ p.2, r.length = p.1.columns.toNat := by
  obtain ⟨hcolumns, spec, hspec, hcapacity⟩ := f.exists_spec ht hp
  obtain ⟨place, rows⟩ := p
  rw [← hcapacity]
  cases f.rows _ hp with
  | instruments hslot =>
    rw [hslot] at hspec hcolumns
    refine ⟨by simpa using f.fits.instruments_le hspec, ?_⟩
    simp [hcolumns, Rows.length_encodeInstrument, Slot.columns]
  | commands hslot =>
    rw [hslot] at hspec hcolumns
    have hle := f.few
    rw [Fit.commandCapacity, hspec] at hle
    refine ⟨by simpa using hle, ?_⟩
    simp [hcolumns, Rows.length_encodeCommand, Slot.columns]
  | table hslot htable _ hrows =>
    rw [Slot.eq_ofTable hslot] at hspec
    have hle := f.fits.tableLength_le hspec
    rw [Song.tableLength, htable] at hle
    obtain ⟨hlength, hwidth⟩ := Rows.length_of_encodeTable hrows
    exact ⟨by rw [hlength]; exact hle, hwidth⟩
  | noTable => simp

/-! ## Reading the slots -/

/-- A program starts below the number that stands for none. -/
theorem start?_ne {i : Instrument} (hi : i ∈ s.instruments) (kind : TableKind) :
    i.start? kind ≠ some Rows.noProgram := by
  intro hstart
  have hlt := f.wellFormed.start?_lt hi hstart
  have hrow : Rows.noProgram.toNat = 255 := rfl
  cases hspec : t.spec? (.ofTable kind) with
  | some spec =>
    have hle := f.fits.tableLength_le hspec
    have := spec.capacity.toNat_lt
    omega
  | none =>
    rw [Song.tableLength] at hlt
    split at hlt
    next table htable =>
      obtain ⟨hkind, hmem⟩ := Song.mem_of_table? htable
      have hslot := f.supported.tables table hmem
      have hempty : table.rows.length = 0 := by simpa [Fit.hasSlot, hkind, hspec] using hslot
      omega
    · omega

theorem decodeInstruments :
    (s.instruments.map Rows.encodeInstrument).map Rows.decodeInstrument = s.instruments := by
  rw [List.map_map, List.map_congr_left (g := id), List.map_id]
  intro i hi
  exact Rows.decodeInstrument_encodeInstrument (f.start?_ne hi .pulse) (f.start?_ne hi .filter)

theorem decodeTable (ht : t.Schematic) {p : SlotPlace × List Bytes} (hp : p ∈ f.slots) {kind : TableKind}
    {table : Table} (hslot : p.1.slot.table? = some kind) (htable : s.table? kind = some table)
    (hloss : Rows.tableLoss? table = none) (hrows : Rows.encodeTable table p.1.columns.toNat = .ok p.2) :
    (Rows.decodeTable kind p.2).closed = table.static := by
  obtain ⟨rfl, hmem⟩ := Song.mem_of_table? htable
  have hcolumns := (f.exists_spec ht hp).1
  rw [hcolumns, Slot.columns_of_table? hslot] at hrows
  rw [Rows.decodeTable_encodeTable (fun _ hstep => f.wellFormed.step_length hmem hstep) hloss hrows]
  have hclosed : table.static.isOpen = false := show table.isOpen = false from
    f.wellFormed.isOpen_eq_false hmem
  exact if_neg (by rw [Bool.not_eq_true]; exact hclosed)

theorem tableRows_eq_ok (ht : t.Schematic) {p : SlotPlace × List Bytes} (hp : p ∈ f.slots) (id : Nat) :
    Decode.tableRows f.written (slotDescriptor t id p.1 p.2.length).written = .ok p.2 := by
  obtain ⟨hcapacity, hwidth⟩ := f.length_rows ht hp
  obtain ⟨n, hn, haddress, hblock⟩ := holds_slotBlock f.places f.holds.1 p hp
  have htop := f.musicAt_lt
  have hend : t.slotsAt f.base + t.slotBytes ≤ t.musicAt f.base := by
    simp only [Template.musicAt, Template.sequencesAt, Template.ordersAt, Template.tempoAt,
      Template.frequenciesAt]
    omega
  have hused : (UInt8.ofNat p.2.length).toNat = p.2.length := by
    have := p.1.capacity.toNat_lt
    rw [UInt8.toNat_ofNat']
    omega
  have hmemory := hblock.memory? (Nat.lt_of_le_of_lt (Nat.le_trans hn hend) htop)
  rw [length_slotBlock, ← haddress, SlotPlace.size] at hmemory
  simp only [Decode.tableRows, TableDescriptor.written, slotDescriptor, hmemory, hused,
    read_slotBlock hcapacity hwidth]

/-- Reading a slot adds the song's part that it was filled with. -/
theorem add_slot (ht : t.Schematic) {p : SlotPlace × List Bytes} (hp : p ∈ f.slots) (id : Nat)
    (found : Decode.Found) :
    found.add f.written (slotDescriptor t id p.1 p.2.length).written = .ok (put s commands found p.1.slot) := by
  have hread := f.tableRows_eq_ok ht hp id
  have hkind : Slot.ofId? (slotDescriptor t id p.1 p.2.length).written.kind = some p.1.slot :=
    Slot.ofId?_id _
  have hused : (slotDescriptor t id p.1 p.2.length).written.used = 0 ↔ p.2 = [] := by
    have hcapacity := (f.length_rows ht hp).1
    have := p.1.capacity.toNat_lt
    have hlength : (UInt8.ofNat p.2.length).toNat = p.2.length := by
      rw [UInt8.toNat_ofNat']
      omega
    show UInt8.ofNat p.2.length = 0 ↔ p.2 = []
    rw [← UInt8.toNat_inj, hlength]
    exact List.length_eq_zero_iff
  obtain ⟨place, rows⟩ := p
  cases f.rows _ hp with
  | instruments hslot =>
    rw [show place.slot = .instruments from hslot] at hkind ⊢
    rw [Decode.add_instruments hkind hused hread, f.decodeInstruments, put_instruments]
    simp only [List.map_eq_nil_iff]
  | commands hslot =>
    rw [show place.slot = .commands from hslot] at hkind ⊢
    rw [Decode.add_commands hkind hused hread (Rows.mapM_decodeCommand _), put_commands]
    simp only [List.map_eq_nil_iff]
  | @table kind table rows hslot htable hloss hrows =>
    have htables := f.decodeTable ht hp hslot htable hloss hrows
    rw [Decode.add_table hkind hused hread hslot, htables, put_table hslot, tableIn?, hslot]
    have hempty : rows = [] ↔ table.rows = [] := by
      rw [← List.length_eq_zero_iff, (Rows.length_of_encodeTable hrows).1, List.length_eq_zero_iff]
    by_cases h : table.rows = [] <;> simp [htable, hempty, h]
  | noTable hslot htable =>
    rw [Decode.add_table hkind hused hread hslot, if_pos rfl, put_table hslot, tableIn?, hslot]
    simp [htable]

/-- Reading all slots adds up what they hold. -/
theorem foldlM_add (ht : t.Schematic) : ∀ (slots : List (SlotPlace × List Bytes)) (id : Nat)
    (found : Decode.Found), (∀ p ∈ slots, p ∈ f.slots) →
    ((slots.zipIdx id).map fun (p, id) => (slotDescriptor t id p.1 p.2.length).written).foldlM
        (fun found d => found.add f.written d) found =
      .ok ((slots.map (·.1.slot)).foldl (put s commands) found)
  | [], _, _, _ => rfl
  | p :: slots, id, found, h => by
    have hp := f.add_slot ht (h p (by simp)) id found
    rw [List.zipIdx_cons, List.map_cons, List.foldlM_cons, hp, List.map_cons, List.foldl_cons]
    exact foldlM_add ht slots (id + 1) _ fun q hq => h q (by simp [hq])

end Encode.Filled

namespace Encode

variable {t : Template} {s : Song} {commands : List Command}

theorem tableIn?_eq_some {slot : Slot} {u : Table} :
    tableIn? s slot = some u ↔
      ∃ kind table, slot.table? = some kind ∧ s.table? kind = some table ∧ table.rows ≠ [] ∧ table.static = u := by
  simp only [tableIn?, Option.bind_eq_bind, Option.bind_eq_some_iff]
  constructor
  · rintro ⟨kind, hkind, table, htable, h⟩
    split at h
    · cases h
    next hrows => exact ⟨kind, table, hkind, htable, hrows, Option.some.inj h⟩
  · rintro ⟨kind, table, hkind, htable, hrows, rfl⟩
    exact ⟨kind, hkind, table, htable, if_neg hrows⟩

theorem table?_of_tableIn? {slot : Slot} {u : Table} (h : tableIn? s slot = some u) :
    slot.table? = some u.kind := by
  obtain ⟨kind, table, hkind, htable, -, rfl⟩ := tableIn?_eq_some.mp h
  obtain ⟨rfl, -⟩ := mem_of_table? htable
  exact hkind

theorem pairwise_tablesIn {slots : List Slot} (h : slots.Pairwise (· ≠ ·)) :
    (slots.filterMap (tableIn? s)).Pairwise fun t u => t.kind ≠ u.kind := by
  rw [List.pairwise_filterMap]
  refine h.imp fun hne t ht u hu e => hne ?_
  rw [Slot.eq_ofTable (table?_of_tableIn? ht), Slot.eq_ofTable (table?_of_tableIn? hu), e]

/-- The slots hold the song's tables with rows, in some order. -/
theorem perm_tablesIn (f : Filled t s commands) (ht : t.Schematic) :
    ((t.tables.map (·.slot)).filterMap (tableIn? s)).Perm
      ((s.tables.filter fun t => !t.rows.isEmpty).map Table.static) := by
  have hslots := pairwise_tablesIn (s := s) (List.pairwise_map.mpr ht.distinct)
  have htables : ((s.tables.filter fun t => !t.rows.isEmpty).map Table.static).Pairwise
      fun t u => t.kind ≠ u.kind :=
    List.pairwise_map.mpr (f.wellFormed.pairwise_kind.filter _)
  rw [List.perm_ext_iff_of_nodup (nodup_of_pairwise_kind hslots) (nodup_of_pairwise_kind htables)]
  intro u
  simp only [List.mem_filterMap, List.mem_map, List.mem_filter, tableIn?_eq_some]
  constructor
  · rintro ⟨-, ⟨spec, -, -⟩, kind, table, -, htable, hrows, rfl⟩
    exact ⟨table, ⟨(mem_of_table? htable).2, by simpa using hrows⟩, rfl⟩
  · rintro ⟨table, ⟨hmem, hrows⟩, rfl⟩
    have hrows : table.rows ≠ [] := by simpa using hrows
    have hslot := f.supported.tables table hmem
    simp only [Fit.hasSlot, Bool.or_eq_true, List.isEmpty_iff, hrows, or_false, Option.isSome_iff_exists] at hslot
    obtain ⟨spec, hspec⟩ := hslot
    have hkind : spec.slot = .ofTable table.kind :=
      eq_of_beq (List.find?_some (p := fun x : SlotSpec => x.slot == .ofTable table.kind) hspec)
    exact ⟨_, ⟨spec, List.mem_of_find?_eq_some hspec, hkind⟩, table.kind, table, Slot.table?_ofTable _,
      f.wellFormed.table?_eq_some hmem, hrows, rfl⟩

/-- **All slots of a filled player read back together.** -/
theorem Filled.foldlM_tables (f : Filled t s commands) (ht : t.Schematic) :
    ∃ found, f.written.tables.foldlM (fun found d => found.add f.written d) ({} : Decode.Found) = .ok found ∧
      found.instruments = s.instruments ∧ found.commands = commands ∧
      sortTables found.tables = s.normal.tables := by
  have hplaces : f.slots.map (·.1.slot) = t.tables.map (·.slot) := by
    have h := congrArg (List.map (·.slot)) f.places
    rw [List.map_map] at h
    exact h.trans (Layout.map_slot_placeSlots ..)
  have hwritten : f.written.tables =
      (f.slots.zipIdx.map fun (p, id) => (slotDescriptor t id p.1 p.2.length).written) := by
    show (f.slots.zipIdx.map _).map _ = _
    rw [List.map_map]
    rfl
  have hmem : ∀ slot, (∃ spec ∈ t.tables, spec.slot = slot) → slot ∈ t.tables.map (·.slot) := by
    simp
  refine ⟨_, by rw [hwritten, f.foldlM_add ht f.slots 0 {} fun _ h => h, hplaces, foldl_put], ?_, ?_, ?_⟩
  · have := hmem _ ht.instruments
    by_cases h : s.instruments = [] <;> simp_all
  · have := hmem _ ht.commands
    by_cases h : commands = [] <;> simp_all
  · exact sortTables_eq_of_perm (perm_tablesIn f ht) (pairwise_tablesIn (List.pairwise_map.mpr ht.distinct))

end Encode

end Chiptune.Player
