/-
Where the code of a program reads in its slot.

What a block reads of the slots is collected on the way of its run
(`slotReads`). In any memory a frame of a program reads a row, one more if that
is a loop, and of the last one every column unless it is an end
(`framed_program`). Where the slot is that of a table without faults, these are the
rows of the table (`Stores.cellsRead`), so that no frame reaches the rows after them or
another column's (`walk_contained`).
-/
import Chiptune.Proofs.Player.Minimal.Stock
import Chiptune.Proofs.Player.Minimal.Voicing
import Chiptune.Proofs.Song.Rounds

namespace Chiptune.Player.Minimal

open Machine Sound Song Encode

variable {here : Site} {s : State} {v : Voice} {kind : TableKind} {start : Nat}

/-- What an item reads of a slot: which slot, and where in it. -/
@[simp] def slotRead? (s : State) : Item → Option (Slot × Nat)
  | .instruction _ (.absoluteY (.symbol (.table slot) n)) => some (slot, n.toNat + s.regs.y.toNat)
  | _ => none

/-- What a block reads of the slots, in order; it runs as `run` does. -/
@[simp] def slotReads (here : Site) : Option String → List Item → State → List (Slot × Nat)
  | _, [], _ => []
  | some l, item :: rest, s =>
    if item = .label l then slotReads here none rest s else slotReads here (some l) rest s
  | none, item :: rest, s =>
    (slotRead? s item).toList ++
      match run here none [item] s with
      | (.fall, s) => slotReads here none rest s
      | (.goto l, s) => slotReads here (some l) rest s
      | _ => []

@[simp] theorem slotReads_nil {seek : Option String} : slotReads here seek [] s = [] := by cases seek <;> rfl

/-! ## Frames in bytes -/

namespace Site

/-- The row that a frame comes to in a slot: the one it is at, or the one that this says to go on at. -/
def rowFound (here : Site) (start : Nat) (row : UInt8) : UInt8 :=
  if here.byte (start + row.toNat) = 0x7F then here.byte (start + 128 + row.toNat) else row

/-- The rows and columns that a frame reads, in order. -/
def cellsRead (here : Site) (start width : Nat) (row : UInt8) : List (Nat × Nat) :=
  (row.toNat, 0) ::
    ((if here.byte (start + row.toNat) = 0x7F then [(row.toNat, 1), ((here.rowFound start row).toNat, 0)] else []) ++
      if here.byte (start + (here.rowFound start row).toNat) = 0x7E then []
      else (List.range' 1 (width - 1)).map ((here.rowFound start row).toNat, ·))

/-- The row at which the next frame starts. -/
def nextRow (here : Site) (start : Nat) (row : UInt8) : UInt8 :=
  if here.byte (start + (here.rowFound start row).toNat) = 0x7E then here.rowFound start row else here.rowFound start row + 1

/-- A row is the one that is found, or says which one is. -/
theorem looks (here : Site) (start : Nat) (row : UInt8) : ∃ found, here.rowFound start row = found ∧
    ((here.byte (start + row.toNat) = 0x7F ∧ here.byte (start + 128 + row.toNat) = found) ∨
      (here.byte (start + row.toNat) ≠ 0x7F ∧ found = row)) := by
  refine ⟨_, rfl, ?_⟩
  unfold rowFound
  split
  next h => exact .inl ⟨h, rfl⟩
  next h => exact .inr ⟨h, rfl⟩

end Site

/-- The code that takes a row of a program of a kind. For a pulse program this is what runs once no row is held. -/
def programCode : TableKind → List Item
  | .wave => updateWave
  | .pulse => updatePulse.take 21
  | .filter => updateFilter
  | .arpeggio => []

/-- The variable in which a program's row is kept. -/
def positionCell (v : Voice) : TableKind → Nat
  | .wave => 39 + v
  | .pulse => 48 + v
  | .filter => 62
  | .arpeggio => 0

/-- The code of a program is entered, with its voice and for a pulse program its row in the registers. -/
structure Enters (v : Voice) (kind : TableKind) (s : State) : Prop where
  saved : s.saved = []
  voice : kind ≠ .filter → s.regs.x.toNat = v.val
  row : kind = .pulse → s.regs.y = s.cells (positionCell v kind)

/-- The code does a frame of a program: it reads what this reads, and leaves the row of the next one. -/
structure Framed (here : Site) (v : Voice) (kind : TableKind) (start : Nat) (s : State) : Prop where
  reads : slotReads here none (programCode kind) s =
    (here.cellsRead start kind.width (s.cells (positionCell v kind))).map fun (row, column) =>
      (.ofTable kind, Columns.cell 128 row column)
  next : (run here none (programCode kind) s).2.cells (positionCell v kind) =
    here.nextRow start (s.cells (positionCell v kind))

theorem framed_wave (h : Enters v .wave s) : Framed here v .wave 1129 s := by
  have hx : s.regs.x.toNat = v.val := h.voice (by decide)
  obtain ⟨row, hcell⟩ : ∃ row, s.cells (39 + v) = row := ⟨_, rfl⟩
  obtain ⟨found, hfound, hlooks⟩ := here.looks 1129 row
  rcases hlooks with ⟨hloops, hsecond⟩ | ⟨hloops, rfl⟩
  all_goals by_cases hends : here.byte (1129 + found.toNat) = 0x7E
  all_goals constructor <;> simp -implicitDefEqProofs [programCode, positionCell, updateWave, Site.cellsRead, Site.nextRow,
    TableKind.width, Columns.cell, Slot.ofTable, *]

theorem framed_pulse (h : Enters v .pulse s) : Framed here v .pulse 1385 s := by
  have hx : s.regs.x.toNat = v.val := h.voice (by decide)
  obtain ⟨row, hcell⟩ : ∃ row, s.cells (48 + v) = row := ⟨_, rfl⟩
  have hy : s.regs.y = row := (h.row rfl).trans hcell
  obtain ⟨found, hfound, hlooks⟩ := here.looks 1385 row
  rcases hlooks with ⟨hloops, hsecond⟩ | ⟨hloops, rfl⟩
  all_goals by_cases hends : here.byte (1385 + found.toNat) = 0x7E
  -- the code goes different ways for a step of one frame and for one that is held
  all_goals by_cases hholds : here.byte (1641 + found.toNat) = 0
  all_goals constructor <;> simp -implicitDefEqProofs [programCode, positionCell, updatePulse, Site.cellsRead,
    Site.nextRow, TableKind.width, Columns.cell, Slot.ofTable, List.range'_succ, *]

theorem framed_filter (h : Enters v .filter s) (hruns : s.cells 62 ≠ 0xFF) : Framed here v .filter 1769 s := by
  obtain ⟨row, hcell⟩ : ∃ row, s.cells 62 = row := ⟨_, rfl⟩
  have hwindow : inWindow 0xD415 = true ∧ inWindow 0xD416 = true ∧ inWindow 0xD417 = true ∧ inWindow 0xD418 = true := by
    decide
  have hsaved := h.saved
  rw [hcell] at hruns
  obtain ⟨found, hfound, hlooks⟩ := here.looks 1769 row
  rcases hlooks with ⟨hloops, hsecond⟩ | ⟨hloops, rfl⟩
  all_goals by_cases hends : here.byte (1769 + found.toNat) = 0x7E
  all_goals constructor <;> simp -implicitDefEqProofs [programCode, positionCell, updateFilter, Site.cellsRead,
    Site.nextRow, TableKind.width, Columns.cell, Slot.ofTable, List.range'_succ, *]

/-- **A frame of a program**, whatever is in the slot; a filter program that does not run reads nothing. -/
theorem framed_program (h : Enters v kind s) (hstart : offsetOf? (.table (.ofTable kind)) = some start)
    (hruns : s.cells (positionCell v kind) ≠ 0xFF) : Framed here v kind start s := by
  cases kind with
  | wave =>
    cases hstart
    exact framed_wave h
  | pulse =>
    cases hstart
    exact framed_pulse h
  | filter =>
    cases hstart
    exact framed_filter h hruns
  | arpeggio => cases hstart

/-! ## Tables in memory -/

/-- The slot of a table is in the player, as it is encoded. -/
structure Stores (here : Site) (t : Table) (start : Nat) (place : SlotPlace) (rows : List Bytes) : Prop where
  offset : offsetOf? (.table (.ofTable t.kind)) = some start
  columns : place.columns.toNat = t.kind.width
  capacity : place.capacity = 128
  room : t.rows.length ≤ 128
  encoded : Rows.encodeTable t place.columns.toNat = .ok rows
  block : here.Reads start (slotBlock place rows)

theorem length_stepBytes_of_sound {t : Table} (h : t.Sound) {i : Nat} {bytes : Bytes}
    (hr : t.rows[i]? = some (.step bytes)) : (Rows.stepBytes t.kind bytes).length = t.kind.width :=
  (Rows.length_stepBytes t.kind bytes).trans (rowFaults_eq_nil.mp (h.2 i _ hr))

namespace Stores

variable {t : Table} {place : SlotPlace} {rows : List Bytes} {row : UInt8}

/-- A row is in its columns, with a first byte that reads back. -/
theorem inColumns (h : Stores here t start place rows) (hsound : t.Sound) {i : Nat} {r : Row}
    (hr : t.rows[i]? = some r) : here.InColumns start 128 i (rowBytes (Rows.legibleRow t.kind r)) := by
  have hwidth : ∀ step, Rows.legibleRow t.kind r = .step step → step.length = t.kind.width := by
    intro step hstep
    cases r with
    | step bytes =>
      cases hstep
      exact length_stepBytes_of_sound hsound hr
    | loop | stop => cases hstep
  obtain ⟨hlength, hcolumns⟩ := Rows.length_of_encodeTable h.encoded
  obtain ⟨bytes, hbytes, hencode⟩ := exists_getElem?_right (mapM_eq_ok.mp h.encoded) hr
  rw [h.columns, ← Rows.encodeRow_legibleRow] at hencode
  have hcapacity : place.capacity.toNat = 128 := by
    rw [h.capacity]
    rfl
  have hin := inColumns_slotBlock (by rw [hlength, hcapacity]; exact h.room) hcolumns h.block hbytes
  rw [hcapacity] at hin
  intro k b hb
  exact hin k b (getElem?_encodeRow (ne_arpeggio h.offset) hwidth (Rows.collides_legibleRow t.kind r) hencode hb)

/-- A step is seen to be one. -/
theorem step (h : Stores here t start place rows) (hsound : t.Sound) {i : Nat} {bytes : Bytes}
    (hr : t.rows[i]? = some (.step bytes)) : here.byte (start + i) ≠ 0x7F ∧ here.byte (start + i) ≠ 0x7E :=
  (h.inColumns hsound hr).step (ne_arpeggio h.offset) (length_stepBytes_of_sound hsound hr)
    (Rows.collides_legibleRow t.kind (.step bytes))

/-- The row that a frame comes to is that of the table. -/
theorem rowFound (h : Stores here t start place rows) (hsound : t.Sound) (hrow : row.toNat < t.rows.length) :
    (here.rowFound start row).toNat = t.rowFound row.toNat := by
  have hat := List.getElem?_eq_getElem hrow
  have hcolumns := h.inColumns hsound hat
  unfold Site.rowFound Table.rowFound
  cases hr : t.rows[row.toNat] with
  | loop target =>
    rw [hr] at hat hcolumns
    obtain ⟨hmark, htarget⟩ := hcolumns.loop
    rw [hat, if_pos hmark, htarget]
  | step bytes =>
    rw [hr] at hat
    rw [hat, if_neg (h.step hsound hat).1]
  | stop =>
    rw [hr] at hat hcolumns
    rw [hat, hcolumns.stop, if_neg (by decide)]

/-- The row of the next frame is that of the table. -/
theorem nextRow (h : Stores here t start place rows) (hsound : t.Sound) (hrow : row.toNat < t.rows.length) :
    (here.nextRow start row).toNat = t.nextRow row.toNat := by
  have hfound := h.rowFound hsound hrow
  obtain ⟨-, found, hat, hloop⟩ := hsound.rowFound_spec hrow
  unfold Site.nextRow Table.nextRow
  rw [hat, hfound]
  cases found with
  | loop target => cases hloop
  | step bytes =>
    have hnext := hsound.succ_lt_of_step hat
    have hroom := h.room
    have hone : (1 : UInt8).toNat = 1 := rfl
    rw [if_neg (h.step hsound hat).2, UInt8.toNat_add, hfound]
    dsimp only
    omega
  | stop => rw [if_pos (h.inColumns hsound hat).stop, hfound]

/-- **What a frame reads of the slot** are rows of the table in its columns. -/
theorem cellsRead (h : Stores here t start place rows) (hsound : t.Sound) (hrow : row.toNat < t.rows.length) :
    ∀ q ∈ here.cellsRead start t.kind.width row, q.1 ∈ t.rowsRead row.toNat ∧ q.2 < t.kind.width := by
  have hfirst := Table.mem_rowsRead t row.toNat
  have hlast := (hsound.rowFound_spec hrow).1
  rw [← h.rowFound hsound hrow] at hlast
  have hwidth : 1 < t.kind.width := by
    have hkind := ne_arpeggio h.offset
    cases hk : t.kind with
    | arpeggio => exact absurd hk hkind
    | wave | pulse | filter => decide
  intro q hq
  simp only [Site.cellsRead, List.mem_cons, List.mem_append] at hq
  rcases hq with rfl | hq | hq
  · exact ⟨hfirst, by dsimp only; omega⟩
  · split at hq
    · simp only [List.mem_cons, List.not_mem_nil, or_false] at hq
      rcases hq with rfl | rfl
      · exact ⟨hfirst, hwidth⟩
      · exact ⟨hlast, by dsimp only; omega⟩
    · cases hq
  · split at hq
    · cases hq
    · obtain ⟨column, hcolumn, rfl⟩ := List.mem_map.mp hq
      rw [List.mem_range'_1] at hcolumn
      exact ⟨hlast, by dsimp only; omega⟩

end Stores

/-- **The tables of a song that was encoded** are in their slots. -/
theorem stores_of_packed {song : Song} {commands : List Command} {p : Packed template song commands}
    {f : Filled template (legible song) commands} (hslots : f.slots = p.slots) (h : Holds p here) {t : Table}
    (ht : t ∈ song.tables) (hoffset : offsetOf? (.table (.ofTable t.kind)) = some start) :
    ∃ place rows, Stores here t start place rows := by
  obtain ⟨k, spec, hspec, hslot, hstart⟩ := offsetOf?_slot hoffset
  obtain ⟨⟨place, rows⟩, hq, hplace, hcapacity, hreads⟩ := reads_slotBlock p.places h.common.left hspec
  dsimp only at hplace hcapacity hreads
  rw [hslot] at hplace
  have hspec? : template.spec? (.ofTable t.kind) = some spec :=
    hslot ▸ minimal_schematic.spec?_eq_some (List.mem_of_getElem? hspec)
  have hcolumns : place.columns.toNat = t.kind.width := by
    have hslotColumns : place.columns.toNat = place.slot.columns := (f.exists_spec minimal_schematic (hslots ▸ hq)).1
    rw [hslotColumns, hplace, Slot.columns_of_table? (Slot.table?_ofTable _)]
  have hfull : spec.capacity = 128 := by
    cases hkind : t.kind with
    | arpeggio =>
      rw [hkind] at hoffset
      cases hoffset
    | wave | pulse | filter =>
      rw [hkind] at hspec?
      exact congrArg SlotSpec.capacity (Option.some.inj hspec?).symm
  have htable : song.table? t.kind = some t := p.wellFormed.table?_eq_some ht
  have hrows : Rows.encodeTable t place.columns.toNat = .ok rows := by
    have hrows := p.rows _ hq
    dsimp only at hrows
    rw [hplace] at hrows
    cases hkind : t.kind <;> rw [hkind] at hrows htable <;>
      simpa only [rowsOf, Slot.ofTable, Slot.table?, Option.bind_some, htable] using hrows
  have hroom := f.fits.tableLength_le hspec?
  rw [(alike_legible song).tableLength, hfull, tableLength, htable] at hroom
  exact ⟨place, rows, hoffset, hcolumns, hcapacity.trans hfull, hroom, hrows, hstart ▸ hreads⟩

/-! ## Any number of frames -/

/-- The states in which the code of a program is entered, frame by frame; only the program itself moves its row. -/
structure Frames (here : Site) (v : Voice) (kind : TableKind) (frames : Nat → State) : Prop where
  enters : ∀ n, Enters v kind (frames n)
  next : ∀ n, (frames (n + 1)).cells (positionCell v kind) =
    (run here none (programCode kind) (frames n)).2.cells (positionCell v kind)

section Frames

variable {t : Table} {place : SlotPlace} {rows : List Bytes} {frames : Nat → State}

theorem Stores.framed (h : Stores here t start place rows) (hs : Enters v t.kind s)
    (hrow : (s.cells (positionCell v t.kind)).toNat < t.rows.length) : Framed here v t.kind start s := by
  refine framed_program hs h.offset fun he => ?_
  have hroom := h.room
  have hlast : (0xFF : UInt8).toNat = 255 := rfl
  rw [he] at hrow
  omega

/-- The code is at the row of the program. -/
theorem Frames.position (hframes : Frames here v t.kind frames) (h : Stores here t start place rows) (hsound : t.Sound)
    (hstart : ((frames 0).cells (positionCell v t.kind)).toNat < t.rows.length) : ∀ n : Nat,
    ((frames n).cells (positionCell v t.kind)).toNat =
      t.rowAfter ((frames 0).cells (positionCell v t.kind)).toNat n
  | 0 => rfl
  | n + 1 => by
    have hn := hframes.position h hsound hstart n
    have hrow := hsound.rowAfter_lt hstart n
    rw [← hn] at hrow
    rw [hframes.next, (h.framed (hframes.enters n) hrow).next, h.nextRow hsound hrow, Table.rowAfter, hn]

end Frames

/-- **The programs of a song without faults stay in their tables**, from any row and for any number of frames. A frame reads
rows of the table and meets one loop at the most. What the code of the player reads with it are these rows in the columns
of the slot, so it reaches neither a row after them nor the next column. -/
theorem walk_contained {song : Song} (h : song.WellFormed) {t : Table} (ht : t ∈ song.tables) {row : Nat}
    (hrow : row < t.rows.length) :
    (∀ n, (∀ r ∈ t.rowsRead (t.rowAfter row n), r < t.rows.length) ∧
      (t.rowsRead (t.rowAfter row n)).countP (fun r => t.rows[r]?.any Row.isLoop) ≤ 1) ∧
    ∀ (here : Site) (start : Nat) (place : SlotPlace) (rows : List Bytes) (v : Voice) (frames : Nat → State),
      Stores here t start place rows → Frames here v t.kind frames →
        ((frames 0).cells (positionCell v t.kind)).toNat = row → ∀ n,
          ((frames n).cells (positionCell v t.kind)).toNat = t.rowAfter row n ∧
            ∀ q ∈ slotReads here none (programCode t.kind) (frames n), q.1 = .ofTable t.kind ∧
              ∃ r ∈ t.rowsRead (t.rowAfter row n), r < t.rows.length ∧
                ∃ column < t.kind.width, q.2 = Columns.cell 128 r column := by
  have hsound := h.tables.2 t ht
  refine ⟨fun n => ?_, fun here start place rows v frames hstores hframes hstart n => ?_⟩
  · have hn := hsound.rowAfter_lt hrow n
    exact ⟨hsound.lt_of_mem_rowsRead hn, hsound.countP_isLoop_rowsRead hn⟩
  · subst hstart
    have hposition := hframes.position hstores hsound hrow n
    have hn := hsound.rowAfter_lt hrow n
    refine ⟨hposition, fun q hq => ?_⟩
    rw [← hposition] at hn ⊢
    rw [(hstores.framed (hframes.enters n) hn).reads] at hq
    obtain ⟨cell, hcell, rfl⟩ := List.mem_map.mp hq
    obtain ⟨hread, hcolumn⟩ := hstores.cellsRead hsound hn cell hcell
    exact ⟨rfl, cell.1, hread, hsound.lt_of_mem_rowsRead hn _ hread, cell.2, hcolumn, rfl⟩

/-! ## A program by itself -/

/-- The code of a program is about to be entered, and nothing else has happened. -/
def poised (v : Voice) (kind : TableKind) (s : State) : State :=
  { s with regs := { s.regs with x := UInt8.ofNat v, y := s.cells (positionCell v kind) }, saved := [] }

/-- The frames of a program when its code is all that runs. -/
def framesFrom (here : Site) (v : Voice) (kind : TableKind) (s : State) : Nat → State
  | 0 => poised v kind s
  | n + 1 => poised v kind (run here none (programCode kind) (framesFrom here v kind s n)).2

theorem enters_poised (v : Voice) (kind : TableKind) (s : State) : Enters v kind (poised v kind s) := by
  refine ⟨rfl, fun _ => ?_, fun _ => rfl⟩
  show (UInt8.ofNat v).toNat = v
  have := v.isLt
  rw [UInt8.toNat_ofNat']
  omega

theorem frames_framesFrom (here : Site) (v : Voice) (kind : TableKind) (s : State) :
    Frames here v kind (framesFrom here v kind s) where
  enters n := by cases n <;> exact enters_poised ..
  next _ := rfl

/-- A block that is all there is in memory. -/
theorem reads_writeAll {block : Bytes} (h : start + block.length ≤ addressSpace) :
    Site.Reads ⟨0, Memory.zeroed.writeAll (UInt16.ofNat start) block⟩ start block := by
  intro i b hb
  have hspace : addressSpace = 65536 := rfl
  have hi := (List.getElem?_eq_some_iff.mp hb).1
  have hstart : (UInt16.ofNat start).toNat = start := by
    rw [UInt16.toNat_ofNat']
    omega
  have hread := Memory.read_writeAll (m := Memory.zeroed) (a := UInt16.ofNat start) (by rw [hstart]; exact h) hb
  rw [← UInt16.ofNat_add] at hread
  show Memory.read _ (0 + UInt16.ofNat (start + i)) = b
  rw [UInt16.zero_add]
  exact hread

/-- A wave program that goes round two steps, the first of which starts with a marker. -/
def whirling : Table := { kind := .wave, rows := [.step [0x7F, 0], .step [0x40, 12], .loop 0] }

/-- A song with this program. -/
def whirl : Song where
  tempo := 6
  instruments := [{ attackDecay := 0x09, sustainRelease := 0xF0, wave := 0 }]
  tables := [whirling]
  sequences := [{ events := [.setInstrument 0, .noteOn 60, .rest 3] }]
  orderLists := [{ entries := [⟨0, 0⟩] }, {}, {}]

theorem walk_contained_whirl : ∃ here place rows frames,
    whirl.WellFormed ∧ Stores here whirling 1129 place rows ∧ Frames here 0 .wave frames ∧ (frames 0).cells 39 = 1 ∧
      ∀ n, ∀ q ∈ slotReads here none updateWave (frames n),
        q.1 = .wave ∧ ∃ r < 3, ∃ column < 2, q.2 = Columns.cell 128 r column := by
  have hsong : whirl.WellFormed := by decide
  let place : SlotPlace := { slot := .wave, address := 1129, columns := 2, capacity := 128 }
  let rows : List Bytes := [[0x7D, 0], [0x40, 12], [0x7F, 0]]
  let here : Site := ⟨0, Memory.zeroed.writeAll (UInt16.ofNat 1129) (slotBlock place rows)⟩
  have hstores : Stores here whirling 1129 place rows := by
    refine ⟨rfl, rfl, rfl, by decide, rfl, reads_writeAll ?_⟩
    rw [length_slotBlock]
    decide
  let s : State := { regs := {}, cells := fun _ => 1, page := fun _ => 0, saved := [], sid := Bank.cleared }
  have hframes := frames_framesFrom here 0 .wave s
  have hrow : 1 < whirling.rows.length := by decide
  obtain ⟨-, hdriver⟩ := walk_contained hsong (List.mem_singleton_self whirling) hrow
  refine ⟨here, place, rows, framesFrom here 0 .wave s, hsong, hstores, hframes, rfl, fun n q hq => ?_⟩
  obtain ⟨hslot, r, -, hr, hcolumn⟩ := (hdriver here 1129 place rows 0 _ hstores hframes rfl n).2 q hq
  exact ⟨hslot, r, hr, hcolumn⟩

end Chiptune.Player.Minimal
