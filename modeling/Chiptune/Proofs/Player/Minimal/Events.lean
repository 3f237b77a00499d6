/-
The events of a sequence, as the player plays them.

A pair of bytes is read, which leaves the voice at the next event
(`Tracks.advance`). What is done then is what the rendition does.
-/
import Chiptune.Proofs.Player.Minimal.Voicing

namespace Chiptune.Player.Minimal

open Machine Sound Song Music

variable {here : Site} {song : Song} {commands : List Command} {s s' : State} {rest : List Item} {r r' : Rendition}
  {p p' : Part} {v : Voice} {c parameter : UInt8} {e : Event} {events : List Event}

/-! ## Blocks -/

/-- How a block leads on is how it is left. -/
theorem run_leadsOn (here : Site) (block rest : List Item) (s : State) :
    run here none (block ++ rest) s = (run here none block s).1.leadsOn here rest (run here none block s).2 := by
  rw [run_append]
  rcases run here none block s with ⟨w, s'⟩
  cases w <;> rfl

/-- A sum to which nothing is carried. -/
theorem add_fst {f : Flags} (hcarry : f.carry = false) (hdecimal : f.decimal = false) (a v : UInt8) :
    (f.add a v).1 = a + v := by
  simp only [Flags.add, hdecimal, Bool.false_eq_true, if_false, Flags.addBinary, hcarry, Bool.toNat_false, Nat.add_zero]
  rw [UInt8.ofNat_add, UInt8.ofNat_toNat, UInt8.ofNat_toNat]

/-! ## Reading an event -/

theorem advanced_parameter (s : State) (parameter : UInt8) (hx : s.regs.x.toNat < 3) :
    advanced s parameter 64 = parameter := by
  have h9 : 64 ≠ 9 + s.regs.x.toNat := by omega
  have h12 : 64 ≠ 12 + s.regs.x.toNat := by omega
  unfold advanced
  split <;> simp [h9, h12]

namespace Tracks

/-- Where a voice reads its sequence, there is what is encoded of it. -/
theorem reads (h : Tracks song commands here r s) (hx : s.regs.x.toNat = v.val) (hgoes : (r.part v).stopped = false)
    {bytes : Bytes} (hbytes : encodeSequence commands { events := (r.part v).events } = c :: parameter :: bytes) :
    ∃ pointer, Word.ofBytes (s.cells (9 + s.regs.x.toNat)) (s.cells (12 + s.regs.x.toNat)) = pointer ∧
      here.through? pointer 0 = some (.value c) ∧ here.through? pointer 1 = some (.value parameter) := by
  obtain ⟨offset, hword, hhas⟩ := (h.places v).sequence hgoes
  rw [hbytes] at hhas
  rw [hx]
  exact ⟨_, hword, hhas.through rfl, hhas.through rfl⟩

/-- **An event is read**, and the voice is at the next one. -/
theorem advance (h : Tracks song commands here r s) (hx : s.regs.x.toNat = v.val) (hgoes : (r.part v).stopped = false)
    (hbytes : encodeSequence commands { events := (r.part v).events } =
      c :: parameter :: encodeSequence commands { events })
    (regs : Registers) (hregs : regs.x = s.regs.x) (hdecimal : regs.p.decimal = s.regs.p.decimal) (page : UInt8 → UInt8) :
    Tracks song commands here (r.withPart v { r.part v with events })
      { s with regs, cells := advanced s parameter, page } := by
  have hlt : s.regs.x.toNat < 3 := hx ▸ v.isLt
  have hkeeps : Keeps [64, 9 + s.regs.x.toNat, 12 + s.regs.x.toNat] s { s with regs, cells := advanced s parameter, page } :=
    ⟨hregs, hdecimal, rfl, fun n hn => advanced_keeps s parameter hn⟩
  have hchanged {n : Nat} (hn : n ∈ [64, 9 + s.regs.x.toNat, 12 + s.regs.x.toNat]) : n = 64 ∨ n = 9 + v ∨ n = 12 + v := by
    rw [hx] at hn
    simpa using hn
  have hsame : (r.withPart v { r.part v with events }).part v = { r.part v with events } := Rendition.part_withPart ..
  refine h.step v hkeeps (fun n hn hlow => ?_) (fun u hu => Function.update_of_ne hu ..) ?_ ?_ ?_
  · have hvoice : v.val < 3 := v.isLt
    have := hchanged hn
    omega
  · rw [hsame]
    have hpart : (r.part v).In v { s with regs, cells := advanced s parameter, page } :=
      (h.parts v).congr (fun n hlow hhigh _ => hkeeps.cells n fun hn => by
        have hvoice : v.val < 3 := v.isLt
        have := hchanged hn
        omega) v.isLt
    exact { hpart with }
  · rw [hsame]
    refine ⟨(h.places v).lists.congr fun n hn => hkeeps.cells n fun hmem => ?_, fun _ => ?_⟩
    · have hvoice : v.val < 3 := v.isLt
      have := hchanged hmem
      simp only [List.mem_cons, List.not_mem_nil, or_false] at hn
      omega
    · obtain ⟨offset, hword, hhas⟩ := (h.places v).sequence hgoes
      rw [hbytes] at hhas
      refine ⟨offset + 2, ?_, hhas.drop (k := 2) (by simp)⟩
      have hadvanced := advanced_word s parameter hlt
      rw [hx, hword, address_add] at hadvanced
      exact hadvanced
  · exact h.common.keeps hkeeps (fun n hn => by
      have hvoice : v.val < 3 := v.isLt
      have := hchanged hn
      omega) h.common.sid rfl rfl rfl rfl

end Tracks

/-- What is encoded of the events from one on, if the player knows it. -/
theorem encodeSequence_cons (events : List Event) (hknown : ∀ c, e = .setCommand c → c ∈ commands) : ∃ c parameter,
    encodeEvent commands e = [c, parameter] ∧
      encodeSequence commands { events := e :: events } = c :: parameter :: encodeSequence commands { events } := by
  have hcons (bytes : Bytes) (he : encodeEvent commands e = bytes) :
      encodeSequence commands { events := e :: events } = bytes ++ encodeSequence commands { events } := by
    simp only [encodeSequence, List.flatMap_cons, List.append_assoc, he]
  have hevent : ∃ c parameter, encodeEvent commands e = [c, parameter] := by
    cases e with
    | setCommand c =>
      obtain ⟨index, hindex⟩ := Option.isSome_iff_exists.mp (List.isSome_idxOf?.mpr (hknown c rfl))
      exact ⟨EventClass.code .command, UInt8.ofNat index, by simp only [encodeEvent, hindex]⟩
    | _ => exact ⟨_, _, rfl⟩
  obtain ⟨c, parameter, he⟩ := hevent
  exact ⟨c, parameter, he, hcons _ he⟩

/-! ## What is done for a voice -/

/-- A block that stores to a voice's variables, where they do not say where it is in the music, or to shared ones. -/
def Local (block : List Item) : Prop :=
  (∀ item ∈ block, isSteady item = true) ∧
    ∀ stored ∈ block.filterMap touch?,
      if stored.2 then 15 ≤ stored.1 ∧ stored.1 < 58 ∧ stored.1 % 3 = 0 else 60 ≤ stored.1

instance (block : List Item) : Decidable (Local block) := inferInstanceAs (Decidable (_ ∧ _))

theorem touched_local {block : List Item} (hblock : Local block) {x : UInt8} (hx : x.toNat = v.val) {n : Nat}
    (hn : n ∈ touched x block) : (15 ≤ n ∧ n < 60 ∧ n % 3 = v) ∨ 60 ≤ n := by
  have hvoice : v.val < 3 := v.isLt
  obtain ⟨⟨m, indexed⟩, hm, rfl⟩ := List.mem_map.mp hn
  have hstored := hblock.2 _ hm
  cases indexed with
  | true =>
    have hcell : touchedCell x m true = m + v.val := by rw [← hx]; rfl
    dsimp only at hstored ⊢
    rw [if_pos rfl] at hstored
    omega
  | false => exact .inr hstored

/-- **What a block does for a voice.** -/
theorem Tracks.block {block : List Item} (hblock : Local block) (h : Tracks song commands here r s)
    (hx : s.regs.x.toNat = v.val) (hparts : ∀ u, u ≠ v → r'.part u = r.part u)
    (hpart : (r'.part v).In v (run here none block s).2) (hentry : (r'.part v).entry = (r.part v).entry)
    (hevents : (r'.part v).events = (r.part v).events) (hstopped : (r'.part v).stopped = (r.part v).stopped)
    (hcommon : r'.Common (run here none block s).2) :
    (run here none block s).2.regs.x = s.regs.x ∧ Tracks song commands here r' (run here none block s).2 := by
  have hlt : s.regs.x.toNat < 3 := hx ▸ v.isLt
  have hkeeps := (run_steady here block none hblock.1 (.of_lt hlt) h.saved).2
  refine ⟨hkeeps.x, h.step v hkeeps (fun n hn hlow => ?_) hparts hpart ?_ hcommon⟩
  · have := touched_local hblock hx hn
    omega
  · exact (h.places v).keeps hkeeps (fun n hn => by
      have := touched_local hblock hx hn
      omega) v.isLt hentry hevents hstopped

theorem Rendition.Common.congr (h : r.Common s) (hcells : ∀ n, 60 ≤ n → s'.cells n = s.cells n)
    (hsid : s'.sid = r'.bank) (htempo : r'.tempo = r.tempo) (htick : r'.tick = r.tick) (hfilter : r'.filter = r.filter)
    (hmodeVolume : r'.modeVolume = r.modeVolume) : r'.Common s' := by
  refine ⟨hsid, ?_, ?_, ?_, ?_⟩
  · rw [hcells _ (by decide), h.tempo, htempo]
  · rw [hcells _ (by decide), h.tick, htick]
  · rw [hcells _ (by decide), h.filter, hfilter]
  · rw [hcells _ (by decide), h.modeVolume, hmodeVolume]

/-- A block that sets one variable of a voice. -/
theorem Tracks.set {block : List Item} (hblock : Local block) (h : Tracks song commands here r s)
    (hx : s.regs.x.toNat = v.val) {k : Nat} {b : UInt8} (hk : k < 58)
    (hcells : (run here none block s).2.cells = Function.update s.cells (k + v) b)
    (hsid : (run here none block s).2.sid = s.sid)
    (hpart : p.In v (run here none block s).2) (hentry : p.entry = (r.part v).entry)
    (hevents : p.events = (r.part v).events) (hstopped : p.stopped = (r.part v).stopped) :
    (run here none block s).2.regs.x = s.regs.x ∧ Tracks song commands here (r.withPart v p) (run here none block s).2 := by
  have hvoice : v.val < 3 := v.isLt
  have hsame : (r.withPart v p).part v = p := Rendition.part_withPart ..
  refine h.block hblock hx (fun u hu => Function.update_of_ne hu ..) ?_ ?_ ?_ ?_ ?_
  · rw [hsame]
    exact hpart
  · rw [hsame]
    exact hentry
  · rw [hsame]
    exact hevents
  · rw [hsame]
    exact hstopped
  · refine h.common.congr (fun n hn => ?_) (hsid.trans h.common.sid) rfl rfl rfl rfl
    rw [hcells, Function.update_of_ne (by omega)]

/-! ## Releases, ties, instruments and rests -/

set_option maxRecDepth 2000 in
theorem local_events : Local (rowEvents.drop 6) := by decide

theorem run_noteOff (here : Site) (hx : s.regs.x.toNat = v.val) (hsaved : s.saved = [])
    (hzero : s.regs.p.zero = true) :
    (run here none (rowEvents.drop 6) s).1 = .ret ∧
    (run here none (rowEvents.drop 6) s).2.cells = Function.update s.cells (30 + v) 0 ∧
    (run here none (rowEvents.drop 6) s).2.sid = s.sid := by
  refine ⟨?_, ?_, ?_⟩ <;> simp -implicitDefEqProofs [rowEvents, EventClass.code, hx, hsaved, hzero]

theorem run_tie (here : Site) (hx : s.regs.x.toNat = v.val) (hsaved : s.saved = [])
    (hzero : s.regs.p.zero = false) (ha : s.regs.a = 2) :
    (run here none (rowEvents.drop 6) s).1 = .goto "row_read" ∧
    (run here none (rowEvents.drop 6) s).2.cells = Function.update s.cells (27 + v) 1 ∧
    (run here none (rowEvents.drop 6) s).2.sid = s.sid := by
  refine ⟨?_, ?_, ?_⟩ <;> simp -implicitDefEqProofs [rowEvents, EventClass.code, hx, hsaved, hzero, ha]

theorem run_instrument (here : Site) (hx : s.regs.x.toNat = v.val) (hsaved : s.saved = [])
    (hzero : s.regs.p.zero = false) (ha : s.regs.a = 3) :
    (run here none (rowEvents.drop 6) s).1 = .goto "row_read" ∧
    (run here none (rowEvents.drop 6) s).2.cells = Function.update s.cells (24 + v) (s.cells 64) ∧
    (run here none (rowEvents.drop 6) s).2.sid = s.sid := by
  refine ⟨?_, ?_, ?_⟩ <;> simp -implicitDefEqProofs [rowEvents, EventClass.code, hx, hsaved, hzero, ha]

theorem run_rest (here : Site) (hx : s.regs.x.toNat = v.val) (hsaved : s.saved = [])
    (hzero : s.regs.p.zero = false) (ha : s.regs.a = 4) :
    (run here none (rowEvents.drop 6) s).1 = .ret ∧
    (run here none (rowEvents.drop 6) s).2.cells = Function.update s.cells (18 + v) (s.cells 64 - 1) ∧
    (run here none (rowEvents.drop 6) s).2.sid = s.sid := by
  refine ⟨?_, ?_, ?_⟩ <;> simp -implicitDefEqProofs [rowEvents, EventClass.code, hx, hsaved, hzero, ha]

theorem run_toCommand (here : Site) (hx : s.regs.x.toNat = v.val) (hsaved : s.saved = [])
    (hzero : s.regs.p.zero = false) (ha : s.regs.a = 5) :
    (run here none (rowEvents.drop 6) s).1 = .call "command" [op .jmp (.absolute (.label "row_read"))] ∧
    (run here none (rowEvents.drop 6) s).2.cells = s.cells ∧ (run here none (rowEvents.drop 6) s).2.sid = s.sid := by
  refine ⟨?_, ?_, ?_⟩ <;> simp -implicitDefEqProofs [rowEvents, EventClass.code, hx, hsaved, hzero, ha]

/-! ## Notes -/

set_option maxRecDepth 2000 in
theorem local_note : Local (noteOn.drop 3 ++ noteEnvelope) ∧ (∀ item ∈ noteOn.drop 3, isSteady item = true) ∧
    ∀ w ∈ ways none (noteOn.drop 3 ++ noteEnvelope), w = .ret := by
  decide

/-- A tied note. -/
theorem run_tied (here : Site) (hx : s.regs.x.toNat = v.val) (hsaved : s.saved = [])
    (hdecimal : s.regs.p.decimal = false) (ha : s.regs.a = parameter) (hcarry : s.regs.p.carry = false)
    (htied : s.cells (27 + v) ≠ 0) :
    (run here none (noteOn.drop 3 ++ noteEnvelope) s).2.cells = Function.update (Function.update (Function.update s.cells
      (21 + v) (parameter + s.cells (15 + v))) (33 + v) 1) (27 + v) 0 ∧
    (run here none (noteOn.drop 3 ++ noteEnvelope) s).2.sid = s.sid := by
  generalize noteEnvelope = rest
  constructor <;> simp -implicitDefEqProofs [noteOn, add_fst, hx, hsaved, hdecimal, ha, hcarry, htied]

/-- The variables that an instrument sets for its voice. -/
def struck (i : Instrument) (v : Nat) (cells : Nat → UInt8) : Nat → UInt8 :=
  let cells := Function.update cells (30 + v) 1
  let cells := Function.update cells 65 (if i.hardRestart then 1 else 0)
  let cells := Function.update (Function.update cells 66 i.attackDecay) 67 i.sustainRelease
  let cells := Function.update (Function.update cells (39 + v) i.wave) (48 + v) (i.pulse.getD Rows.noProgram)
  let cells := Function.update cells (51 + v) 0
  if i.filter.getD Rows.noProgram = 0xFF then cells else Function.update cells 62 (i.filter.getD Rows.noProgram)

/-- A note that is not tied, up to the envelope. -/
theorem run_untied (hcarries : here.Carries song commands) (hx : s.regs.x.toNat = v.val) (hsaved : s.saved = [])
    (hdecimal : s.regs.p.decimal = false) (ha : s.regs.a = parameter) (hcarry : s.regs.p.carry = false)
    (htied : s.cells (27 + v) = 0) {i : Instrument}
    (hi : song.instruments[(s.cells (24 + v)).toNat]? = some i) :
    run here none (noteOn.drop 3 ++ noteEnvelope) s = run here none noteEnvelope (run here none (noteOn.drop 3) s).2 ∧
    (run here none (noteOn.drop 3) s).2.cells = struck i v (Function.update (Function.update s.cells (21 + v)
      (parameter + s.cells (15 + v))) (33 + v) 1) ∧
    (run here none (noteOn.drop 3) s).2.sid = s.sid := by
  have hcolumns := hcarries.instrument _ i hi
  have hattack : here.byte (841 + (s.cells (24 + v)).toNat) = i.attackDecay := hcolumns 0 _ rfl
  have hsustain : here.byte (873 + (s.cells (24 + v)).toNat) = i.sustainRelease := hcolumns 1 _ rfl
  have hflags : here.byte (905 + (s.cells (24 + v)).toNat) = if i.hardRestart then 1 else 0 := hcolumns 2 _ rfl
  have hwave : here.byte (937 + (s.cells (24 + v)).toNat) = i.wave := hcolumns 3 _ rfl
  have hpulse : here.byte (969 + (s.cells (24 + v)).toNat) = i.pulse.getD Rows.noProgram := hcolumns 4 _ rfl
  have hfilter : here.byte (1001 + (s.cells (24 + v)).toNat) = i.filter.getD Rows.noProgram := hcolumns 5 _ rfl
  have honto := @run_onto here s "note_no_filter" (noteOn.drop 3) (noteEnvelope.drop 1)
  unfold struck
  by_cases hnone : i.filter.getD Rows.noProgram = 0xFF
  · refine ⟨honto (.inr ?_), ?_, ?_⟩ <;> simp -implicitDefEqProofs [noteOn, add_fst, hx, hsaved, hdecimal, ha, hcarry,
      htied, hattack, hsustain, hflags, hwave, hpulse, hfilter, hnone]
  · refine ⟨honto (.inl ?_), ?_, ?_⟩ <;> simp -implicitDefEqProofs [noteOn, add_fst, hx, hsaved, hdecimal, ha, hcarry,
      htied, hattack, hsustain, hflags, hwave, hpulse, hfilter, hnone]

/-- The gate is closed and the envelope is set. -/
theorem run_envelope (here : Site) (hx : s.regs.x.toNat = v.val) (hsaved : s.saved = [])
    (hoff : (here.byte (9 + v.val)).toNat = 7 * v.val) {restart : Bool}
    (hflags : s.cells 65 = if restart then 1 else 0) :
    (run here none noteEnvelope s).2.cells = s.cells ∧
    (run here none noteEnvelope s).2.sid =
      let b := s.sid.set (.voice v .control) (withoutGate (s.cells (42 + v)))
      let b := if restart then (b.set (.voice v .attackDecay) 0).set (.voice v .sustainRelease) 0 else b
      (b.set (.voice v .attackDecay) (s.cells 66)).set (.voice v .sustainRelease) (s.cells 67) := by
  have hvoice : Voice.ofNat v.val = v := Fin.ext (Nat.mod_eq_of_lt v.isLt)
  cases restart <;> constructor <;>
    simp -implicitDefEqProofs [noteEnvelope, hx, hsaved, hoff, hvoice, hflags, withoutGate]

/-- What an instrument changes that starts again. -/
theorem strike_spec (v : Voice) (i : Instrument) (r : Rendition) :
    (r.strike v i).part = Function.update r.part v
      { r.part v with gate := true, wave := i.wave, pulse := i.pulse, hold := 0 } ∧
    (r.strike v i).tempo = r.tempo ∧ (r.strike v i).tick = r.tick ∧ (r.strike v i).modeVolume = r.modeVolume ∧
    (r.strike v i).filter = i.filter.or r.filter ∧
    (r.strike v i).bank =
      let b := r.bank.set (.voice v .control) (withoutGate (r.part v).control)
      let b := if i.hardRestart then (b.set (.voice v .attackDecay) 0).set (.voice v .sustainRelease) 0 else b
      (b.set (.voice v .attackDecay) i.attackDecay).set (.voice v .sustainRelease) i.sustainRelease := by
  unfold Rendition.strike
  cases i.hardRestart <;> exact ⟨rfl, rfl, rfl, rfl, rfl, rfl⟩

/-- The variables of a voice whose instrument starts again. -/
theorem in_struck {i : Instrument} (hp : p.In v s) (hcells : s'.cells = struck i v s.cells) :
    Part.In { p with gate := true, wave := i.wave, pulse := i.pulse, hold := 0 } v s' := by
  have hvoice : v.val < 3 := v.isLt
  rw [in_iff] at hp ⊢
  rw [hcells, struck]
  dsimp only
  have h65 {k : Nat} (hk : k < 58) : k + v.val ≠ 65 ∧ k + v.val ≠ 66 ∧ k + v.val ≠ 67 ∧ k + v.val ≠ 62 := by omega
  split <;> simp [hp, h65]

/-- What an instrument sets of the variables that the voices share. -/
theorem struck_shared (i : Instrument) (v : Voice) (cells : Nat → UInt8) :
    struck i v cells 60 = cells 60 ∧ struck i v cells 61 = cells 61 ∧ struck i v cells 63 = cells 63 ∧
    struck i v cells 62 = (if i.filter.getD Rows.noProgram = 0xFF then cells 62 else i.filter.getD Rows.noProgram) ∧
    struck i v cells 65 = (if i.hardRestart then 1 else 0) ∧ struck i v cells 66 = i.attackDecay ∧
    struck i v cells 67 = i.sustainRelease ∧ struck i v cells (42 + v) = cells (42 + v) := by
  have hvoice : v.val < 3 := v.isLt
  have hne {n k : Nat} (hn : 60 ≤ n) (hk : k < 58) : n ≠ k + v.val := by omega
  unfold struck
  split <;> simp [hne, (hne _ _).symm]

/-- What the voices share after an instrument has started again. -/
theorem common_strike (hcarries : here.Carries song commands) (hsong : song.WellFormed) {i : Instrument}
    (hi : i ∈ song.instruments) (h : r.Common s) (hcells : s'.cells = struck i v s.cells)
    (hsid : s'.sid = (r.strike v i).bank) : (r.strike v i).Common s' := by
  obtain ⟨htempo, htick, hmodeVolume, hfilter, -⟩ := struck_shared i v s.cells
  obtain ⟨-, htempo', htick', hmodeVolume', hfilter', -⟩ := strike_spec v i r
  refine ⟨hsid, ?_, ?_, ?_, ?_⟩
  · rw [hcells, htempo, htempo']
    exact h.tempo
  · rw [hcells, htick, htick']
    exact h.tick
  · rw [hcells, hfilter, hfilter', h.filter]
    cases hnone : i.filter with
    | none => rfl
    | some row =>
      have hlt : row.toNat < song.tableLength .filter := hsong.start?_lt hi hnone
      rw [← length_programRows] at hlt
      exact if_neg (hcarries.row_ne hlt)
  · rw [hcells, hmodeVolume, hmodeVolume']
    exact h.modeVolume

/-- A note that is not tied starts its instrument again. -/
theorem tracks_untied (hcarries : here.Carries song commands) (hsong : song.WellFormed)
    (h : Tracks song commands here r s) (hx : s.regs.x.toNat = v.val) (ha : s.regs.a = parameter)
    (hcarry : s.regs.p.carry = false) (htied : (r.part v).tied = false) {i : Instrument}
    (hi : song.instruments[(r.part v).instrument.toNat]? = some i) :
    (run here none (noteOn.drop 3 ++ noteEnvelope) s).2.regs.x = s.regs.x ∧
      Tracks song commands here ((r.withPart v { r.part v with
        note := parameter + (r.part v).transpose.toUInt8, active := true }).strike v i)
        (run here none (noteOn.drop 3 ++ noteEnvelope) s).2 := by
  have hvoice : v.val < 3 := v.isLt
  have hlt : s.regs.x.toNat < 3 := hx ▸ v.isLt
  have hp := h.parts v
  obtain ⟨hsplit, hcells, hsid⟩ := run_untied hcarries hx h.saved h.decimal ha hcarry (by rw [hp.tied, htied]; rfl)
    (by rw [hp.instrument]; exact hi)
  have hkeeps := (run_steady here _ none local_note.2.1 (.of_lt hlt) h.saved).2
  generalize hp₁ : { r.part v with note := parameter + (r.part v).transpose.toUInt8, active := true } = p₁
  obtain ⟨hparts, -, -, -, -, hbank⟩ := strike_spec v i (r.withPart v p₁)
  have hsame : (r.withPart v p₁).part v = p₁ := Rendition.part_withPart ..
  rw [hsame] at hparts hbank
  -- the pitch is set first
  generalize hcells₀ : Function.update (Function.update s.cells (21 + v) (parameter + s.cells (15 + v))) (33 + v) 1 =
    cells₀ at hcells
  have hin : p₁.In v { s with cells := cells₀ } := by
    subst hp₁ hcells₀
    rw [in_iff] at hp ⊢
    simp [hp]
  have hcommon : (r.withPart v p₁).Common { s with cells := cells₀ } := by
    refine h.common.congr (fun n hn => ?_) h.common.sid rfl rfl rfl rfl
    show cells₀ n = s.cells n
    rw [← hcells₀, Function.update_of_ne (by omega), Function.update_of_ne (by omega)]
  -- and the envelope last
  obtain ⟨-, -, -, -, hflags, hattack, hsustain, hcontrol⟩ := struck_shared i v cells₀
  obtain ⟨hcells', hsid'⟩ := run_envelope here (s := (run here none (noteOn.drop 3) s).2) (by rw [hkeeps.x, hx])
    (hkeeps.saved.trans h.saved) (hcarries.voiceOff v.val v.isLt) (by rw [hcells]; exact hflags)
  rw [hcells] at hcells' hsid'
  rw [← hsplit] at hcells' hsid'
  have hevent : p₁.entry = (r.part v).entry ∧ p₁.events = (r.part v).events ∧ p₁.stopped = (r.part v).stopped := by
    rw [← hp₁]
    exact ⟨rfl, rfl, rfl⟩
  refine h.block local_note.1 hx (fun u hu => ?_) ?_ ?_ ?_ ?_ ?_
  · rw [hparts, Function.update_of_ne hu]
    exact Function.update_of_ne hu ..
  · rw [hparts, Function.update_self]
    exact in_struck hin hcells'
  · rw [hparts, Function.update_self]
    exact hevent.1
  · rw [hparts, Function.update_self]
    exact hevent.2.1
  · rw [hparts, Function.update_self]
    exact hevent.2.2
  · refine common_strike hcarries hsong (List.mem_of_getElem? hi) hcommon hcells' ?_
    rw [hsid', hbank, hsid, h.common.sid, hattack, hsustain, hcontrol, show cells₀ (42 + v) = p₁.control from hin.control]
    rfl

/-- **A note is played.** -/
theorem tracks_note (hcarries : here.Carries song commands) (hsong : song.WellFormed) (h : Tracks song commands here r s)
    (hx : s.regs.x.toNat = v.val) (hvalid : (r.part v).Valid song v) (ha : s.regs.a = parameter)
    (hcarry : s.regs.p.carry = false) (rest : List Item) :
    ∃ s', run here none (noteOn.drop 3 ++ noteEnvelope ++ rest) s = (.ret, s') ∧ s'.regs.x = s.regs.x ∧
      Tracks song commands here (r.playNote song v parameter) s' := by
  have hvoice : v.val < 3 := v.isLt
  have hlt : s.regs.x.toNat < 3 := hx ▸ v.isLt
  have hp := h.parts v
  refine ⟨_, run_returning here rest local_note.1.1 local_note.2.2 (.of_lt hlt) h.saved, ?_⟩
  unfold Rendition.playNote
  dsimp only
  by_cases htied : (r.part v).tied = true
  · rw [if_pos htied]
    obtain ⟨hcells, hsid⟩ := run_tied here hx h.saved h.decimal ha hcarry (by rw [hp.tied, htied]; decide)
    have hsame (p : Part) : (r.withPart v p).part v = p := Rendition.part_withPart ..
    refine h.block local_note.1 hx (fun u hu => Function.update_of_ne hu ..) ?_ ?_ ?_ ?_ ?_
    · rw [hsame, in_iff, hcells]
      rw [in_iff] at hp
      simp [hp]
    · rw [hsame]
    · rw [hsame]
    · rw [hsame]
    · refine h.common.congr (fun n hn => ?_) (hsid.trans h.common.sid) rfl rfl rfl rfl
      rw [hcells, Function.update_of_ne (by omega), Function.update_of_ne (by omega), Function.update_of_ne (by omega)]
  · obtain ⟨i, hi⟩ : ∃ i, song.instruments[(r.part v).instrument.toNat]? = some i :=
      ⟨_, List.getElem?_eq_getElem hvalid.instrument⟩
    rw [if_neg htied, hi]
    exact tracks_untied hcarries hsong h hx ha hcarry (by simpa using htied) hi

/-! ## Commands -/

set_option maxRecDepth 2000 in
theorem local_command : Local command ∧ ∀ w ∈ ways none command, w = .ret := by decide

section Commands

variable {first second : UInt8}

theorem run_setAdsr (hx : s.regs.x.toNat = v.val) (hsaved : s.saved = [])
    (hoff : (here.byte (9 + v.val)).toNat = 7 * v.val)
    (hkind : here.byte (1033 + (s.cells 64).toNat) = CommandKind.id .setAdsr)
    (hfirst : here.byte (1065 + (s.cells 64).toNat) = first) (hsecond : here.byte (1097 + (s.cells 64).toNat) = second) :
    (run here none command s).2.cells = Function.update (Function.update s.cells 66 first) 67 second ∧
    (run here none command s).2.sid =
      (s.sid.set (.voice v .attackDecay) first).set (.voice v .sustainRelease) second := by
  have hvoice : Voice.ofNat v.val = v := Fin.ext (Nat.mod_eq_of_lt v.isLt)
  rw [CommandKind.id] at hkind
  constructor <;>
    simp -implicitDefEqProofs [command, CommandKind.id, hx, hsaved, hoff, hvoice, hkind, hfirst, hsecond]

theorem run_setTempo (hsaved : s.saved = [])
    (hkind : here.byte (1033 + (s.cells 64).toNat) = CommandKind.id .setTempo)
    (hfirst : here.byte (1065 + (s.cells 64).toNat) = first) :
    (run here none command s).2.cells = Function.update s.cells 60 first ∧ (run here none command s).2.sid = s.sid := by
  rw [CommandKind.id] at hkind
  constructor <;> simp -implicitDefEqProofs [command, CommandKind.id, hsaved, hkind, hfirst]

theorem run_setVolume (hsaved : s.saved = [])
    (hkind : here.byte (1033 + (s.cells 64).toNat) = CommandKind.id .setVolume)
    (hfirst : here.byte (1065 + (s.cells 64).toNat) = first) :
    (run here none command s).2.cells = Function.update (Function.update s.cells 68 (first &&& 0x0F)) 63
      (s.cells 63 &&& 0xF0 ||| first &&& 0x0F) ∧
    (run here none command s).2.sid = s.sid.set .modeVolume (s.cells 63 &&& 0xF0 ||| first &&& 0x0F) := by
  have hlow : Word.low 0xD418 = 0x18 ∧ inWindow 0xD418 = true := by decide
  rw [CommandKind.id] at hkind
  constructor <;>
    simp -implicitDefEqProofs [command, CommandKind.id, write_shared, hlow, hsaved, hkind, hfirst]

theorem run_filterProgram (hsaved : s.saved = [])
    (hkind : here.byte (1033 + (s.cells 64).toNat) = CommandKind.id .filterProgram)
    (hfirst : here.byte (1065 + (s.cells 64).toNat) = first) :
    (run here none command s).2.cells = Function.update s.cells 62 first ∧ (run here none command s).2.sid = s.sid := by
  rw [CommandKind.id] at hkind
  constructor <;> simp -implicitDefEqProofs [command, CommandKind.id, hsaved, hkind, hfirst]

/-- A command that the player does not know changes nothing. -/
theorem run_unknown {kind : CommandKind} (hsaved : s.saved = []) (hkind : here.byte (1033 + (s.cells 64).toNat) = kind.id)
    (hunknown : kind ∉ [.setAdsr, .setTempo, .setVolume, .filterProgram]) :
    (run here none command s).2.cells = s.cells ∧ (run here none command s).2.sid = s.sid := by
  cases kind with
  | setAdsr | setTempo | setVolume | filterProgram => exact absurd (by decide) hunknown
  | _ =>
    rw [CommandKind.id] at hkind
    constructor <;> simp -implicitDefEqProofs [command, CommandKind.id, hsaved, hkind]

end Commands

/-- Commands are for all voices, but for their envelopes. -/
theorem runCommand_part (r : Rendition) (v : Voice) (c : Command) : (r.runCommand v c).part = r.part := by
  unfold Rendition.runCommand
  split <;> rfl

/-- What a command leaves of what the voices share. -/
theorem common_command (hcarries : here.Carries song commands) (h : Tracks song commands here r s)
    (hx : s.regs.x.toNat = v.val) {c : Command} {index : Nat} (hc : commands[index]? = some c)
    (hindex : s.cells 64 = UInt8.ofNat index) : (r.runCommand v c).Common (run here none command s).2 := by
  have hlt := (List.getElem?_eq_some_iff.mp hc).1
  have hfew := hcarries.few
  have hnat : (s.cells 64).toNat = index := by
    rw [hindex, UInt8.toNat_ofNat']
    omega
  have hcolumns := hcarries.command index c hc
  rw [← hnat] at hcolumns
  have hkind : here.byte (1033 + (s.cells 64).toNat) = c.kind.id := hcolumns 0 _ rfl
  have hfirst : here.byte (1065 + (s.cells 64).toNat) = c.first := hcolumns 1 _ rfl
  have hsecond : here.byte (1097 + (s.cells 64).toNat) = c.second := hcolumns 2 _ rfl
  have hcommon := h.common
  have hunchanged (hunknown : c.kind ∉ [.setAdsr, .setTempo, .setVolume, .filterProgram]) :
      r.Common (run here none command s).2 := by
    obtain ⟨hcells, hsid⟩ := run_unknown h.saved hkind hunknown
    exact hcommon.congr (fun n _ => by rw [hcells]) (hsid.trans hcommon.sid) rfl rfl rfl rfl
  unfold Rendition.runCommand
  cases hc : c.kind with
  | setAdsr =>
    rw [hc] at hkind
    obtain ⟨hcells, hsid⟩ := run_setAdsr hx h.saved (hcarries.voiceOff v.val v.isLt) hkind hfirst hsecond
    refine ⟨by rw [hsid, hcommon.sid]; rfl, ?_, ?_, ?_, ?_⟩ <;> rw [hcells] <;>
      simp [Rendition.write, hcommon.tempo, hcommon.tick, hcommon.filter, hcommon.modeVolume]
  | setTempo =>
    rw [hc] at hkind
    obtain ⟨hcells, hsid⟩ := run_setTempo h.saved hkind hfirst
    refine ⟨hsid.trans hcommon.sid, ?_, ?_, ?_, ?_⟩ <;> rw [hcells] <;>
      simp [hcommon.tick, hcommon.filter, hcommon.modeVolume]
  | setVolume =>
    rw [hc] at hkind
    obtain ⟨hcells, hsid⟩ := run_setVolume h.saved hkind hfirst
    rw [hcommon.modeVolume] at hcells hsid
    refine ⟨by rw [hsid, hcommon.sid]; rfl, ?_, ?_, ?_, ?_⟩ <;> rw [hcells] <;>
      simp [Rendition.write, hcommon.tempo, hcommon.tick, hcommon.filter]
  | filterProgram =>
    rw [hc] at hkind
    obtain ⟨hcells, hsid⟩ := run_filterProgram h.saved hkind hfirst
    refine ⟨hsid.trans hcommon.sid, ?_, ?_, ?_, ?_⟩ <;> rw [hcells] <;>
      simp [hcommon.tempo, hcommon.tick, hcommon.modeVolume]
  | _ =>
    refine hunchanged ?_
    rw [hc]
    decide

/-- **A command is run.** -/
theorem tracks_command (hcarries : here.Carries song commands) (h : Tracks song commands here r s)
    (hx : s.regs.x.toNat = v.val) {c : Command} {index : Nat} (hc : commands[index]? = some c)
    (hindex : s.cells 64 = UInt8.ofNat index) :
    ∃ s', run here none (itemsFrom "command") s = (.ret, s') ∧ s'.regs.x = s.regs.x ∧
      Tracks song commands here (r.runCommand v c) s' := by
  have hlt : s.regs.x.toNat < 3 := hx ▸ v.isLt
  have hkeeps := (run_steady here command none local_command.1.1 (.of_lt hlt) h.saved).2
  have htouched : ∀ n ∈ touched s.regs.x command, 60 ≤ n := by
    intro n hn
    rw [touched_eq [(66, false), (67, false), (60, false), (68, false), (63, false), (62, false)] (by decide)] at hn
    simp [touchedCell] at hn
    omega
  rw [itemsFrom_row.2.2]
  exact ⟨_, run_returning here stop local_command.1.1 local_command.2 (.of_lt hlt) h.saved, hkeeps.x,
    h.share hkeeps htouched (runCommand_part r v c) (common_command hcarries h hx hc hindex)⟩

end Chiptune.Player.Minimal
