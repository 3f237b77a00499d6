/-
**A song without faults is rendered for as long as one likes.**

What every step of a frame keeps holds of every frame (`Rendition.Invariant`),
so whatever a rendition refers to is in the song (`Rendition.Valid`). The one
thing that may not end is a row: a voice that is through its loop without having
taken one reads for ever. In a song without faults each loop takes rows, so there
is an end to it (`readRow_isSome`).
-/
import Chiptune.Proofs.Player.Minimal.Rendition
import Chiptune.Proofs.Song.Consistent

namespace Chiptune.Player.Minimal

open Song Sound

variable {song : Song} {r : Rendition} {v : Voice}

/-! ## Programs -/

theorem length_programRows (song : Song) (kind : TableKind) : (programRows song kind).length = song.tableLength kind := by
  unfold programRows tableLength
  cases song.table? kind <;> rfl

/-- A step is not the last row of a table without faults. -/
theorem next_of_step (h : song.WellFormed) {t : Table} (ht : t ∈ song.tables) {i : UInt8} {bytes : Bytes}
    (hi : t.rows[i.toNat]? = some (.step bytes)) :
    bytes.length = t.kind.width ∧ (i + 1).toNat < t.rows.length := by
  obtain ⟨hopen, hsound⟩ := h.tables.2 t ht
  obtain ⟨hlt, -⟩ := List.getElem?_eq_some_iff.mp hi
  refine ⟨rowFaults_eq_nil.mp (hsound _ _ hi), ?_⟩
  have hlast : i.toNat + 1 ≠ t.rows.length := by
    intro hlast
    have hlast' : t.rows.getLast? = some (.step bytes) := by
      rw [List.getLast?_eq_getElem?, ← hlast]
      exact hi
    rw [Table.isOpen, hlast'] at hopen
    cases hopen
  have hadd := UInt8.toNat_add i 1
  have hone : (1 : UInt8).toNat = 1 := rfl
  omega

/-- **What a program reads** is a step or an end of the table, and after a step there is another row. -/
theorem reached_spec (h : song.WellFormed) {kind : TableKind} {row : UInt8}
    (hrow : row.toNat < (programRows song kind).length) :
    let found := reached (programRows song kind) row
    (programRows song kind)[found.1.toNat]? = some found.2 ∧ (∀ target, found.2 ≠ .loop target) ∧
      ∀ bytes, found.2 = .step bytes → bytes.length = kind.width ∧
        (found.1 + 1).toNat < (programRows song kind).length := by
  obtain ⟨t, htable⟩ : ∃ t, song.table? kind = some t := by
    cases htable : song.table? kind with
    | some t => exact ⟨t, rfl⟩
    | none => simp [programRows, htable] at hrow
  have hrows : programRows song kind = t.rows := by rw [programRows, htable]; rfl
  obtain ⟨rfl, hmem⟩ := mem_of_table? htable
  obtain ⟨-, hsound⟩ := h.tables.2 t hmem
  rw [hrows] at hrow ⊢
  have hat := List.getElem?_eq_getElem hrow
  cases hfound : t.rows[row.toNat] with
  | loop target =>
    rw [hfound] at hat
    obtain ⟨u, hu, hloop⟩ := rowFaults_eq_nil.mp (hsound _ _ hat)
    have hreached : reached t.rows row = (target, u) := by
      simp only [reached, hat, hu, Option.getD_some]
    rw [hreached]
    exact ⟨hu, hloop, fun bytes he => next_of_step h hmem (he ▸ hu)⟩
  | step bytes =>
    rw [hfound] at hat
    have hreached : reached t.rows row = (row, .step bytes) := by
      simp only [reached, hat, Option.getD_some]
    rw [hreached]
    exact ⟨hat, nofun, fun _ he => by cases he; exact next_of_step h hmem hat⟩
  | stop =>
    rw [hfound] at hat
    have hreached : reached t.rows row = (row, .stop) := by
      simp only [reached, hat, Option.getD_some]
    rw [hreached]
    exact ⟨hat, nofun, nofun⟩

/-! ## What a frame keeps -/

namespace Rendition

/-- Every step of a frame keeps it: reading a sequence, going on to the next one, waiting, and what follows the rows. -/
structure Invariant (song : Song) (I : Rendition → Prop) : Prop where
  playEvents : ∀ {r v}, I r → I (r.playEvents song v (r.part v).events).2
  enter : ∀ {r v}, I r → I (r.enter song v)
  wait : ∀ {r v} wait, I r → I (r.withPart v { r.part v with wait })
  tick : ∀ {r} tick, I r → I { r with tick }
  update : ∀ {r v}, I r → I (r.update song v)
  stepFilter : ∀ {r}, I r → I (r.stepFilter song)

namespace Invariant

variable {I : Rendition → Prop}

theorem readRow (hI : Invariant song I) : ∀ {sequences : Nat} {r r' : Rendition}, I r →
    r.readRow song v sequences = some r' → I r'
  | 0, _, _, _, hread => by cases hread
  | sequences + 1, r, r', h, hread => by
    have hplayed := hI.playEvents (v := v) h
    unfold Rendition.readRow at hread
    split at hread
    next r₁ hevents =>
      cases hread
      rw [hevents] at hplayed
      exact hplayed
    next r₁ hevents =>
      rw [hevents] at hplayed
      have hentered := hI.enter (v := v) hplayed
      dsimp only at hread
      split at hread
      · cases hread
        exact hentered
      · exact readRow hI hentered hread

theorem playRow (hI : Invariant song I) (h : I r) {r' : Rendition} (hrow : r.playRow song v = some r') : I r' := by
  unfold Rendition.playRow at hrow
  dsimp only at hrow
  split at hrow
  · cases hrow
    exact h
  · split at hrow
    · exact hI.readRow h hrow
    · cases hrow
      exact hI.wait _ h

theorem foldlM_playRow (hI : Invariant song I) : ∀ {voices : List Voice} {r r' : Rendition}, I r →
    voices.foldlM (Rendition.playRow song) r = some r' → I r'
  | [], _, _, h, hrows => by
    cases hrows
    exact h
  | v :: voices, r, r', h, hrows => by
    rw [List.foldlM_cons] at hrows
    obtain ⟨r₁, hrow, hrows⟩ := Option.bind_eq_some_iff.mp hrows
    exact hI.foldlM_playRow (hI.playRow h hrow) hrows

theorem playRows (hI : Invariant song I) (h : I r) {r' : Rendition} (hrows : r.playRows song = some r') : I r' := by
  unfold Rendition.playRows at hrows
  split at hrows
  · exact hI.foldlM_playRow (hI.tick _ h) hrows
  · cases hrows
    exact h

theorem foldl_update (hI : Invariant song I) : ∀ (voices : List Voice) {r : Rendition}, I r →
    I (voices.foldl (Rendition.update song) r)
  | [], _, h => h
  | _ :: voices, _, h => hI.foldl_update voices (hI.update h)

/-- **A frame** keeps it. -/
theorem frame (hI : Invariant song I) (h : I r) {r' : Rendition} (hframe : r.frame song = some r') : I r' := by
  obtain ⟨r₁, hrows, rfl⟩ := Option.map_eq_some_iff.mp hframe
  exact hI.stepFilter (hI.foldl_update _ (hI.playRows (hI.tick _ h) hrows))

theorem frames (hI : Invariant song I) : ∀ {n : Nat} {r : Rendition} {rs : List Rendition}, I r →
    r.frames song n = some rs → ∀ r' ∈ rs, I r'
  | 0, _, _, _, hframes => by
    cases hframes
    simp
  | n + 1, r, rs, h, hframes => by
    obtain ⟨r₁, hframe, hframes⟩ := Option.bind_eq_some_iff.mp hframes
    obtain ⟨rs, hrest, rfl⟩ := Option.map_eq_some_iff.mp hframes
    have hfirst := hI.frame h hframe
    exact List.forall_mem_cons.mpr ⟨hfirst, hI.frames hfirst hrest⟩

theorem foldl_enter (hI : Invariant song I) : ∀ (voices : List Voice) {r : Rendition}, I r →
    I (voices.foldl (fun r v => r.enter song v) r)
  | [], _, h => h
  | _ :: voices, _, h => hI.foldl_enter voices (hI.enter h)

end Invariant

end Rendition

/-! ## What a rendition refers to -/

/-- What a voice refers to is in the song. -/
structure Part.Valid (song : Song) (v : Voice) (p : Part) : Prop where
  entry : p.entry ≤ (orderListOf song v).entries.length
  events : ∀ e ∈ p.events, e ∈ song.events
  instrument : p.instrument.toNat < song.instruments.length
  wave : p.wave.toNat < (programRows song .wave).length
  pulse : ∀ row, p.pulse = some row → row.toNat < (programRows song .pulse).length

/-- What the rendition refers to is in the song. -/
structure Rendition.Valid (song : Song) (r : Rendition) : Prop where
  part : ∀ v, (r.part v).Valid song v
  filter : ∀ row, r.filter = some row → row.toNat < (programRows song .filter).length

/-- An event of the song refers to what is in it. -/
theorem sound_of_mem_events (h : song.WellFormed) {e : Event} (he : e ∈ song.events) :
    e.Sound song.instruments.length (song.tableLength .filter) := by
  obtain ⟨q, hq, he⟩ := List.mem_flatMap.mp he
  exact (wellFormed_iff_consistent.mp h).1.events q hq e he

theorem mem_events_of_mem_eventsOf {sequence : UInt8} {e : Event} (he : e ∈ eventsOf song sequence) : e ∈ song.events := by
  unfold eventsOf at he
  cases hq : song.sequences[sequence.toNat]? with
  | none =>
    rw [hq] at he
    cases he
  | some q =>
    rw [hq] at he
    exact List.mem_flatMap.mpr ⟨q, List.mem_of_getElem? hq, he⟩

theorem orderListOf_mem (h : song.WellFormed) (v : Voice) : orderListOf song v ∈ song.orderLists := by
  have hv : v.val < song.orderLists.length := by
    rw [h.orderLists_length]
    exact v.isLt
  rw [orderListOf, List.getElem?_eq_getElem hv]
  exact List.getElem_mem hv

/-- The next entry of a list is one of its entries. -/
theorem nextEntry?_lt {l : OrderList} (hloops : l.LoopsInside) {entry k : Nat} (h : nextEntry? l entry = some k) :
    k < l.entries.length := by
  unfold nextEntry? at h
  split at h
  · cases h
    assumption
  · split at h
    next target htarget =>
      cases h
      exact hloops target htarget
    · cases h

namespace Part.Valid

variable {p : Part}

theorem stepWave (h : song.WellFormed) (hp : p.Valid song v) : (p.stepWave song).Valid song v := by
  obtain ⟨hat, -, hstep⟩ := reached_spec h hp.wave
  unfold Part.stepWave
  split
  next row bytes hfound =>
    rw [hfound] at hstep
    exact { hp with wave := (hstep bytes rfl).2 }
  next row _ hfound =>
    rw [hfound] at hat
    exact { hp with wave := (List.getElem?_eq_some_iff.mp hat).1 }

theorem stepPulse (h : song.WellFormed) (hp : p.Valid song v) : (p.stepPulse song).Valid song v := by
  unfold Part.stepPulse
  split
  · exact hp
  next row hrow =>
    split
    · obtain ⟨hat, -, hstep⟩ := reached_spec h (hp.pulse row hrow)
      split
      next row bytes hfound =>
        rw [hfound] at hstep
        exact { hp with pulse := fun _ he => by cases he; exact (hstep bytes rfl).2 }
      next row _ hfound =>
        rw [hfound] at hat
        exact { hp with pulse := fun _ he => by cases he; exact (List.getElem?_eq_some_iff.mp hat).1 }
    · exact { hp with }

end Part.Valid

namespace Rendition

namespace Valid

theorem withPart (h : r.Valid song) {p : Part} (hp : p.Valid song v) : (r.withPart v p).Valid song := by
  refine ⟨fun u => ?_, h.filter⟩
  by_cases huv : u = v
  · subst huv
    rw [show (r.withPart u p).part u = p from Function.update_self ..]
    exact hp
  · rw [show (r.withPart v p).part u = r.part u from Function.update_of_ne huv ..]
    exact h.part u

theorem write (h : r.Valid song) (register : Register) (value : UInt8) : (r.write register value).Valid song :=
  ⟨h.part, h.filter⟩

theorem enter (hsong : song.WellFormed) (h : r.Valid song) : (r.enter song v).Valid song := by
  have hp := h.part v
  unfold Rendition.enter
  dsimp only
  split
  next k hk =>
    have hloops := (wellFormed_iff_consistent.mp hsong).1.loops _ (orderListOf_mem hsong v)
    exact h.withPart { hp with entry := nextEntry?_lt hloops hk, events := fun e he => mem_events_of_mem_eventsOf he }
  · exact (h.write ..).withPart { hp with }

theorem strike (hsong : song.WellFormed) (h : r.Valid song) {i : Instrument} (hi : i ∈ song.instruments) :
    (r.strike v i).Valid song := by
  have hp := h.part v
  have hstart (kind : TableKind) {row : UInt8} (hrow : i.start? kind = some row) :
      row.toNat < (programRows song kind).length := by
    rw [length_programRows]
    exact hsong.start?_lt hi hrow
  have hfilter : { r with filter := i.filter.or r.filter }.Valid song := by
    refine ⟨h.part, fun row hrow => ?_⟩
    rcases Option.or_eq_some_iff.mp hrow with hrow | ⟨-, hrow⟩
    · exact hstart .filter hrow
    · exact h.filter row hrow
  refine Valid.withPart (Valid.write (Valid.write ?_ ..) ..)
    { hp with wave := hstart .wave rfl, pulse := fun row hrow => hstart .pulse hrow }
  split
  · exact ((hfilter.write ..).write ..).write ..
  · exact hfilter.write ..

theorem playNote (hsong : song.WellFormed) (h : r.Valid song) (pitch : UInt8) : (r.playNote song v pitch).Valid song := by
  have hp := h.part v
  unfold Rendition.playNote
  dsimp only
  split
  · exact h.withPart { hp with }
  · split
    next i hi =>
      refine (h.withPart ?_).strike hsong (List.mem_of_getElem? hi)
      exact { hp with }
    · exact h.withPart { hp with }

theorem runCommand (h : r.Valid song) {c : Command} (hc : commandFault? (song.tableLength .filter) c = none) :
    (r.runCommand v c).Valid song := by
  unfold Rendition.runCommand
  split
  next hkind => exact (h.write ..).write ..
  next hkind => exact ⟨h.part, h.filter⟩
  next hkind => exact ⟨h.part, h.filter⟩
  next hkind =>
    refine ⟨h.part, fun row hrow => ?_⟩
    cases hrow
    rw [length_programRows]
    simpa [commandFault?, hkind] using hc
  all_goals exact h

theorem playEvent (hsong : song.WellFormed) (h : r.Valid song) {e : Event} (he : e ∈ song.events) :
    (r.playEvent song v e).Valid song := by
  have hp := h.part v
  have hsound := sound_of_mem_events hsong he
  cases e with
  | noteOn pitch => exact h.playNote hsong pitch
  | setInstrument id => exact h.withPart { hp with instrument := hsound }
  | setCommand c => exact h.runCommand hsound
  | noteOff | tie | rest => exact h.withPart { hp with }

theorem playEvents (hsong : song.WellFormed) : ∀ {events : List Event} {r : Rendition}, r.Valid song →
    (∀ e ∈ events, e ∈ song.events) → (r.playEvents song v events).2.Valid song
  | [], _, h, _ => h
  | e :: events, r, h, hevents => by
    have hrest : ∀ e ∈ events, e ∈ song.events := fun e he => hevents e (List.mem_cons_of_mem _ he)
    have hp := h.part v
    have hread : (r.withPart v { r.part v with events }).Valid song := by
      refine h.withPart ?_
      exact { hp with events := hrest }
    have hplayed := hread.playEvent (v := v) hsong (hevents e List.mem_cons_self)
    unfold Rendition.playEvents
    dsimp only
    split
    · exact hplayed
    · exact hplayed.playEvents hsong hrest

theorem update (hsong : song.WellFormed) (h : r.Valid song) (v : Voice) : (r.update song v).Valid song := by
  have hp := ((h.part v).stepWave hsong).stepPulse hsong
  unfold Rendition.update
  split
  · have hstepped := h.withPart hp
    exact ⟨hstepped.part, hstepped.filter⟩
  · exact h

theorem stepFilter (hsong : song.WellFormed) (h : r.Valid song) : (r.stepFilter song).Valid song := by
  unfold Rendition.stepFilter
  split
  · exact h
  next row hrow =>
    obtain ⟨hat, -, hstep⟩ := reached_spec hsong (h.filter row hrow)
    split
    next row bytes hfound =>
      rw [hfound] at hstep
      exact ⟨h.part, fun _ he => by cases he; exact (hstep bytes rfl).2⟩
    next row _ hfound =>
      rw [hfound] at hat
      exact ⟨h.part, fun _ he => by cases he; exact (List.getElem?_eq_some_iff.mp hat).1⟩

/-- **Every step of a frame** leaves a rendition of the song. -/
theorem invariant (hsong : song.WellFormed) : Invariant song (Valid song) where
  playEvents h := h.playEvents hsong (h.part _).events
  enter h := h.enter hsong
  wait _ h := h.withPart { h.part _ with }
  tick _ h := ⟨h.part, h.filter⟩
  update h := h.update hsong _
  stepFilter h := h.stepFilter hsong

/-- **A song starts** with what it has, if it has an instrument. -/
theorem start (hsong : song.WellFormed) (hinstruments : song.instruments ≠ []) : (Rendition.start song).Valid song := by
  have hpositive := List.length_pos_of_ne_nil hinstruments
  have hwave : 0 < (programRows song .wave).length := by
    have hlt : song.instruments[0].wave.toNat < song.tableLength .wave := hsong.start?_lt (List.getElem_mem hpositive) rfl
    rw [length_programRows]
    omega
  exact (invariant hsong).foldl_enter _ ⟨fun v => ⟨Nat.zero_le _, nofun, hpositive, hwave, nofun⟩, nofun⟩

end Valid

/-! ## Rows end -/

section Ends

theorem part_withPart (r : Rendition) (v : Voice) (p : Part) : (r.withPart v p).part v = p := Function.update_self ..

/-- Where a voice is: the entry to take next, the events still to read, and their transposition. -/
def place (r : Rendition) (v : Voice) : Nat × List Event × Int8 :=
  ((r.part v).entry, (r.part v).events, (r.part v).transpose)

/-- An event does not move the voice that plays it. -/
theorem place_playEvent (r : Rendition) (e : Event) : (r.playEvent song v e).place v = r.place v := by
  unfold place
  cases e with
  | noteOn pitch =>
    simp only [playEvent, playNote]
    split
    · rw [part_withPart]
    · split
      · rw [strike, part_withPart, part_withPart]
      · rw [part_withPart]
  | setCommand c =>
    simp only [playEvent, runCommand]
    split <;> rfl
  | _ => rw [playEvent, part_withPart]

theorem entry_playEvent (r : Rendition) (e : Event) : ((r.playEvent song v e).part v).entry = (r.part v).entry :=
  congrArg Prod.fst (place_playEvent r e)

theorem entry_playEvents : ∀ (events : List Event) (r : Rendition),
    ((r.playEvents song v events).2.part v).entry = (r.part v).entry
  | [], _ => rfl
  | e :: events, r => by
    have hplayed : (((r.withPart v { r.part v with events }).playEvent song v e).part v).entry = (r.part v).entry := by
      rw [entry_playEvent, part_withPart]
    unfold playEvents
    dsimp only
    split
    · exact hplayed
    · rw [entry_playEvents events, hplayed]

/-- An event that takes a row is found. -/
theorem playEvents_found : ∀ {events : List Event} (r : Rendition), (∃ e ∈ events, takesRow e = true) →
    (r.playEvents song v events).1 = true
  | [], _, ⟨_, he, _⟩ => by cases he
  | e :: events, r, h => by
    unfold playEvents
    dsimp only
    split
    · rfl
    next hnot =>
      obtain ⟨e', he', htakes⟩ := h
      rcases List.mem_cons.mp he' with rfl | he'
      · exact absurd htakes hnot
      · exact playEvents_found _ ⟨e', he', htakes⟩

/-- The state of a voice that took an entry. -/
theorem part_enter {l : OrderList} (hl : orderListOf song v = l) {k : Nat}
    (hnext : nextEntry? l (r.part v).entry = some k) :
    ((r.enter song v).part v).entry = k + 1 ∧
      ((r.enter song v).part v).events = eventsOf song ((l.entries[k]?).getD ⟨0, 0⟩).sequence := by
  subst hl
  have henter : r.enter song v = r.withPart v { r.part v with
      entry := k + 1, events := eventsOf song (((orderListOf song v).entries[k]?).getD ⟨0, 0⟩).sequence
      transpose := (((orderListOf song v).entries[k]?).getD ⟨0, 0⟩).transpose } := by
    simp only [enter, hnext]
  rw [henter, part_withPart]
  exact ⟨rfl, rfl⟩

/-- A voice that stopped is at the end of its list. -/
theorem stopped_enter (hnext : nextEntry? (orderListOf song v) (r.part v).entry = none) :
    ((r.enter song v).part v).stopped = true := by
  have henter : r.enter song v = (r.write (.voice v .control) (withoutGate (r.part v).control)).withPart v
      { r.part v with gate := false, stopped := true } := by
    simp only [enter, hnext]
  rw [henter, part_withPart]

/-- The entry plays a sequence with an event that takes a row. -/
def Sounding (song : Song) (l : OrderList) (k : Nat) : Prop :=
  ∃ e ∈ eventsOf song ((l.entries[k]?).getD ⟨0, 0⟩).sequence, takesRow e = true

theorem rowCount_eq_zero : ∀ {events : List Event}, (∀ e ∈ events, takesRow e = false) →
    events.foldr (fun e rows => e.rows + rows) 0 = 0
  | [], _ => rfl
  | e :: events, h => by
    have hrest := rowCount_eq_zero fun e he => h e (List.mem_cons_of_mem _ he)
    have he := h e List.mem_cons_self
    rw [List.foldr_cons, hrest]
    cases e with
    | noteOn | noteOff | rest => cases he
    | _ => rfl

/-- A loop has an entry that takes rows. -/
theorem exists_sounding (h : song.WellFormed) {target : UInt8} (hfinish : (orderListOf song v).finish = .loop target) :
    ∃ j, target.toNat ≤ j ∧ j < (orderListOf song v).entries.length ∧ Sounding song (orderListOf song v) j := by
  have hmem := orderListOf_mem h v
  obtain ⟨hconsistent, hplays⟩ := wellFormed_iff_consistent.mp h
  obtain ⟨e, he, hnothing⟩ := hplays _ hmem target hfinish
  obtain ⟨i, hi⟩ := List.getElem?_of_mem he
  rw [List.getElem?_drop] at hi
  have hlt := (List.getElem?_eq_some_iff.mp hi).1
  refine ⟨target.toNat + i, Nat.le_add_right .., hlt, ?_⟩
  obtain ⟨-, q, hq, -⟩ := hconsistent.entries _ hmem e (List.mem_of_getElem? hi)
  simp only [playsNothing, hq, beq_eq_false_iff_ne] at hnothing
  rw [Sounding, hi, Option.getD_some, eventsOf, hq]
  by_contra hnone
  refine hnothing (rowCount_eq_zero fun e he => ?_)
  rw [← Bool.not_eq_true]
  exact fun htakes => hnone ⟨e, he, htakes⟩

/-- A voice that reads one entry of its list, with one ahead that takes rows, is through with the row by then. -/
theorem readRow_isSome_of_ahead {l : OrderList} (hl : orderListOf song v = l) {j : Nat} (hj : j < l.entries.length)
    (hsounding : Sounding song l j) : ∀ (ahead : Nat) {k sequences : Nat} {r : Rendition}, k + ahead = j →
      ahead < sequences → (r.part v).entry = k + 1 →
      (r.part v).events = eventsOf song ((l.entries[k]?).getD ⟨0, 0⟩).sequence →
      (r.readRow song v sequences).isSome
  | _, _, 0, _, _, hroom, _, _ => absurd hroom (Nat.not_lt_zero _)
  | ahead, k, sequences + 1, r, hk, hroom, hentry, hevents => by
    unfold readRow
    split
    · rfl
    next r₁ hplayed =>
      have hentry₁ : (r₁.part v).entry = k + 1 := by
        rw [← hentry, ← @entry_playEvents song v (r.part v).events r, hplayed]
      cases ahead with
      | zero =>
        -- the entry itself takes a row
        obtain rfl : k = j := hk
        have hfound := @playEvents_found song v (r.part v).events r (by
          rw [hevents]
          exact hsounding)
        rw [hplayed] at hfound
        cases hfound
      | succ ahead =>
        have hnext : nextEntry? l (r₁.part v).entry = some (k + 1) := by
          rw [hentry₁, nextEntry?, if_pos (by omega)]
        obtain ⟨hentry₂, hevents₂⟩ := part_enter hl hnext
        dsimp only
        split
        · rfl
        · exact readRow_isSome_of_ahead hl hj hsounding ahead (by omega) (Nat.lt_of_succ_lt_succ hroom) hentry₂ hevents₂

/-- **A row is read to its end**: the voice stops, or finds an event that takes a row before it has been through its
list twice. -/
theorem readRow_isSome (h : song.WellFormed) : ∀ (left : Nat) {sequences : Nat} {r : Rendition},
    (r.part v).entry + left = (orderListOf song v).entries.length →
      left + (orderListOf song v).entries.length + 2 ≤ sequences → (r.readRow song v sequences).isSome
  | _, 0, _, _, hroom => by omega
  | left, sequences + 1, r, hleft, hroom => by
    unfold readRow
    split
    · rfl
    next r₁ hplayed =>
      have hentry₁ : (r₁.part v).entry = (r.part v).entry := by
        rw [← @entry_playEvents song v (r.part v).events r, hplayed]
      dsimp only
      split
      · rfl
      next hstopped =>
        cases hnext : nextEntry? (orderListOf song v) (r₁.part v).entry with
        | none => exact absurd (stopped_enter hnext) hstopped
        | some k =>
          obtain ⟨hentry₂, hevents₂⟩ := part_enter rfl hnext
          cases left with
          | succ left =>
            have hk : k = (r₁.part v).entry := by
              rw [ nextEntry?, if_pos (by omega)] at hnext
              exact (Option.some.inj hnext).symm
            exact readRow_isSome h left (by omega) (by omega)
          | zero =>
            -- the list is at its end, and loops
            rw [ nextEntry?, if_neg (by omega)] at hnext
            split at hnext
            next target hfinish =>
              cases hnext
              obtain ⟨j, hle, hj, hsounding⟩ := exists_sounding h hfinish
              exact readRow_isSome_of_ahead rfl hj hsounding (j - target.toNat) (by omega) (by omega) hentry₂ hevents₂
            · cases hnext

theorem playRow_isSome (hsong : song.WellFormed) (h : r.Valid song) (v : Voice) : (r.playRow song v).isSome := by
  have hentry := (h.part v).entry
  unfold playRow
  dsimp only
  split
  · rfl
  · split
    · exact readRow_isSome hsong ((orderListOf song v).entries.length - (r.part v).entry) (by omega) (by
        unfold reach
        omega)
    · rfl

theorem foldlM_playRow_isSome (hsong : song.WellFormed) : ∀ (voices : List Voice) {r : Rendition}, r.Valid song →
    (voices.foldlM (playRow song) r).isSome
  | [], _, _ => rfl
  | v :: voices, r, h => by
    obtain ⟨r₁, hrow⟩ := Option.isSome_iff_exists.mp (playRow_isSome hsong h v)
    rw [List.foldlM_cons, hrow]
    exact foldlM_playRow_isSome hsong voices ((Valid.invariant hsong).playRow h hrow)

theorem frame_isSome (hsong : song.WellFormed) (h : r.Valid song) : (r.frame song).isSome := by
  have hrows (tick : UInt8) := foldlM_playRow_isSome hsong descending (r := { r with tick }) ⟨h.part, h.filter⟩
  rw [frame, Option.isSome_map, playRows]
  split
  · exact hrows r.tempo
  · rfl

theorem frames_isSome (hsong : song.WellFormed) : ∀ (n : Nat) {r : Rendition}, r.Valid song → (r.frames song n).isSome
  | 0, _, _ => rfl
  | n + 1, r, h => by
    obtain ⟨r₁, hframe⟩ := Option.isSome_iff_exists.mp (frame_isSome hsong h)
    rw [frames, hframe, Option.bind_some, Option.isSome_map]
    exact frames_isSome hsong n ((Valid.invariant hsong).frame h hframe)

end Ends

end Rendition

/-- **A song without faults is rendered** for as many frames as one likes. -/
theorem rendered_isSome (h : song.WellFormed) (hinstruments : song.instruments ≠ []) (n : Nat) :
    (rendered song n).isSome :=
  Rendition.frames_isSome h n (.start h hinstruments)

end Chiptune.Player.Minimal
