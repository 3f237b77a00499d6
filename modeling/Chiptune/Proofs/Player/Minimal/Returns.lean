/-
The routines of the player return.

The loops over the voices and over the variables count down. The routine that
reads a row is another matter: it goes back to its start until it finds an
event that takes a row or the end of the order list, and what it finds is the
score's. So it returns if reading on in the score ends (`Ends`), as it does in
the score of a song without faults (`ending_scoreOf`).
-/
import Chiptune.Proofs.Player.Minimal.Opening
import Chiptune.Proofs.Player.Minimal.Positions

namespace Chiptune.Player.Minimal

open Machine Sound Song Music

variable {here : Site} {s s' : State} {items rest : List Item} {depth : Nat} {score : Score} {spots : Nat → Spot}
  {Q R : State → Prop} {c parameter : UInt8}

/-! ## Routines that return -/

/-- A routine returns, in a state of which `Q` holds. -/
def Returns (here : Site) (depth : Nat) (items : List Item) (s : State) (Q : State → Prop) : Prop :=
  ∃ fuel s', exec here depth fuel items s = .done s' ∧ Q s'

theorem Returns.mono (h : Returns here depth items s Q) (hQ : ∀ s, Q s → R s) : Returns here depth items s R := by
  obtain ⟨fuel, s', hexec, hdone⟩ := h
  exact ⟨fuel, s', hexec, hQ s' hdone⟩

theorem returns_congr {items' : List Item} (hs : run here none items s = run here none items' s')
    (h : Returns here depth items' s' Q) : Returns here depth items s Q := by
  obtain ⟨fuel, s'', hexec, hdone⟩ := h
  exact ⟨fuel, s'', (exec_congr hs).trans hexec, hdone⟩

theorem returns_ret (hs : run here none items s = (.ret, s')) (h : Q s') : Returns here depth items s Q :=
  ⟨1, s', exec_ret hs, h⟩

theorem returns_goto {l : String} (hs : run here none items s = (.goto l, s'))
    (h : Returns here depth (itemsFrom l) s' Q) : Returns here depth items s Q := by
  obtain ⟨fuel, s'', hexec, hdone⟩ := h
  exact ⟨fuel + 1, s'', (exec_goto hs).trans hexec, hdone⟩

theorem returns_call {l : String} (hdepth : depth + 2 ≤ stackLimit) (hs : run here none items s = (.call l rest, s'))
    (h : Returns here (depth + 2) (itemsFrom l) s' R) (hrest : ∀ s'', R s'' → Returns here depth rest s'' Q) :
    Returns here depth items s Q := by
  obtain ⟨fuel, s₁, hcallee, hdone⟩ := h
  obtain ⟨fuel', s₂, hexec, hQ⟩ := hrest s₁ hdone
  refine ⟨max fuel fuel' + 1, s₂, ?_, hQ⟩
  rw [exec_call hdepth hs, exec_mono (Nat.le_max_left fuel fuel') hcallee (by simp)]
  exact exec_mono (Nat.le_max_right fuel fuel') hexec (by simp)

/-- A routine that returns comes to what two runs of it come to that are in step. -/
theorem Returns.both {T : State → State → Prop} (h : Returns here depth items s Q)
    (hboth : ∀ fuel, Both here here depth fuel items s s T) : Returns here depth items s fun s' => T s' s' := by
  obtain ⟨fuel, s', hexec, -⟩ := h
  have hdone := hboth fuel
  rw [Both, hexec] at hdone
  cases hdone with
  | done hT => exact ⟨fuel, s', hexec, hT⟩

/-! ## Rows in the score -/

/-- The classes of the events that take a row. -/
def rowCodes : List UInt8 := [EventClass.code .noteOn, EventClass.code .noteOff, EventClass.code .rest]

/-- Reading on ends: with these bytes of a sequence still to read, and this entry of its order list to take next, a voice
comes to an event that takes a row or to where its list stops. -/
inductive Ends (score : Score) (v : Nat) : Nat → Bytes → Prop
  | row {entry : Nat} {c parameter : UInt8} {rest : Bytes} (hc : c ∈ rowCodes) :
      Ends score v entry (c :: parameter :: rest)
  | event {entry : Nat} {c parameter : UInt8} {rest : Bytes} (hc : c ≠ EventClass.code .finish)
      (hrest : Ends score v entry rest) : Ends score v entry (c :: parameter :: rest)
  | finish {entry : Nat} {parameter : UInt8} {rest : Bytes}
      (hnext : ∀ k, nextEntry? (score.list v) entry = some k →
        Ends score v (nextSpot score v entry).entry (nextSpot score v entry).rest) :
      Ends score v entry (EventClass.code .finish :: parameter :: rest)

/-- Whatever entry a voice takes, reading on from it ends. -/
def Score.Ending (score : Score) : Prop :=
  ∀ v < voiceCount, ∀ entry k, nextEntry? (score.list v) entry = some k →
    Ends score v (nextSpot score v entry).entry (nextSpot score v entry).rest

/-- What is left of a sequence leads to an entry at the latest. -/
theorem Score.Ending.ends (h : score.Ending) {v : Nat} (hv : v < voiceCount) (entry : Nat) {bytes : Bytes}
    (hreadable : Readable bytes) : Ends score v entry bytes := by
  induction hreadable with
  | finish => exact .finish (h v hv entry)
  | event hc _ ih => exact .event hc ih

section Songs

variable {song : Song} {commands : List Command} {v : Voice} {n : Nat} {e : Event} {events : List Event}

theorem encodeSequence_eq (e : Event) (events : List Event) : encodeSequence commands { events := e :: events } =
    encodeEvent commands e ++ encodeSequence commands { events } := by
  simp only [encodeSequence, List.flatMap_cons, List.append_assoc]

theorem ends_row (hrow : 0 < e.rows) {entry : Nat} :
    Ends score v entry (encodeSequence commands { events := e :: events }) := by
  rw [encodeSequence_eq]
  cases e with
  | noteOn | noteOff | rest => exact .row (by decide)
  | tie | setInstrument | setCommand => cases hrow

theorem ends_event {entry : Nat} (hsilent : e.rows = 0)
    (hrest : Ends score v entry (encodeSequence commands { events })) :
    Ends score v entry (encodeSequence commands { events := e :: events }) := by
  rw [encodeSequence_eq]
  cases e with
  | noteOn | noteOff => cases hsilent
  | setCommand command =>
    -- a command that the player does not know has no bytes
    unfold encodeEvent
    dsimp only
    split
    · exact .event (by decide) hrest
    · exact hrest
  | tie | setInstrument | rest => exact .event (by decide) hrest

/-- The spot of a voice that has taken an entry: before all that the entry plays. -/
theorem nextSpot_scoreOf (hsong : song.WellFormed) (commands : List Command) {entry k : Nat}
    (hk : nextEntry? (orderListOf song v) entry = some k) :
    k < (orderListOf song v).entries.length ∧ (nextSpot (scoreOf song commands) v entry).entry = k + 1 ∧
      (nextSpot (scoreOf song commands) v entry).rest =
        encodeSequence commands { events := entryEvents song (orderListOf song v) k } := by
  have hconsistent := (wellFormed_iff_consistent.mp hsong).1
  have hmem := orderListOf_mem hsong v
  have hlt := nextEntry?_lt (hconsistent.loops _ hmem) hk
  have hat := List.getElem?_eq_getElem hlt
  obtain ⟨-, q, hq, -⟩ := hconsistent.entries _ hmem _ (List.getElem_mem hlt)
  have hspot := @nextSpot_some (scoreOf song commands) v entry k _ hk hat
  rw [hspot, entryEvents, hat, Option.getD_some]
  exact ⟨hlt, rfl, sequence_scoreOf (List.getElem?_eq_some_iff.mp hq).1⟩

/-- **Reading on ends where the walk settles.** -/
theorem ends_of_settles (hsong : song.WellFormed) {p : Position} (h : Settles song (orderListOf song v) n p) :
    Ends (scoreOf song commands) v (p.entry + 1)
      (encodeSequence commands { events := (entryEvents song (orderListOf song v) p.entry).drop p.event }) := by
  have hdrop {p : Position} {e : Event} (hevent : p.event? song (orderListOf song v) = some e) :
      (entryEvents song (orderListOf song v) p.entry).drop p.event =
        e :: (entryEvents song (orderListOf song v) p.entry).drop (p.event + 1) := by
    obtain ⟨hlt, rfl⟩ := List.getElem?_eq_some_iff.mp hevent
    exact List.drop_eq_getElem_cons hlt
  have hend {p : Position} (hevent : p.event? song (orderListOf song v) = none) :
      (entryEvents song (orderListOf song v) p.entry).drop p.event = [] :=
    List.drop_eq_nil_of_le (List.getElem?_eq_none_iff.mp hevent)
  induction h with
  | row hevent hrow =>
    rw [hdrop hevent]
    exact ends_row hrow
  | @stop _ p hnext =>
    unfold Position.next? at hnext
    split at hnext
    · cases hnext
    next hevent =>
      rw [hend hevent]
      refine .finish fun k hk => ?_
      cases hk.symm.trans (Option.map_eq_none_iff.mp hnext)
  | @move _ p q hsilent hnext _ ih =>
    unfold Position.next? at hnext
    split at hnext
    next e hevent =>
      cases hnext
      rw [hdrop hevent]
      exact ends_event (hsilent e hevent) ih
    next hevent =>
      obtain ⟨k, hk, rfl⟩ := Option.map_eq_some_iff.mp hnext
      obtain ⟨-, hentry, hrest⟩ := nextSpot_scoreOf hsong commands hk
      rw [hend hevent]
      refine .finish fun _ _ => ?_
      rw [hentry, hrest]
      exact ih

/-- **In a song without faults** reading on ends. -/
theorem ending_scoreOf (hsong : song.WellFormed) (commands : List Command) : (scoreOf song commands).Ending := by
  intro v hv entry k hk
  obtain ⟨hlt, hentry, hrest⟩ := @nextSpot_scoreOf song ⟨v, hv⟩ hsong commands entry k hk
  rw [hentry, hrest]
  exact ends_of_settles hsong (settles_within hsong hlt 0)

end Songs

/-! ## Rows -/

section Rows

variable {v : Nat} {bytes : Bytes}

theorem Playing.paired (h : Playing score here spots s) : Paired score here here spots s s := ⟨h, h, .refl s⟩

/-- A player is a twin of itself. -/
theorem twin_self (here : Site) : Twin here here := fun _ _ => rfl

/-- An event that takes a row is the last one that is read. -/
theorem way_row (h : Playing score here spots s) (hx : s.regs.x.toNat < 3) (hstopped : s.cells (36 + s.regs.x.toNat) = 0)
    {rest : Bytes} (hrest : (spots s.regs.x.toNat).rest = c :: parameter :: rest) (hc : c ∈ rowCodes) :
    (run here none (itemsFrom "row_read") s).1 = .ret := by
  obtain ⟨pointer, hpointer, hclass, hparameter⟩ := h.reads hx hstopped hrest
  simp only [rowCodes, EventClass.code, List.mem_cons, List.not_mem_nil, or_false] at hc
  rw [itemsFrom_row.2.1]
  rcases hc with rfl | rfl | rfl
  · rw [run_row_note here (noteEnvelope ++ afterRow) hx h.saved h.decimal hpointer hclass hparameter, ← List.append_assoc,
      run_leadsOn]
    have hway := (run_steady here (noteOn.drop 3 ++ noteEnvelope) none (s := { s with
      regs := noted s.regs parameter, cells := advanced s parameter, page := pointed s })
      (fun item hi => steady_of_even (tame_note.1.1 item hi)) (.of_lt hx) h.saved).1
    rw [tame_note.2 _ hway]
    rfl
  all_goals rw [run_row_event here _ hx h.saved h.decimal hpointer hclass (by decide) (by decide) hparameter, run_leadsOn]
  · have hway := (run_noteOff here (v := ⟨_, hx⟩) (s := { s with
      regs := classed s.regs 1, cells := advanced s parameter, page := pointed s }) rfl h.saved rfl).1
    rw [hway]
    rfl
  · have hway := (run_rest here (v := ⟨_, hx⟩) (s := { s with
      regs := classed s.regs 4, cells := advanced s parameter, page := pointed s }) rfl h.saved rfl rfl).1
    rw [hway]
    rfl

/-- An event is read, and then the next one unless it took a row. -/
theorem returns_event (hdepth : depth + 2 ≤ stackLimit) (h : Playing score here spots s) (hx : s.regs.x.toNat < 3)
    (hstopped : s.cells (36 + s.regs.x.toNat) = 0) {rest : Bytes} (hc : c ≠ EventClass.code .finish)
    (hrest : (spots s.regs.x.toNat).rest = c :: parameter :: rest)
    (hnext : ∀ s', s'.regs.x = s.regs.x → s'.cells (36 + s.regs.x.toNat) = 0 →
      Playing score here (Function.update spots s.regs.x.toNat
        { spots s.regs.x.toNat with rest, offset := (spots s.regs.x.toNat).offset + 2 }) s' →
      Returns here depth (itemsFrom "row_read") s' fun _ => True) :
    Returns here depth (itemsFrom "row_read") s fun _ => True := by
  obtain ⟨-, -, hreadable⟩ := (h.follows _ hx).sequence hstopped
  rw [hrest] at hreadable
  have hreadable : Readable rest := by
    cases hreadable with
    | finish => exact absurd rfl hc
    | event _ hreadable => exact hreadable
  obtain ⟨w, hw, s', t', hs, -, hx', hstill, hp⟩ := run_event (twin_self here) h.paired hx hstopped hc hrest hreadable
  simp only [eventWays, List.mem_cons, List.not_mem_nil, or_false] at hw
  rcases hw with rfl | rfl | rfl
  · exact returns_ret hs trivial
  · exact returns_goto hs (hnext s' hx' hstill hp.here)
  · obtain ⟨w, hw, s'', t'', hs'', -, hp'', hx'', hheld⟩ :=
      run_tame (twin_self here) tame_command.1 hp (by rw [hx']; exact hx) stop
    rw [← itemsFrom_row.2.2] at hs''
    cases tame_command.2 w hw
    refine returns_call (R := (s'' = ·)) hdepth hs (returns_ret hs'' rfl) fun _ hdone => ?_
    subst hdone
    exact returns_goto (run_goto rowRead_behind.2.1)
      (hnext s'' (hx''.trans hx') (by rw [hheld _ (isHeld_stopped hx), hstill]) hp''.here)

/-- A sequence is at its end: the voice stops, or goes on at the next entry. -/
theorem returns_finish (hshared : Shared score here here) (hdepth : depth + 2 ≤ stackLimit)
    (h : Playing score here spots s) (hx : s.regs.x.toNat < 3) (hstopped : s.cells (36 + s.regs.x.toNat) = 0)
    {rest : Bytes} (hrest : (spots s.regs.x.toNat).rest = EventClass.code .finish :: parameter :: rest)
    (hnext : ∀ s', s'.regs.x = s.regs.x → s'.cells (36 + s.regs.x.toNat) = 0 →
      Playing score here (Function.update spots s.regs.x.toNat
        (nextSpot score s.regs.x.toNat (spots s.regs.x.toNat).entry)) s' →
      Returns here depth (itemsFrom "row_read") s' fun _ => True) :
    Returns here depth (itemsFrom "row_read") s fun _ => True := by
  obtain ⟨pointer, hpointer, hmark, -⟩ := h.reads hx hstopped hrest
  have hs := run_row_finish here (rowEvents ++ (noteOn ++ (noteEnvelope ++ afterRow))) hx h.saved hpointer hmark
  rw [← itemsFrom_row.2.1] at hs
  have h₁ := (h.paired.compute (r := marked s.regs) rfl (pointed s) (pointed s)).here
  have hx₁ : (marked s.regs).x.toNat < 3 := hx
  obtain ⟨s', hs', hkeeps, hfollows⟩ := nextOrder_follows (s := { s with regs := marked s.regs, page := pointed s })
    hshared.playable hshared.here hx₁ h₁.saved h₁.decimal (h₁.follows _ hx₁).lists
  have h' := h₁.move hkeeps (isHeld_orderCells hx₁) hfollows
  have hx' : s'.regs.x = s.regs.x := hkeeps.x
  refine returns_call (R := (s' = ·)) hdepth hs (returns_ret hs' rfl) fun _ hdone => ?_
  subst hdone
  have hordered := run_ordered here (rowEvents ++ (noteOn ++ (noteEnvelope ++ afterRow))) (s := s') (hx' ▸ hx) h'.saved
  split at hordered
  next hflag =>
    exact returns_goto (hordered.trans (run_goto rowRead_behind.2.2)) (hnext _ hx' (hx' ▸ hflag)
      (h'.paired.compute (r := plain (s'.regs.setA (s'.cells (36 + s'.regs.x.toNat)))) rfl s'.page s'.page).here)
  next => exact returns_ret hordered trivial

/-- **A row is read to its end**, where reading on ends in the score. -/
theorem returns_rowRead (hshared : Shared score here here) (hdepth : depth + 2 ≤ stackLimit) (hv : v < voiceCount)
    {entry : Nat} (hends : Ends score v entry bytes) : ∀ {spots : Nat → Spot} {s : State}, Playing score here spots s →
      s.regs.x.toNat = v → s.cells (36 + s.regs.x.toNat) = 0 → (spots v).entry = entry → (spots v).rest = bytes →
      Returns here depth (itemsFrom "row_read") s fun _ => True := by
  induction hends with
  | row hc =>
    rintro spots s h rfl hstopped - hrest
    have hway := way_row h hv hstopped hrest hc
    rcases hrun : run here none (itemsFrom "row_read") s with ⟨w, s'⟩
    rw [hrun] at hway
    cases hway
    exact returns_ret hrun trivial
  | event hc _ ih =>
    rintro spots s h rfl hstopped hentry hrest
    refine returns_event hdepth h hv hstopped hc hrest fun s' hx' hstill hp => ?_
    exact ih hp (congrArg UInt8.toNat hx') (by rw [hx', hstill]) (by rw [Function.update_self, hentry])
      (by rw [Function.update_self])
  | finish _ ih =>
    rintro spots s h rfl hstopped rfl hrest
    refine returns_finish hshared hdepth h hv hstopped hrest fun s' hx' hstill hp => ?_
    cases hk : nextEntry? (score.list s.regs.x.toNat) (spots s.regs.x.toNat).entry with
    | some k =>
      exact ih k hk hp (congrArg UInt8.toNat hx') (by rw [hx', hstill]) (by rw [Function.update_self])
        (by rw [Function.update_self])
    | none =>
      -- a voice that has stopped reads nothing
      obtain ⟨-, -, hreadable⟩ := (hp.follows _ hv).sequence hstill
      rw [Function.update_self, nextSpot_none hk] at hreadable
      cases hreadable

/-- **A row of a voice is played**: it rests, or reads. -/
theorem returns_row (hshared : Shared score here here) (hending : score.Ending) (hdepth : depth + 2 ≤ stackLimit)
    (h : Playing score here spots s) (hx : s.regs.x.toNat < 3) (hstopped : s.cells (36 + s.regs.x.toNat) = 0) :
    Returns here depth (itemsFrom "row") s fun _ => True := by
  obtain ⟨w, hw, s', t', hs, -, hp, hx', hheld⟩ :=
    run_tame (twin_self here) tame_waiting.1 h.paired hx (itemsFrom "row_read")
  rw [← itemsFrom_row.1] at hs
  rw [tame_waiting.2] at hw
  simp only [List.mem_cons, List.not_mem_nil, or_false] at hw
  rcases hw with rfl | rfl
  · exact returns_ret hs trivial
  · have hfound : run here (some "row_read") (itemsFrom "row_read") s' = run here none (itemsFrom "row_read") s' := by
      rw [itemsFrom_row.2.1]
      rfl
    rw [← hx'] at hx
    have hstill : s'.cells (36 + s'.regs.x.toNat) = 0 := by
      rw [hx', hheld _ (isHeld_stopped (hx' ▸ hx)), hstopped]
    obtain ⟨-, -, hreadable⟩ := (hp.here.follows _ hx).sequence hstill
    exact returns_congr (hs.trans hfound)
      (returns_rowRead hshared hdepth hx (hending.ends hx _ hreadable) hp.here rfl hstill rfl rfl)

end Rows

/-! ## Frames -/

section Frames

/-- The filter program is stepped, whatever the state. -/
theorem returns_filter (hsaved : s.saved = []) : Returns here depth (itemsFrom "update_filter") s fun _ => True := by
  rw [itemsFrom_play.2.2.2]
  exact returns_ret (run_returning here (itemsFrom "command")
    (fun item hi => steady_of_even (updateFilter_even.1 item hi)) updateFilter_even.2 (voiced_updateFilter s.regs.x) hsaved) trivial

/-- The voices are updated, from the last one down. -/
theorem returns_voices (hdepth : depth + 2 ≤ stackLimit) : ∀ (n : Nat) {s : State}, s.regs.x.toNat = n → n < voiceCount →
    s.saved = [] → Returns here depth (itemsFrom "play_voices") s fun _ => True
  | n, s, hn, hbound, hsaved => by
    have hx : s.regs.x.toNat < 3 := hn ▸ hbound
    -- the voices before this one
    have hnext {s : State} (hn : s.regs.x.toNat = n) (hsaved : s.saved = []) :
        Returns here depth (play.drop 21 ++ itemsFrom "row") s fun _ => True := by
      cases n with
      | zero =>
        exact returns_congr ((run_voices_last (UInt8.toNat_inj.mp hn)).trans run_to_filter) (returns_filter hsaved)
      | succ n =>
        obtain ⟨hs, hlast⟩ := run_voices_round here hn hbound
        exact returns_goto hs (returns_voices hdepth n hlast (Nat.lt_of_succ_lt hbound) hsaved)
    rw [itemsFrom_play.2.2.1]
    by_cases hsounds : Sounds s s.regs.x.toNat
    · obtain ⟨s', hs', hkeeps⟩ := run_updateVoice here (s := { s with
        regs := plain (s.regs.setA (s.cells (33 + s.regs.x.toNat))) }) hx hsaved
      refine returns_call (R := (s' = ·)) hdepth (run_voice_sounds _ _ hx hsaved hsounds) (returns_ret hs' rfl)
        fun _ hdone => ?_
      subst hdone
      exact hnext ((congrArg UInt8.toNat hkeeps.x).trans hn) (hkeeps.saved.trans hsaved)
    · exact returns_congr (run_voice_silent _ _ hx hsounds) (hnext hn hsaved)

/-- A row of every voice is played, from the last one down, and then the voices are updated. -/
theorem returns_rows (hshared : Shared score here here) (hending : score.Ending) (hdepth : depth + 4 ≤ stackLimit) :
    ∀ (n : Nat) {spots : Nat → Spot} {s : State}, s.regs.x.toNat = n → n < voiceCount → Playing score here spots s →
      Returns here depth (itemsFrom "play_rows") s fun _ => True
  | n, spots, s, hn, hbound, h => by
    have hx : s.regs.x.toNat < 3 := hn ▸ hbound
    -- the voices before this one
    have hnext {spots : Nat → Spot} {s : State} (hn : s.regs.x.toNat = n) (h : Playing score here spots s) :
        Returns here depth (play.drop 10 ++ itemsFrom "row") s fun _ => True := by
      cases n with
      | zero =>
        refine returns_congr (run_rows_last _ _ (UInt8.toNat_inj.mp hn)) ?_
        rw [← itemsFrom_play.2.2.1]
        exact returns_voices (by omega) 2 rfl (by decide) h.saved
      | succ n =>
        obtain ⟨hs, hlast⟩ := run_rows_round here hn hbound
        exact returns_goto hs
          (returns_rows hshared hending hdepth n hlast (Nat.lt_of_succ_lt hbound)
            (h.paired.compute (r := plain (s.regs.setX (s.regs.x - 1))) rfl s.page s.page).here)
    have hloaded := h.paired.compute (r := plain (s.regs.setA (s.cells (36 + s.regs.x.toNat)))) rfl s.page s.page
    rw [itemsFrom_play.2.1]
    by_cases hstopped : s.cells (36 + s.regs.x.toNat) = 0
    · have hrow := (returns_row hshared hending (by omega) hloaded.here hx hstopped).both fun _ =>
        both_row hshared (by omega) hloaded hx hstopped
      refine returns_call (by omega) (run_row_plays _ _ hx h.saved hstopped) hrow fun s' hleft => ?_
      obtain ⟨hx', spots', h'⟩ := hleft
      exact hnext ((congrArg UInt8.toNat hx').trans hn) h'.here
    · exact returns_congr (run_row_stopped _ _ hx hstopped) (hnext hn hloaded.here)

/-- **A frame is played to its end.** -/
theorem returns_play (hshared : Shared score here here) (hending : score.Ending) (hdepth : depth + 4 ≤ stackLimit)
    (h : Playing score here spots s) :
    Returns here depth (itemsFrom "play") s fun s' => ∃ spots, Playing score here spots s' := by
  have hreturns : Returns here depth (itemsFrom "play") s fun _ => True := by
    rw [itemsFrom_play.1]
    by_cases hlast : s.cells 61 = 1
    · refine returns_congr (run_play_rows _ _ hlast) ?_
      rw [← itemsFrom_play.2.1]
      exact returns_rows hshared hending hdepth 2 rfl (by decide)
        (h.paired.tick (r := plain ((s.regs.setA (s.cells 60)).setX 2)) rfl).here
    · refine returns_congr (run_play_frame _ _ hlast) ?_
      rw [← itemsFrom_play.2.2.1]
      exact returns_voices (by omega) 2 rfl (by decide) h.saved
  exact (hreturns.both fun _ => both_play hshared hdepth h.paired).mono fun _ hleft =>
    hleft.imp fun _ haligned => haligned.here

end Frames

/-! ## The start of a song -/

section Start

/-- The variables are cleared, from the last one down. -/
theorem returns_clear (hnext : ∀ s : State, Clearing 0 s s →
      Returns here depth (initSong.drop 7 ++ itemsFrom "next_order") s Q) :
    ∀ (n : Nat) {s : State}, s.regs.x.toNat = n → n < 70 → Clearing (n + 1) s s →
      Returns here depth (itemsFrom "init_clear") s Q
  | 0, s, hn, _, h => by
    rw [itemsFrom_init.2.1]
    exact returns_congr (run_clear_last (UInt8.toNat_inj.mp hn)) (hnext _ (h.cleared hn))
  | n + 1, s, hn, hbound, h => by
    obtain ⟨hs, hlast⟩ := run_clear_round here hn hbound
    exact returns_goto hs (returns_clear hnext n hlast (Nat.lt_of_succ_lt hbound) (h.cleared hn))

/-- The voices take their first entries, from the last one down. -/
theorem returns_voicesStart (hshared : Shared score here here) (hdepth : depth + 2 ≤ stackLimit) : ∀ (n : Nat) {s : State},
    s.regs.x.toNat = n → n < voiceCount → Started score here here (n + 1) s s →
      Returns here depth (itemsFrom "init_voice") s fun _ => True
  | n, s, hn, hbound, h => by
    have hx : s.regs.x.toNat < 3 := hn ▸ hbound
    have hlists := led_lists hshared.here hx (hn ▸ h.first n (Nat.lt_succ_self n))
    obtain ⟨s', hs', -⟩ := nextOrder_follows (s := settled (led here s)) hshared.playable hshared.here hx h.saved h.decimal
      hlists
    have hled : Returns here (depth + 2) (itemsFrom "next_order") (led here s) fun _ => True :=
      returns_ret ((@run_settled here (led here s) hx).trans hs') trivial
    rw [itemsFrom_init.2.2]
    have hstarted : Returns here (depth + 2) (itemsFrom "next_order") (led here s) fun s' =>
        Started score here here n s' s' ∧ s'.regs.x.toNat = n := hled.both fun _ => h.led hshared hn hbound
    refine returns_call hdepth (run_lead hx h.saved) hstarted fun s' hdone => ?_
    obtain ⟨h', hn'⟩ := hdone
    have hpred := h'.compute (r := plain (s'.regs.setX (s'.regs.x - 1))) rfl
    cases n with
    | zero => exact returns_ret (run_lead_last _ _ (UInt8.toNat_inj.mp hn') h'.saved) trivial
    | succ n =>
      obtain ⟨hs, hlast⟩ := run_lead_round here hn' hbound
      exact returns_goto hs
        (returns_voicesStart hshared hdepth n hlast (Nat.lt_of_succ_lt hbound) hpred)

/-- **A song is started**, whatever was in the variables. -/
theorem returns_init (hshared : Shared score here here) (hdepth : depth + 2 ≤ stackLimit)
    (hdecimal : s.regs.p.decimal = false) (hsaved : s.saved = []) (hzero : ∀ m, 70 ≤ m → s.cells m = 0) :
    Returns here depth (itemsFrom "init") s fun s' => ∃ spots, Playing score here spots s' := by
  have hreturns : Returns here depth (itemsFrom "init") s fun _ => True := by
    have hcleared : Clearing 70 { s with regs := plain ((s.regs.setA 0).setX 69) }
        { s with regs := plain ((s.regs.setA 0).setX 69) } :=
      ⟨rfl, rfl, hdecimal, ⟨hsaved, hsaved⟩, rfl, fun m hm => ⟨hzero m hm, hzero m hm⟩⟩
    refine returns_congr (run_init here s) (returns_clear (fun s h => ?_) 69 rfl (by decide) hcleared)
    refine returns_congr run_settings ?_
    rw [← itemsFrom_init.2.2]
    exact returns_voicesStart hshared hdepth 2 rfl (by decide) (h.configured hshared.twin)
  exact (hreturns.both fun _ => both_init hshared hdepth rfl hdecimal ⟨hsaved, hsaved⟩ rfl fun m hm =>
    ⟨hzero m hm, hzero m hm⟩).mono fun _ hpaired => ⟨_, hpaired.here⟩

end Start

end Chiptune.Player.Minimal
