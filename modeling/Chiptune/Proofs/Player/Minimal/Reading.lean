/-
A row of a voice, as the player plays it.

The routine that takes an order entry does what `Rendition.enter` says, and the
one that reads a row goes on as long as `Rendition.readRow`.
-/
import Chiptune.Proofs.Player.Minimal.Events

namespace Chiptune.Player.Minimal

open Machine Sound Song Music

variable {here : Site} {song : Song} {commands : List Command} {s s' : State} {rest : List Item} {r r' : Rendition}
  {p p' : Part} {v : Voice} {c parameter : UInt8} {e : Event} {events : List Event} {depth : Nat}

/-- A song without faults is in a player that can play it. -/
structure Site.Ready (here : Site) (song : Song) (commands : List Command) : Prop where
  wellFormed : song.WellFormed
  carries : here.Carries song commands
  playable : (scoreOf song commands).Playable
  stored : (scoreOf song commands).Stored here

/-! ## Order entries -/

theorem run_silence (hx : s.regs.x.toNat = v.val) (hsaved : s.saved = [])
    (hoff : (here.byte (9 + v.val)).toNat = 7 * v.val) :
    (run here none silence (stopping s)).2.cells = Function.update (Function.update s.cells (36 + v) 1) (30 + v) 0 ∧
      (run here none silence (stopping s)).2.sid = s.sid.set (.voice v .control) (withoutGate (s.cells (42 + v))) := by
  have hvoice : Voice.ofNat v.val = v := Fin.ext (Nat.mod_eq_of_lt v.isLt)
  constructor <;>
    simp -implicitDefEqProofs [silence, orderStop, stopping, ended, hx, hsaved, hoff, hvoice, withoutGate]

/-- What is encoded of a sequence that there is. -/
theorem sequence_scoreOf {i : UInt8} (hi : i.toNat < song.sequences.length) :
    (scoreOf song commands).sequence i.toNat = encodeSequence commands { events := eventsOf song i } := by
  have hq := List.getElem?_eq_getElem hi
  show ((song.sequences[i.toNat]?).map (encodeSequence commands)).getD [] = _
  rw [eventsOf, hq]
  rfl

theorem in_entered (here : Site) (hx : s.regs.x.toNat = v.val) (hdecimal : s.regs.p.decimal = false) (hpart : p.In v s)
    (position sequence : UInt8) (transpose : Int8) (entry : Nat) (events : List Event) :
    { p with entry, events, transpose }.In v
      (entered here s position (transposeBias + transpose.toUInt8) sequence) := by
  have hvoice : v.val < 3 := v.isLt
  have hsub : transposeBias + transpose.toUInt8 - transposeBias = transpose.toUInt8 := by
    rw [UInt8.add_comm, UInt8.add_sub_cancel]
  have hfst := sub_fst (f := { s.regs.p with carry := true }) rfl hdecimal (transposeBias + transpose.toUInt8)
    transposeBias
  rw [hsub] at hfst
  rw [in_iff] at hpart ⊢
  simp [-transposeBias, entered, hx, hpart, hfst]

/-- **The routine takes an order entry** of a voice. -/
theorem enter_spec (hready : here.Ready song commands) (hx : s.regs.x.toNat = v.val) (hsaved : s.saved = [])
    (hdecimal : s.regs.p.decimal = false) (hcommon : r.Common s) (hpart : (r.part v).In v s)
    (hlists : Lists (scoreOf song commands) here s v (r.part v).entry) :
    ∃ s', run here none (itemsFrom "next_order") s = (.ret, s') ∧ Keeps (orderCells v) s s' ∧
      ((r.enter song v).part v).In v s' ∧ ((r.enter song v).part v).At song commands here v s' ∧
      (r.enter song v).Common s' := by
  have hvoice : v.val < 3 := v.isLt
  have hlt : s.regs.x.toNat < 3 := hx ▸ v.isLt
  rw [← hx] at hlists
  have hrun := run_nextOrder hready.playable hready.stored hlt hsaved hdecimal hlists
  obtain ⟨s', hs', hkeeps, hfollows⟩ := nextOrder_follows hready.playable hready.stored hlt hsaved hdecimal hlists
  rw [hx] at hkeeps hfollows hrun
  have hlist : (scoreOf song commands).list v = orderListOf song v := rfl
  have hshared {n : Nat} (hn : 60 ≤ n) : s'.cells n = s.cells n := hkeeps.cells n (by
    simp only [orderCells, List.mem_cons, List.not_mem_nil, or_false]
    omega)
  have hsame (r : Rendition) (p : Part) : (r.withPart v p).part v = p := Rendition.part_withPart ..
  refine ⟨s', hs', hkeeps, ?_⟩
  unfold Rendition.enter
  rw [← hlist]
  dsimp only
  cases hnext : nextEntry? ((scoreOf song commands).list v) (r.part v).entry with
  | some k =>
    rw [hnext] at hrun
    obtain ⟨e, he, hrun⟩ := hrun
    cases hs'.symm.trans hrun
    have hknown : e.sequence.toNat < song.sequences.length := hready.playable.known v v.isLt e (List.mem_of_getElem? he)
    rw [nextSpot_some hnext he] at hfollows
    simp only [he, Option.getD_some, hsame]
    have hin := in_entered here hx hdecimal hpart (UInt8.ofNat (2 * k)) e.sequence e.transpose (k + 1)
      (eventsOf song e.sequence)
    refine ⟨hin, ⟨hfollows.lists, fun hgoes => ?_⟩, hcommon.congr (fun n hn => hshared hn) hcommon.sid rfl rfl rfl rfl⟩
    have hstopped := hin.stopped
    rw [show (r.part v).stopped = false from hgoes] at hstopped
    obtain ⟨hword, hhas, -⟩ := hfollows.sequence hstopped
    rw [sequence_scoreOf hknown] at hhas
    exact ⟨_, hword, hhas⟩
  | none =>
    rw [hnext] at hrun
    cases hs'.symm.trans hrun
    obtain ⟨hcells, hsid⟩ := run_silence hx hsaved (hready.carries.voiceOff v.val v.isLt)
    rw [nextSpot_none hnext] at hfollows
    simp only [hsame]
    refine ⟨?_, ⟨hfollows.lists, fun hgoes => by cases hgoes⟩,
      hcommon.congr (fun n hn => hshared hn) ?_ rfl rfl rfl rfl⟩
    · rw [in_iff] at hpart ⊢
      rw [hcells]
      simp [hpart]
    · rw [hsid, hcommon.sid, hpart.control]
      rfl

/-- An order entry is of no consequence to the other voices. -/
theorem part_enter_of_ne {u : Voice} (hu : u ≠ v) : (r.enter song v).part u = r.part u := by
  unfold Rendition.enter
  dsimp only
  split <;> exact Function.update_of_ne hu ..

theorem orderCells_voice {n : Nat} (hn : n ∈ orderCells v.val) : n < 60 ∧ n % 3 = v := by
  have hvoice : v.val < 3 := v.isLt
  simp only [orderCells, List.mem_cons, List.not_mem_nil, or_false] at hn
  omega

theorem tracks_enter (hready : here.Ready song commands) (h : Tracks song commands here r s)
    (hx : s.regs.x.toNat = v.val) :
    ∃ s', run here none (itemsFrom "next_order") s = (.ret, s') ∧ s'.regs.x = s.regs.x ∧
      Tracks song commands here (r.enter song v) s' := by
  obtain ⟨s', hs', hkeeps, hpart, hplace, hcommon⟩ := enter_spec hready hx h.saved h.decimal h.common (h.parts v)
    (h.places v).lists
  exact ⟨s', hs', hkeeps.x, h.step v hkeeps (fun n hn _ => (orderCells_voice hn).2) (fun u hu => part_enter_of_ne hu)
    hpart hplace hcommon⟩

/-! ## Events -/

/-- An event that takes no row leaves a voice where it is. -/
theorem events_playEvent (r : Rendition) (he : takesRow e = false) :
    ((r.playEvent song v e).part v).events = (r.part v).events ∧
      ((r.playEvent song v e).part v).stopped = (r.part v).stopped := by
  cases e with
  | noteOn | noteOff | rest => cases he
  | setCommand c => exact ⟨congrArg (fun parts => (parts v).events) (runCommand_part r v c),
      congrArg (fun parts => (parts v).stopped) (runCommand_part r v c)⟩
  | tie | setInstrument =>
    rw [Rendition.playEvent, Rendition.part_withPart]
    exact ⟨rfl, rfl⟩

/-- The voice has read an event. -/
def Rendition.read (r : Rendition) (v : Voice) (events : List Event) : Rendition := r.withPart v { r.part v with events }

/-- A row is read event by event. -/
theorem readRow_cons {sequences : Nat} (hevents : (r.part v).events = e :: events) :
    r.readRow song v (sequences + 1) =
      if takesRow e then some ((r.read v events).playEvent song v e)
      else ((r.read v events).playEvent song v e).readRow song v (sequences + 1) := by
  rw [Rendition.readRow, hevents, Rendition.playEvents]
  dsimp only
  cases he : takesRow e with
  | true => rfl
  | false =>
    have hread : (((r.read v events).playEvent song v e).part v).events = events := by
      rw [(events_playEvent _ he).1, Rendition.read, Rendition.part_withPart]
    rw [if_neg (by decide), if_neg (by decide), Rendition.readRow, hread]
    rfl

/-- Where a voice has read an event that is no note, and goes on to what it does. -/
theorem tracks_read (h : Tracks song commands here r s) (hx : s.regs.x.toNat = v.val) (hgoes : (r.part v).stopped = false)
    (hevents : (r.part v).events = e :: events) (hknown : ∀ c, e = .setCommand c → c ∈ commands) :
    ∃ c parameter, encodeEvent commands e = [c, parameter] ∧
      (c ≠ 0x7F → c ≠ 0 → ∃ s₁, s₁.regs = classed s.regs c ∧ s₁.cells 64 = parameter ∧
        Tracks song commands here (r.read v events) s₁ ∧
        run here none (itemsFrom "row_read") s = (run here none (rowEvents.drop 6) s₁).1.leadsOn here
          (noteOn ++ (noteEnvelope ++ afterRow)) (run here none (rowEvents.drop 6) s₁).2) ∧
      (c = 0 → ∃ s₁, s₁.regs = noted s.regs parameter ∧ Tracks song commands here (r.read v events) s₁ ∧
        run here none (itemsFrom "row_read") s = run here none (noteOn.drop 3 ++ noteEnvelope ++ afterRow) s₁) := by
  have hlt : s.regs.x.toNat < 3 := hx ▸ v.isLt
  obtain ⟨c, parameter, he, hsequence⟩ := encodeSequence_cons events hknown
  rw [← hevents] at hsequence
  obtain ⟨pointer, hpointer, hclass, hparameter⟩ := h.reads hx hgoes hsequence
  refine ⟨c, parameter, he, fun hfinish hnote => ?_, fun hnote => ?_⟩
  · have hrun := run_row_event here (noteOn ++ (noteEnvelope ++ afterRow)) hlt h.saved h.decimal hpointer hclass hfinish
      hnote hparameter
    rw [← itemsFrom_row.2.1, run_leadsOn] at hrun
    exact ⟨_, rfl, advanced_parameter s parameter hlt,
      h.advance hx hgoes hsequence (classed s.regs c) rfl rfl (pointed s), hrun⟩
  · subst hnote
    have hrun := run_row_note here (noteEnvelope ++ afterRow) hlt h.saved h.decimal hpointer hclass hparameter
    rw [← itemsFrom_row.2.1, ← List.append_assoc] at hrun
    exact ⟨_, rfl, h.advance hx hgoes hsequence (noted s.regs parameter) rfl rfl (pointed s), hrun⟩

/-- **What is done for an event** that is neither a note nor a command: it sets one variable of its voice. -/
theorem tracks_event {regs : Registers} (h : Tracks song commands here r s) (hx : s.regs.x.toNat = v.val)
    (hregs : s.regs = classed regs c) (hparameter : s.cells 64 = parameter)
    (he : encodeEvent commands e = [c, parameter]) (hnote : ∀ pitch, e ≠ .noteOn pitch)
    (hcommand : ∀ command, e ≠ .setCommand command) :
    (run here none (rowEvents.drop 6) s).1 = (if takesRow e then .ret else .goto "row_read") ∧
      (run here none (rowEvents.drop 6) s).2.regs.x = s.regs.x ∧
      Tracks song commands here (r.playEvent song v e) (run here none (rowEvents.drop 6) s).2 := by
  have hp := in_iff.mp (h.parts v)
  cases e with
  | noteOn pitch => exact absurd rfl (hnote pitch)
  | setCommand command => exact absurd rfl (hcommand command)
  | noteOff =>
    cases he
    obtain ⟨hway, hcells, hsid⟩ := run_noteOff here hx h.saved (by rw [hregs]; rfl)
    have hpart : Part.In { r.part v with gate := false } v (run here none (rowEvents.drop 6) s).2 := by
      rw [in_iff, hcells]
      simp [hp]
    exact ⟨hway, h.set local_events hx (by decide) hcells hsid hpart rfl rfl rfl⟩
  | rest rows =>
    cases he
    obtain ⟨hway, hcells, hsid⟩ := run_rest here hx h.saved (by rw [hregs]; rfl) (by rw [hregs]; rfl)
    have hpart : Part.In { r.part v with wait := parameter - 1 } v (run here none (rowEvents.drop 6) s).2 := by
      rw [in_iff, hcells]
      simp [hp, hparameter]
    exact ⟨hway, h.set local_events hx (by decide) hcells hsid hpart rfl rfl rfl⟩
  | tie =>
    cases he
    obtain ⟨hway, hcells, hsid⟩ := run_tie here hx h.saved (by rw [hregs]; rfl) (by rw [hregs]; rfl)
    have hpart : Part.In { r.part v with tied := true } v (run here none (rowEvents.drop 6) s).2 := by
      rw [in_iff, hcells]
      simp [hp]
    exact ⟨hway, h.set local_events hx (by decide) hcells hsid hpart rfl rfl rfl⟩
  | setInstrument id =>
    cases he
    obtain ⟨hway, hcells, hsid⟩ := run_instrument here hx h.saved (by rw [hregs]; rfl) (by rw [hregs]; rfl)
    have hpart : Part.In { r.part v with instrument := parameter } v (run here none (rowEvents.drop 6) s).2 := by
      rw [in_iff, hcells]
      simp [hp, hparameter]
    exact ⟨hway, h.set local_events hx (by decide) hcells hsid hpart rfl rfl rfl⟩

section Row

variable {fuel : Nat} {Q : State → Prop}

theorem read_behind : .label "row_read" ∉ noteOn ++ (noteEnvelope ++ afterRow) := by
  rw [← List.append_assoc]
  exact rowRead_behind.2.1

section Events

variable (hready : here.Ready song commands) (h : Tracks song commands here r s) (hx : s.regs.x.toNat = v.val)
  (hgoes : (r.part v).stopped = false) (hvalid : r.Valid song)

include hready hvalid

theorem known_event (hevents : (r.part v).events = e :: events) : ∀ c, e = .setCommand c → c ∈ commands := fun c he =>
  hready.carries.known c (he ▸ (hvalid.part v).events e (by rw [hevents]; exact List.mem_cons_self))

include h hx hgoes

theorem comes_note {pitch : UInt8} (hevents : (r.part v).events = .noteOn pitch :: events)
    (hret : ∀ s', s'.regs.x = s.regs.x → Tracks song commands here ((r.read v events).playEvent song v (.noteOn pitch)) s' →
      Q s') :
    Comes here depth fuel (itemsFrom "row_read") s Q := by
  obtain ⟨c, parameter, he, -, hnote⟩ := tracks_read h hx hgoes hevents (known_event hready hvalid hevents)
  cases he
  obtain ⟨s₁, hregs, h₁, hrun⟩ := hnote rfl
  have hplayed : Part.Valid song v ((r.read v events).part v) := by
    rw [Rendition.read, Rendition.part_withPart]
    exact { hvalid.part v with events := fun e he => (hvalid.part v).events e (by rw [hevents]; exact .tail _ he) }
  obtain ⟨s', hs', hx', h'⟩ := tracks_note hready.carries hready.wellFormed h₁ (by rw [hregs]; exact hx) hplayed
    (by rw [hregs]) (by rw [hregs]; rfl) afterRow
  exact comes_ret (hrun.trans hs') (hret s' (by rw [hx', hregs]; rfl) h')

theorem comes_command (hdepth : depth + 2 ≤ stackLimit) {command : Command}
    (hevents : (r.part v).events = .setCommand command :: events)
    (hloop : ∀ fuel' < fuel, ∀ s', s'.regs.x = s.regs.x →
      Tracks song commands here ((r.read v events).playEvent song v (.setCommand command)) s' →
        Comes here depth fuel' (itemsFrom "row_read") s' Q) :
    Comes here depth fuel (itemsFrom "row_read") s Q := by
  have hknown := known_event hready hvalid hevents
  obtain ⟨c, parameter, he, hother, -⟩ := tracks_read h hx hgoes hevents hknown
  obtain ⟨index, hindex⟩ := Option.isSome_iff_exists.mp (List.isSome_idxOf?.mpr (hknown command rfl))
  rw [encodeEvent, hindex] at he
  cases he
  obtain ⟨s₁, hregs, hparameter, h₁, hrun⟩ := hother (by decide) (by decide)
  have hx₁ : s₁.regs.x.toNat = v.val := by rw [hregs]; exact hx
  obtain ⟨hway, hcells, hsid⟩ := run_toCommand here hx₁ h₁.saved (by rw [hregs]; rfl) (by rw [hregs]; rfl)
  have hlt : s₁.regs.x.toNat < 3 := hx₁ ▸ v.isLt
  have hkeeps := (run_steady here (rowEvents.drop 6) none local_events.1 (.of_lt hlt) h₁.saved).2
  have h₂ : Tracks song commands here (r.read v events) (run here none (rowEvents.drop 6) s₁).2 :=
    (h₁.block local_events hx₁ (fun u _ => rfl) (by rw [in_iff, hcells]; exact in_iff.mp (h₁.parts v)) rfl rfl rfl
      (h₁.common.congr (fun n _ => by rw [hcells]) (hsid.trans h₁.common.sid) rfl rfl rfl rfl)).2
  rw [hway] at hrun
  refine comes_call (R := fun s' => s'.regs.x = s.regs.x ∧
    Tracks song commands here ((r.read v events).playEvent song v (.setCommand command)) s') hdepth hrun
      (fun fuel' _ => ?_) fun fuel' hfuel s'' hdone => ?_
  · obtain ⟨s', hs', hx', h'⟩ := tracks_command hready.carries h₂ (by rw [hkeeps.x]; exact hx₁)
      (getElem?_of_idxOf? hindex) (by rw [hcells, hparameter])
    exact comes_ret hs' ⟨by rw [hx', hkeeps.x, hregs]; rfl, h'⟩
  · exact comes_goto (run_goto (s := s'') read_behind) fun fuel'' hfuel' =>
      hloop fuel'' (Nat.lt_trans hfuel' hfuel) s'' hdone.1 hdone.2

/-- **An event is played**: the row is over then, or goes on. -/
theorem comes_event (hdepth : depth + 2 ≤ stackLimit) (hevents : (r.part v).events = e :: events)
    (hret : takesRow e = true → ∀ s', s'.regs.x = s.regs.x →
      Tracks song commands here ((r.read v events).playEvent song v e) s' → Q s')
    (hloop : takesRow e = false → ∀ fuel' < fuel, ∀ s', s'.regs.x = s.regs.x →
      Tracks song commands here ((r.read v events).playEvent song v e) s' →
        Comes here depth fuel' (itemsFrom "row_read") s' Q) :
    Comes here depth fuel (itemsFrom "row_read") s Q := by
  have hplain (hnote : ∀ pitch, e ≠ .noteOn pitch) (hcommand : ∀ command, e ≠ .setCommand command) :
      Comes here depth fuel (itemsFrom "row_read") s Q := by
    obtain ⟨c, parameter, he, hother, -⟩ := tracks_read h hx hgoes hevents (known_event hready hvalid hevents)
    have hclass : c ≠ 0x7F ∧ c ≠ 0 := by
      cases e with
      | noteOn pitch => exact absurd rfl (hnote pitch)
      | setCommand command => exact absurd rfl (hcommand command)
      | _ =>
        cases he
        decide
    obtain ⟨s₁, hregs, hparameter, h₁, hrun⟩ := hother hclass.1 hclass.2
    obtain ⟨hway, hx', h'⟩ := tracks_event h₁ (by rw [hregs]; exact hx) hregs hparameter he hnote hcommand
    rw [hregs] at hx'
    cases htakes : takesRow e with
    | true =>
      rw [hway, htakes, if_pos rfl] at hrun
      exact comes_ret hrun (hret htakes _ hx' h')
    | false =>
      rw [hway, htakes, if_neg (by decide)] at hrun
      exact comes_goto (hrun.trans (run_goto read_behind)) fun fuel' hfuel => hloop htakes fuel' hfuel _ hx' h'
  cases e with
  | noteOn pitch => exact comes_note hready h hx hgoes hvalid hevents (hret rfl)
  | setCommand command => exact comes_command hready h hx hgoes hvalid hdepth hevents (hloop rfl)
  | _ => exact hplain (fun _ h => by cases h) fun _ h => by cases h

end Events

/-- At the end of a sequence the next order entry is taken, which may stop the voice. -/
theorem comes_finish (hready : here.Ready song commands) (hdepth : depth + 2 ≤ stackLimit)
    (h : Tracks song commands here r s) (hx : s.regs.x.toNat = v.val) (hgoes : (r.part v).stopped = false)
    (hevents : (r.part v).events = [])
    (hret : ((r.enter song v).part v).stopped = true → ∀ s', s'.regs.x = s.regs.x →
      Tracks song commands here (r.enter song v) s' → Q s')
    (hloop : ((r.enter song v).part v).stopped = false → ∀ fuel' < fuel, ∀ s', s'.regs.x = s.regs.x →
      Tracks song commands here (r.enter song v) s' → Comes here depth fuel' (itemsFrom "row_read") s' Q) :
    Comes here depth fuel (itemsFrom "row_read") s Q := by
  have hlt : s.regs.x.toNat < 3 := hx ▸ v.isLt
  have hbytes : encodeSequence commands { events := (r.part v).events } = [0x7F, 0] := by
    rw [hevents]
    rfl
  obtain ⟨pointer, hpointer, hmark, -⟩ := h.reads hx hgoes hbytes
  have hrun := run_row_finish here (rowEvents ++ (noteOn ++ (noteEnvelope ++ afterRow))) hlt h.saved hpointer hmark
  rw [← itemsFrom_row.2.1] at hrun
  have h₁ := h.compute (marked s.regs) (pointed s) rfl
  refine comes_call (R := fun s' => s'.regs.x = s.regs.x ∧ Tracks song commands here (r.enter song v) s') hdepth hrun
    (fun fuel' _ => ?_) fun fuel' hfuel s' hdone => ?_
  · obtain ⟨s', hs', hx', h'⟩ := tracks_enter hready h₁ hx
    exact comes_ret hs' ⟨hx', h'⟩
  · obtain ⟨hx', h'⟩ := hdone
    have hv' : s'.regs.x.toNat = v.val := by rw [hx', hx]
    have hordered := run_ordered here (rowEvents ++ (noteOn ++ (noteEnvelope ++ afterRow))) (hv' ▸ v.isLt) h'.saved
    have hflag := (h'.parts v).stopped
    have h'' := h'.compute (plain (s'.regs.setA (s'.cells (36 + s'.regs.x.toNat)))) s'.page rfl
    rw [hv', hflag] at hordered h''
    cases hstopped : ((r.enter song v).part v).stopped with
    | true =>
      rw [hstopped] at hordered h''
      rw [if_neg (by decide)] at hordered
      exact comes_ret hordered (hret hstopped _ hx' h'')
    | false =>
      rw [hstopped] at hordered h''
      rw [if_pos (by rfl)] at hordered
      exact comes_goto (hordered.trans (run_goto rowRead_behind.2.2)) fun fuel'' hfuel' =>
        hloop hstopped fuel'' (Nat.lt_trans hfuel' hfuel) _ hx' h''

/-- **A row is read.** The induction is on the fuel, of which every jump back takes some. -/
theorem comes_readRow (hready : here.Ready song commands) (hdepth : depth + 2 ≤ stackLimit) : ∀ (fuel : Nat)
    {r : Rendition} {s : State} {sequences : Nat}, Tracks song commands here r s → s.regs.x.toNat = v.val →
      (r.part v).stopped = false → r.Valid song → r.readRow song v sequences = some r' →
      Comes here depth fuel (itemsFrom "row_read") s fun s' =>
        s'.regs.x.toNat = v.val ∧ Tracks song commands here r' s' := by
  intro fuel
  induction fuel using Nat.strongRecOn with
  | ind fuel ih =>
    intro r s sequences h hx hgoes hvalid hread
    cases sequences with
    | zero => cases hread
    | succ sequences =>
      cases hevents : (r.part v).events with
      | nil =>
        have hnext : r.readRow song v (sequences + 1) = if ((r.enter song v).part v).stopped then some (r.enter song v)
            else (r.enter song v).readRow song v sequences := by
          rw [Rendition.readRow, hevents]
          rfl
        rw [hnext] at hread
        refine comes_finish hready hdepth h hx hgoes hevents (fun hstopped s' hx' h' => ?_)
          fun hstopped fuel' hfuel s' hx' h' => ?_
        · rw [if_pos hstopped] at hread
          cases hread
          exact ⟨by rw [hx', hx], h'⟩
        · rw [hstopped, if_neg (by decide)] at hread
          exact ih fuel' hfuel h' (by rw [hx', hx]) hstopped (hvalid.enter hready.wellFormed) hread
      | cons e events =>
        have hmem : e ∈ song.events := (hvalid.part v).events e (by rw [hevents]; exact List.mem_cons_self)
        have hread₁ : (r.read v events).Valid song :=
          hvalid.withPart { hvalid.part v with
            events := fun e he => (hvalid.part v).events e (by rw [hevents]; exact .tail _ he) }
        rw [readRow_cons hevents] at hread
        refine comes_event hready h hx hgoes hvalid hdepth hevents (fun htakes s' hx' h' => ?_)
          fun htakes fuel' hfuel s' hx' h' => ?_
        · rw [if_pos htakes] at hread
          cases hread
          exact ⟨by rw [hx', hx], h'⟩
        · rw [htakes, if_neg (by decide)] at hread
          refine ih fuel' hfuel h' (by rw [hx', hx]) ?_ (hread₁.playEvent hready.wellFormed hmem) hread
          rw [(events_playEvent _ htakes).2, Rendition.read, Rendition.part_withPart]
          exact hgoes

set_option maxRecDepth 2000 in
theorem local_waiting : Local (row.take 5) := by decide

theorem run_waiting (here : Site) (hx : s.regs.x.toNat = v.val) (hsaved : s.saved = []) :
    (run here none (row.take 5) s).1 = (if s.cells (18 + v) = 0 then .goto "row_read" else .ret) ∧
    (run here none (row.take 5) s).2.cells =
      (if s.cells (18 + v) = 0 then s.cells else Function.update s.cells (18 + v) (s.cells (18 + v) - 1)) ∧
    (run here none (row.take 5) s).2.sid = s.sid := by
  by_cases hwait : s.cells (18 + v) = 0
  all_goals refine ⟨?_, ?_, ?_⟩ <;> simp -implicitDefEqProofs [row, hx, hsaved, hwait]

/-- **A row of a voice is played**: it rests, or reads. -/
theorem comes_row (hready : here.Ready song commands) (hdepth : depth + 2 ≤ stackLimit)
    (h : Tracks song commands here r s) (hx : s.regs.x.toNat = v.val) (hgoes : (r.part v).stopped = false)
    (hvalid : r.Valid song) (hrow : r.playRow song v = some r') :
    Comes here depth fuel (itemsFrom "row") s fun s' => s'.regs.x.toNat = v.val ∧ Tracks song commands here r' s' := by
  have hlt : s.regs.x.toNat < 3 := hx ▸ v.isLt
  have hp := in_iff.mp (h.parts v)
  obtain ⟨hway, hcells, hsid⟩ := run_waiting here hx h.saved
  rw [(h.parts v).wait] at hway hcells
  unfold Rendition.playRow at hrow
  dsimp only at hrow
  rw [if_neg (by rw [hgoes]; decide)] at hrow
  rw [itemsFrom_row.1]
  by_cases hwait : (r.part v).wait = 0
  · rw [if_pos hwait] at hway hcells hrow
    obtain ⟨hx', h'⟩ := h.block local_waiting hx (fun u _ => rfl) (by rw [in_iff, hcells]; exact hp) rfl rfl rfl
      (h.common.congr (fun n _ => by rw [hcells]) (hsid.trans h.common.sid) rfl rfl rfl rfl)
    refine comes_congr ?_ (comes_readRow hready hdepth fuel h' (by rw [hx', hx]) hgoes hvalid hrow)
    rw [run_goto_append hway, itemsFrom_row.2.1]
    rfl
  · rw [if_neg hwait] at hway hcells hrow
    cases hrow
    have hpart : Part.In { r.part v with wait := (r.part v).wait - 1 } v (run here none (row.take 5) s).2 := by
      rw [in_iff, hcells]
      simp [hp]
    obtain ⟨hx', h'⟩ := h.set local_waiting hx (by decide) hcells hsid hpart rfl rfl rfl
    refine comes_ret ?_ ⟨by rw [hx', hx], h'⟩
    rw [run_leadsOn, hway]
    rfl

end Row

end Chiptune.Player.Minimal
