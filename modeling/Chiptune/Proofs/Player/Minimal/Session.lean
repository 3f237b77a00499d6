/-
Sessions in which the minimal player plays.

A routine that is called and returns comes to what `exec` says of it, if that is
never stuck (`runRoutine_shows`). So a session shows a state after its program
is loaded, and another one after each frame.
-/
import Chiptune.Proofs.Playback.Frames
import Chiptune.Proofs.Player.Minimal.Simulation
import Chiptune.Proofs.Player.Minimal.Start

namespace Chiptune.Player.Minimal

open Machine Sound Song Playback Playback.Session

variable {here there : Site} {st tt : State} {s s' : Session}

/-! ## Ways into the code -/

/-- A label that is ahead is gone on from. -/
theorem run_seek {l : String} : ∀ {items : List Item}, .label l ∈ items → ∀ st : State,
    run here (some l) items st = run here none (items.dropWhile (· ≠ .label l)) st
  | [], h, _ => by simp at h
  | item :: items, h, st => by
    by_cases hitem : item = .label l
    · subst hitem
      rw [run, if_pos rfl, List.dropWhile_cons_of_neg (by simp)]
      rfl
    · rw [run, if_neg hitem, List.dropWhile_cons_of_pos (by simpa using hitem)]
      exact run_seek ((List.mem_cons.mp h).resolve_left (Ne.symm hitem)) st

/-- The routines that a session calls. -/
inductive Entry where
  | init | play

namespace Entry

/-- Jumps before that to the routine. -/
def index : Entry → Nat
  | init => 0
  | play => 1

/-- Where the jump to the routine is. -/
def offset : Entry → Nat
  | init => 0
  | play => 3

def label : Entry → String
  | init => "init"
  | play => "play"

theorem length_take (e : Entry) : Assembly.length (listing.take e.index) = e.offset := by
  cases e <;> rfl

set_option maxRecDepth 2000 in
/-- The jump leads to the routine. -/
theorem run_eq (e : Entry) (here : Site) (st : State) :
    run here none (listing.drop e.index) st = run here none (itemsFrom e.label) st := by
  cases e with
  | init =>
    have hitems : itemsFrom "init" = (listing.drop 1).dropWhile (· ≠ .label "init") := rfl
    have hseek : run here (some "init") (listing.drop 1) st = _ := run_seek (by decide) st
    exact hseek.trans (by rw [← hitems]; rfl)
  | play =>
    have hitems : itemsFrom "play" = (listing.drop 2).dropWhile (· ≠ .label "play") := rfl
    have hseek : run here (some "play") (listing.drop 2) st = _ := run_seek (by decide) st
    exact hseek.trans (by rw [← hitems]; rfl)

end Entry

/-! ## Calls -/

/-- The bytes that are pushed go on the stack, the last one on top. -/
theorem Shows.pushAll (hhere : here.Stands) : ∀ (bytes : Bytes) {stack : Bytes} {c : Core}, Shows here stack st c →
    stack.length + bytes.length ≤ 255 → Shows here (bytes.reverse ++ stack) st
      { c.writeAll (c.regs.push bytes).stores with regs := (c.regs.push bytes).regs }
  | [], _, _, hs, _ => hs
  | v :: bytes, stack, c, hs, hroom => by
    rw [List.length_cons] at hroom
    have hrest := Shows.pushAll hhere bytes (hs.push hhere (by omega) v) (by rw [List.length_cons]; omega)
    rw [writeAll_withRegs] at hrest
    rw [List.reverse_cons, List.append_assoc]
    exact hrest

/-- The state in which a routine is called. -/
def called (st : State) (a : UInt8) : State := { st with regs := plain { st.regs with a } }

/-- A routine that is called finds the halt address on the stack. -/
theorem shows_calling (hhere : here.Stands) {c : Core} (hs : Shows here [] st c) (hsaved : st.saved = [])
    (entry : UInt16) (a : UInt8) :
    Shows here ((called st a).saved ++ (returnBytes haltAddress ++ [])) (called st a) (c.calling entry a) := by
  have hpushed := hs.pushAll hhere [Word.high (haltAddress - 1), Word.low (haltAddress - 1)] (by decide)
  have hcalled := hpushed.withRegs st.saved
    (r := { (c.regs.push [Word.high (haltAddress - 1), Word.low (haltAddress - 1)]).regs with a, pc := entry })
    (show _ = plain { st.regs with a } by rw [← hs.regs]; rfl) rfl
  rw [show (called st a).saved = [] from hsaved]
  exact hcalled

/-- **A routine that is called and returns** comes to what it means. -/
theorem runRoutine_shows (e : Entry) (hhere : here.Stands) {a : UInt8} {budget cycles : Nat}
    (hs : Shows here [] st s.core) (hsaved : st.saved = [])
    (h : runRoutine (here.address e.offset) a budget s = .ok cycles s')
    (hruns : Runs here 2 (itemsFrom e.label) (called st a)) :
    ∃ fuel st', exec here 2 fuel (itemsFrom e.label) (called st a) = .done st' ∧ st'.saved = [] ∧
      Shows here [] st' s'.core := by
  obtain ⟨_, s₁, hcheck, hrest⟩ := run_bind_eq_ok.mp h
  obtain rfl := checkCancelled_eq_ok hcheck
  obtain ⟨_, s₂, hstart, hrun⟩ := run_bind_eq_ok.mp hrest
  cases hstart
  obtain ⟨⟨n, hreaches⟩, hhalted⟩ := runFor_eq_ok hrun
  have hreaches : Core.Reaches n (s.calling (here.address e.offset) a).core s'.core := hreaches
  rw [core_calling] at hreaches
  obtain ⟨fuel, st', d, j, hexec, hsaved', hs', hpc, -, hd⟩ := exec_sound hhere n hreaches hhalted
    (List.take_append_drop e.index listing).symm (by rw [e.length_take]; rfl)
    (s := called st a) (σ := [])
    (w := haltAddress) (shows_calling hhere hs hsaved _ a) rfl (by decide) fun fuel => by
      rw [exec_congr (e.run_eq here (called st a))]
      exact hruns fuel
  have hd : d = s'.core := hd.eq_of_halted hpc
  subst hd
  rw [exec_congr (e.run_eq here (called st a))] at hexec
  exact ⟨fuel, st', hexec, hsaved', hs'⟩

/-! ## Two runs -/

section Both

variable {depth fuel fuel' : Nat} {items : List Item} {st' tt' : State} {Q : State → State → Prop}

theorem Both.runs (h : ∀ fuel, Both here there depth fuel items st tt Q) :
    Runs here depth items st ∧ Runs there depth items tt := by
  constructor
  · intro fuel hstuck
    have hboth := h fuel
    rw [Both, hstuck] at hboth
    generalize exec there depth fuel items tt = o at hboth
    cases hboth
  · intro fuel hstuck
    have hboth := h fuel
    rw [Both, hstuck] at hboth
    generalize exec here depth fuel items st = o at hboth
    cases hboth

theorem Both.done (h : ∀ fuel, Both here there depth fuel items st tt Q)
    (hs : exec here depth fuel items st = .done st') (ht : exec there depth fuel' items tt = .done tt') : Q st' tt' := by
  have hboth := h (max fuel fuel')
  rw [Both, exec_mono (Nat.le_max_left ..) hs (by simp), exec_mono (Nat.le_max_right ..) ht (by simp)] at hboth
  cases hboth with
  | done hQ => exact hQ

end Both

/-! ## Loading -/

/-- The state before a song is started. -/
def freshState (here : Site) : State where
  regs := plain {}
  cells n := if n < 70 then here.image.read (here.address (variablesAt + n)) else 0
  page z := here.image.read z.toUInt16
  saved := []
  sid := .cleared

theorem shows_fresh (here : Site) (pc : UInt16) :
    Shows here [] (freshState here) ⟨here.image, .cleared, { pc }⟩ := by
  refine ⟨rfl, rfl, fun i b hb => by simp at hb, fun n hn => ?_, fun _ _ => rfl, fun _ _ => rfl, rfl⟩
  exact (if_pos hn).symm

/-- A program that is the player at a site. -/
structure IsProgram (here : Site) (p : Program) : Prop where
  image : p.image = .ok here.image
  init : p.init = here.address 0
  play : p.play = .subroutine (here.address 3)
  song : p.song = 0

theorem loadProgram_shows {p : Program} (hhere : here.Stands) (hp : IsProgram here p) (h : loadProgram p s = .ok () s')
    (hruns : Runs here 2 (itemsFrom "init") (called (freshState here) 0)) :
    ∃ fuel st', exec here 2 fuel (itemsFrom "init") (called (freshState here) 0) = .done st' ∧ st'.saved = [] ∧
      Shows here [] st' s'.core := by
  obtain ⟨s₁, budget, cycles, s₂, hcore, hrun, hcore'⟩ := core_loadProgram hp.play hp.image h
  rw [hp.init, hp.song] at hrun
  have hs : Shows here [] (freshState here) s₁.core := by
    rw [hcore]
    exact shows_fresh here p.init
  rw [hcore']
  exact runRoutine_shows .init hhere hs rfl hrun hruns

theorem playFrame_shows {cycles : Nat} (hhere : here.Stands) (hs : Shows here [] st s.core) (hsaved : st.saved = [])
    (h : playFrame (.subroutine (here.address 3)) s = .ok cycles s')
    (hruns : Runs here 2 (itemsFrom "play") (called st 0)) :
    ∃ fuel st', exec here 2 fuel (itemsFrom "play") (called st 0) = .done st' ∧ st'.saved = [] ∧
      Shows here [] st' s'.core := by
  obtain ⟨s₁, budget, s₂, hcore, hrun, hcore'⟩ := core_playFrame h
  rw [hcore']
  exact runRoutine_shows .play hhere (hcore ▸ hs) hsaved hrun hruns

/-! ## Two players -/

section Together

variable {score : Score} {t t' : Session}

/-- Two sessions in which players are at the same spots of one score. -/
def Together (score : Score) (here there : Site) (s t : Session) : Prop :=
  ∃ st tt spots, Paired score here there spots st tt ∧ Shows here [] st s.core ∧ Shows there [] tt t.core

/-- **Two players start in step.** -/
theorem together_load {p p' : Program} (hshared : Shared score here there) (hhere : here.Stands) (hthere : there.Stands)
    (hp : IsProgram here p) (hp' : IsProgram there p') (h : loadProgram p s = .ok () s')
    (h' : loadProgram p' t = .ok () t') : Together score here there s' t' := by
  have hboth (fuel : Nat) : Both here there 2 fuel (itemsFrom "init") (called (freshState here) 0)
      (called (freshState there) 0) (Paired score here there (firstSpots score)) :=
    both_init hshared (by decide) rfl rfl ⟨rfl, rfl⟩ rfl fun m hm =>
      ⟨if_neg (Nat.not_lt.mpr hm), if_neg (Nat.not_lt.mpr hm)⟩
  obtain ⟨hruns, hruns'⟩ := Both.runs hboth
  obtain ⟨fuel, st', hdone, -, hs'⟩ := loadProgram_shows hhere hp h hruns
  obtain ⟨fuel', tt', hdone', -, ht'⟩ := loadProgram_shows hthere hp' h' hruns'
  exact ⟨st', tt', _, Both.done hboth hdone hdone', hs', ht'⟩

/-- **Two players play a frame in step.** -/
theorem together_playFrame {cycles cycles' : Nat} (hshared : Shared score here there) (hhere : here.Stands)
    (hthere : there.Stands) (htogether : Together score here there s t)
    (h : playFrame (.subroutine (here.address 3)) s = .ok cycles s')
    (h' : playFrame (.subroutine (there.address 3)) t = .ok cycles' t') :
    ∃ st tt, FrameLeft score here there st tt ∧ Shows here [] st s'.core ∧ Shows there [] tt t'.core := by
  obtain ⟨st, tt, spots, hpaired, hs, ht⟩ := htogether
  have hcalled : Paired score here there spots (called st 0) (called tt 0) := by
    have hcompute := hpaired.compute (r := plain { st.regs with a := 0 }) rfl st.page tt.page
    show Paired score here there spots _ { tt with regs := plain { tt.regs with a := 0 } }
    rw [← hpaired.alike.regs]
    exact hcompute
  have hboth (fuel : Nat) : Both here there 2 fuel (itemsFrom "play") (called st 0) (called tt 0)
      (FrameLeft score here there) := both_play hshared (by decide) hcalled
  obtain ⟨hruns, hruns'⟩ := Both.runs hboth
  obtain ⟨fuel, st', hdone, -, hs'⟩ := playFrame_shows hhere hs hpaired.here.saved h hruns
  obtain ⟨fuel', tt', hdone', -, ht'⟩ := playFrame_shows hthere ht hpaired.there.saved h' hruns'
  exact ⟨st', tt', Both.done hboth hdone hdone', hs', ht'⟩

end Together

/-! ## One player -/

section Plays

variable {score : Score}

/-- The player is somewhere in a score. -/
def Plays (score : Score) (here : Site) (c : Core) : Prop :=
  ∃ st spots, Playing score here spots st ∧ Shows here [] st c

theorem Plays.together (h : Plays score here s.core) : Together score here here s s := by
  obtain ⟨st, spots, hplaying, hs⟩ := h
  exact ⟨st, st, spots, ⟨hplaying, hplaying, rfl, rfl, rfl, fun _ _ => rfl⟩, hs, hs⟩

theorem plays_load {p : Program} (hshared : Shared score here here) (hhere : here.Stands) (hp : IsProgram here p)
    (h : loadProgram p s = .ok () s') : Plays score here s'.core := by
  obtain ⟨st, tt, spots, hpaired, hs, -⟩ := together_load hshared hhere hhere hp hp h h
  exact ⟨st, spots, hpaired.here, hs⟩

theorem Plays.playFrame {cycles : Nat} (hshared : Shared score here here) (hhere : here.Stands)
    (hplays : Plays score here s.core) (h : playFrame (.subroutine (here.address 3)) s = .ok cycles s') :
    Plays score here s'.core := by
  obtain ⟨st, tt, ⟨spots, haligned⟩, hs, -⟩ := together_playFrame hshared hhere hhere hplays.together h h
  exact ⟨st, spots, haligned.here, hs⟩

/-- **However many frames are played**, the player is in its score. -/
theorem Plays.playFrames (hshared : Shared score here here) (hhere : here.Stands) : ∀ (n : Nat) {count longest : Nat}
    {counts : Nat × Nat} {s s' : Session}, Plays score here s.core →
      playFrames (.subroutine (here.address 3)) n count longest s = .ok counts s' → Plays score here s'.core
  | 0, _, _, _, _, _, hplays, h => by
    cases h
    exact hplays
  | n + 1, _, _, _, _, _, hplays, h => by
    obtain ⟨cycles, s₁, count', longest', hframe, hrest, -⟩ := playFrames_succ_eq_ok h
    exact Plays.playFrames hshared hhere n (hplays.playFrame hshared hhere hframe) hrest

end Plays

end Chiptune.Player.Minimal
