/-
What the player's variables have of a rendition, and the programs it steps.

The variables of a voice are those of its part (`Part.In`), and lead to where
it is in the music (`Part.At`). A state in which this is so of every voice, and
of the rest, tracks the rendition (`Tracks`); the update of a voice and the
filter keep it.
-/
import Chiptune.Proofs.Player.Minimal.Carried
import Chiptune.Proofs.Player.Minimal.Endless
import Chiptune.Proofs.Player.Minimal.Image
import Chiptune.Proofs.Player.Minimal.Play

namespace Chiptune.Player.Minimal

open Machine Sound Song Music

variable {here : Site} {song : Song} {commands : List Command} {s s' : State} {rest : List Item} {r r' : Rendition}
  {p p' : Part} {v : Voice}

/-! ## Variables -/

/-- A truth value as a variable has it. -/
def flag (b : Bool) : UInt8 := if b then 1 else 0

@[simp] theorem flag_true : flag true = 1 := rfl
@[simp] theorem flag_false : flag false = 0 := rfl

@[simp] theorem flag_eq_zero {b : Bool} : flag b = 0 ↔ b = false := by
  cases b <;> decide

/-- The variables of a voice are those of its part. -/
structure Part.In (p : Part) (v : Nat) (s : State) : Prop where
  transpose : s.cells (15 + v) = p.transpose.toUInt8
  wait : s.cells (18 + v) = p.wait
  note : s.cells (21 + v) = p.note
  instrument : s.cells (24 + v) = p.instrument
  tied : s.cells (27 + v) = flag p.tied
  gate : s.cells (30 + v) = flag p.gate
  active : s.cells (33 + v) = flag p.active
  stopped : s.cells (36 + v) = flag p.stopped
  wave : s.cells (39 + v) = p.wave
  control : s.cells (42 + v) = p.control
  offset : s.cells (45 + v) = p.offset
  pulse : s.cells (48 + v) = p.pulse.getD Rows.noProgram
  hold : s.cells (51 + v) = p.hold
  pulseLo : s.cells (54 + v) = p.pulseLo
  pulseHi : s.cells (57 + v) = p.pulseHi

theorem Part.In.congr {v : Nat} (h : p.In v s) (hcells : ∀ n, 15 ≤ n → n < 60 → n % 3 = v % 3 → s'.cells n = s.cells n)
    (hv : v < voiceCount) : p.In v s' := by
  have hvoices : voiceCount = 3 := rfl
  have hcell {n : Nat} {b : UInt8} (hn : 5 ≤ n ∧ n < 20) (hb : s.cells (3 * n + v) = b) : s'.cells (3 * n + v) = b := by
    rw [hcells _ (by omega) (by omega) (by omega), hb]
  exact ⟨hcell (n := 5) (by decide) h.transpose, hcell (n := 6) (by decide) h.wait, hcell (n := 7) (by decide) h.note,
    hcell (n := 8) (by decide) h.instrument, hcell (n := 9) (by decide) h.tied, hcell (n := 10) (by decide) h.gate,
    hcell (n := 11) (by decide) h.active, hcell (n := 12) (by decide) h.stopped, hcell (n := 13) (by decide) h.wave,
    hcell (n := 14) (by decide) h.control, hcell (n := 15) (by decide) h.offset, hcell (n := 16) (by decide) h.pulse,
    hcell (n := 17) (by decide) h.hold, hcell (n := 18) (by decide) h.pulseLo, hcell (n := 19) (by decide) h.pulseHi⟩

/-- The variables of a voice lead to where its part is in the music. -/
structure Part.At (song : Song) (commands : List Command) (here : Site) (p : Part) (v : Nat) (s : State) : Prop where
  lists : Lists (scoreOf song commands) here s v p.entry
  /-- A voice that has stopped reads no sequence. -/
  sequence : p.stopped = false → ∃ offset, Word.ofBytes (s.cells (9 + v)) (s.cells (12 + v)) = here.address offset ∧
    here.Has offset (encodeSequence commands { events := p.events })

theorem Part.At.congr {v : Nat} (h : p.At song commands here v s) (hcells : ∀ n < 15, n % 3 = v % 3 → s'.cells n = s.cells n)
    (hv : v < voiceCount) : p.At song commands here v s' := by
  have hvoices : voiceCount = 3 := rfl
  refine ⟨h.lists.congr fun n hn => hcells n ?_ ?_, fun hstopped => ?_⟩
  · simp only [List.mem_cons, List.not_mem_nil, or_false] at hn
    omega
  · simp only [List.mem_cons, List.not_mem_nil, or_false] at hn
    omega
  · rw [hcells _ (by omega) (by omega), hcells _ (by omega) (by omega)]
    exact h.sequence hstopped

/-- Another part at the same place. -/
theorem Part.At.moved {v : Nat} (h : p.At song commands here v s) (hentry : p'.entry = p.entry)
    (hevents : p'.events = p.events) (hstopped : p'.stopped = p.stopped) : p'.At song commands here v s := by
  refine ⟨hentry ▸ h.lists, fun hgoes => ?_⟩
  rw [hevents]
  exact h.sequence (hstopped ▸ hgoes)

/-- A block that moves no voice leaves it where it is. -/
theorem Part.At.keeps {v : Nat} {changed : List Nat} (h : p.At song commands here v s) (hkeeps : Keeps changed s s')
    (hchanged : ∀ n ∈ changed, 15 ≤ n) (hv : v < voiceCount) (hentry : p'.entry = p.entry) (hevents : p'.events = p.events)
    (hstopped : p'.stopped = p.stopped) : p'.At song commands here v s' := by
  refine (h.congr (fun n hn _ => hkeeps.cells n fun hmem => ?_) hv).moved hentry hevents hstopped
  have := hchanged n hmem
  omega

/-! ## Renditions -/

/-- The chip and the variables that the voices share are those of the rendition. -/
structure Rendition.Common (r : Rendition) (s : State) : Prop where
  sid : s.sid = r.bank
  tempo : s.cells 60 = r.tempo
  tick : s.cells 61 = r.tick
  filter : s.cells 62 = r.filter.getD Rows.noProgram
  modeVolume : s.cells 63 = r.modeVolume

/-- A block that changes none of these variables. -/
theorem Rendition.Common.keeps {changed : List Nat} (h : r.Common s) (hkeeps : Keeps changed s s')
    (hchanged : ∀ n ∈ changed, n < 60 ∨ 63 < n) (hsid : s'.sid = r'.bank) (htempo : r'.tempo = r.tempo)
    (htick : r'.tick = r.tick) (hfilter : r'.filter = r.filter) (hmodeVolume : r'.modeVolume = r.modeVolume) :
    r'.Common s' := by
  have hcell {n : Nat} (hn : 60 ≤ n ∧ n ≤ 63) : s'.cells n = s.cells n := hkeeps.cells n fun hmem => by
    have := hchanged n hmem
    omega
  refine ⟨hsid, ?_, ?_, ?_, ?_⟩
  · rw [hcell (by decide), h.tempo, htempo]
  · rw [hcell (by decide), h.tick, htick]
  · rw [hcell (by decide), h.filter, hfilter]
  · rw [hcell (by decide), h.modeVolume, hmodeVolume]

/-- **A state of the player that shows a rendition.** -/
structure Tracks (song : Song) (commands : List Command) (here : Site) (r : Rendition) (s : State) : Prop where
  saved : s.saved = []
  decimal : s.regs.p.decimal = false
  common : r.Common s
  parts : ∀ v : Voice, (r.part v).In v s
  places : ∀ v : Voice, (r.part v).At song commands here v s

namespace Tracks

/-- Registers and pointers show nothing of a rendition. -/
theorem compute (h : Tracks song commands here r s) (regs : Registers) (page : UInt8 → UInt8)
    (hdecimal : regs.p.decimal = s.regs.p.decimal) : Tracks song commands here r { s with regs, page } :=
  ⟨h.saved, hdecimal.trans h.decimal, ⟨h.common.sid, h.common.tempo, h.common.tick, h.common.filter, h.common.modeVolume⟩,
    fun v => (h.parts v).congr (fun _ _ _ _ => rfl) v.isLt, fun v => (h.places v).congr (fun _ _ _ => rfl) v.isLt⟩

/-- What is done for one voice says nothing of the others. -/
theorem step {changed : List Nat} (h : Tracks song commands here r s) (v : Voice) (hkeeps : Keeps changed s s')
    (hchanged : ∀ n ∈ changed, n < 60 → n % 3 = v) (hparts : ∀ u, u ≠ v → r'.part u = r.part u)
    (hpart : (r'.part v).In v s') (hplace : (r'.part v).At song commands here v s') (hcommon : r'.Common s') :
    Tracks song commands here r' s' := by
  have hother {u : Voice} (hu : u ≠ v) {n : Nat} (hn : n < 60) (hvoice : n % 3 = u.val % 3) : s'.cells n = s.cells n := by
    refine hkeeps.cells n fun hmem => hu (Fin.ext ?_)
    have hlt : u.val < 3 := u.isLt
    have := hchanged n hmem hn
    omega
  refine ⟨hkeeps.saved.trans h.saved, hkeeps.decimal.trans h.decimal, hcommon, fun u => ?_, fun u => ?_⟩
  · by_cases hu : u = v
    · exact hu ▸ hpart
    · rw [hparts u hu]
      exact (h.parts u).congr (fun n _ hn hvoice => hother hu hn hvoice) u.isLt
  · by_cases hu : u = v
    · exact hu ▸ hplace
    · rw [hparts u hu]
      exact (h.places u).congr (fun n hn hvoice => hother hu (by omega) hvoice) u.isLt

/-- What is done for no voice. -/
theorem share {changed : List Nat} (h : Tracks song commands here r s) (hkeeps : Keeps changed s s')
    (hchanged : ∀ n ∈ changed, 60 ≤ n) (hpart : r'.part = r.part) (hcommon : r'.Common s') :
    Tracks song commands here r' s' := by
  have hcell {n : Nat} (hn : n < 60) : s'.cells n = s.cells n := hkeeps.cells n fun hmem => by
    have := hchanged n hmem
    omega
  refine ⟨hkeeps.saved.trans h.saved, hkeeps.decimal.trans h.decimal, hcommon, fun u => ?_, fun u => ?_⟩
  · rw [hpart]
    exact (h.parts u).congr (fun n _ hn _ => hcell hn) u.isLt
  · rw [hpart]
    exact (h.places u).congr (fun n hn _ => hcell (by omega)) u.isLt

end Tracks

/-! ## Routines -/

/-- A routine is never stuck, and comes to a state of which `Q` holds if it returns. -/
def Comes (here : Site) (depth fuel : Nat) (items : List Item) (s : State) (Q : State → Prop) : Prop :=
  Both here here depth fuel items s s fun s' t' => s' = t' ∧ Q s'

section Comes

variable {depth fuel : Nat} {items items' : List Item} {Q R : State → Prop}

theorem comes_congr (hs : run here none items s = run here none items' s') (h : Comes here depth fuel items' s' Q) :
    Comes here depth fuel items s Q := both_congr hs hs h

theorem comes_ret (hs : run here none items s = (.ret, s')) (h : Q s') : Comes here depth fuel items s Q :=
  both_ret hs hs ⟨rfl, h⟩

theorem comes_goto {l : String} (hs : run here none items s = (.goto l, s'))
    (h : ∀ fuel' < fuel, Comes here depth fuel' (itemsFrom l) s' Q) : Comes here depth fuel items s Q :=
  both_goto hs hs h

theorem comes_call {l : String} (hdepth : depth + 2 ≤ stackLimit) (hs : run here none items s = (.call l rest, s'))
    (h : ∀ fuel' < fuel, Comes here (depth + 2) fuel' (itemsFrom l) s' R)
    (hrest : ∀ fuel' < fuel, ∀ s'', R s'' → Comes here depth fuel' rest s'' Q) : Comes here depth fuel items s Q :=
  both_call hdepth hs hs h fun fuel' hfuel s'' _ hdone => hdone.1 ▸ hrest fuel' hfuel s'' hdone.2

end Comes

end Chiptune.Player.Minimal
