/-
The update of a voice, which is where it shows where a player stands.

A voice looks its frequency up at its note and an offset. Past the tables this
finds the settings of the song, and then addresses, which are not the same for
two players. So two runs are alike as far as every voice that sounds looks its
frequency up before these (`Aligned`).
-/
import Chiptune.Proofs.Player.Minimal.Row

namespace Chiptune.Player.Minimal

open Machine Sound Song Music

variable {here there : Site} {s s' t t' : State} {rest : List Item}

/-! ## Frequencies -/

/-- Where a voice looks its frequency up. -/
def lookup (s : State) (v : Nat) : Nat := ((s.cells (21 + v)).toNat + (s.cells (45 + v)).toNat) % 256

/-- A voice has played a note and not stopped. -/
def Sounds (s : State) (v : Nat) : Prop := s.cells (33 + v) ≠ 0 ∧ s.cells (36 + v) = 0

/-- The last offset at which both halves of a frequency are the same wherever the player stands. -/
def lastLookup : Nat := 96

theorem place?_freqLo :
    here.place? s (.absoluteY (.symbol .freqLo 0)) = some (.value (here.byte (2281 + s.regs.y.toNat))) := by
  have hy := s.regs.y.toNat_lt
  exact target?_table .freqLo (by decide) rfl (by decide) (show _ < 2736 by omega)

theorem place?_freqHi :
    here.place? s (.absoluteY (.symbol .freqHi 0)) = some (.value (here.byte (2377 + s.regs.y.toNat))) := by
  have hy := s.regs.y.toNat_lt
  exact target?_table .freqHi (by decide) rfl (by decide) (show _ < 2736 by omega)

/-- The registers once a frequency is looked up, of which `hi` is the high byte. -/
def pitched (r : Registers) (note offset hi : UInt8) : Registers :=
  plain { r with
    a := hi
    y := note + offset
    p := { r.p with carry := decide (255 < note.toNat + offset.toNat), zero := hi == 0, negative := Flags.sign hi } }

/-- The state once the frequency of the voice in X is looked up. -/
def lookedUp (here : Site) (s : State) : State :=
  let x := s.regs.x.toNat
  let hi := here.byte (2377 + lookup s x)
  { s with
    regs := pitched s.regs (s.cells (21 + x)) (s.cells (45 + x)) hi
    cells := Function.update (Function.update s.cells 68 (here.byte (2281 + lookup s x))) 69 hi }

theorem run_pitch (hx : s.regs.x.toNat < 3) (hdecimal : s.regs.p.decimal = false) :
    run here none (updatePitch ++ rest) s = run here none (updatePitch.drop 9 ++ rest) (lookedUp here s) := by
  show run here none (updatePitch.take 9 ++ (updatePitch.drop 9 ++ rest)) s = _
  generalize updatePitch.drop 9 ++ rest = rest
  simp -implicitDefEqProofs [updatePitch, lookedUp, lookup, pitched, hx, hdecimal, Flags.add, Flags.addBinary,
    place?_freqLo, place?_freqHi]

theorem lookedUp_alike (htwin : Twin here there) (h : Alike s t) (hlookup : lookup s s.regs.x.toNat ≤ lastLookup) :
    Alike (lookedUp here s) (lookedUp there t) := by
  have hcell {n : Nat} (hn : 15 ≤ n) : s.cells n = t.cells n := h.cells n (isAddress_eq_false.mpr (.inr hn))
  have hlast : lastLookup = 96 := rfl
  have hindex : lookup t s.regs.x.toNat = lookup s s.regs.x.toNat := by
    rw [lookup, lookup, hcell (by omega), hcell (by omega)]
  have hcommon {n : Nat} (hstart : 2281 ≤ n) (hend : n < 2474) : here.byte n = there.byte n := by
    refine htwin n ?_
    have hslots : slotsAt = 841 := rfl
    simp only [isCommon, Bool.or_eq_true, Bool.and_eq_true, decide_eq_true_eq]
    omega
  have hlo := hcommon (n := 2281 + lookup s s.regs.x.toNat) (by omega) (by omega)
  have hhi := hcommon (n := 2377 + lookup s s.regs.x.toNat) (by omega) (by omega)
  refine ⟨?_, h.saved, h.sid, fun n hn => ?_⟩
  · simp only [lookedUp, ← h.regs, hindex, hhi, hcell (n := 21 + s.regs.x.toNat) (by omega),
      hcell (n := 45 + s.regs.x.toNat) (by omega)]
  · simp only [lookedUp, ← h.regs, hindex, hlo, hhi, Function.update_apply, h.cells n hn]

/-! ## The update of a voice -/

/-- The code that updates a voice. -/
def updateVoice : List Item := updateWave ++ (updatePitch ++ (updatePulse ++ updateRegisters))

set_option maxRecDepth 2000 in
theorem itemsFrom_updateVoice : itemsFrom "update_voice" = updateVoice ++ itemsFrom "update_filter" := rfl

set_option maxRecDepth 2000 in
theorem updateVoice_steady :
    (∀ item ∈ updateVoice, isSteady item = true) ∧ ∀ w ∈ ways none updateVoice, w = .ret := by decide

theorem updateWave_even :
    (∀ item ∈ updateWave, even item = true) ∧ ∀ w ∈ ways none updateWave, w = .fall ∨ w = .goto "wave_hold" := by
  decide

/-- The variables that an update of a voice stores to: its own, and those for a frequency. -/
theorem touched_updateVoice {x : UInt8} (hx : x.toNat < 3) {n : Nat} (hn : n ∈ touched x updateVoice) :
    n = 68 ∨ n = 69 ∨ (39 ≤ n ∧ n < 60 ∧ n % 3 = x.toNat) := by
  have hstored : ∀ stored ∈ updateVoice.filterMap touch?,
      stored = (68, false) ∨ stored = (69, false) ∨ (stored.2 = true ∧ 39 ≤ stored.1 ∧ stored.1 ≤ 57 ∧ stored.1 % 3 = 0) := by
    decide
  obtain ⟨⟨m, indexed⟩, hm, rfl⟩ := List.mem_map.mp hn
  rcases hstored _ hm with h | h | ⟨hindexed, hlow, hhigh, hmod⟩
  · cases h
    exact .inl rfl
  · cases h
    exact .inr (.inl rfl)
  · dsimp only at hindexed hlow hhigh hmod
    subst hindexed
    refine .inr (.inr ?_)
    show 39 ≤ m + x.toNat ∧ m + x.toNat < 60 ∧ (m + x.toNat) % 3 = x.toNat
    omega

theorem run_updateVoice (here : Site) (hx : s.regs.x.toNat < 3) (hsaved : s.saved = []) :
    ∃ s', run here none (itemsFrom "update_voice") s = (.ret, s') ∧ Keeps (touched s.regs.x updateVoice) s s' := by
  rw [itemsFrom_updateVoice]
  exact ⟨_, run_returning _ _ updateVoice_steady.1 updateVoice_steady.2 (.of_lt hx) hsaved,
    (run_steady here updateVoice none updateVoice_steady.1 (.of_lt hx) hsaved).2⟩

/-- The code after a frequency is looked up. -/
def updateRest : List Item := updatePitch.drop 9 ++ (updatePulse ++ updateRegisters)

theorem updateRest_even :
    (∀ item ∈ updateRest, even item = true) ∧ ∀ w ∈ ways none updateRest, w = .ret := by decide

theorem touched_updateRest {x : UInt8} (hx : x.toNat < 3) {n : Nat} (hn : n ∈ touched x updateRest) : 48 ≤ n ∧ n < 60 := by
  have hstored : ∀ stored ∈ updateRest.filterMap touch?, 48 ≤ stored.1 ∧ stored.1 ≤ 57 := by decide
  obtain ⟨⟨m, indexed⟩, hm, rfl⟩ := List.mem_map.mp hn
  obtain ⟨hlow, hhigh⟩ := hstored _ hm
  dsimp only at hlow hhigh
  cases indexed with
  | true =>
    show 48 ≤ m + x.toNat ∧ m + x.toNat < 60
    omega
  | false =>
    show 48 ≤ m ∧ m < 60
    omega

/-- **A voice sounds the same** wherever the player stands, if it looks its frequency up in the table. -/
theorem updateVoice_alike (htwin : Twin here there) (h : Alike s t) (hx : s.regs.x.toNat < 3) (hsaved : s.saved = [])
    (hdecimal : s.regs.p.decimal = false) (hs : run here none (itemsFrom "update_voice") s = (.ret, s'))
    (ht : run there none (itemsFrom "update_voice") t = (.ret, t')) (hlookup : lookup s' s.regs.x.toNat ≤ lastLookup) :
    Alike s' t' := by
  have hitems : itemsFrom "update_voice" = updateWave ++ (updatePitch ++ (updatePulse ++ (updateRegisters ++
      itemsFrom "update_filter"))) := by
    rw [itemsFrom_updateVoice, updateVoice]
    simp only [List.append_assoc]
  rw [hitems] at hs ht
  -- up to the table
  obtain ⟨w, hw, s₁, t₁, hs₁, ht₁, h₁, hkeeps, -⟩ := run_even htwin updateWave_even.1 hx hsaved h
    (updatePitch ++ (updatePulse ++ (updateRegisters ++ itemsFrom "update_filter")))
  have hleads (here : Site) (s : State) (rest : List Item) : w.leadsOn here (updatePitch ++ rest) s =
      run here none (updatePitch ++ rest) s := by
    rcases updateWave_even.2 w hw with rfl | rfl <;> rfl
  have hx₁ : s₁.regs.x.toNat < 3 := by rw [hkeeps.x]; exact hx
  have hdecimal₁ : s₁.regs.p.decimal = false := hkeeps.decimal.trans hdecimal
  rw [hs₁, hleads, run_pitch hx₁ hdecimal₁] at hs
  rw [ht₁, hleads, run_pitch (h₁.regs ▸ hx₁) (h₁.regs ▸ hdecimal₁)] at ht
  -- and after it
  have hrest : updatePitch.drop 9 ++ (updatePulse ++ (updateRegisters ++ itemsFrom "update_filter")) =
      updateRest ++ itemsFrom "update_filter" := by
    simp only [updateRest, List.append_assoc]
  rw [hrest] at hs ht
  have hsaved₁ : (lookedUp here s₁).saved = [] := hkeeps.saved.trans hsaved
  have hsteady := fun item hi => steady_of_even (updateRest_even.1 item hi)
  have hx₂ : (lookedUp here s₁).regs.x.toNat < 3 := hx₁
  have hx₂' : (lookedUp there t₁).regs.x.toNat < 3 := by
    show t₁.regs.x.toNat < 3
    rw [← h₁.regs]
    exact hx₁
  have hreturn := run_returning here (itemsFrom "update_filter") hsteady updateRest_even.2 (.of_lt hx₂) hsaved₁
  have hreturn' := run_returning there (itemsFrom "update_filter") hsteady updateRest_even.2 (.of_lt hx₂')
    (h₁.saved ▸ hsaved₁)
  have hkept := (run_steady here updateRest none hsteady (.of_lt hx₂) hsaved₁).2
  cases hreturn.symm.trans hs
  cases hreturn'.symm.trans ht
  have hsame : lookup (run here none updateRest (lookedUp here s₁)).2 s.regs.x.toNat = lookup s₁ s₁.regs.x.toNat := by
    have hcell {n : Nat} (hn : n < 48) : (run here none updateRest (lookedUp here s₁)).2.cells n = s₁.cells n := by
      rw [hkept.cells n fun hmem => ?_]
      · show Function.update (Function.update s₁.cells 68 _) 69 _ n = _
        rw [Function.update_of_ne (by omega), Function.update_of_ne (by omega)]
      · have := (touched_updateRest hx₂ hmem).1
        omega
    rw [lookup, lookup, hkeeps.x, hcell (by omega), hcell (by omega)]
  rw [hsame] at hlookup
  exact (run_alike htwin updateRest none updateRest_even.1 (.of_lt hx₂) hsaved₁ (lookedUp_alike htwin h₁ hlookup)).2

/-! ## Frames half played -/

section Aligned

variable {score : Score} {spots : Nat → Spot} {k : Nat}

/-- Two runs that update the voices, down to voice `k` so far: they are alike if each of these that sounds
looked its frequency up in the table. -/
structure Aligned (score : Score) (here there : Site) (spots : Nat → Spot) (k : Nat) (s t : State) : Prop where
  here : Playing score here spots s
  there : Playing score there spots t
  x : s.regs.x = t.regs.x
  flags : ∀ n, 33 ≤ n → n < 39 → s.cells n = t.cells n
  alike : (∀ v, k ≤ v → v < voiceCount → Sounds s v → lookup s v ≤ lastLookup) → Alike s t

namespace Aligned

theorem of_paired (h : Paired score here there spots s t) : Aligned score here there spots k s t :=
  ⟨h.here, h.there, congrArg Registers.x h.alike.regs,
    fun n hn _ => h.alike.cells n (isAddress_eq_false.mpr (.inr (by omega))), fun _ => h.alike⟩

/-- The registers are computed from what the runs share. -/
theorem compute (h : Aligned score here there spots k s t) (f : Registers → Registers)
    (hdecimal : ∀ r, (f r).p.decimal = r.p.decimal) (hx : ∀ r r', r.x = r'.x → (f r).x = (f r').x) :
    Aligned score here there spots k { s with regs := f s.regs } { t with regs := f t.regs } := by
  refine ⟨⟨h.here.saved, (hdecimal _).trans h.here.decimal, fun v hv => (h.here.follows v hv).congr fun _ _ => rfl⟩,
    ⟨h.there.saved, (hdecimal _).trans h.there.decimal, fun v hv => (h.there.follows v hv).congr fun _ _ => rfl⟩,
    hx _ _ h.x, h.flags, fun hlookup => ?_⟩
  have halike := h.alike hlookup
  exact ⟨congrArg f halike.regs, halike.saved, halike.sid, halike.cells⟩

/-- A voice that does not sound is passed over. -/
theorem down (h : Aligned score here there spots (k + 1) s t) : Aligned score here there spots k s t :=
  ⟨h.here, h.there, h.x, h.flags, fun hlookup => h.alike fun v hv => hlookup v (by omega)⟩

/-- A block keeps what says whether a voice sounds, and where those from `j` on look their frequencies up. -/
theorem keeps {changed : List Nat} {j : Nat} (h : Aligned score here there spots j s t) (hk : k ≤ j)
    (hs : Keeps changed s s') (ht : Keeps changed t t') (hheld : ∀ n ∈ changed, isHeld n = false)
    (hflags : ∀ n ∈ changed, ¬ (33 ≤ n ∧ n < 39))
    (hlookups : ∀ n ∈ changed, ∀ v, j ≤ v → v < voiceCount → n ≠ 21 + v ∧ n ≠ 45 + v)
    (halike : (∀ v, k ≤ v → v < voiceCount → Sounds s' v → lookup s' v ≤ lastLookup) → Alike s t → Alike s' t') :
    Aligned score here there spots k s' t' := by
  have hvoices : voiceCount = 3 := rfl
  have hflag {n : Nat} (hn : 33 ≤ n ∧ n < 39) : s'.cells n = s.cells n := hs.cells n fun hmem => hflags n hmem hn
  have hflag' {n : Nat} (hn : 33 ≤ n ∧ n < 39) : t'.cells n = t.cells n := ht.cells n fun hmem => hflags n hmem hn
  refine ⟨h.here.keeps hs hheld, h.there.keeps ht hheld, ?_, fun n hlow hhigh => ?_, fun hlookup => ?_⟩
  · rw [hs.x, ht.x, h.x]
  · rw [hflag ⟨hlow, hhigh⟩, hflag' ⟨hlow, hhigh⟩, h.flags n hlow hhigh]
  · refine halike hlookup (h.alike fun v hv hbound hsounds => ?_)
    have hnote := hs.cells (21 + v) fun hmem => (hlookups _ hmem v hv hbound).1 rfl
    have hoffset := hs.cells (45 + v) fun hmem => (hlookups _ hmem v hv hbound).2 rfl
    have hsame : lookup s' v = lookup s v := by rw [lookup, lookup, hnote, hoffset]
    have hsounds' : Sounds s' v := by
      rw [Sounds, hflag (by omega), hflag (by omega)]
      exact hsounds
    rw [← hsame]
    exact hlookup v (by omega) hbound hsounds'

/-- A voice that sounds is updated. -/
theorem update {x : Nat} (htwin : Twin here there) (h : Aligned score here there spots (x + 1) s t)
    (hx : s.regs.x.toNat = x) (hbound : x < voiceCount) (hsounds : Sounds s x) :
    ∃ s' t', run here none (itemsFrom "update_voice") s = (.ret, s') ∧
      run there none (itemsFrom "update_voice") t = (.ret, t') ∧
      Aligned score here there spots x s' t' ∧ s'.regs.x.toNat = x := by
  have hlt : s.regs.x.toNat < 3 := hx ▸ hbound
  obtain ⟨s', hs, hkeeps⟩ := run_updateVoice here hlt h.here.saved
  obtain ⟨t', ht, hkeeps'⟩ := run_updateVoice there (s := t) (h.x ▸ hlt) h.there.saved
  rw [← h.x] at hkeeps'
  refine ⟨s', t', hs, ht, h.keeps (Nat.le_succ _) hkeeps hkeeps' (fun n hn => ?_) (fun n hn => ?_)
    (fun n hn v hv hbound => ?_) fun hlookup halike => ?_, (congrArg UInt8.toNat hkeeps.x).trans hx⟩
  · have := touched_updateVoice hlt hn
    simp only [isHeld, Bool.or_eq_false_iff, Bool.and_eq_false_iff, decide_eq_false_iff_not]
    omega
  · have := touched_updateVoice hlt hn
    omega
  · have := touched_updateVoice hlt hn
    have hvoices : voiceCount = 3 := rfl
    omega
  · have hflag {n : Nat} (hn : 33 ≤ n ∧ n < 39) : s'.cells n = s.cells n := hkeeps.cells n fun hmem => by
      have := touched_updateVoice hlt hmem
      omega
    subst hx
    refine updateVoice_alike htwin halike hlt h.here.saved h.here.decimal hs ht (hlookup _ (Nat.le_refl _) hbound ?_)
    rw [Sounds, hflag (by omega), hflag (by omega)]
    exact hsounds

end Aligned

end Aligned

end Chiptune.Player.Minimal
