/-
What a frame does after its rows: the voices are updated, and the filter
program is stepped.
-/
import Chiptune.Proofs.Player.Minimal.Programs

namespace Chiptune.Player.Minimal

open Machine Sound Song Music

variable {here : Site} {song : Song} {commands : List Command} {s s' : State} {rest : List Item} {r r' : Rendition}
  {p p' : Part} {v : Voice}

/-! ## Steps of programs -/

namespace Part

/-- Its programs say nothing of where a voice is in the music, and nothing of whether it sounds. -/
theorem stepWave_place (song : Song) (p : Part) : (p.stepWave song).entry = p.entry ∧ (p.stepWave song).events = p.events ∧
    (p.stepWave song).stopped = p.stopped ∧ (p.stepWave song).active = p.active := by
  unfold stepWave
  split <;> exact ⟨rfl, rfl, rfl, rfl⟩

theorem stepPulse_place (song : Song) (p : Part) : (p.stepPulse song).entry = p.entry ∧
    (p.stepPulse song).events = p.events ∧ (p.stepPulse song).stopped = p.stopped ∧
    (p.stepPulse song).active = p.active ∧ (p.stepPulse song).pitch = p.pitch := by
  unfold stepPulse
  split
  · exact ⟨rfl, rfl, rfl, rfl, rfl⟩
  · split
    · split <;> exact ⟨rfl, rfl, rfl, rfl, rfl⟩
    · exact ⟨rfl, rfl, rfl, rfl, rfl⟩

end Part

/-! ## Voices -/

theorem lookup_eq {v : Nat} (hp : p.In v s) : lookup s v = p.pitch.toNat := by
  rw [lookup, hp.note, hp.offset, Part.pitch, UInt8.toNat_add]

/-- The frequency of a voice is looked up. -/
theorem pitched_lookedUp (hcarries : here.Carries song commands) (hx : s.regs.x.toNat = v.val) (hp : p.In v s)
    (htune : p.pitch.toNat ≤ Pitch.highest) : p.In v (lookedUp here s) ∧ Pitched p (lookedUp here s) := by
  have hvoice : v.val < 3 := v.isLt
  refine ⟨hp.congr (fun n _ hn _ => ?_) v.isLt, ?_, ?_⟩
  · simp only [lookedUp]
    rw [Function.update_of_ne (by omega), Function.update_of_ne (by omega)]
  · simp only [lookedUp, hx, lookup_eq hp]
    rw [Function.update_of_ne (by decide), Function.update_self, hcarries.frequencyLo _ htune]
  · simp only [lookedUp, hx, lookup_eq hp]
    rw [Function.update_self, hcarries.frequencyHi _ htune]

/-- **A voice is updated.** -/
theorem tracks_updateVoice (hcarries : here.Carries song commands) (hsong : song.WellFormed)
    (h : Tracks song commands here r s) (hx : s.regs.x.toNat = v.val) (hvalid : (r.part v).Valid song v)
    (htune : ((r.part v).stepWave song).pitch.toNat ≤ Pitch.highest) :
    ∃ s', run here none (itemsFrom "update_voice") s = (.ret, s') ∧ s'.regs.x = s.regs.x ∧
      Tracks song commands here (r.sound song v) s' := by
  have hlt : s.regs.x.toNat < 3 := hx ▸ v.isLt
  have hsteady := fun item hi => steady_of_even (updateWave_even.1 item hi)
  -- up to the table of frequencies
  obtain ⟨hwave, hsid₁⟩ := in_updateWave hcarries hsong hx h.saved (h.parts v) hvalid.wave
  have hkeeps₁ := (run_steady here updateWave none hsteady (.of_lt hlt) h.saved).2
  have hsplit : run here none updateVoice s = run here none updateRest (lookedUp here (run here none updateWave s).2) := by
    have hinto := run_into here (updatePitch.drop 1 ++ (updatePulse ++ updateRegisters)) hsteady updateWave_even.2 hlt
      h.saved
    refine hinto.trans ?_
    exact run_pitch (by rw [hkeeps₁.x]; exact hlt) (hkeeps₁.decimal.trans h.decimal)
  generalize (run here none updateWave s).2 = s₁ at hwave hsid₁ hkeeps₁ hsplit
  have hx₁ : s₁.regs.x.toNat = v.val := by rw [hkeeps₁.x, hx]
  obtain ⟨hin, hpitched⟩ := pitched_lookedUp hcarries hx₁ hwave htune
  -- and after it
  obtain ⟨hpart, hsid⟩ := in_updateRest (s := lookedUp here s₁) hcarries hsong hx₁ (hkeeps₁.saved.trans h.saved)
    (hkeeps₁.decimal.trans h.decimal) hin hpitched (hvalid.stepWave hsong).pulse
  obtain ⟨s', hrun, hkeeps⟩ := run_updateVoice here hlt h.saved
  have hs' : s' = (run here none updateVoice s).2 := by
    have hreturn := run_returning here (itemsFrom "update_filter") updateVoice_steady.1 updateVoice_steady.2 (.of_lt hlt)
      h.saved
    rw [← itemsFrom_updateVoice, hrun] at hreturn
    cases hreturn
    rfl
  have hsid' : (lookedUp here s₁).sid = r.bank := hsid₁.trans h.common.sid
  rw [← hsplit, ← hs', hsid'] at hsid
  rw [← hsplit, ← hs'] at hpart
  have htouched {n : Nat} (hn : n ∈ touched s.regs.x updateVoice) := touched_updateVoice hlt hn
  have hstepped : (r.sound song v).part v = ((r.part v).stepWave song).stepPulse song := Function.update_self ..
  obtain ⟨hentry, hevents, hstopped, -⟩ := (r.part v).stepWave_place song
  obtain ⟨hentry', hevents', hstopped', -⟩ := ((r.part v).stepWave song).stepPulse_place song
  refine ⟨s', hrun, hkeeps.x, h.step v hkeeps (fun n hn hlow => ?_) (fun u hu => Function.update_of_ne hu ..) ?_ ?_ ?_⟩
  · have := htouched hn
    omega
  · rw [hstepped]
    exact hpart
  · rw [hstepped]
    exact (h.places v).keeps hkeeps (fun n hn => by
      have := htouched hn
      omega) v.isLt (hentry'.trans hentry) (hevents'.trans hevents) (hstopped'.trans hstopped)
  · exact h.common.keeps hkeeps (fun n hn => by
      have := htouched hn
      omega) hsid rfl rfl rfl rfl

/-! ## The filter -/

/-- A register that the voices share is written. -/
theorem write_shared (b : Bank) (value : UInt8) : (b.write 0x15 value).2 = b.set .cutoffLo value ∧
    (b.write 0x16 value).2 = b.set .cutoffHi value ∧ (b.write 0x17 value).2 = b.set .resonance value ∧
    (b.write 0x18 value).2 = b.set .modeVolume value := ⟨rfl, rfl, rfl, rfl⟩

section Filter

variable {row found first second third fourth : UInt8}

theorem looked_filter (hcell : s.cells 62 = row) (hsome : row ≠ 0xFF)
    (hlooks : (here.byte (1769 + row.toNat) = 0x7F ∧ here.byte (1897 + row.toNat) = found) ∨
      (here.byte (1769 + row.toNat) ≠ 0x7F ∧ found = row)) :
    run here none updateFilter s = run here none (updateFilter.drop 11) (run here none (updateFilter.take 11) s).2 ∧
      Looked found (here.byte (1769 + found.toNat)) 62 s (run here none (updateFilter.take 11) s).2 := by
  have honto := @run_onto here s "filter_not_loop" (updateFilter.take 11) (updateFilter.drop 12)
  subst hcell
  rcases hlooks with ⟨hmark, hfound⟩ | ⟨hmark, rfl⟩
  · refine ⟨honto (.inl ?_), ?_, ?_, ?_, ?_⟩ <;> simp -implicitDefEqProofs [updateFilter, hsome, hmark, hfound]
  · refine ⟨honto (.inr ?_), ?_, ?_, ?_, ?_⟩ <;> simp -implicitDefEqProofs [updateFilter, hsome, hmark]

theorem run_filter_step (hsaved : s.saved = []) (hy : s.regs.y = found) (ha : s.regs.a = first) (hplain : first ≠ 0x7E)
    (hsecond : here.byte (1897 + found.toNat) = second) (hthird : here.byte (2025 + found.toNat) = third)
    (hfourth : here.byte (2153 + found.toNat) = fourth) :
    (run here none (updateFilter.drop 11) s).2.cells =
        Function.update (Function.update s.cells 63 fourth) 62 (s.cells 62 + 1) ∧
      (run here none (updateFilter.drop 11) s).2.sid =
        (((s.sid.set .cutoffLo first).set .cutoffHi second).set .resonance third).set .modeVolume fourth := by
  have hlow : Word.low 0xD415 = 0x15 ∧ Word.low 0xD416 = 0x16 ∧ Word.low 0xD417 = 0x17 ∧ Word.low 0xD418 = 0x18 := by
    decide
  have hwindow : inWindow 0xD415 = true ∧ inWindow 0xD416 = true ∧ inWindow 0xD417 = true ∧ inWindow 0xD418 = true := by
    decide
  constructor <;> simp -implicitDefEqProofs [updateFilter, hlow, hwindow, write_shared, hsaved, hy, ha, hplain, hsecond,
    hthird, hfourth]

theorem run_filter_stop (hsaved : s.saved = []) (ha : s.regs.a = 0x7E) :
    (run here none (updateFilter.drop 11) s).2.cells = s.cells ∧ (run here none (updateFilter.drop 11) s).2.sid = s.sid := by
  constructor <;> simp -implicitDefEqProofs [updateFilter, ha, hsaved]

theorem run_filter_none (hsaved : s.saved = []) (hcell : s.cells 62 = 0xFF) :
    (run here none updateFilter s).2.cells = s.cells ∧ (run here none updateFilter s).2.sid = s.sid := by
  constructor <;> simp -implicitDefEqProofs [updateFilter, hcell, hsaved]

theorem updateFilter_take : ∀ item ∈ updateFilter.take 11, isSteady item = true := by decide

/-- **The filter program is stepped.** -/
theorem common_updateFilter (hcarries : here.Carries song commands) (hsong : song.WellFormed) (hsaved : s.saved = [])
    (h : r.Common s) (hvalid : ∀ row, r.filter = some row → row.toNat < (programRows song .filter).length) :
    (r.stepFilter song).Common (run here none updateFilter s).2 := by
  cases hfilter : r.filter with
  | none =>
    have hstay : r.stepFilter song = r := by simp only [Rendition.stepFilter, hfilter]
    obtain ⟨hcells, hsid⟩ := @run_filter_none here s hsaved (by rw [h.filter, hfilter]; rfl)
    rw [hstay]
    exact ⟨hsid.trans h.sid, by rw [hcells, h.tempo], by rw [hcells, h.tick], by rw [hcells, h.filter],
      by rw [hcells, h.modeVolume]⟩
  | some row =>
    have hrow := hvalid row hfilter
    have hcell : s.cells 62 = row := by rw [h.filter, hfilter]; rfl
    have hsome := hcarries.row_ne hrow
    have hspec := reached_spec hsong hrow
    obtain ⟨hsplit, hlooked⟩ := looked_filter hcell hsome (hcarries.looks (n := 1769) hsong rfl hrow)
    have hsaved₁ := (run_steady here _ none updateFilter_take (s := s) (fun m t hmem => by simp [updateFilter] at hmem)
      hsaved).2.saved.trans hsaved
    rw [hsplit]
    generalize (run here none (updateFilter.take 11) s).2 = s₁ at hlooked hsaved₁
    rcases hfound : reached (programRows song .filter) row with ⟨found, reading⟩
    rw [hfound] at hlooked hspec
    simp only [Rendition.stepFilter, hfilter, hfound]
    cases reading with
    | loop target => exact absurd rfl (hspec.2.1 target)
    | step bytes =>
      obtain ⟨hbytes, -, hplain⟩ := hcarries.step (n := 1769) hsong rfl hrow hfound
      obtain ⟨hcells, hsid⟩ := run_filter_step hsaved₁ hlooked.y (hlooked.a.trans (hbytes 0 (by decide))) hplain
        (hbytes 1 (by decide)) (hbytes 2 (by decide)) (hbytes 3 (by decide))
      constructor
      · rw [hsid, hlooked.sid, h.sid]
        rfl
      all_goals
        rw [hcells, hlooked.cells]
        simp [h.tempo, h.tick, Rendition.write]
    | stop =>
      obtain ⟨hcells, hsid⟩ := run_filter_stop hsaved₁ (hlooked.a.trans (hcarries.stop (n := 1769) hsong rfl hrow hfound))
      constructor
      · rw [hsid, hlooked.sid, h.sid]
      all_goals
        rw [hcells, hlooked.cells]
        simp [h.tempo, h.tick, h.modeVolume]

theorem tracks_updateFilter (hcarries : here.Carries song commands) (hsong : song.WellFormed)
    (h : Tracks song commands here r s)
    (hvalid : ∀ row, r.filter = some row → row.toNat < (programRows song .filter).length) :
    ∃ s', run here none (itemsFrom "update_filter") s = (.ret, s') ∧ Tracks song commands here (r.stepFilter song) s' := by
  have hsteady := fun item hi => steady_of_even (updateFilter_even.1 item hi)
  have hvoiced := voiced_updateFilter s.regs.x
  have hkeeps := (run_steady here updateFilter none hsteady hvoiced h.saved).2
  rw [itemsFrom_play.2.2.2]
  refine ⟨_, run_returning here (itemsFrom "command") hsteady updateFilter_even.2 hvoiced h.saved,
    h.share hkeeps (fun n hn => ?_) ?_ (common_updateFilter hcarries hsong h.saved h.common hvalid)⟩
  · rcases touched_updateFilter hn with rfl | rfl <;> decide
  · unfold Rendition.stepFilter
    split
    · rfl
    · split <;> rfl

end Filter

end Chiptune.Player.Minimal
