/-
A frame, as the player plays it.

A play call takes the voices from the last one down, for their rows and then
for their registers, which is the order of `Rendition.frame`. So it comes to
the rendition a frame later (`comes_play`), and every play call after it too.
-/
import Chiptune.Proofs.Player.Minimal.Reading

namespace Chiptune.Player.Minimal

open Machine Sound Song Music

variable {here : Site} {song : Song} {commands : List Command} {s s' : State} {r r' : Rendition} {v : Voice}
  {depth fuel : Nat} {Q : State → Prop}

/-- The voices before this one, from the last one down. -/
def down : Nat → List Voice
  | 0 => []
  | n + 1 => Voice.ofNat n :: down n

theorem val_ofNat {n : Nat} (hn : n < voiceCount) : (Voice.ofNat n).val = n := Nat.mod_eq_of_lt hn

theorem val_of_mem_down : ∀ {n : Nat}, n ≤ voiceCount → v ∈ down n → v.val < n
  | n + 1, hn, hv => by
    rcases List.mem_cons.mp hv with rfl | hv
    · rw [val_ofNat hn]
      exact Nat.lt_succ_self n
    · exact Nat.lt_succ_of_lt (val_of_mem_down (Nat.le_of_succ_le hn) hv)

/-! ## Registers -/

theorem part_update_of_ne {u : Voice} (hu : u ≠ v) : (r.update song v).part u = r.part u := by
  unfold Rendition.update
  split
  · exact Function.update_of_ne hu ..
  · rfl

theorem part_foldl_update : ∀ {voices : List Voice} {r : Rendition}, v ∉ voices →
    (voices.foldl (Rendition.update song) r).part v = r.part v
  | [], _, _ => rfl
  | u :: voices, r, hv => by
    rw [List.mem_cons, not_or] at hv
    rw [List.foldl_cons, part_foldl_update hv.2, part_update_of_ne hv.1]

theorem part_stepFilter : (r.stepFilter song).part = r.part := by
  unfold Rendition.stepFilter
  split
  · rfl
  · split <;> rfl

/-- A voice that sounds is updated. -/
theorem update_of_active (hactive : (r.part v).active = true) (hgoes : (r.part v).stopped = false) :
    r.update song v = r.sound song v := by
  unfold Rendition.update
  rw [hactive, hgoes]
  rfl

/-- A voice is updated at the pitch that it then has. -/
theorem pitch_update (song : Song) (hactive : (r.part v).active = true) (hgoes : (r.part v).stopped = false) :
    ((r.update song v).part v).active = true ∧ ((r.update song v).part v).stopped = false ∧
      ((r.update song v).part v).pitch = ((r.part v).stepWave song).pitch := by
  have hupdate : (r.update song v).part v = ((r.part v).stepWave song).stepPulse song := by
    rw [update_of_active hactive hgoes]
    exact Function.update_self ..
  obtain ⟨-, -, hstopped, hactive'⟩ := (r.part v).stepWave_place song
  obtain ⟨-, -, hstopped', hactive'', hpitch⟩ := ((r.part v).stepWave song).stepPulse_place song
  rw [hupdate]
  exact ⟨by rw [hactive'', hactive', hactive], by rw [hstopped', hstopped, hgoes], hpitch⟩

/-- A voice sounds if it has played a note and not stopped. -/
theorem sounds_iff (h : (r.part v).In v s) : Sounds s v ↔ (r.part v).active = true ∧ (r.part v).stopped = false := by
  rw [Sounds, h.active, h.stopped]
  cases (r.part v).active <;> cases (r.part v).stopped <;> decide

/-- **The voices are updated**, from the last one down, and the filter after them. -/
theorem comes_voices (hready : here.Ready song commands) (hdepth : depth + 2 ≤ stackLimit) : ∀ (n : Nat) {fuel : Nat}
    {r : Rendition} {s : State}, s.regs.x.toNat = n → n < voiceCount → Tracks song commands here r s → r.Valid song →
      ((down (n + 1)).foldl (Rendition.update song) r).InTune →
      Comes here depth fuel (itemsFrom "play_voices") s
        (Tracks song commands here (((down (n + 1)).foldl (Rendition.update song) r).stepFilter song))
  | n, fuel, r, s, hn, hbound, h, hvalid, htune => by
    have hx : s.regs.x.toNat < 3 := hn ▸ hbound
    have hv : s.regs.x.toNat = (Voice.ofNat n).val := by rw [hn, val_ofNat hbound]
    -- the voices before this one
    have hnext {fuel : Nat} {s : State} (hn : s.regs.x.toNat = n)
        (h : Tracks song commands here (r.update song (Voice.ofNat n)) s) :
        Comes here depth fuel (play.drop 21 ++ itemsFrom "row") s
          (Tracks song commands here (((down (n + 1)).foldl (Rendition.update song) r).stepFilter song)) := by
      have hpred := h.compute (plain (s.regs.setX (s.regs.x - 1))) s.page rfl
      have hvalid' := hvalid.update hready.wellFormed (Voice.ofNat n)
      cases n with
      | zero =>
        obtain ⟨s', hs', h'⟩ := tracks_updateFilter hready.carries hready.wellFormed hpred hvalid'.filter
        refine comes_congr ((run_voices_last (UInt8.toNat_inj.mp hn)).trans run_to_filter) (comes_ret hs' ?_)
        exact h'
      | succ n =>
        obtain ⟨hs, hlast⟩ := run_voices_round here hn hbound
        exact comes_goto hs fun fuel' _ =>
          comes_voices hready hdepth n hlast (Nat.lt_of_succ_lt hbound) hpred hvalid' htune
    rw [itemsFrom_play.2.2.1]
    have hsounds := sounds_iff (h.parts (Voice.ofNat n))
    rw [← hv] at hsounds
    by_cases hsounding : Sounds s s.regs.x.toNat
    · obtain ⟨hactive, hgoes⟩ := hsounds.mp hsounding
      obtain ⟨hactive', hgoes', hpitch⟩ := pitch_update song hactive hgoes
      -- the voices after this one leave its pitch alone
      have hlater : ((down (n + 1)).foldl (Rendition.update song) r).part (Voice.ofNat n) =
          (r.update song (Voice.ofNat n)).part (Voice.ofNat n) :=
        part_foldl_update fun hmem => by
          have := val_of_mem_down (Nat.le_of_lt hbound) hmem
          rw [val_ofNat hbound] at this
          omega
      have hpitched := htune (Voice.ofNat n)
      rw [hlater, hpitch] at hpitched
      have hloaded := h.compute (plain (s.regs.setA (s.cells (33 + s.regs.x.toNat)))) s.page rfl
      refine comes_call (R := fun s' => s'.regs.x = s.regs.x ∧
        Tracks song commands here (r.update song (Voice.ofNat n)) s') hdepth
          (run_voice_sounds _ _ hx h.saved hsounding) (fun fuel' _ => ?_) fun fuel' _ s' hdone =>
            hnext (by rw [hdone.1, hn]) hdone.2
      obtain ⟨s', hs', hx', h'⟩ := tracks_updateVoice hready.carries hready.wellFormed hloaded hv (hvalid.part _)
        (hpitched hactive' hgoes')
      rw [update_of_active hactive hgoes]
      exact comes_ret hs' ⟨hx', h'⟩
    · have hupdate : r.update song (Voice.ofNat n) = r := by
        unfold Rendition.update
        refine if_neg fun h => hsounding (hsounds.mpr ?_)
        simpa using h
      have hloaded := h.compute (plain (s.regs.setA (s.cells (36 + s.regs.x.toNat)))) s.page rfl
      rw [← hupdate] at hloaded
      exact comes_congr (run_voice_silent _ _ hx hsounding) (hnext hn hloaded)

/-! ## Rows -/

/-- **A row of every voice is played**, from the last one down. -/
theorem comes_rows (hready : here.Ready song commands) (hdepth : depth + 4 ≤ stackLimit)
    (hafter : ∀ (fuel : Nat) (s : State), s.regs.x = 2 → Tracks song commands here r' s → r'.Valid song →
      Comes here depth fuel (play.drop 15 ++ itemsFrom "row") s Q) : ∀ (n : Nat) {fuel : Nat}
    {r : Rendition} {s : State}, s.regs.x.toNat = n → n < voiceCount → Tracks song commands here r s → r.Valid song →
      (down (n + 1)).foldlM (Rendition.playRow song) r = some r' → Comes here depth fuel (itemsFrom "play_rows") s Q
  | n, fuel, r, s, hn, hbound, h, hvalid, hrows => by
    have hx : s.regs.x.toNat < 3 := hn ▸ hbound
    have hv : s.regs.x.toNat = (Voice.ofNat n).val := by rw [hn, val_ofNat hbound]
    rw [down, List.foldlM_cons] at hrows
    obtain ⟨r₁, hrow, hrows⟩ := Option.bind_eq_some_iff.mp hrows
    have hvalid₁ := (Rendition.Valid.invariant hready.wellFormed).playRow hvalid hrow
    -- the voices before this one
    have hnext {fuel : Nat} {s : State} (hn : s.regs.x.toNat = n) (h : Tracks song commands here r₁ s) :
        Comes here depth fuel (play.drop 10 ++ itemsFrom "row") s Q := by
      cases n with
      | zero =>
        cases hrows
        exact comes_congr (run_rows_last _ _ (UInt8.toNat_inj.mp hn))
          (hafter _ _ rfl (h.compute (plain (s.regs.setX 2)) s.page rfl) hvalid₁)
      | succ n =>
        obtain ⟨hs, hlast⟩ := run_rows_round here hn hbound
        exact comes_goto hs fun fuel' _ =>
          comes_rows hready hdepth hafter n hlast (Nat.lt_of_succ_lt hbound)
            (h.compute (plain (s.regs.setX (s.regs.x - 1))) s.page rfl) hvalid₁ hrows
    rw [itemsFrom_play.2.1]
    have hloaded := h.compute (plain (s.regs.setA (s.cells (36 + s.regs.x.toNat)))) s.page rfl
    have hflag := (h.parts (Voice.ofNat n)).stopped
    rw [← hv] at hflag
    by_cases hstopped : s.cells (36 + s.regs.x.toNat) = 0
    · have hgoes : (r.part (Voice.ofNat n)).stopped = false := flag_eq_zero.mp (hflag.symm.trans hstopped)
      refine comes_call (by omega) (run_row_plays _ _ hx h.saved hstopped)
        (fun fuel' _ => comes_row hready (by omega) hloaded hv hgoes hvalid hrow) fun fuel' _ s' hdone => ?_
      exact hnext (by rw [hdone.1, val_ofNat hbound]) hdone.2
    · have hsilent : r₁ = r := by
        unfold Rendition.playRow at hrow
        dsimp only at hrow
        rw [if_pos] at hrow
        · cases hrow
          rfl
        · by_contra hgoes
          rw [hflag, flag_eq_zero] at hstopped
          simp_all
      subst hsilent
      exact comes_congr (run_row_stopped _ _ hx hstopped) (hnext hn hloaded)

/-! ## Frames -/

/-- The tick is set. -/
theorem Tracks.tick (h : Tracks song commands here r s) (regs : Registers) (hdecimal : regs.p.decimal = s.regs.p.decimal)
    (tick : UInt8) :
    Tracks song commands here { r with tick } { s with regs, cells := Function.update s.cells 61 tick } := by
  have hkeeps : Keeps [61] { s with regs } { s with regs, cells := Function.update s.cells 61 tick } :=
    ⟨rfl, rfl, rfl, fun n hn => Function.update_of_ne (by simpa using hn) ..⟩
  have hcell {n : Nat} (hn : n ≠ 61) : Function.update s.cells 61 tick n = s.cells n := Function.update_of_ne hn ..
  have hself : Function.update s.cells 61 tick 61 = tick := Function.update_self ..
  exact (h.compute regs s.page hdecimal).share hkeeps (by decide) rfl
    ⟨h.common.sid, (hcell (by decide)).trans h.common.tempo, hself, (hcell (by decide)).trans h.common.filter,
      (hcell (by decide)).trans h.common.modeVolume⟩

/-- The voices are updated at the end of a frame. -/
theorem comes_sounded (hready : here.Ready song commands) (hdepth : depth + 2 ≤ stackLimit)
    (h : Tracks song commands here r s) (hx : s.regs.x = 2) (hvalid : r.Valid song) (htune : (r.soundAll song).InTune) :
    Comes here depth fuel (play.drop 15 ++ itemsFrom "row") s (Tracks song commands here (r.soundAll song)) := by
  rw [← itemsFrom_play.2.2.1]
  refine comes_voices hready hdepth 2 (congrArg UInt8.toNat hx) (by decide) h hvalid fun v => ?_
  have hv := htune v
  rw [Rendition.soundAll, part_stepFilter] at hv
  exact hv

/-- **A frame is played.** -/
theorem comes_play (hready : here.Ready song commands) (hdepth : depth + 4 ≤ stackLimit)
    (h : Tracks song commands here r s) (hvalid : r.Valid song) (hframe : r.frame song = some r') (htune : r'.InTune) :
    Comes here depth fuel (itemsFrom "play") s (Tracks song commands here r') := by
  obtain ⟨r₁, hrows, rfl⟩ := Option.map_eq_some_iff.mp hframe
  have hvoices {fuel : Nat} {s : State} (hx : s.regs.x = 2) (h : Tracks song commands here r₁ s) (hvalid : r₁.Valid song) :
      Comes here depth fuel (play.drop 15 ++ itemsFrom "row") s (Tracks song commands here (r₁.soundAll song)) :=
    comes_sounded hready (by omega) h hx hvalid htune
  have htick : s.cells 61 = r.tick := h.common.tick
  unfold Rendition.playRows at hrows
  rw [itemsFrom_play.1]
  by_cases hlast : s.cells 61 = 1
  · rw [if_pos (show r.tick - 1 = 0 by rw [← htick, hlast]; rfl)] at hrows
    have htempo : s.cells 60 = r.tempo := h.common.tempo
    refine comes_congr (run_play_rows _ _ hlast) ?_
    rw [← itemsFrom_play.2.1]
    have hticked := h.tick (plain ((s.regs.setA (s.cells 60)).setX 2)) rfl r.tempo
    rw [← htempo] at hticked
    exact comes_rows hready hdepth (fun fuel s hx h hvalid => hvoices hx h hvalid) 2 rfl (by decide) hticked
      ⟨hvalid.part, hvalid.filter⟩ (htempo ▸ hrows)
  · have hfirst : r.tick - 1 ≠ 0 := fun hzero => hlast (by
      rw [htick, ← UInt8.sub_add_cancel r.tick 1, hzero]
      rfl)
    rw [if_neg hfirst] at hrows
    cases hrows
    refine comes_congr (run_play_frame _ _ hlast) (hvoices rfl ?_ ⟨hvalid.part, hvalid.filter⟩)
    rw [htick]
    exact h.tick (plain (s.regs.setX 2)) rfl (r.tick - 1)

end Chiptune.Player.Minimal
