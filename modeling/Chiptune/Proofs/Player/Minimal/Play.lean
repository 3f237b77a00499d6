/-
A play call: a row of every voice when the tick runs out, then the registers.
-/
import Chiptune.Proofs.Player.Minimal.Frame

namespace Chiptune.Player.Minimal

open Machine Sound Song Music

variable {here there : Site} {s s' t t' : State} {rest : List Item}

/-! ## Loops over the voices -/

theorem run_voice_sounds (here : Site) (rest : List Item) (hx : s.regs.x.toNat < 3) (hsaved : s.saved = [])
    (hsounds : Sounds s s.regs.x.toNat) :
    run here none (play.drop 15 ++ rest) s = (.call "update_voice" (play.drop 21 ++ rest), { s with
      regs := plain (s.regs.setA (s.cells (33 + s.regs.x.toNat))) }) := by
  simp -implicitDefEqProofs [play, hx, hsaved, hsounds.1, hsounds.2]

theorem run_voice_silent (here : Site) (rest : List Item) (hx : s.regs.x.toNat < 3) (hsilent : ¬ Sounds s s.regs.x.toNat) :
    run here none (play.drop 15 ++ rest) s = run here none (play.drop 21 ++ rest) { s with
      regs := plain (s.regs.setA (s.cells (36 + s.regs.x.toNat))) } := by
  generalize hafter : play.drop 21 ++ rest = after
  have hitems : play.drop 15 ++ rest = (play.drop 15).take 6 ++ after := by
    rw [← hafter]
    rfl
  have hfound (s : State) : run here (some "play_voices_next") after s = run here none after s := by
    rw [← hafter]
    rfl
  rw [hitems]
  by_cases hstopped : s.cells (36 + s.regs.x.toNat) = 0
  · have hactive : s.cells (33 + s.regs.x.toNat) = 0 := by
      by_contra h
      exact hsilent ⟨h, hstopped⟩
    simp -implicitDefEqProofs [play, hx, hstopped, hactive, hfound]
  · simp -implicitDefEqProofs [play, hx, hstopped, hfound]

theorem run_voices_next (hx : s.regs.x.toNat < 3) (hpositive : s.regs.x ≠ 0) :
    run here none (play.drop 21 ++ rest) s = run here (some "play_voices") (play.drop 24 ++ rest) { s with
      regs := plain (s.regs.setX (s.regs.x - 1)) } := by
  simp -implicitDefEqProofs [play, sign_pred (by omega) hpositive]

theorem run_voices_last (hzero : s.regs.x = 0) :
    run here none (play.drop 21 ++ rest) s = run here (some "update_filter") rest { s with
      regs := plain (s.regs.setX (s.regs.x - 1)) } := by
  simp -implicitDefEqProofs [play, sign_pred_zero hzero]

theorem run_row_plays (here : Site) (rest : List Item) (hx : s.regs.x.toNat < 3) (hsaved : s.saved = [])
    (hstopped : s.cells (36 + s.regs.x.toNat) = 0) :
    run here none (play.drop 6 ++ rest) s = (.call "row" (play.drop 10 ++ rest), { s with
      regs := plain (s.regs.setA (s.cells (36 + s.regs.x.toNat))) }) := by
  simp -implicitDefEqProofs [play, hx, hsaved, hstopped]

theorem run_row_stopped (here : Site) (rest : List Item) (hx : s.regs.x.toNat < 3)
    (hstopped : s.cells (36 + s.regs.x.toNat) ≠ 0) :
    run here none (play.drop 6 ++ rest) s = run here none (play.drop 10 ++ rest) { s with
      regs := plain (s.regs.setA (s.cells (36 + s.regs.x.toNat))) } := by
  generalize hafter : play.drop 10 ++ rest = after
  have hitems : play.drop 6 ++ rest = (play.drop 6).take 4 ++ after := by
    rw [← hafter]
    rfl
  have hfound (s : State) : run here (some "play_rows_next") after s = run here none after s := by
    rw [← hafter]
    rfl
  rw [hitems]
  simp -implicitDefEqProofs [play, hx, hstopped, hfound]

theorem run_rows_next (here : Site) (rest : List Item) (hx : s.regs.x.toNat < 3) (hpositive : s.regs.x ≠ 0) :
    run here none (play.drop 10 ++ rest) s = run here (some "play_rows") (play.drop 13 ++ rest) { s with
      regs := plain (s.regs.setX (s.regs.x - 1)) } := by
  generalize hafter : play.drop 13 ++ rest = after
  have hitems : play.drop 10 ++ rest = (play.drop 10).take 3 ++ after := by
    rw [← hafter]
    rfl
  rw [hitems]
  simp -implicitDefEqProofs [play, sign_pred (by omega) hpositive]

theorem run_rows_last (here : Site) (rest : List Item) (hzero : s.regs.x = 0) :
    run here none (play.drop 10 ++ rest) s = run here none (play.drop 15 ++ rest) { s with
      regs := plain (s.regs.setX 2) } := by
  generalize hafter : play.drop 15 ++ rest = after
  have hitems : play.drop 10 ++ rest = (play.drop 10).take 5 ++ after := by
    rw [← hafter]
    rfl
  rw [hitems]
  simp -implicitDefEqProofs [play, sign_pred_zero hzero]

theorem run_play_rows (here : Site) (rest : List Item) (htick : s.cells 61 = 1) :
    run here none (play ++ rest) s = run here none (play.drop 6 ++ rest) { s with
      regs := plain ((s.regs.setA (s.cells 60)).setX 2)
      cells := Function.update s.cells 61 (s.cells 60) } := by
  generalize hafter : play.drop 6 ++ rest = after
  have hitems : play ++ rest = play.take 6 ++ after := by
    rw [← hafter]
    rfl
  rw [hitems]
  simp -implicitDefEqProofs [play, htick]

theorem run_play_frame (here : Site) (rest : List Item) (htick : s.cells 61 ≠ 1) :
    run here none (play ++ rest) s = run here none (play.drop 15 ++ rest) { s with
      regs := plain ((s.regs.setX 2))
      cells := Function.update s.cells 61 (s.cells 61 - 1) } := by
  generalize hafter : play.drop 15 ++ rest = after
  have hitems : play ++ rest = play.take 15 ++ after := by
    rw [← hafter]
    rfl
  rw [hitems]
  simp -implicitDefEqProofs [play, htick]

/-! ## Blocks -/

set_option maxRecDepth 2000 in
theorem itemsFrom_play :
    itemsFrom "play" = play ++ itemsFrom "row" ∧ itemsFrom "play_rows" = play.drop 6 ++ itemsFrom "row" ∧
      itemsFrom "play_voices" = play.drop 15 ++ itemsFrom "row" ∧
      itemsFrom "update_filter" = updateFilter ++ itemsFrom "command" :=
  ⟨rfl, rfl, rfl, rfl⟩

theorem play_behind : .label "play_rows" ∉ play.drop 13 ++ itemsFrom "row" ∧
    .label "play_voices" ∉ play.drop 24 ++ itemsFrom "row" := by
  decide

/-- The loop over the rows goes on to the voice before. -/
theorem run_rows_round (here : Site) {n : Nat} (hn : s.regs.x.toNat = n + 1) (hbound : n + 1 < voiceCount) :
    run here none (play.drop 10 ++ itemsFrom "row") s =
        (.goto "play_rows", { s with regs := plain (s.regs.setX (s.regs.x - 1)) }) ∧ (s.regs.x - 1).toNat = n := by
  obtain ⟨hpositive, hx, hlast⟩ := pred_toNat hn hbound
  exact ⟨(run_rows_next here (itemsFrom "row") hx hpositive).trans (run_goto play_behind.1), hlast⟩

/-- The loop over the updates goes on to the voice before. -/
theorem run_voices_round (here : Site) {n : Nat} (hn : s.regs.x.toNat = n + 1) (hbound : n + 1 < voiceCount) :
    run here none (play.drop 21 ++ itemsFrom "row") s =
        (.goto "play_voices", { s with regs := plain (s.regs.setX (s.regs.x - 1)) }) ∧ (s.regs.x - 1).toNat = n := by
  obtain ⟨hpositive, hx, hlast⟩ := pred_toNat hn hbound
  exact ⟨(run_voices_next hx hpositive).trans (run_goto play_behind.2), hlast⟩

/-- What is between the routine and the filter. -/
def beforeFilter : List Item := (itemsFrom "row").takeWhile (· ≠ .label "update_filter")

set_option maxRecDepth 2000 in
theorem itemsFrom_beforeFilter : itemsFrom "row" = beforeFilter ++ itemsFrom "update_filter" ∧
    .label "update_filter" ∉ beforeFilter :=
  ⟨rfl, by decide⟩

theorem updateFilter_even :
    (∀ item ∈ updateFilter, even item = true) ∧ ∀ w ∈ ways none updateFilter, w = .ret := by decide

theorem voiced_updateFilter (x : UInt8) : Voiced x updateFilter := by
  intro m t hmem
  simp [updateFilter] at hmem

theorem touched_updateFilter {x : UInt8} {n : Nat} (hn : n ∈ touched x updateFilter) : n = 62 ∨ n = 63 := by
  rw [touched_eq [(62, false), (63, false), (62, false)] (by decide)] at hn
  simp [touchedCell] at hn
  omega

theorem run_to_filter : run here (some "update_filter") (itemsFrom "row") s = run here none (itemsFrom "update_filter") s := by
  rw [itemsFrom_beforeFilter.1, itemsFrom_play.2.2.2]
  exact run_ahead itemsFrom_beforeFilter.2

/-! ## The routine -/

section Routine

variable {score : Score} {spots : Nat → Spot} {depth : Nat}

/-- Two players step their filter programs. -/
theorem both_filter {fuel : Nat} (htwin : Twin here there) (h : Aligned score here there spots 0 s t) :
    Both here there depth fuel (itemsFrom "update_filter") s t (Aligned score here there spots 0) := by
  have hsteady := fun item hi => steady_of_even (updateFilter_even.1 item hi)
  have hvoiced (s : State) := voiced_updateFilter s.regs.x
  have hs := run_returning here (itemsFrom "command") hsteady updateFilter_even.2 (hvoiced s) h.here.saved
  have ht := run_returning there (itemsFrom "command") hsteady updateFilter_even.2 (hvoiced t)
    h.there.saved
  have hkeeps := (run_steady here updateFilter none hsteady (hvoiced s) h.here.saved).2
  have hkeeps' := (run_steady there updateFilter none hsteady (hvoiced t) h.there.saved).2
  rw [← h.x] at hkeeps'
  rw [itemsFrom_play.2.2.2]
  refine both_ret hs ht (h.keeps (Nat.le_refl _) hkeeps hkeeps' (fun n hn => ?_) (fun n hn => ?_)
    (fun n hn v _ hbound => ?_) fun _ halike => ?_)
  · rcases touched_updateFilter hn with rfl | rfl <;> rfl
  · have := touched_updateFilter hn
    omega
  · have := touched_updateFilter hn
    have hvoices : voiceCount = 3 := rfl
    omega
  · exact (run_alike htwin updateFilter none updateFilter_even.1 (hvoiced s) h.here.saved halike).2

/-- **Two players update their voices**, from the last one down. -/
theorem both_voices (htwin : Twin here there) (hdepth : depth + 2 ≤ stackLimit) : ∀ (n : Nat) {fuel : Nat} {s t : State},
    s.regs.x.toNat = n → n < voiceCount → Aligned score here there spots (n + 1) s t →
      Both here there depth fuel (itemsFrom "play_voices") s t (Aligned score here there spots 0)
  | n, fuel, s, t, hn, hbound, h => by
    have hx : s.regs.x.toNat < 3 := hn ▸ hbound
    -- the voices before this one
    have hnext {fuel : Nat} {s t : State} (hn : s.regs.x.toNat = n) (h : Aligned score here there spots n s t) :
        Both here there depth fuel (play.drop 21 ++ itemsFrom "row") s t (Aligned score here there spots 0) := by
      have hpred := h.compute (fun r => plain (r.setX (r.x - 1))) (fun _ => rfl) fun r r' hr => congrArg (· - 1) hr
      cases n with
      | zero =>
        have hzero : s.regs.x = 0 := UInt8.toNat_inj.mp hn
        exact both_congr ((run_voices_last hzero).trans run_to_filter) ((run_voices_last (h.x ▸ hzero)).trans run_to_filter)
          (both_filter htwin hpred)
      | succ n =>
        obtain ⟨hs, hlast⟩ := run_voices_round here hn hbound
        obtain ⟨ht, -⟩ := run_voices_round there (h.x ▸ hn) hbound
        exact both_goto hs ht fun fuel' _ => both_voices htwin hdepth n hlast (Nat.lt_of_succ_lt hbound) hpred
    rw [itemsFrom_play.2.2.1]
    by_cases hsounds : Sounds s s.regs.x.toNat
    · have hsounds' : Sounds t t.regs.x.toNat := by
        rw [Sounds, ← h.x, ← h.flags _ (by omega) (by omega), ← h.flags _ (by omega) (by omega)]
        exact hsounds
      have hloaded := h.compute (fun r => plain (r.setA (s.cells (33 + s.regs.x.toNat)))) (fun _ => rfl) fun r r' hr => hr
      have ht := run_voice_sounds there (itemsFrom "row") (h.x ▸ hx) h.there.saved hsounds'
      rw [← h.x, ← h.flags _ (by omega) (by omega)] at ht
      refine both_call (R := fun s' t' => Aligned score here there spots n s' t' ∧ s'.regs.x.toNat = n) hdepth
        (run_voice_sounds _ _ hx h.here.saved hsounds) ht (fun fuel' _ => ?_) fun fuel' _ s' t' hdone => hnext hdone.2 hdone.1
      obtain ⟨s', t', hs', ht', hdone⟩ := hloaded.update htwin hn hbound (hn ▸ hsounds)
      exact both_ret hs' ht' hdone
    · have hsilent' : ¬ Sounds t t.regs.x.toNat := by
        rw [Sounds, ← h.x, ← h.flags _ (by omega) (by omega), ← h.flags _ (by omega) (by omega)]
        exact hsounds
      have hloaded := h.down.compute (fun r => plain (r.setA (s.cells (36 + s.regs.x.toNat)))) (fun _ => rfl)
        fun r r' hr => hr
      have ht := run_voice_silent there (itemsFrom "row") (h.x ▸ hx) hsilent'
      rw [← h.x, ← h.flags _ (by omega) (by omega)] at ht
      exact both_congr (run_voice_silent _ _ hx hsounds) ht (hnext hn hloaded)

/-- What a frame leaves. -/
def FrameLeft (score : Score) (here there : Site) (s t : State) : Prop := ∃ spots, Aligned score here there spots 0 s t

/-- The voices are updated, after the rows if there were any. -/
theorem both_frame {fuel : Nat} (htwin : Twin here there) (hdepth : depth + 2 ≤ stackLimit)
    (h : Paired score here there spots s t) (hx : s.regs.x = 2) :
    Both here there depth fuel (play.drop 15 ++ itemsFrom "row") s t (FrameLeft score here there) := by
  rw [← itemsFrom_play.2.2.1]
  exact (both_voices htwin hdepth 2 (congrArg UInt8.toNat hx) (by decide) (.of_paired h)).mono fun _ _ h => ⟨spots, h⟩

/-- **Two players play a row of every voice**, from the last one down. -/
theorem both_rows (hshared : Shared score here there) (hdepth : depth + 4 ≤ stackLimit) : ∀ (n : Nat) {fuel : Nat}
    {spots : Nat → Spot} {s t : State}, s.regs.x.toNat = n → n < voiceCount → Paired score here there spots s t →
      Both here there depth fuel (itemsFrom "play_rows") s t (FrameLeft score here there)
  | n, fuel, spots, s, t, hn, hbound, h => by
    have hx : s.regs.x.toNat < 3 := hn ▸ hbound
    have hflag := h.alike.cells (36 + s.regs.x.toNat) (isAddress_eq_false.mpr (.inr (by omega)))
    have hregs := h.alike.regs
    -- the voices before this one
    have hnext {fuel : Nat} {spots : Nat → Spot} {s t : State} (hn : s.regs.x.toNat = n)
        (h : Paired score here there spots s t) :
        Both here there depth fuel (play.drop 10 ++ itemsFrom "row") s t (FrameLeft score here there) := by
      have hregs := h.alike.regs
      cases n with
      | zero =>
        have hzero : s.regs.x = 0 := UInt8.toNat_inj.mp hn
        have ht := run_rows_last there (itemsFrom "row") (hregs ▸ hzero)
        rw [← hregs] at ht
        exact both_congr (run_rows_last _ _ hzero) ht
          (both_frame hshared.twin (by omega) (h.compute (r := plain (s.regs.setX 2)) rfl s.page t.page) rfl)
      | succ n =>
        obtain ⟨hs, hlast⟩ := run_rows_round here hn hbound
        obtain ⟨ht, -⟩ := run_rows_round there (hregs ▸ hn) hbound
        rw [← hregs] at ht
        exact both_goto hs ht fun fuel' _ => both_rows hshared hdepth n hlast (Nat.lt_of_succ_lt hbound)
          (h.compute (r := plain (s.regs.setX (s.regs.x - 1))) rfl s.page t.page)
    have hloaded := h.compute (r := plain (s.regs.setA (s.cells (36 + s.regs.x.toNat)))) rfl s.page t.page
    rw [itemsFrom_play.2.1]
    by_cases hstopped : s.cells (36 + s.regs.x.toNat) = 0
    · have ht := run_row_plays there (itemsFrom "row") (hregs ▸ hx) h.there.saved
        (by rw [← hregs, ← hflag, hstopped])
      rw [← hregs, ← hflag] at ht
      refine both_call (R := RowLeft score here there s.regs.x) (by omega) (run_row_plays _ _ hx h.here.saved hstopped) ht
        (fun fuel' _ => both_row hshared (by omega) hloaded hx hstopped) fun fuel' _ s' t' hleft => ?_
      obtain ⟨hx', spots', h'⟩ := hleft
      exact hnext (by rw [hx', hn]) h'
    · have ht := run_row_stopped there (itemsFrom "row") (hregs ▸ hx)
        (by rw [← hregs, ← hflag]; exact hstopped)
      rw [← hregs, ← hflag] at ht
      exact both_congr (run_row_stopped _ _ hx hstopped) ht (hnext hn hloaded)

/-- The tick is set in both. -/
theorem Paired.tick {v : UInt8} (h : Paired score here there spots s t) {r : Registers}
    (hdecimal : r.p.decimal = s.regs.p.decimal) : Paired score here there spots
      { s with regs := r, cells := Function.update s.cells 61 v }
      { t with regs := r, cells := Function.update t.cells 61 v } := by
  have hkeeps (s : State) : Keeps [61] { s with regs := r } { s with regs := r, cells := Function.update s.cells 61 v } :=
    ⟨rfl, rfl, rfl, fun n hn => Function.update_of_ne (by simpa using hn) ..⟩
  refine (h.compute hdecimal s.page t.page).keeps (hkeeps s) (hkeeps t) (by decide)
    ⟨rfl, h.alike.saved, h.alike.sid, fun n hn => ?_⟩
  simp only [Function.update_apply, h.alike.cells n hn]

/-- **Two players play a frame in step.** -/
theorem both_play {fuel : Nat} (hshared : Shared score here there) (hdepth : depth + 4 ≤ stackLimit)
    (h : Paired score here there spots s t) :
    Both here there depth fuel (itemsFrom "play") s t (FrameLeft score here there) := by
  have hregs := h.alike.regs
  have htick := h.alike.cells 61 (by decide)
  rw [itemsFrom_play.1]
  by_cases hlast : s.cells 61 = 1
  · have ht := run_play_rows there (itemsFrom "row") (htick ▸ hlast)
    rw [← hregs, ← h.alike.cells 60 (by decide)] at ht
    refine both_congr (run_play_rows _ _ hlast) ht ?_
    rw [← itemsFrom_play.2.1]
    exact both_rows hshared hdepth 2 rfl (by decide) (h.tick rfl)
  · have ht := run_play_frame there (itemsFrom "row") (htick ▸ hlast)
    rw [← hregs, ← htick] at ht
    exact both_congr (run_play_frame _ _ hlast) ht (both_frame hshared.twin (by omega) (h.tick rfl) rfl)

end Routine

end Chiptune.Player.Minimal
