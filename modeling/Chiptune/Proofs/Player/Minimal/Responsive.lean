/-
The minimal player is not caught in a loop.

A routine that returns in `exec` returns on the processor (`reaches_of_exec`).
The player's own do in every score in which reading on ends, one frame after
another (`performs_of_playing`), and in the song that a player was encoded with
it does. So a session with time enough plays as many frames as it is asked for.
-/
import Chiptune.Proofs.Playback.Returning
import Chiptune.Proofs.Player.Minimal.Encoded
import Chiptune.Proofs.Player.Minimal.Returns

namespace Chiptune.Player.Minimal

open Machine Sound Song Encode Playback

variable {here : Site} {st : State} {score : Score} {Q : State → Prop}

/-! ## Routines -/

/-- **A routine that returns in `exec`** gets to where it was called from. -/
theorem reaches_of_exec (hhere : here.Stands) : ∀ (fuel : Nat) {c : Core} {before items : List Item} {s s' : State}
    {σ : Bytes} {depth : Nat} {w : UInt16}, exec here depth fuel items s = .done s' → listing = before ++ items →
      c.regs.pc = here.address (Assembly.length before) → Shows here (s.saved ++ (returnBytes w ++ σ)) s c →
      (returnBytes w ++ σ).length = depth → depth ≤ stackLimit →
      ∃ k d, c.Reaches k d ∧ s'.saved = [] ∧ Shows here σ s' d ∧ d.regs.pc = w
  | 0, _, _, _, _, _, _, _, _, hexec, _, _, _, _, _ => by cases hexec
  | fuel + 1, c, before, items, s, s', σ, depth, w, hexec, hitems, hpc, hs, hdepth, hlimit => by
    have hbound : stackLimit = 16 := rfl
    obtain ⟨k, harrives, -⟩ := run_sound hhere (by omega) items none hitems hs hpc
    rw [exec] at hexec
    rcases hrun : run here none items s with ⟨way, s₁⟩
    rw [hrun] at harrives hexec
    cases way with
    | ret =>
      cases hexec
      obtain ⟨hsaved, hret⟩ := harrives
      obtain ⟨d, hcd, hs', hpc'⟩ := hret w σ rfl
      exact ⟨k, d, hcd, hsaved, hs', hpc'⟩
    | goto l =>
      obtain ⟨d, n, hcd, hs₁, hn, hpc₁⟩ := harrives
      obtain ⟨before₁, hitems₁, rfl⟩ := listing_itemsFrom hn
      obtain ⟨j, e, hde, he⟩ := reaches_of_exec hhere fuel hexec hitems₁ hpc₁ hs₁ hdepth hlimit
      exact ⟨k + j, e, hcd.trans hde, he⟩
    | call l rest =>
      dsimp only at hexec
      split at hexec
      · cases hexec
      next hroom =>
        obtain ⟨hsaved₁, d, n, before₁, hrest, hcd, hs₁, hn, hpc₁⟩ := harrives
        obtain ⟨before₂, hitems₂, rfl⟩ := listing_itemsFrom hn
        cases hcallee : exec here (depth + 2) fuel (itemsFrom l) s₁ with
        | done s₂ =>
          rw [hcallee] at hexec
          -- the callee, whose caller is what was called so far, and what follows the call
          obtain ⟨j, e, hde, hsaved₂, hs₂, hpc₂⟩ := reaches_of_exec hhere fuel hcallee hitems₂ hpc₁
            (by rw [hsaved₁]; exact hs₁) (show _ = depth + 2 by rw [List.length_append, hdepth, returnBytes]; simp; omega)
            (by omega)
          obtain ⟨i, h, heh, hh⟩ := reaches_of_exec hhere fuel hexec hrest hpc₂ (by rw [hsaved₂]; exact hs₂) hdepth hlimit
          exact ⟨k + (j + i), h, hcd.trans (hde.trans heh), hh⟩
        | timeout | stuck =>
          rw [hcallee] at hexec
          cases hexec
    | fall | stuck => cases hexec

/-- **A routine of the player that returns** can be called. -/
theorem calls_of_returns (e : Entry) (hhere : here.Stands) {a : UInt8} {c : Core} (hs : Shows here [] st c)
    (hsaved : st.saved = []) (h : Returns here 2 (itemsFrom e.label) (called st a) Q) :
    ∃ k d st', Core.Calls (here.address e.offset) a k c d ∧ Q st' ∧ Shows here [] st' d := by
  obtain ⟨fuel, st', hexec, hQ⟩ := h
  rw [← exec_congr (e.run_eq here (called st a))] at hexec
  obtain ⟨k, d, hreaches, -, hs', hpc⟩ := reaches_of_exec hhere fuel hexec (List.take_append_drop e.index listing).symm
    (c := c.calling (here.address e.offset) a) (w := haltAddress) (by rw [e.length_take]; rfl)
    (shows_calling hhere hs hsaved _ a) rfl (by decide)
  exact ⟨k, d, st', ⟨k, Nat.le_refl k, hreaches, hpc⟩, hQ, hs'⟩

/-! ## Frames -/

theorem Playing.called {spots : Nat → Spot} (h : Playing score here spots st) (a : UInt8) :
    Playing score here spots (called st a) :=
  (h.paired.compute (r := plain { st.regs with a }) rfl st.page st.page).here

/-- **A frame** can be played from wherever the player is. -/
theorem Plays.calls {c : Core} (hshared : Shared score here here) (hending : score.Ending) (hhere : here.Stands)
    (h : Plays score here c) : ∃ k d, Core.Calls (here.address 3) 0 k c d ∧ Plays score here d := by
  obtain ⟨st, spots, hplaying, hs⟩ := h
  obtain ⟨k, d, st', hcall, ⟨spots', hplaying'⟩, hs'⟩ :=
    calls_of_returns .play hhere hs hplaying.saved (returns_play hshared hending (by decide) (hplaying.called 0))
  exact ⟨k, d, hcall, st', spots', hplaying', hs'⟩

/-- **A program that is the player** is recorded by every job that has time for it, however many frames are asked
for. -/
theorem record_of_ending {p : Program} (hshared : Shared score here here) (hending : score.Ending) (hhere : here.Stands)
    (hp : IsProgram here p) : ∃ budget, ∀ (n : Nat) (limits : Limits), budget ≤ limits.initCycles →
      budget ≤ limits.callCycles → ∃ r, record p n limits false = .ok r := by
  have hinit : Returns here 2 (itemsFrom "init") (called (freshState here) 0) fun s' =>
      ∃ spots, Playing score here spots s' :=
    returns_init hshared (by decide) rfl rfl fun m hm => if_neg (Nat.not_lt.mpr hm)
  obtain ⟨k, c, st, hcall, ⟨spots, h⟩, hs⟩ :=
    calls_of_returns .init hhere (shows_fresh here (here.address 0)) rfl hinit
  obtain ⟨l, hframes⟩ := Core.exists_performs fun c (hc : Plays score here c) => hc.calls hshared hending hhere
  refine ⟨max (8 * k) (8 * l), fun n limits hinitCycles hcallCycles => ?_⟩
  have hcall : Core.Calls p.init p.song k ⟨here.image, .cleared, { pc := p.init }⟩ c := by
    rw [hp.init, hp.song]
    exact hcall
  exact record_of_performs hp.play hp.image hcall (hframes n c ⟨st, spots, h, hs⟩) (by omega) (by omega)

/-! ## Songs -/

/-- There is room in memory for what is built. -/
theorem image_of_packed {song : Song} {commands : List Command} (p : Packed template song commands) :
    ∃ image, p.container.program.image = .ok image :=
  ⟨_, if_neg (Nat.not_lt.mpr (Nat.le_trans p.image_le_limit (Layout.limitOf_le p.base)))⟩

/-- **Reading a row always ends**, in every song without faults. So it does in a song that is encoded, as it is and as
it was cut to fit, and the player that it was encoded with is not caught in a loop: where it is clear of the stack and
of the chip, there is a time in which it starts the song, and in which it plays any frame of it. -/
theorem reading_ends :
    (∀ song : Song, song.WellFormed → RowsEnd song) ∧
    ∀ (song : Song) (options : EncodeOptions) (j j' : Journal) (e : Encoded), encode song template options j = .ok e j' →
      RowsEnd song ∧ RowsEnd (Fit.truncated template (Fit.playable template song)) ∧
        (0x200 ≤ e.base.toNat → e.base.toNat < windowStart ∨ windowEnd ≤ e.base.toNat →
          ∃ budget, ∀ (n : Nat) (limits : Limits), budget ≤ limits.initCycles → budget ≤ limits.callCycles →
            ∃ r, record e.container.program n limits false = .ok r) := by
  refine ⟨fun song hsong => rowsEnd_of_wellFormed hsong, fun song options j j' e hencode => ?_⟩
  obtain ⟨hsong, p, hcontainer, hbase⟩ := packed_of_encode hencode
  refine ⟨rowsEnd_of_wellFormed hsong, rowsEnd_of_wellFormed p.wellFormed, fun hlow hclear => ?_⟩
  rw [hbase] at hlow hclear
  rw [hcontainer]
  obtain ⟨image, himage⟩ := image_of_packed p
  have hclear : Clear p := ⟨hlow, hclear⟩
  exact record_of_ending (shared_of_clear (fits_truncated hsong) hclear hclear himage himage)
    (ending_scoreOf p.wellFormed _) (stands_of_clear hclear himage) (isProgram himage)

theorem reading_ends_overreach :
    overreach.WellFormed ∧ RowsEnd overreach ∧ ∃ e j, encode overreach template { base := some 0x1000 } {} = .ok e j ∧
      RowsEnd (Fit.truncated template (Fit.playable template overreach)) ∧
      0x200 ≤ e.base.toNat ∧ e.base.toNat < windowStart ∧
      ∃ budget, ∀ (n : Nat) (limits : Limits), budget ≤ limits.initCycles → budget ≤ limits.callCycles →
        ∃ r, record e.container.program n limits false = .ok r := by
  have hsong : overreach.WellFormed := by decide
  obtain ⟨e, j, hencode, hbase, -⟩ := played_of_seen seen_overreach.1
  have hlow : 0x200 ≤ e.base.toNat := by
    rw [hbase]
    decide
  have hhigh : e.base.toNat < windowStart := by
    rw [hbase]
    decide
  obtain ⟨-, htruncated, hplays⟩ := reading_ends.2 _ _ _ _ _ hencode
  exact ⟨hsong, reading_ends.1 _ hsong, e, j, hencode, htruncated, hlow, hhigh, hplays hlow (.inl hhigh)⟩

end Chiptune.Player.Minimal
