/-
The start of a song, as the player plays it.

The variables are cleared and the settings made. Then the voices take their
first entries from the last one down; those that have not yet are as they were
cleared (`Opened`).
-/
import Chiptune.Proofs.Player.Minimal.Rendering
import Chiptune.Proofs.Player.Minimal.Start

namespace Chiptune.Player.Minimal

open Machine Sound Song Music

variable {here : Site} {song : Song} {commands : List Command} {s s' : State} {r r' : Rendition} {v : Voice}
  {depth fuel : Nat} {Q : State → Prop} {b : Bank}

/-! ## Clearing -/

/-- The player clears its variables, from the last one down, and leaves the chip alone. -/
theorem comes_clear (hnext : ∀ (fuel : Nat) (s : State), Clearing 0 s s → s.sid = b →
      Comes here depth fuel (initSong.drop 7 ++ itemsFrom "next_order") s Q) :
    ∀ (n : Nat) {fuel : Nat} {s : State}, s.regs.x.toNat = n → n < 70 → Clearing (n + 1) s s → s.sid = b →
      Comes here depth fuel (itemsFrom "init_clear") s Q
  | 0, fuel, s, hn, _, h, hsid => by
    rw [itemsFrom_init.2.1]
    exact comes_congr (run_clear_last (UInt8.toNat_inj.mp hn)) (hnext _ _ (h.cleared hn) hsid)
  | n + 1, fuel, s, hn, hbound, h, hsid => by
    obtain ⟨hs, hlast⟩ := run_clear_round here hn hbound
    exact comes_goto hs fun fuel' _ => comes_clear hnext n hlast (Nat.lt_of_succ_lt hbound) (h.cleared hn) hsid

/-! ## Voices -/

/-- The voices from `k` on have taken their first entries, and the others nothing. -/
structure Opened (song : Song) (commands : List Command) (here : Site) (k : Nat) (r : Rendition) (s : State) : Prop where
  saved : s.saved = []
  decimal : s.regs.p.decimal = false
  common : r.Common s
  blank : ∀ v : Voice, v.val < k → r.part v = {} ∧ ∀ n < 60, n % 3 = v.val → s.cells n = 0
  parts : ∀ v : Voice, k ≤ v.val → (r.part v).In v s
  places : ∀ v : Voice, k ≤ v.val → (r.part v).At song commands here v s

namespace Opened

theorem tracks (h : Opened song commands here 0 r s) : Tracks song commands here r s :=
  ⟨h.saved, h.decimal, h.common, fun v => h.parts v (Nat.zero_le _), fun v => h.places v (Nat.zero_le _)⟩

theorem compute {k : Nat} (h : Opened song commands here k r s) (regs : Registers)
    (hdecimal : regs.p.decimal = s.regs.p.decimal) : Opened song commands here k r { s with regs } :=
  ⟨h.saved, hdecimal.trans h.decimal, ⟨h.common.sid, h.common.tempo, h.common.tick, h.common.filter, h.common.modeVolume⟩,
    h.blank, fun v hv => (h.parts v hv).congr (fun _ _ _ _ => rfl) v.isLt,
    fun v hv => (h.places v hv).congr (fun _ _ _ => rfl) v.isLt⟩

end Opened

/-- A voice that is led to its order list has nothing but that. -/
theorem in_led (here : Site) (hx : s.regs.x.toNat = v.val) (hblank : ∀ n < 60, n % 3 = v.val → s.cells n = 0) :
    ({} : Part).In v (settled (led here s)) := by
  have hvoice : v.val < 3 := v.isLt
  have hzero (n : Nat) (hn : n < 20) : s.cells (3 * n + v.val) = 0 := hblank _ (by omega) (by omega)
  have hcell (n : Nat) (hn : 5 ≤ n ∧ n < 20) (hpulse : n ≠ 16) : (settled (led here s)).cells (3 * n + v.val) = 0 := by
    rw [(led_keeps here s).cells _ ?_, hzero n hn.2]
    rw [hx]
    simp only [ledCells, List.mem_cons, List.not_mem_nil, or_false]
    omega
  have hpulse : (settled (led here s)).cells (48 + v.val) = 0xFF := by
    simp [settled, led, hx]
  exact ⟨hcell 5 (by decide) (by decide), hcell 6 (by decide) (by decide), hcell 7 (by decide) (by decide),
    hcell 8 (by decide) (by decide), hcell 9 (by decide) (by decide), hcell 10 (by decide) (by decide),
    hcell 11 (by decide) (by decide), hcell 12 (by decide) (by decide), hcell 13 (by decide) (by decide),
    hcell 14 (by decide) (by decide), hcell 15 (by decide) (by decide), hpulse, hcell 17 (by decide) (by decide),
    hcell 18 (by decide) (by decide), hcell 19 (by decide) (by decide)⟩

/-- **A voice takes its first entry.** -/
theorem Opened.led (hready : here.Ready song commands) {n : Nat} (h : Opened song commands here (n + 1) r s)
    (hn : s.regs.x.toNat = n) (hbound : n < voiceCount) :
    ∃ s', run here none (itemsFrom "next_order") (led here s) = (.ret, s') ∧ s'.regs.x.toNat = n ∧
      Opened song commands here n (r.enter song (Voice.ofNat n)) s' := by
  have hv : s.regs.x.toNat = (Voice.ofNat n).val := by rw [hn, val_ofNat hbound]
  have hx : s.regs.x.toNat < 3 := hn ▸ hbound
  have hvoices : voiceCount = 3 := rfl
  obtain ⟨hpart, hblank⟩ := h.blank (Voice.ofNat n) (by rw [val_ofNat hbound]; exact Nat.lt_succ_self n)
  have hled := led_keeps here s
  have hin := in_led here hv hblank
  have hlists := led_lists hready.stored hx (hblank _ (by omega) (by omega))
  have hcommon : r.Common (settled (Minimal.led here s)) := by
    refine h.common.keeps hled (fun m hm => .inl ?_) h.common.sid rfl rfl rfl rfl
    simp only [ledCells, List.mem_cons, List.not_mem_nil, or_false] at hm
    omega
  rw [← hpart] at hin
  rw [show (0 : Nat) = (r.part (Voice.ofNat n)).entry by rw [hpart], hv] at hlists
  obtain ⟨s', hs', hkeeps, hpart', hplace', hcommon'⟩ := enter_spec (s := settled (Minimal.led here s)) hready hv h.saved
    h.decimal hcommon hin hlists
  have hrun := @run_settled here (Minimal.led here s) hx
  rw [hv] at hled
  -- the other voices
  have hother {u : Voice} (hu : u ≠ Voice.ofNat n) {m : Nat} (hm : m < 60) (hvoice : m % 3 = u.val) :
      s'.cells m = s.cells m := by
    have hne : u.val ≠ (Voice.ofNat n).val := fun e => hu (Fin.ext e)
    have hlt : (Voice.ofNat n).val < 3 := (Voice.ofNat n).isLt
    rw [hkeeps.cells m fun hmem => hne (by rw [← (orderCells_voice hmem).2, hvoice]), hled.cells m fun hmem => ?_]
    simp only [ledCells, List.mem_cons, List.not_mem_nil, or_false] at hmem
    omega
  have hdone {u : Voice} (hu : n ≤ u.val) (hne : u ≠ Voice.ofNat n) : n + 1 ≤ u.val := by
    refine Nat.lt_of_le_of_ne hu fun e => hne (Fin.ext ?_)
    rw [val_ofNat hbound, e]
  refine ⟨s', hrun.trans hs', (congrArg UInt8.toNat hkeeps.x).trans hn, hkeeps.saved.trans h.saved,
    hkeeps.decimal.trans h.decimal, hcommon', fun u hu => ?_, fun u hu => ?_, fun u hu => ?_⟩
  · have hne : u ≠ Voice.ofNat n := fun e => by
      rw [e, val_ofNat hbound] at hu
      exact Nat.lt_irrefl n hu
    obtain ⟨hempty, hzero⟩ := h.blank u (Nat.lt_succ_of_lt hu)
    exact ⟨(part_enter_of_ne hne).trans hempty, fun m hm hvoice => (hother hne hm hvoice).trans (hzero m hm hvoice)⟩
  · by_cases hne : u = Voice.ofNat n
    · exact hne ▸ hpart'
    · rw [part_enter_of_ne hne]
      refine (h.parts u (hdone hu hne)).congr (fun m _ hm hvoice => hother hne hm ?_) u.isLt
      rw [hvoice, Nat.mod_eq_of_lt u.isLt]
  · by_cases hne : u = Voice.ofNat n
    · exact hne ▸ hplace'
    · rw [part_enter_of_ne hne]
      refine (h.places u (hdone hu hne)).congr (fun m hm hvoice => hother hne (by omega) ?_) u.isLt
      rw [hvoice, Nat.mod_eq_of_lt u.isLt]

/-- The voices take their first entries, from the last one down. -/
theorem comes_leads (hready : here.Ready song commands) (hdepth : depth + 2 ≤ stackLimit) : ∀ (n : Nat) {fuel : Nat}
    {r : Rendition} {s : State}, s.regs.x.toNat = n → n < voiceCount → Opened song commands here (n + 1) r s →
      Comes here depth fuel (itemsFrom "init_voice") s
        (Tracks song commands here ((down (n + 1)).foldl (fun r v => r.enter song v) r))
  | n, fuel, r, s, hn, hbound, h => by
    have hx : s.regs.x.toNat < 3 := hn ▸ hbound
    rw [itemsFrom_init.2.2]
    refine comes_call (R := fun s' => s'.regs.x.toNat = n ∧ Opened song commands here n (r.enter song (Voice.ofNat n)) s')
      hdepth (run_lead hx h.saved) (fun fuel' _ => ?_) fun fuel' _ s' hdone => ?_
    · obtain ⟨s', hs', hn', h'⟩ := h.led hready hn hbound
      exact comes_ret hs' ⟨hn', h'⟩
    · obtain ⟨hn', h'⟩ := hdone
      have hpred := h'.compute (plain (s'.regs.setX (s'.regs.x - 1))) rfl
      cases n with
      | zero => exact comes_ret (run_lead_last _ _ (UInt8.toNat_inj.mp hn') h'.saved) hpred.tracks
      | succ n =>
        obtain ⟨hs, hlast⟩ := run_lead_round here hn' hbound
        exact comes_goto hs fun fuel'' _ =>
          comes_leads hready hdepth n hlast (Nat.lt_of_succ_lt hbound) hpred

/-! ## The routine -/

/-- **The player starts a song**, whatever was in its variables. -/
theorem comes_init (hready : here.Ready song commands) (hdepth : depth + 2 ≤ stackLimit)
    (hdecimal : s.regs.p.decimal = false) (hsaved : s.saved = []) (hsid : s.sid = .cleared)
    (hzero : ∀ m, 70 ≤ m → s.cells m = 0) :
    Comes here depth fuel (itemsFrom "init") s (Tracks song commands here (Rendition.start song)) := by
  have hcleared : Clearing 70 { s with regs := plain ((s.regs.setA 0).setX 69) }
      { s with regs := plain ((s.regs.setA 0).setX 69) } :=
    ⟨rfl, rfl, hdecimal, ⟨hsaved, hsaved⟩, rfl, fun m hm => ⟨hzero m hm, hzero m hm⟩⟩
  refine comes_congr (run_init here s) (comes_clear (fun fuel s h hsid => comes_congr run_settings ?_) 69 rfl (by decide) hcleared
    hsid)
  rw [← itemsFrom_init.2.2]
  have hcell (n : Nat) : (configured here s).cells n =
      if n = 63 then 0x0F else if n = 62 then 0xFF else if n = 61 then 1 else if n = 60 then song.tempo else 0 := by
    simp only [configured, Function.update_apply, (h.zero n (Nat.zero_le n)).1, hready.carries.tempo]
  refine comes_leads hready hdepth 2 rfl (by decide) ⟨h.saved.1, h.decimal, ⟨?_, ?_, ?_, ?_, ?_⟩, fun v _ => ⟨rfl, ?_⟩,
    fun v hv => absurd v.isLt (Nat.not_lt.mpr hv), fun v hv => absurd v.isLt (Nat.not_lt.mpr hv)⟩
  · show (s.sid.write 0x18 0x0F).2 = _
    rw [hsid]
    rfl
  · rw [hcell]
    rfl
  · rw [hcell]
    rfl
  · rw [hcell]
    rfl
  · rw [hcell]
    rfl
  · intro n hn _
    rw [hcell, if_neg (by omega), if_neg (by omega), if_neg (by omega), if_neg (by omega)]

end Chiptune.Player.Minimal
