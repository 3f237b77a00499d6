/-
The routine that starts a song.

It clears the variables, reads the tempo and takes the first order entry of
every voice. Until a voice has its entry it follows nothing, so the voices
that do are counted (`Started`).
-/
import Chiptune.Proofs.Player.Minimal.Play

namespace Chiptune.Player.Minimal

open Machine Sound Song Music

variable {here there : Site} {s s' t t' : State} {rest : List Item}

/-! ## Ways through the routine -/

/-- The state after a variable is cleared. -/
def cleared (s : State) : State :=
  { s with
    regs := plain (s.regs.setX (s.regs.x - 1))
    cells := Function.update s.cells s.regs.x.toNat s.regs.a }

/-- The state after the settings are made. -/
def configured (here : Site) (s : State) : State :=
  { s with
    regs := plain ((s.regs.setA 0x0F).setX 2)
    cells := Function.update (Function.update (Function.update (Function.update s.cells 60 (here.byte 2473)) 61 1) 62 0xFF)
      63 0x0F
    sid := (s.sid.write 0x18 0x0F).2 }

/-- The state after a voice is led to its order list. -/
def led (here : Site) (s : State) : State :=
  let x := s.regs.x.toNat
  { s with
    regs := plain (s.regs.setA (here.byte (2477 + x)))
    cells := Function.update (Function.update (Function.update s.cells (48 + x) 0xFF) x (here.byte (2474 + x))) (3 + x)
      (here.byte (2477 + x)) }

theorem run_clear (hx : s.regs.x.toNat < 70) :
    run here none (initSong.drop 3 ++ rest) s = run here none (initSong.drop 6 ++ rest) (cleared s) := by
  have hstore : run here none (initSong.drop 3 ++ rest) s = run here none (initSong.drop 5 ++ rest) { s with
      regs := plain s.regs
      cells := Function.update s.cells (0 + s.regs.x.toNat) s.regs.a } :=
    run_sta_indexed (by rwa [UInt16.toNat_zero, Nat.zero_add])
  rw [hstore, Nat.zero_add]
  generalize hafter : initSong.drop 6 ++ rest = after
  have hitems : initSong.drop 5 ++ rest = op .dex :: after := by
    rw [← hafter]
    rfl
  rw [hitems]
  simp -implicitDefEqProofs [cleared]

theorem run_clear_next (hx : s.regs.x.toNat < 70) (hpositive : s.regs.x ≠ 0) :
    run here none (initSong.drop 3 ++ rest) s = run here (some "init_clear") (initSong.drop 7 ++ rest) (cleared s) := by
  have hsign := sign_pred (by omega) hpositive
  rw [run_clear hx]
  show run here none (op .bpl (.branch "init_clear") :: (initSong.drop 7 ++ rest)) _ = _
  simp -implicitDefEqProofs [cleared, hsign]

theorem run_clear_last (hzero : s.regs.x = 0) :
    run here none (initSong.drop 3 ++ rest) s = run here none (initSong.drop 7 ++ rest) (cleared s) := by
  have hsign := sign_pred_zero hzero
  rw [run_clear (by rw [hzero]; decide)]
  show run here none (op .bpl (.branch "init_clear") :: (initSong.drop 7 ++ rest)) _ = _
  simp -implicitDefEqProofs [cleared, hsign]

theorem run_settings :
    run here none (initSong.drop 7 ++ rest) s = run here none (initSong.drop 17 ++ rest) (configured here s) := by
  generalize hafter : initSong.drop 17 ++ rest = after
  have hitems : initSong.drop 7 ++ rest = (initSong.drop 7).take 10 ++ after := by
    rw [← hafter]
    rfl
  have hwindow : inWindow 0xD418 = true := by decide
  have hlow : Word.low 0xD418 = 0x18 := by decide
  rw [hitems]
  simp -implicitDefEqProofs [initSong, configured, hwindow, hlow]

theorem run_lead (hx : s.regs.x.toNat < 3) (hsaved : s.saved = []) : run here none (initSong.drop 17 ++ rest) s =
    (.call "next_order" (initSong.drop 25 ++ rest), led here s) := by
  simp -implicitDefEqProofs [initSong, led, hx, hsaved]

theorem run_lead_next (here : Site) (rest : List Item) (hx : s.regs.x.toNat < 3) (hpositive : s.regs.x ≠ 0) :
    run here none (initSong.drop 25 ++ rest) s = run here (some "init_voice") (initSong.drop 27 ++ rest) { s with
      regs := plain (s.regs.setX (s.regs.x - 1)) } := by
  have hsign := sign_pred (by omega) hpositive
  generalize hafter : initSong.drop 27 ++ rest = after
  have hitems : initSong.drop 25 ++ rest = (initSong.drop 25).take 2 ++ after := by
    rw [← hafter]
    rfl
  rw [hitems]
  simp -implicitDefEqProofs [initSong, hsign]

theorem run_lead_last (here : Site) (rest : List Item) (hzero : s.regs.x = 0) (hsaved : s.saved = []) :
    run here none (initSong.drop 25 ++ rest) s = (.ret, { s with regs := plain (s.regs.setX (s.regs.x - 1)) }) := by
  simp -implicitDefEqProofs [initSong, sign_pred_zero hzero, hsaved]

/-! ## Blocks -/

theorem itemsFrom_init :
    itemsFrom "init" = initSong ++ itemsFrom "next_order" ∧
      itemsFrom "init_clear" = initSong.drop 3 ++ itemsFrom "next_order" ∧
      itemsFrom "init_voice" = initSong.drop 17 ++ itemsFrom "next_order" :=
  ⟨rfl, rfl, rfl⟩

theorem run_init (here : Site) (s : State) : run here none (itemsFrom "init") s =
    run here none (itemsFrom "init_clear") { s with regs := plain ((s.regs.setA 0).setX 69) } := by
  rw [itemsFrom_init.1, itemsFrom_init.2.1]
  show run here none (initSong.take 3 ++ (initSong.drop 3 ++ itemsFrom "next_order")) s = _
  generalize initSong.drop 3 ++ itemsFrom "next_order" = rest
  simp -implicitDefEqProofs [initSong]

theorem init_behind : .label "init_clear" ∉ initSong.drop 7 ++ itemsFrom "next_order" ∧
    .label "init_voice" ∉ initSong.drop 27 ++ itemsFrom "next_order" := by
  decide

/-- The loop that clears goes on to the variable before. -/
theorem run_clear_round (here : Site) {n : Nat} (hn : s.regs.x.toNat = n + 1) (hbound : n + 1 < 70) :
    run here none (itemsFrom "init_clear") s = (.goto "init_clear", cleared s) ∧ (cleared s).regs.x.toNat = n := by
  obtain ⟨hpositive, hx, hlast⟩ := pred_toNat hn hbound
  rw [itemsFrom_init.2.1]
  exact ⟨(run_clear_next hx hpositive).trans (run_goto init_behind.1), hlast⟩

/-- The loop over the voices goes on to the voice before. -/
theorem run_lead_round (here : Site) {n : Nat} (hn : s.regs.x.toNat = n + 1) (hbound : n + 1 < voiceCount) :
    run here none (initSong.drop 25 ++ itemsFrom "next_order") s =
        (.goto "init_voice", { s with regs := plain (s.regs.setX (s.regs.x - 1)) }) ∧ (s.regs.x - 1).toNat = n := by
  obtain ⟨hpositive, hx, hlast⟩ := pred_toNat hn hbound
  exact ⟨(run_lead_next here (itemsFrom "next_order") hx hpositive).trans (run_goto init_behind.2), hlast⟩

/-! ## Clearing -/

section Routine

variable {score : Score} {depth fuel n : Nat} {Q : State → State → Prop}

/-- Two runs that clear the variables have cleared those from `n` on. -/
structure Clearing (n : Nat) (s t : State) : Prop where
  regs : s.regs = t.regs
  a : s.regs.a = 0
  decimal : s.regs.p.decimal = false
  saved : s.saved = [] ∧ t.saved = []
  sid : s.sid = t.sid
  zero : ∀ m, n ≤ m → s.cells m = 0 ∧ t.cells m = 0

theorem Clearing.cleared (h : Clearing (n + 1) s t) (hn : s.regs.x.toNat = n) :
    Clearing n (cleared s) (cleared t) := by
  have hregs := h.regs
  refine ⟨?_, h.a, h.decimal, h.saved, h.sid, fun m hm => ?_⟩
  · simp only [Minimal.cleared, hregs]
  · simp only [Minimal.cleared, ← hregs, hn, h.a, Function.update_apply]
    by_cases hmn : m = n
    · simp only [if_pos hmn, and_self]
    · simp only [if_neg hmn]
      exact h.zero m (by omega)

/-- Two players clear their variables, from the last one down. -/
theorem both_clear (hnext : ∀ (fuel : Nat) (s t : State), Clearing 0 s t →
      Both here there depth fuel (initSong.drop 7 ++ itemsFrom "next_order") s t Q) :
    ∀ (n : Nat) {fuel : Nat} {s t : State}, s.regs.x.toNat = n → n < 70 → Clearing (n + 1) s t →
      Both here there depth fuel (itemsFrom "init_clear") s t Q
  | 0, fuel, s, t, hn, _, h => by
    have hzero : s.regs.x = 0 := UInt8.toNat_inj.mp hn
    rw [itemsFrom_init.2.1]
    exact both_congr (run_clear_last hzero) (run_clear_last (h.regs ▸ hzero)) (hnext _ _ _ (h.cleared hn))
  | n + 1, fuel, s, t, hn, hbound, h => by
    obtain ⟨hs, hlast⟩ := run_clear_round here hn hbound
    obtain ⟨ht, -⟩ := run_clear_round there (h.regs ▸ hn) hbound
    exact both_goto hs ht fun fuel' _ => both_clear hnext n hlast (Nat.lt_of_succ_lt hbound) (h.cleared hn)

/-! ## Voices -/

/-- Where the voices are when a song starts. -/
def firstSpots (score : Score) (v : Nat) : Spot := nextSpot score v 0

/-- Two runs that start the voices have started those from `k` on. -/
structure Started (score : Score) (here there : Site) (k : Nat) (s t : State) : Prop where
  alike : Alike s t
  saved : s.saved = []
  decimal : s.regs.p.decimal = false
  first : ∀ v < k, s.cells (6 + v) = 0
  here : ∀ v, k ≤ v → v < voiceCount → Follows score here s v (firstSpots score v)
  there : ∀ v, k ≤ v → v < voiceCount → Follows score there t v (firstSpots score v)

namespace Started

variable {k : Nat}

theorem paired (h : Started score here there 0 s t) : Paired score here there (firstSpots score) s t :=
  ⟨⟨h.saved, h.decimal, fun v => h.here v (Nat.zero_le v)⟩,
    ⟨h.alike.saved ▸ h.saved, h.alike.regs ▸ h.decimal, fun v => h.there v (Nat.zero_le v)⟩, h.alike⟩

/-- The registers are computed from what the runs share. -/
theorem compute (h : Started score here there k s t) {r : Registers} (hdecimal : r.p.decimal = s.regs.p.decimal) :
    Started score here there k { s with regs := r } { t with regs := r } :=
  ⟨⟨rfl, h.alike.saved, h.alike.sid, h.alike.cells⟩, h.saved, hdecimal.trans h.decimal, h.first,
    fun v hv hbound => (h.here v hv hbound).congr fun _ _ => rfl,
    fun v hv hbound => (h.there v hv hbound).congr fun _ _ => rfl⟩

end Started

theorem Clearing.configured (htwin : Twin here there) (h : Clearing 0 s t) :
    Started score here there voiceCount (configured here s) (configured there t) := by
  have htempo : here.byte 2473 = there.byte 2473 := htwin 2473 (by decide)
  refine ⟨⟨?_, ?_, ?_, fun n _ => ?_⟩, h.saved.1, h.decimal, fun v hv => ?_, fun v hv hbound => absurd hbound (by omega),
    fun v hv hbound => absurd hbound (by omega)⟩
  · simp only [Minimal.configured, h.regs]
  · exact h.saved.1.trans h.saved.2.symm
  · simp only [Minimal.configured, h.sid]
  · simp only [Minimal.configured, Function.update_apply, htempo, (h.zero n (Nat.zero_le n)).1,
      (h.zero n (Nat.zero_le n)).2]
  · have hvoices : voiceCount = 3 := rfl
    simp only [Minimal.configured]
    rw [Function.update_of_ne (by omega), Function.update_of_ne (by omega), Function.update_of_ne (by omega),
      Function.update_of_ne (by omega), (h.zero _ (Nat.zero_le _)).1]

/-- The variables of voice `x` that are set before its first order entry is taken. -/
def ledCells (x : Nat) : List Nat := [x, 3 + x, 48 + x]

/-- The accumulator holds half of an address when the order entry is taken, which is of no consequence. -/
def settled (s : State) : State := { s with regs := plain (s.regs.setA 0) }

theorem run_settled (hx : s.regs.x.toNat < 3) :
    run here none (itemsFrom "next_order") s = run here none (itemsFrom "next_order") (settled s) := by
  rw [itemsFrom_nextOrder]
  show run here none (nextOrder.take 2 ++ (nextOrder.drop 2 ++ (orderStop ++ itemsFrom "play"))) s =
    run here none (nextOrder.take 2 ++ (nextOrder.drop 2 ++ (orderStop ++ itemsFrom "play"))) (settled s)
  generalize nextOrder.drop 2 ++ (orderStop ++ itemsFrom "play") = rest
  simp -implicitDefEqProofs [nextOrder, settled, hx]

theorem led_keeps (here : Site) (s : State) : Keeps (ledCells s.regs.x.toNat) s (settled (led here s)) := by
  refine ⟨rfl, rfl, rfl, fun n hn => ?_⟩
  simp only [ledCells, List.mem_cons, List.not_mem_nil, or_false, not_or] at hn
  simp only [settled, led]
  rw [Function.update_of_ne hn.2.1, Function.update_of_ne hn.1, Function.update_of_ne hn.2.2]

theorem led_alike (h : Alike s t) (hx : s.regs.x.toNat < 3) : Alike (settled (led here s)) (settled (led there t)) := by
  refine ⟨?_, h.saved, h.sid, fun n hn => ?_⟩
  · simp only [settled, led, h.regs]
    rfl
  · have hcells := h.cells n hn
    rw [isAddress_eq_false] at hn
    simp only [settled, led, ← h.regs, Function.update_apply, hcells, if_neg (show n ≠ 3 + s.regs.x.toNat by omega),
      if_neg (show n ≠ s.regs.x.toNat by omega)]

theorem led_lists (hstored : score.Stored here) (hx : s.regs.x.toNat < 3) (hfirst : s.cells (6 + s.regs.x.toNat) = 0) :
    Lists score here (settled (led here s)) s.regs.x.toNat 0 := by
  have hkept := (led_keeps here s).cells (6 + s.regs.x.toNat) (by
    simp only [ledCells, List.mem_cons, List.not_mem_nil, or_false]
    omega)
  refine ⟨?_, Nat.zero_le _, by rw [hkept, hfirst]; rfl⟩
  rw [← hstored.listPointer _ hx]
  simp [settled, led]

theorem Started.led (hshared : Shared score here there) {n : Nat} (h : Started score here there (n + 1) s t)
    (hn : s.regs.x.toNat = n) (hbound : n < voiceCount) :
    Both here there depth fuel (itemsFrom "next_order") (led here s) (led there t)
      fun s' t' => Started score here there n s' t' ∧ s'.regs.x.toNat = n := by
  have hx : s.regs.x.toNat < 3 := hn ▸ hbound
  have hvoices : voiceCount = 3 := rfl
  have hregs := h.alike.regs
  have hfirst := h.first n (Nat.lt_succ_self n)
  have hfirst' : t.cells (6 + t.regs.x.toNat) = 0 := by
    rw [← hregs, hn, ← h.alike.cells _ (isAddress_eq_false.mpr (.inl (by omega))), hfirst]
  have hthere := led_lists hshared.there (hregs ▸ hx) hfirst'
  rw [← hregs] at hthere
  have hled := led_keeps here s
  have hled' := led_keeps there t
  rw [← hregs] at hled'
  have hx' : (Minimal.led there t).regs.x.toNat < 3 := by
    show t.regs.x.toNat < 3
    rw [← hregs]
    exact hx
  refine both_congr (run_settled hx) (run_settled hx') (both_nextOrder (s := settled (Minimal.led here s))
    (t := settled (Minimal.led there t)) hshared (led_alike h.alike hx) hx h.saved h.decimal
    (led_lists hshared.here hx (hn ▸ hfirst)) hthere fun s' t' halike hkeeps hkeeps' hfollows hfollows' => ?_)
  rw [show (settled (Minimal.led here s)).regs.x.toNat = n from hn] at hkeeps hkeeps' hfollows hfollows'
  rw [hn] at hled hled'
  have hall := (hled.mono (List.subset_append_left _ (orderCells n))).trans (hkeeps.mono (List.subset_append_right _ _))
  have hall' := (hled'.mono (List.subset_append_left _ (orderCells n))).trans (hkeeps'.mono (List.subset_append_right _ _))
  have hothers {v m : Nat} (hv : n < v) (hvbound : v < voiceCount)
      (hm : m ∈ [v, 3 + v, 6 + v, 9 + v, 12 + v, 36 + v]) : m ∉ ledCells n ++ orderCells n := by
    simp only [ledCells, orderCells, List.cons_append, List.nil_append, List.mem_cons, List.not_mem_nil, or_false] at hm ⊢
    omega
  refine ⟨⟨halike, hall.saved.trans h.saved, hall.decimal.trans h.decimal, fun v hv => ?_, fun v hv hvbound => ?_,
    fun v hv hvbound => ?_⟩, (congrArg UInt8.toNat hall.x).trans hn⟩
  · rw [hall.cells _ ?_, h.first v (by omega)]
    simp only [ledCells, orderCells, List.cons_append, List.nil_append, List.mem_cons, List.not_mem_nil, or_false]
    omega
  · rcases Nat.eq_or_lt_of_le hv with rfl | hv
    · exact hfollows
    · exact (h.here v hv hvbound).congr fun m hm => hall.cells m (hothers hv hvbound hm)
  · rcases Nat.eq_or_lt_of_le hv with rfl | hv
    · exact hfollows'
    · exact (h.there v hv hvbound).congr fun m hm => hall'.cells m (hothers hv hvbound hm)

/-- Two players start their voices, from the last one down. -/
theorem both_voicesStart (hshared : Shared score here there) (hdepth : depth + 2 ≤ stackLimit) :
    ∀ (n : Nat) {fuel : Nat} {s t : State}, s.regs.x.toNat = n → n < voiceCount → Started score here there (n + 1) s t →
      Both here there depth fuel (itemsFrom "init_voice") s t (Paired score here there (firstSpots score))
  | n, fuel, s, t, hn, hbound, h => by
    have hx : s.regs.x.toNat < 3 := hn ▸ hbound
    have hregs := h.alike.regs
    rw [itemsFrom_init.2.2]
    refine both_call hdepth (run_lead hx h.saved) (run_lead (hregs ▸ hx) (h.alike.saved ▸ h.saved))
      (fun fuel' _ => h.led hshared hn hbound) fun fuel' _ s' t' hstarted => ?_
    obtain ⟨h', hn'⟩ := hstarted
    have hregs' := h'.alike.regs
    have hpred := h'.compute (r := plain (s'.regs.setX (s'.regs.x - 1))) rfl
    cases n with
    | zero =>
      have hzero : s'.regs.x = 0 := UInt8.toNat_inj.mp hn'
      have ht := run_lead_last there (itemsFrom "next_order") (hregs' ▸ hzero) (h'.alike.saved ▸ h'.saved)
      rw [← hregs'] at ht
      exact both_ret (run_lead_last _ _ hzero h'.saved) ht hpred.paired
    | succ n =>
      obtain ⟨hs, hlast⟩ := run_lead_round here hn' hbound
      obtain ⟨ht, -⟩ := run_lead_round there (hregs' ▸ hn') hbound
      rw [← hregs'] at ht
      exact both_goto hs ht fun fuel'' _ => both_voicesStart hshared hdepth n hlast (Nat.lt_of_succ_lt hbound) hpred

/-- **Two players start a song in step**, whatever was in their variables. -/
theorem both_init (hshared : Shared score here there) (hdepth : depth + 2 ≤ stackLimit) (hregs : s.regs = t.regs)
    (hdecimal : s.regs.p.decimal = false) (hsaved : s.saved = [] ∧ t.saved = []) (hsid : s.sid = t.sid)
    (hzero : ∀ m, 70 ≤ m → s.cells m = 0 ∧ t.cells m = 0) :
    Both here there depth fuel (itemsFrom "init") s t (Paired score here there (firstSpots score)) := by
  have hcleared : Clearing 70 { s with regs := plain ((s.regs.setA 0).setX 69) }
      { t with regs := plain ((t.regs.setA 0).setX 69) } :=
    ⟨by rw [hregs], rfl, hdecimal, hsaved, hsid, hzero⟩
  refine both_congr (run_init here s) (run_init there t) (both_clear (fun fuel s t h => ?_) 69 rfl (by decide) hcleared)
  refine both_congr run_settings run_settings ?_
  rw [← itemsFrom_init.2.2]
  exact both_voicesStart hshared hdepth 2 rfl (by decide) (h.configured hshared.twin)

end Routine

end Chiptune.Player.Minimal
