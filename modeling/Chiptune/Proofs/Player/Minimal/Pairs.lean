/-
Two runs of one routine, side by side.

Two players that hold the same score at different addresses stay in step: block
by block they leave the same way, and they return together (`Both`). A player
compared with itself is a run of its own.
-/
import Chiptune.Proofs.Player.Minimal.Order

namespace Chiptune.Player.Minimal

open Machine Sound Song Music

variable {here there : Site} {s s' t t' : State} {items rest : List Item} {depth fuel : Nat}
  {Q R : State → State → Prop}

/-! ## Outcomes -/

/-- Outcomes of runs in step: neither has returned, or both have, to related states. -/
inductive InStep (Q : State → State → Prop) : Outcome → Outcome → Prop where
  | timeout : InStep Q .timeout .timeout
  | done {s t : State} (h : Q s t) : InStep Q (.done s) (.done t)

/-- Two runs of a routine are in step. -/
def Both (here there : Site) (depth fuel : Nat) (items : List Item) (s t : State) (Q : State → State → Prop) : Prop :=
  InStep Q (exec here depth fuel items s) (exec there depth fuel items t)

theorem InStep.mono {o o' : Outcome} (h : InStep Q o o') (hQ : ∀ s t, Q s t → R s t) : InStep R o o' := by
  cases h with
  | timeout => exact .timeout
  | done h => exact .done (hQ _ _ h)

theorem InStep.andThen {o o' : Outcome} {f g : State → Outcome} (h : InStep R o o')
    (hfg : ∀ s t, R s t → InStep Q (f s) (g t)) : InStep Q (o.andThen f) (o'.andThen g) := by
  cases h with
  | timeout => exact .timeout
  | done h => exact hfg _ _ h

theorem Both.mono (h : Both here there depth fuel items s t Q) (hQ : ∀ s t, Q s t → R s t) :
    Both here there depth fuel items s t R := InStep.mono h hQ

theorem both_congr {items' : List Item} (hs : run here none items s = run here none items' s')
    (ht : run there none items t = run there none items' t') (h : Both here there depth fuel items' s' t' Q) :
    Both here there depth fuel items s t Q := by
  rw [Both, exec_congr hs, exec_congr ht]
  exact h

theorem both_ret (hs : run here none items s = (.ret, s')) (ht : run there none items t = (.ret, t')) (h : Q s' t') :
    Both here there depth fuel items s t Q := by
  unfold Both
  cases fuel with
  | zero => exact .timeout
  | succ fuel =>
    rw [exec_ret hs, exec_ret ht]
    exact .done h

theorem both_goto {l : String} (hs : run here none items s = (.goto l, s')) (ht : run there none items t = (.goto l, t'))
    (h : ∀ fuel' < fuel, Both here there depth fuel' (itemsFrom l) s' t' Q) :
    Both here there depth fuel items s t Q := by
  unfold Both
  cases fuel with
  | zero => exact .timeout
  | succ fuel =>
    rw [exec_goto hs, exec_goto ht]
    exact h fuel (Nat.lt_succ_self fuel)

theorem both_call {l : String} (hdepth : depth + 2 ≤ stackLimit) (hs : run here none items s = (.call l rest, s'))
    (ht : run there none items t = (.call l rest, t'))
    (h : ∀ fuel' < fuel, Both here there (depth + 2) fuel' (itemsFrom l) s' t' R)
    (hrest : ∀ fuel' < fuel, ∀ s'' t'', R s'' t'' → Both here there depth fuel' rest s'' t'' Q) :
    Both here there depth fuel items s t Q := by
  unfold Both
  cases fuel with
  | zero => exact .timeout
  | succ fuel =>
    rw [exec_call hdepth hs, exec_call hdepth ht]
    exact (h fuel (Nat.lt_succ_self fuel)).andThen (hrest fuel (Nat.lt_succ_self fuel))

/-! ## Blocks -/

/-- How a block is left that leads on to other items. -/
def Way.leadsOn (here : Site) (rest : List Item) (s : State) : Way → Way × State
  | .ret => (.ret, s)
  | .fall => run here none rest s
  | .goto l => run here (some l) rest s
  | .call l left => (.call l (left ++ rest), s)
  | .stuck => (.stuck, s)

/-- **Two runs of an even block** leave it the same way, whatever follows it. -/
theorem run_even (htwin : Twin here there) {block : List Item} (heven : ∀ item ∈ block, even item = true)
    (hx : s.regs.x.toNat < 3) (hsaved : s.saved = []) (halike : Alike s t) (rest : List Item) :
    ∃ w ∈ ways none block, ∃ s' t', run here none (block ++ rest) s = w.leadsOn here rest s' ∧
      run there none (block ++ rest) t = w.leadsOn there rest t' ∧ Alike s' t' ∧
      Keeps (touched s.regs.x block) s s' ∧ Keeps (touched s.regs.x block) t t' := by
  have hsteady := fun item hi => steady_of_even (heven item hi)
  have hregs := halike.regs
  obtain ⟨hway, hkeeps⟩ := run_steady here block none hsteady (.of_lt hx) hsaved
  obtain ⟨-, hkeeps'⟩ := run_steady there block none (s := t) hsteady (.of_lt (hregs ▸ hx)) (halike.saved ▸ hsaved)
  obtain ⟨hsame, halike'⟩ := run_alike htwin block none heven (.of_lt hx) hsaved halike
  rw [← hregs] at hkeeps'
  refine ⟨_, hway, _, _, ?_, ?_, halike', hkeeps, hkeeps'⟩
  · rw [run_append]
    rcases run here none block s with ⟨w, s'⟩
    cases w <;> rfl
  · rw [run_append, ← hsame]
    rcases run there none block t with ⟨w, t'⟩
    cases w <;> rfl

/-! ## Players -/

/-- Two sites of a player, with one score that it can play. -/
structure Shared (score : Score) (here there : Site) : Prop where
  playable : score.Playable
  twin : Twin here there
  here : score.Stored here
  there : score.Stored there

/-- The voices are at spots of the score. -/
structure Playing (score : Score) (here : Site) (spots : Nat → Spot) (s : State) : Prop where
  saved : s.saved = []
  decimal : s.regs.p.decimal = false
  follows : ∀ v < voiceCount, Follows score here s v (spots v)

/-- Whether a variable says where a voice is. -/
def isHeld (n : Nat) : Bool := n < 15 || (36 ≤ n && n < 39)

theorem isHeld_stopped {v : Nat} (hv : v < voiceCount) : isHeld (36 + v) = true := by
  have hvoices : voiceCount = 3 := rfl
  simp only [isHeld, Bool.or_eq_true, Bool.and_eq_true, decide_eq_true_eq]
  omega

/-- A block that stores to none of these variables, by what its items store to. -/
theorem isHeld_touched {block : List Item}
    (h : ∀ stored ∈ block.filterMap touch?, 15 ≤ stored.1 ∧ (stored.1 + 2 < 36 ∨ 39 ≤ stored.1)) {x : UInt8}
    (hx : x.toNat < 3) : ∀ n ∈ touched x block, isHeld n = false := by
  intro n hn
  obtain ⟨⟨m, indexed⟩, hm, rfl⟩ := List.mem_map.mp hn
  obtain ⟨hlow, hstopped⟩ := h _ hm
  simp only [isHeld, Bool.or_eq_false_iff, Bool.and_eq_false_iff, decide_eq_false_iff_not]
  cases indexed with
  | true =>
    show ¬ m + x.toNat < 15 ∧ (¬ 36 ≤ m + x.toNat ∨ ¬ m + x.toNat < 39)
    dsimp only at hlow hstopped
    omega
  | false =>
    show ¬ m < 15 ∧ (¬ 36 ≤ m ∨ ¬ m < 39)
    dsimp only at hlow hstopped
    omega

namespace Playing

variable {score : Score} {spots : Nat → Spot} {changed : List Nat} {x : Nat}

theorem keeps (h : Playing score here spots s) (hkeeps : Keeps changed s s') (hchanged : ∀ n ∈ changed, isHeld n = false) :
    Playing score here spots s' := by
  refine ⟨hkeeps.saved.trans h.saved, hkeeps.decimal.trans h.decimal, fun v hv => ?_⟩
  refine (h.follows v hv).congr fun n hn => hkeeps.cells n fun hmem => ?_
  have hheld := hchanged n hmem
  have hvoices : voiceCount = 3 := rfl
  simp only [List.mem_cons, List.not_mem_nil, or_false] at hn
  simp only [isHeld, Bool.or_eq_false_iff, Bool.and_eq_false_iff, decide_eq_false_iff_not] at hheld
  omega

/-- One voice moves. -/
theorem move (h : Playing score here spots s) (hkeeps : Keeps changed s s')
    (hchanged : ∀ n ∈ changed, isHeld n = true → n % 3 = x) {spot : Spot} (hspot : Follows score here s' x spot) :
    Playing score here (Function.update spots x spot) s' := by
  refine ⟨hkeeps.saved.trans h.saved, hkeeps.decimal.trans h.decimal, fun v hv => ?_⟩
  by_cases hvx : v = x
  · subst hvx
    rw [Function.update_self]
    exact hspot
  · rw [Function.update_of_ne hvx]
    refine (h.follows v hv).congr fun n hn => hkeeps.cells n fun hmem => ?_
    have hvoice := hchanged n hmem
    have hvoices : voiceCount = 3 := rfl
    simp only [List.mem_cons, List.not_mem_nil, or_false] at hn
    simp only [isHeld, Bool.or_eq_true, Bool.and_eq_true, decide_eq_true_eq] at hvoice
    omega

end Playing

/-- Two runs are at the same spots, in states that differ in addresses alone. -/
structure Paired (score : Score) (here there : Site) (spots : Nat → Spot) (s t : State) : Prop where
  here : Playing score here spots s
  there : Playing score there spots t
  alike : Alike s t

theorem Paired.keeps {score : Score} {spots : Nat → Spot} {changed : List Nat} (h : Paired score here there spots s t)
    (hs : Keeps changed s s') (ht : Keeps changed t t') (hchanged : ∀ n ∈ changed, isHeld n = false)
    (halike : Alike s' t') : Paired score here there spots s' t' :=
  ⟨h.here.keeps hs hchanged, h.there.keeps ht hchanged, halike⟩

/-- Registers and pointers say nothing of where the voices are. -/
theorem Paired.compute {score : Score} {spots : Nat → Spot} (h : Paired score here there spots s t) {r : Registers}
    (hdecimal : r.p.decimal = s.regs.p.decimal) (page page' : UInt8 → UInt8) :
    Paired score here there spots { s with regs := r, page } { t with regs := r, page := page' } :=
  ⟨⟨h.here.saved, hdecimal.trans h.here.decimal, fun v hv => (h.here.follows v hv).congr fun _ _ => rfl⟩,
    ⟨h.there.saved, hdecimal.trans h.here.decimal, fun v hv => (h.there.follows v hv).congr fun _ _ => rfl⟩,
    ⟨rfl, h.alike.saved, h.alike.sid, h.alike.cells⟩⟩

/-- A block that does the same wherever the player stands, and moves no voice. -/
def Tame (block : List Item) : Prop :=
  (∀ item ∈ block, even item = true) ∧
    ∀ stored ∈ block.filterMap touch?, 15 ≤ stored.1 ∧ (stored.1 + 2 < 36 ∨ 39 ≤ stored.1)

instance (block : List Item) : Decidable (Tame block) := inferInstanceAs (Decidable (_ ∧ _))

/-- **Two players run a tame block** in step, and stay where they are in the score. -/
theorem run_tame {score : Score} {spots : Nat → Spot} {block : List Item} (htwin : Twin here there) (hblock : Tame block)
    (h : Paired score here there spots s t) (hx : s.regs.x.toNat < 3) (rest : List Item) :
    ∃ w ∈ ways none block, ∃ s' t', run here none (block ++ rest) s = w.leadsOn here rest s' ∧
      run there none (block ++ rest) t = w.leadsOn there rest t' ∧ Paired score here there spots s' t' ∧
      s'.regs.x = s.regs.x ∧ ∀ n, isHeld n = true → s'.cells n = s.cells n := by
  obtain ⟨w, hw, s', t', hs, ht, halike, hkeeps, hkeeps'⟩ := run_even htwin hblock.1 hx h.here.saved h.alike rest
  have hfree := isHeld_touched hblock.2 hx
  refine ⟨w, hw, s', t', hs, ht, h.keeps hkeeps hkeeps' hfree halike, hkeeps.x, fun n hn => ?_⟩
  refine hkeeps.cells n fun hmem => ?_
  rw [hfree n hmem] at hn
  cases hn

/-- Two players take the next order entry of a voice in step. -/
theorem both_nextOrder {score : Score} {entry : Nat} (hshared : Shared score here there) (halike : Alike s t)
    (hx : s.regs.x.toNat < 3) (hsaved : s.saved = []) (hdecimal : s.regs.p.decimal = false)
    (hs : Lists score here s s.regs.x.toNat entry) (ht : Lists score there t s.regs.x.toNat entry)
    (hQ : ∀ s' t', Alike s' t' → Keeps (orderCells s.regs.x.toNat) s s' → Keeps (orderCells s.regs.x.toNat) t t' →
      Follows score here s' s.regs.x.toNat (nextSpot score s.regs.x.toNat entry) →
      Follows score there t' s.regs.x.toNat (nextSpot score s.regs.x.toNat entry) → Q s' t') :
    Both here there depth fuel (itemsFrom "next_order") s t Q := by
  have hregs := halike.regs
  have halike' := nextOrder_alike hshared.playable hshared.twin hshared.here hshared.there halike hx hsaved hdecimal hs ht
  obtain ⟨s', hs', hkeeps, hfollows⟩ := nextOrder_follows hshared.playable hshared.here hx hsaved hdecimal hs
  obtain ⟨t', ht', hkeeps', hfollows'⟩ := nextOrder_follows hshared.playable hshared.there (s := t) (hregs ▸ hx)
    (halike.saved ▸ hsaved) (hregs ▸ hdecimal) (hregs ▸ ht)
  rw [hs', ht'] at halike'
  rw [← hregs] at hkeeps' hfollows'
  exact both_ret hs' ht' (hQ s' t' halike' hkeeps hkeeps' hfollows hfollows')

theorem isHeld_orderCells {x : Nat} (hx : x < 3) : ∀ n ∈ orderCells x, isHeld n = true → n % 3 = x := by
  intro n hn hheld
  simp only [orderCells, List.mem_cons, List.not_mem_nil, or_false] at hn
  simp only [isHeld, Bool.or_eq_true, Bool.and_eq_true, decide_eq_true_eq] at hheld
  omega

end Chiptune.Player.Minimal
