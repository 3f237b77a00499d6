/-
The routine that takes the next order entry of a voice.

It reads an entry (`run_entry`), or a loop and then the entry it leads to
(`run_loop`), or stops the voice (`run_stop`). Whichever it is, the voice is at
a spot of the score again (`next_order`).
-/
import Chiptune.Proofs.Player.Minimal.Score
import Chiptune.Proofs.Player.Minimal.Steps

namespace Chiptune.Player.Minimal

open Machine Sound Song Music

variable {here there : Site} {s t : State} {rest : List Item} {pointer : UInt16} {first second target : UInt8}

/-! ## Ways through the routine -/

/-- The state after the entry at a position is taken. -/
def entered (here : Site) (s : State) (position first second : UInt8) : State :=
  let x := s.regs.x.toNat
  let cells := Function.update s.cells (6 + x) position
  let cells := Function.update cells (15 + x) (Flags.sub { s.regs.p with carry := true } first transposeBias).1
  let cells := Function.update cells (9 + x) (here.byte (2480 + second.toNat))
  let cells := Function.update cells (12 + x) (here.byte (2608 + second.toNat))
  { s with
    regs := plain (summed { s.regs with a := position, y := second, p := { s.regs.p with carry := false } } 2)
    cells := Function.update cells (6 + x) (position + 2)
    page := Function.update (Function.update s.page 0xFD (s.cells x)) 0xFE (s.cells (3 + x)) }

/-- The state after a stop mark is read. -/
def ended (s : State) : State :=
  let x := s.regs.x.toNat
  { s with
    regs := plain { s.regs with
      a := stopMark, y := s.cells (6 + x), p := { s.regs.p with carry := true, zero := true, negative := false } }
    page := Function.update (Function.update s.page 0xFD (s.cells x)) 0xFE (s.cells (3 + x)) }

theorem run_entry (hx : s.regs.x.toNat < 3) (hsaved : s.saved = []) (hdecimal : s.regs.p.decimal = false)
    (hlist : Word.ofBytes (s.cells s.regs.x.toNat) (s.cells (3 + s.regs.x.toNat)) = pointer)
    (hfirst : here.through? pointer (s.cells (6 + s.regs.x.toNat)) = some (.value first))
    (hsecond : here.through? pointer (s.cells (6 + s.regs.x.toNat) + 1) = some (.value second))
    (hstop : first ≠ stopMark) (hloop : first ≠ loopMark) (hsequence : second.toNat < 128) :
    run here none (nextOrder ++ rest) s = (.ret, entered here s (s.cells (6 + s.regs.x.toNat)) first second) := by
  have hstop' : first ≠ 0xFE := hstop
  have hloop' : first ≠ 0xFF := hloop
  simp -implicitDefEqProofs [nextOrder, entered, Flags.add, Flags.sub, Flags.addBinary, hx, hsaved, hdecimal, hlist,
    hfirst, hsecond, hstop', hloop', hsequence]

theorem run_loop (hx : s.regs.x.toNat < 3) (hsaved : s.saved = []) (hdecimal : s.regs.p.decimal = false)
    (hlist : Word.ofBytes (s.cells s.regs.x.toNat) (s.cells (3 + s.regs.x.toNat)) = pointer)
    (hmark : here.through? pointer (s.cells (6 + s.regs.x.toNat)) = some (.value loopMark))
    (htarget : here.through? pointer (s.cells (6 + s.regs.x.toNat) + 1) = some (.value target))
    (hfirst : here.through? pointer (2 * target) = some (.value first))
    (hsecond : here.through? pointer (2 * target + 1) = some (.value second))
    (hsequence : second.toNat < 128) :
    run here none (nextOrder ++ rest) s = (.ret, entered here s (2 * target) first second) := by
  have hshift : UInt8.ofNat (2 * target.toNat % 256) = 2 * target := by
    rw [UInt8.ofNat_mod_size, UInt8.ofNat_mul, UInt8.ofNat_toNat]
    rfl
  simp -implicitDefEqProofs [nextOrder, entered, Flags.add, Flags.sub, Flags.addBinary, Flags.shiftLeft, hx, hsaved,
    hdecimal, hlist, hmark, htarget, hshift, hfirst, hsecond, hsequence]

theorem run_stop (hx : s.regs.x.toNat < 3) (hsaved : s.saved = [])
    (hlist : Word.ofBytes (s.cells s.regs.x.toNat) (s.cells (3 + s.regs.x.toNat)) = pointer)
    (hmark : here.through? pointer (s.cells (6 + s.regs.x.toNat)) = some (.value stopMark)) :
    run here none (nextOrder ++ rest) s = run here (some "order_stop") rest (ended s) := by
  simp -implicitDefEqProofs [nextOrder, ended, hx, hsaved, hlist, hmark]

/-! ## What the routine keeps -/

/-- The variables of voice `x` that the routine changes. -/
def orderCells (x : Nat) : List Nat := [6 + x, 9 + x, 12 + x, 15 + x, 30 + x, 36 + x]

theorem entered_keeps (here : Site) (s : State) (position first second : UInt8) :
    Keeps (orderCells s.regs.x.toNat) s (entered here s position first second) := by
  refine ⟨rfl, ?_, rfl, fun n hn => ?_⟩
  · show (Flags.add { s.regs.p with carry := false } position 2).2.decimal = s.regs.p.decimal
    unfold Flags.add
    split <;> rfl
  · simp only [orderCells, List.mem_cons, List.not_mem_nil, or_false, not_or] at hn
    obtain ⟨h6, h9, h12, h15, -, -⟩ := hn
    simp only [entered, Function.update_of_ne h6, Function.update_of_ne h9, Function.update_of_ne h12,
      Function.update_of_ne h15]

theorem entered_alike (h : Alike s t) (hx : s.regs.x.toNat < 3) (position first second : UInt8) :
    Alike (entered here s position first second) (entered there t position first second) := by
  refine ⟨?_, h.saved, h.sid, fun n hn => ?_⟩
  · simp only [entered, h.regs]
  · have hlow : n ≠ 9 + s.regs.x.toNat ∧ n ≠ 12 + s.regs.x.toNat := by
      rw [isAddress_eq_false] at hn
      omega
    have hcells := h.cells n hn
    simp only [entered, Function.update_apply, ← h.regs, if_neg hlow.1, if_neg hlow.2, hcells]

theorem ended_alike (h : Alike s t) (hx : s.regs.x.toNat < 3) : Alike (ended s) (ended t) := by
  have hposition : s.cells (6 + s.regs.x.toNat) = t.cells (6 + s.regs.x.toNat) :=
    h.cells _ (isAddress_eq_false.mpr (.inl (by omega)))
  refine ⟨?_, h.saved, h.sid, h.cells⟩
  simp only [ended, ← h.regs, hposition]

/-! ## The routine -/

section Score

variable {score : Score} {entry k : Nat}

/-- The next entry of the score is taken. -/
theorem run_taken (hscore : score.Playable) (hstored : score.Stored here) (hx : s.regs.x.toNat < 3) (hsaved : s.saved = [])
    (hdecimal : s.regs.p.decimal = false) (hlists : Lists score here s s.regs.x.toNat entry)
    (hnext : nextEntry? (score.list s.regs.x.toNat) entry = some k) :
    ∃ e, (score.list s.regs.x.toNat).entries[k]? = some e ∧ run here none (nextOrder ++ rest) s =
      (.ret, entered here s (UInt8.ofNat (2 * k)) (transposeBias + e.transpose.toUInt8) e.sequence) := by
  have hlist := hlists.list
  have hposition := hlists.position
  have hknown {k : Nat} {e : OrderEntry} (he : (score.list s.regs.x.toNat).entries[k]? = some e) :
      e.sequence.toNat < 128 :=
    Nat.lt_of_lt_of_le (hscore.known _ hx e (List.mem_of_getElem? he)) hscore.few
  unfold nextEntry? at hnext
  split at hnext
  next hentry =>
    cases hnext
    have he := List.getElem?_eq_getElem hentry
    obtain ⟨hfirst, hsecond⟩ := entry_through hscore hstored hx he hposition
    obtain ⟨hloop, hstop⟩ := hscore.plain _ hx _ (List.mem_of_getElem? he)
    have hbyte : s.cells (6 + s.regs.x.toNat) = UInt8.ofNat (2 * entry) := by rw [← hposition, UInt8.ofNat_toNat]
    refine ⟨_, he, ?_⟩
    rw [run_entry hx hsaved hdecimal hlist hfirst hsecond hstop hloop (hknown he), hbyte]
  next hentry =>
    have hfinish := hlists.bound
    rw [show entry = (score.list s.regs.x.toNat).entries.length by omega] at hposition
    have hend := finish_through hscore hstored hx hposition
    split at hnext
    next target htarget =>
      cases hnext
      rw [htarget] at hend
      have hlt := hscore.loops _ hx target htarget
      have hshort := hscore.short _ hx
      have he := List.getElem?_eq_getElem hlt
      have hdouble : (2 * target).toNat = 2 * target.toNat := by
        rw [UInt8.toNat_mul]
        show 2 * target.toNat % 256 = _
        omega
      obtain ⟨hfirst, hsecond⟩ := entry_through hscore hstored hx he hdouble
      refine ⟨_, he, ?_⟩
      rw [run_loop hx hsaved hdecimal hlist hend.1 hend.2 hfirst hsecond (hknown he), ← hdouble, UInt8.ofNat_toNat]
    next => cases hnext

/-- The order list is at its end. -/
theorem run_ended (hscore : score.Playable) (hstored : score.Stored here) (hx : s.regs.x.toNat < 3) (hsaved : s.saved = [])
    (hlists : Lists score here s s.regs.x.toNat entry) (hnext : nextEntry? (score.list s.regs.x.toNat) entry = none) :
    run here none (nextOrder ++ rest) s = run here (some "order_stop") rest (ended s) := by
  have hposition := hlists.position
  have hbound := hlists.bound
  unfold nextEntry? at hnext
  split at hnext
  · cases hnext
  next hentry =>
    rw [show entry = (score.list s.regs.x.toNat).entries.length by omega] at hposition
    have hend := finish_through hscore hstored hx hposition
    split at hnext
    · cases hnext
    next hfinish =>
      rw [hfinish] at hend
      exact run_stop hx hsaved hlists.list hend

/-- A voice that stops is marked before it is silenced. -/
def silence : List Item := orderStop.drop 3

theorem run_orderStop (hx : s.regs.x.toNat < 3) : run here none (orderStop ++ rest) s =
    run here none (silence ++ rest) { s with
      regs := plain (s.regs.setA 1)
      cells := Function.update s.cells (36 + s.regs.x.toNat) 1 } := by
  show run here none
    (.label "order_stop" :: op .lda (.immediate 1) :: op .sta (.absoluteX (var .stopped)) :: (silence ++ rest)) s = _
  simp -implicitDefEqProofs [hx]

theorem silence_even : (∀ item ∈ silence, even item = true) ∧ (∀ w ∈ ways none silence, w = .ret) := by
  decide

theorem touched_silence (x : UInt8) : touched x silence = [30 + x.toNat] :=
  touched_eq [(30, true)] (by decide) x

theorem itemsFrom_nextOrder : itemsFrom "next_order" = nextOrder ++ (orderStop ++ itemsFrom "play") := rfl

/-- The state in which a voice that stops is silenced. -/
def stopping (s : State) : State :=
  { ended s with
    regs := plain ((ended s).regs.setA 1)
    cells := Function.update s.cells (36 + s.regs.x.toNat) 1 }

/-- The two ways through the routine. -/
theorem run_nextOrder (hscore : score.Playable) (hstored : score.Stored here) (hx : s.regs.x.toNat < 3)
    (hsaved : s.saved = []) (hdecimal : s.regs.p.decimal = false)
    (hlists : Lists score here s s.regs.x.toNat entry) :
    match nextEntry? (score.list s.regs.x.toNat) entry with
    | some k => ∃ e, (score.list s.regs.x.toNat).entries[k]? = some e ∧ run here none (itemsFrom "next_order") s =
      (.ret, entered here s (UInt8.ofNat (2 * k)) (transposeBias + e.transpose.toUInt8) e.sequence)
    | none => run here none (itemsFrom "next_order") s = (.ret, (run here none silence (stopping s)).2) := by
  rw [itemsFrom_nextOrder]
  split
  next k hnext => exact run_taken hscore hstored hx hsaved hdecimal hlists hnext
  next hnext =>
    have hsteady := fun item hi => steady_of_even (silence_even.1 item hi)
    rw [run_ended hscore hstored hx hsaved hlists hnext]
    show run here none (orderStop ++ _) (ended s) = _
    rw [run_orderStop (s := ended s) hx]
    exact run_returning _ _ (s := stopping s) hsteady silence_even.2 (.of_lt hx) hsaved

/-- After an entry is taken the voice follows the sequence of it from its start. -/
theorem entered_follows (hscore : score.Playable) (hstored : score.Stored here) (hx : s.regs.x.toNat < 3)
    (hlists : Lists score here s s.regs.x.toNat entry) {k : Nat} {e : OrderEntry}
    (he : (score.list s.regs.x.toNat).entries[k]? = some e) :
    Follows score here (entered here s (UInt8.ofNat (2 * k)) (transposeBias + e.transpose.toUInt8) e.sequence)
      s.regs.x.toNat { entry := k + 1, rest := score.sequence e.sequence.toNat,
                       offset := score.sequenceAt e.sequence.toNat } := by
  have hk := (List.getElem?_eq_some_iff.mp he).1
  have hshort := hscore.short _ hx
  have hknown := hscore.known _ hx e (List.mem_of_getElem? he)
  have hkeeps := entered_keeps here s (UInt8.ofNat (2 * k)) (transposeBias + e.transpose.toUInt8) e.sequence
  have hkept {n : Nat} (hn : n < 6) := hkeeps.cells n (by
    simp only [orderCells, List.mem_cons, List.not_mem_nil, or_false]
    omega)
  refine ⟨⟨?list, hk, ?position⟩, fun _ => ⟨?pointer, hstored.sequence _ hknown, hscore.readable _ hknown⟩⟩
  case list =>
    rw [hkept (by omega), hkept (by omega)]
    exact hlists.list
  case position =>
    simp only [entered, Function.update_self, UInt8.toNat_add, UInt8.toNat_ofNat']
    show (2 * k % 256 + 2) % 256 = _
    omega
  case pointer =>
    have hlo : (entered here s (UInt8.ofNat (2 * k)) (transposeBias + e.transpose.toUInt8) e.sequence).cells
        (9 + s.regs.x.toNat) = here.byte (2480 + e.sequence.toNat) := by
      simp [entered]
    have hhi : (entered here s (UInt8.ofNat (2 * k)) (transposeBias + e.transpose.toUInt8) e.sequence).cells
        (12 + s.regs.x.toNat) = here.byte (2608 + e.sequence.toNat) := by
      simp [entered]
    rw [hlo, hhi]
    exact hstored.sequencePointer _ hknown

/-- A voice that is silenced is stopped, and keeps where it is. -/
theorem silenced_keeps (here : Site) (hx : s.regs.x.toNat < 3) (hsaved : s.saved = []) :
    Keeps [30 + s.regs.x.toNat, 36 + s.regs.x.toNat] s (run here none silence (stopping s)).2 ∧
      (run here none silence (stopping s)).2.cells (36 + s.regs.x.toNat) = 1 := by
  have hsteady := fun item hi => steady_of_even (silence_even.1 item hi)
  have hsilence := (run_steady here silence none (s := stopping s) hsteady (.of_lt hx) hsaved).2
  rw [touched_silence, show (stopping s).regs.x = s.regs.x from rfl] at hsilence
  have hstopping : Keeps [30 + s.regs.x.toNat, 36 + s.regs.x.toNat] s (stopping s) := by
    refine ⟨rfl, rfl, rfl, fun n hn => Function.update_of_ne (fun h => hn ?_) ..⟩
    simp [h]
  refine ⟨hstopping.trans (hsilence.mono (by simp)), ?_⟩
  rw [hsilence.cells _ (by simp)]
  exact Function.update_self ..

/-- **The routine leads a voice to the next spot** of the score. -/
theorem nextOrder_follows (hscore : score.Playable) (hstored : score.Stored here) (hx : s.regs.x.toNat < 3)
    (hsaved : s.saved = []) (hdecimal : s.regs.p.decimal = false)
    (hlists : Lists score here s s.regs.x.toNat entry) :
    ∃ s', run here none (itemsFrom "next_order") s = (.ret, s') ∧ Keeps (orderCells s.regs.x.toNat) s s' ∧
      Follows score here s' s.regs.x.toNat (nextSpot score s.regs.x.toNat entry) := by
  have hrun := run_nextOrder hscore hstored hx hsaved hdecimal hlists
  split at hrun
  next k hnext =>
    obtain ⟨e, he, hrun⟩ := hrun
    rw [nextSpot_some hnext he]
    exact ⟨_, hrun, entered_keeps .., entered_follows hscore hstored hx hlists he⟩
  next hnext =>
    obtain ⟨hkeeps, hstopped⟩ := silenced_keeps here hx hsaved
    rw [nextSpot_none hnext]
    refine ⟨_, hrun, hkeeps.mono (by simp [orderCells]), hlists.congr fun n hn => hkeeps.cells n ?_, fun h => ?_⟩
    · simp at hn ⊢
      omega
    · rw [hstopped] at h
      cases h

/-- The routine does the same wherever the player stands. -/
theorem nextOrder_alike (hscore : score.Playable) (htwin : Twin here there) (hhere : score.Stored here)
    (hthere : score.Stored there) (halike : Alike s t) (hx : s.regs.x.toNat < 3)
    (hsaved : s.saved = []) (hdecimal : s.regs.p.decimal = false)
    (hs : Lists score here s s.regs.x.toNat entry) (ht : Lists score there t s.regs.x.toNat entry) :
    Alike (run here none (itemsFrom "next_order") s).2 (run there none (itemsFrom "next_order") t).2 := by
  have hregs := halike.regs
  have hrun := run_nextOrder hscore hhere hx hsaved hdecimal hs
  have hrun' := run_nextOrder hscore hthere (hregs ▸ hx) (halike.saved ▸ hsaved) (hregs ▸ hdecimal) (hregs ▸ ht)
  rw [← hregs] at hrun'
  split at hrun
  next k hnext =>
    rw [hnext] at hrun'
    obtain ⟨e, he, hrun⟩ := hrun
    obtain ⟨e', he', hrun'⟩ := hrun'
    cases he.symm.trans he'
    rw [hrun, hrun']
    exact entered_alike halike hx _ _ _
  next hnext =>
    rw [hnext] at hrun'
    rw [hrun, hrun']
    have hstopping : Alike (stopping s) (stopping t) := by
      have hended := ended_alike halike hx
      refine ⟨?_, halike.saved, halike.sid, fun n hn => ?_⟩
      · simp only [stopping, hended.regs]
      · simp only [stopping, ← hregs, Function.update_apply, halike.cells n hn]
    exact (run_alike htwin silence none silence_even.1 (s := stopping s) (.of_lt hx) hsaved hstopping).2

end Score

end Chiptune.Player.Minimal
