/-
The routine that reads a row of a voice.
-/
import Chiptune.Proofs.Player.Minimal.Pairs

namespace Chiptune.Player.Minimal

open Machine Sound Song Music

variable {here there : Site} {s t : State} {rest : List Item} {pointer : UInt16} {c parameter : UInt8}

/-! ## Ways through the routine -/

/-- The variables after a pair of the sequence is read. -/
def advanced (s : State) (parameter : UInt8) : Nat → UInt8 :=
  let x := s.regs.x.toNat
  let cells := Function.update (Function.update s.cells 64 parameter) (9 + x) (s.cells (9 + x) + 2)
  if 255 < (s.cells (9 + x)).toNat + 2 then Function.update cells (12 + x) (s.cells (12 + x) + 1) else cells

/-- The pointers while a row is read. -/
def pointed (s : State) : UInt8 → UInt8 :=
  Function.update (Function.update s.page 0xFB (s.cells (9 + s.regs.x.toNat))) 0xFC (s.cells (12 + s.regs.x.toNat))

/-- The registers once the end mark is read. -/
def marked (r : Registers) : Registers :=
  plain { r with a := 0x7F, y := 0, p := { r.p with carry := true, zero := true, negative := false } }

/-- The registers once the class of an event is compared with that of a release. -/
def classed (r : Registers) (c : UInt8) : Registers := plain { r with a := c, y := 1, p := r.p.compare c 1 }

/-- The registers once a note is read. -/
def noted (r : Registers) (parameter : UInt8) : Registers :=
  plain { r with a := parameter, y := 1, p := { r.p.withResult parameter with carry := false } }

theorem run_row_finish (here : Site) (rest : List Item) (hx : s.regs.x.toNat < 3) (hsaved : s.saved = [])
    (hlist : Word.ofBytes (s.cells (9 + s.regs.x.toNat)) (s.cells (12 + s.regs.x.toNat)) = pointer)
    (hmark : here.through? pointer 0 = some (.value 0x7F)) :
    run here none (row.drop 5 ++ rest) s = (.call "next_order" (row.drop 15 ++ rest), { s with
      regs := marked s.regs
      page := pointed s }) := by
  simp -implicitDefEqProofs [row, marked, EventClass.code, pointed, hx, hsaved, hlist, hmark]

theorem run_row_event (here : Site) (rest : List Item) (hx : s.regs.x.toNat < 3) (hsaved : s.saved = [])
    (hdecimal : s.regs.p.decimal = false)
    (hlist : Word.ofBytes (s.cells (9 + s.regs.x.toNat)) (s.cells (12 + s.regs.x.toNat)) = pointer)
    (hclass : here.through? pointer 0 = some (.value c)) (hc : c ≠ 0x7F) (hnote : c ≠ 0)
    (hparameter : here.through? pointer 1 = some (.value parameter)) :
    run here none (row.drop 5 ++ (rowEvents ++ rest)) s = run here none (rowEvents.drop 6 ++ rest) { s with
      regs := classed s.regs c
      cells := advanced s parameter
      page := pointed s } := by
  show run here none (row.drop 5 ++ (rowEvents.take 6 ++ (rowEvents.drop 6 ++ rest))) s = _
  generalize rowEvents.drop 6 ++ rest = rest
  have h9 : 9 + s.regs.x.toNat ≠ 64 := by omega
  have h12 : 12 + s.regs.x.toNat ≠ 64 := by omega
  by_cases hcarry : 255 < (s.cells (9 + s.regs.x.toNat)).toNat + 2
  all_goals
    simp -implicitDefEqProofs [row, rowEvents, classed, EventClass.code, pointed, advanced, hx, hsaved, hdecimal, hlist, hclass, hc,
      hnote, hparameter, Flags.add, Flags.addBinary, hcarry, h9, h12]

theorem run_row_note (here : Site) (rest : List Item) (hx : s.regs.x.toNat < 3) (hsaved : s.saved = [])
    (hdecimal : s.regs.p.decimal = false)
    (hlist : Word.ofBytes (s.cells (9 + s.regs.x.toNat)) (s.cells (12 + s.regs.x.toNat)) = pointer)
    (hclass : here.through? pointer 0 = some (.value 0))
    (hparameter : here.through? pointer 1 = some (.value parameter)) :
    run here none (row.drop 5 ++ (rowEvents ++ (noteOn ++ rest))) s = run here none (noteOn.drop 3 ++ rest) { s with
      regs := noted s.regs parameter
      cells := advanced s parameter
      page := pointed s } := by
  show run here none (row.drop 5 ++ (rowEvents ++ (noteOn.take 3 ++ (noteOn.drop 3 ++ rest)))) s = _
  generalize noteOn.drop 3 ++ rest = rest
  have h9 : 9 + s.regs.x.toNat ≠ 64 := by omega
  have h12 : 12 + s.regs.x.toNat ≠ 64 := by omega
  by_cases hcarry : 255 < (s.cells (9 + s.regs.x.toNat)).toNat + 2
  all_goals
    simp -implicitDefEqProofs [row, rowEvents, noteOn, noted, EventClass.code, pointed, advanced, hx, hsaved, hdecimal, hlist, hclass,
      hparameter, Flags.add, Flags.addBinary, hcarry, h9, h12, h9.symm, h12.symm]

theorem run_ordered (here : Site) (rest : List Item) (hx : s.regs.x.toNat < 3) (hsaved : s.saved = []) :
    run here none (row.drop 15 ++ rest) s =
    if s.cells (36 + s.regs.x.toNat) = 0 then
      run here (some "row_read") (row.drop 18 ++ rest) { s with
        regs := plain (s.regs.setA (s.cells (36 + s.regs.x.toNat))) }
    else (.ret, { s with regs := plain (s.regs.setA (s.cells (36 + s.regs.x.toNat))) }) := by
  by_cases hstopped : s.cells (36 + s.regs.x.toNat) = 0
  all_goals simp -implicitDefEqProofs [row, hx, hsaved, hstopped]

/-! ## Blocks -/

/-- What follows the routine. -/
def afterRow : List Item := itemsFrom "update_voice"

set_option maxRecDepth 2000 in
theorem itemsFrom_row :
    itemsFrom "row" = row.take 5 ++ itemsFrom "row_read" ∧
      itemsFrom "row_read" = row.drop 5 ++ (rowEvents ++ (noteOn ++ (noteEnvelope ++ afterRow))) ∧
        itemsFrom "command" = command ++ stop :=
  ⟨rfl, rfl, rfl⟩

theorem tame_waiting : Tame (row.take 5) ∧ ways none (row.take 5) = [.ret, .goto "row_read"] := by decide

theorem tame_note : Tame (noteOn.drop 3 ++ noteEnvelope) ∧ ∀ w ∈ ways none (noteOn.drop 3 ++ noteEnvelope), w = .ret := by
  decide

set_option maxRecDepth 2000 in
theorem tame_events : Tame (rowEvents.drop 6 ++ (noteOn ++ noteEnvelope)) ∧
    ∀ w ∈ ways none (rowEvents.drop 6 ++ (noteOn ++ noteEnvelope)),
      w = .ret ∨ w = .goto "row_read" ∨
        w = .call "command" (op .jmp (.absolute (.label "row_read")) :: (noteOn ++ noteEnvelope)) := by
  decide

theorem rowRead_behind : .label "row_read" ∉ afterRow ∧ .label "row_read" ∉ (noteOn ++ noteEnvelope) ++ afterRow ∧
    .label "row_read" ∉ row.drop 18 ++ (rowEvents ++ (noteOn ++ (noteEnvelope ++ afterRow))) := by
  decide

theorem tame_command : Tame command ∧ ∀ w ∈ ways none command, w = .ret := by decide

/-! ## Reading a pair -/

section Pairs

variable {score : Score} {spots : Nat → Spot}

theorem advanced_word (s : State) (parameter : UInt8) (hx : s.regs.x.toNat < 3) :
    Word.ofBytes (advanced s parameter (9 + s.regs.x.toNat)) (advanced s parameter (12 + s.regs.x.toNat)) =
      Word.ofBytes (s.cells (9 + s.regs.x.toNat)) (s.cells (12 + s.regs.x.toNat)) + 2 := by
  have hlo := (s.cells (9 + s.regs.x.toNat)).toNat_lt
  have hhi := (s.cells (12 + s.regs.x.toNat)).toNat_lt
  have h12 : 12 + s.regs.x.toNat ≠ 64 := by omega
  apply UInt16.toNat_inj.mp
  rw [UInt16.toNat_add, Word.toNat_ofBytes, Word.toNat_ofBytes]
  show _ = (_ + 2) % 65536
  unfold advanced
  split
  · simp
    omega
  · simp [h12]
    omega

/-- What reading a pair changes. -/
theorem advanced_keeps (s : State) (parameter : UInt8) {n : Nat} (hn : n ∉ [64, 9 + s.regs.x.toNat, 12 + s.regs.x.toNat]) :
    advanced s parameter n = s.cells n := by
  simp only [List.mem_cons, List.not_mem_nil, or_false, not_or] at hn
  unfold advanced
  split <;> simp [hn]

/-- A pair of a sequence that is not its end is read. -/
theorem Playing.advance (h : Playing score here spots s) (page : UInt8 → UInt8) (hx : s.regs.x.toNat < 3) {c parameter : UInt8} {rest : Bytes}
    (hrest : (spots s.regs.x.toNat).rest = c :: parameter :: rest) (hreadable : Readable rest)
    (hstopped : s.cells (36 + s.regs.x.toNat) = 0) {r : Registers} (hrx : r.x = s.regs.x)
    (hdecimal : r.p.decimal = s.regs.p.decimal) :
    Playing score here (Function.update spots s.regs.x.toNat
        { spots s.regs.x.toNat with rest, offset := (spots s.regs.x.toNat).offset + 2 })
      { s with regs := r, cells := advanced s parameter, page } := by
  have hfollows := h.follows _ hx
  obtain ⟨hword, hhas, -⟩ := hfollows.sequence hstopped
  rw [hrest] at hhas
  have hkeeps : Keeps [64, 9 + s.regs.x.toNat, 12 + s.regs.x.toNat] s
      { s with regs := r, cells := advanced s parameter, page } :=
    ⟨hrx, hdecimal, rfl, fun n hn => advanced_keeps s parameter hn⟩
  refine h.move hkeeps (fun n hn hheld => ?_) ⟨hfollows.lists.congr fun n hn => hkeeps.cells n ?_, fun _ => ⟨?_, ?_, hreadable⟩⟩
  · simp only [List.mem_cons, List.not_mem_nil, or_false] at hn
    simp only [isHeld, Bool.or_eq_true, Bool.and_eq_true, decide_eq_true_eq] at hheld
    omega
  · simp only [List.mem_cons, List.not_mem_nil, or_false] at hn ⊢
    omega
  · show Word.ofBytes (advanced s parameter _) (advanced s parameter _) = _
    rw [advanced_word _ _ hx, hword, address_add]
    rfl
  · exact hhas.drop (k := 2) (by simp)

theorem advanced_alike (h : Alike s t) (parameter : UInt8) (hx : s.regs.x.toNat < 3) {n : Nat} (hn : isAddress n = false) :
    advanced s parameter n = advanced t parameter n := by
  have hcells := h.cells n hn
  by_cases h64 : n = 64
  · subst h64
    have hself (s : State) (hx : s.regs.x.toNat < 3) : advanced s parameter 64 = parameter := by
      have h9 : 64 ≠ 9 + s.regs.x.toNat := by omega
      have h12 : 64 ≠ 12 + s.regs.x.toNat := by omega
      unfold advanced
      split <;> simp [h9, h12]
    rw [hself s hx, hself t (h.regs ▸ hx)]
  · have hother : n ∉ [64, 9 + s.regs.x.toNat, 12 + s.regs.x.toNat] := by
      rw [isAddress_eq_false] at hn
      simp only [List.mem_cons, List.not_mem_nil, or_false]
      omega
    rw [advanced_keeps s parameter hother, advanced_keeps t parameter (h.regs ▸ hother), hcells]

/-- Two players read a pair in step. -/
theorem Paired.advance (h : Paired score here there spots s t) (hx : s.regs.x.toNat < 3) {c parameter : UInt8}
    {rest : Bytes} (hrest : (spots s.regs.x.toNat).rest = c :: parameter :: rest) (hreadable : Readable rest)
    (hstopped : s.cells (36 + s.regs.x.toNat) = 0) {r : Registers} (hrx : r.x = s.regs.x)
    (hdecimal : r.p.decimal = s.regs.p.decimal) :
    Paired score here there (Function.update spots s.regs.x.toNat
        { spots s.regs.x.toNat with rest, offset := (spots s.regs.x.toNat).offset + 2 })
      { s with regs := r, cells := advanced s parameter, page := pointed s }
      { t with regs := r, cells := advanced t parameter, page := pointed t } := by
  have hregs := h.alike.regs
  have hstopped' : t.cells (36 + t.regs.x.toNat) = 0 := by
    rw [← hregs, ← h.alike.cells _ (isAddress_eq_false.mpr (.inr (by omega)))]
    exact hstopped
  have hthere := h.there.advance (pointed t) (hregs ▸ hx) (hregs ▸ hrest) hreadable hstopped' (r := r)
    (hregs ▸ hrx) (hregs ▸ hdecimal)
  rw [← hregs] at hthere
  exact ⟨h.here.advance _ hx hrest hreadable hstopped hrx hdecimal, hthere,
    ⟨rfl, h.alike.saved, h.alike.sid, fun n hn => advanced_alike h.alike parameter hx hn⟩⟩

end Pairs

/-! ## The routine -/

section Routine

variable {score : Score} {spots : Nat → Spot} {depth fuel : Nat}

/-- What a row leaves. -/
def RowLeft (score : Score) (here there : Site) (x : UInt8) (s t : State) : Prop :=
  s.regs.x = x ∧ ∃ spots, Paired score here there spots s t

/-- Two voices that go on reading their sequences. -/
def Reading (score : Score) (here there : Site) (x : UInt8) (s t : State) : Prop :=
  s.regs.x = x ∧ s.cells (36 + x.toNat) = 0 ∧ ∃ spots, Paired score here there spots s t

/-- What a player finds in memory where a voice reads its sequence. -/
theorem Playing.reads (h : Playing score here spots s) (hx : s.regs.x.toNat < 3)
    (hstopped : s.cells (36 + s.regs.x.toNat) = 0) {rest : Bytes}
    (hrest : (spots s.regs.x.toNat).rest = c :: parameter :: rest) :
    ∃ pointer, Word.ofBytes (s.cells (9 + s.regs.x.toNat)) (s.cells (12 + s.regs.x.toNat)) = pointer ∧
      here.through? pointer 0 = some (.value c) ∧ here.through? pointer 1 = some (.value parameter) := by
  obtain ⟨hword, hhas, -⟩ := (h.follows _ hx).sequence hstopped
  rw [hrest] at hhas
  exact ⟨_, hword, hhas.through rfl, hhas.through rfl⟩

/-- The ways out of a pair that is an event: the row is over, or the next pair is read, perhaps after a command. -/
def eventWays : List Way :=
  [.ret, .goto "row_read",
    .call "command" (op .jmp (.absolute (.label "row_read")) :: ((noteOn ++ noteEnvelope) ++ afterRow))]

/-- **Two players read a pair** that is not the end of the sequence, and leave it the same way. -/
theorem run_event (htwin : Twin here there) (h : Paired score here there spots s t) (hx : s.regs.x.toNat < 3)
    (hstopped : s.cells (36 + s.regs.x.toNat) = 0) {rest : Bytes} (hc : c ≠ 0x7F)
    (hrest : (spots s.regs.x.toNat).rest = c :: parameter :: rest) (hreadable : Readable rest) :
    ∃ w ∈ eventWays, ∃ s' t', run here none (itemsFrom "row_read") s = (w, s') ∧
      run there none (itemsFrom "row_read") t = (w, t') ∧ s'.regs.x = s.regs.x ∧
      s'.cells (36 + s.regs.x.toNat) = 0 ∧ Paired score here there (Function.update spots s.regs.x.toNat
        { spots s.regs.x.toNat with rest, offset := (spots s.regs.x.toNat).offset + 2 }) s' t' := by
  have hregs := h.alike.regs
  have hstopped' : t.cells (36 + t.regs.x.toNat) = 0 := by
    rw [← hregs, ← h.alike.cells _ (isAddress_eq_false.mpr (.inr (by omega)))]
    exact hstopped
  obtain ⟨pointer, hpointer, hclass, hparameter⟩ := h.here.reads hx hstopped hrest
  obtain ⟨pointer', hpointer', hclass', hparameter'⟩ := h.there.reads (hregs ▸ hx) hstopped' (hregs ▸ hrest)
  have hstill {s' : State} (hheld : s'.cells (36 + s.regs.x.toNat) = advanced s parameter (36 + s.regs.x.toNat)) :
      s'.cells (36 + s.regs.x.toNat) = 0 :=
    hheld.trans ((advanced_keeps s parameter (by simp; omega)).trans hstopped)
  rw [itemsFrom_row.2.1]
  by_cases hnote : c = 0
  · subst hnote
    have hs := run_row_note here (noteEnvelope ++ afterRow) hx h.here.saved h.here.decimal hpointer hclass hparameter
    have ht := run_row_note there (noteEnvelope ++ afterRow) (hregs ▸ hx) h.there.saved h.there.decimal hpointer' hclass'
      hparameter'
    rw [← hregs] at ht
    have hp := h.advance hx hrest hreadable hstopped (r := noted s.regs parameter) rfl rfl
    obtain ⟨w, hw, s', t', hs', ht', hp', hx', hheld⟩ := run_tame htwin tame_note.1 hp hx afterRow
    rw [List.append_assoc] at hs' ht'
    cases tame_note.2 w hw
    exact ⟨.ret, by simp [eventWays], s', t', hs.trans hs', ht.trans ht', hx', hstill (hheld _ (isHeld_stopped hx)), hp'⟩
  · have hs := run_row_event here (noteOn ++ (noteEnvelope ++ afterRow)) hx h.here.saved h.here.decimal hpointer hclass
      hc hnote hparameter
    have ht := run_row_event there (noteOn ++ (noteEnvelope ++ afterRow)) (hregs ▸ hx) h.there.saved h.there.decimal
      hpointer' hclass' hc hnote hparameter'
    rw [← hregs] at ht
    have hp := h.advance hx hrest hreadable hstopped (r := classed s.regs c) rfl rfl
    obtain ⟨w, hw, s', t', hs', ht', hp', hx', hheld⟩ := run_tame htwin tame_events.1 hp hx afterRow
    rw [List.append_assoc, List.append_assoc] at hs' ht'
    have hstill := hstill (hheld _ (isHeld_stopped hx))
    rcases tame_events.2 w hw with rfl | rfl | rfl
    · exact ⟨.ret, by simp [eventWays], s', t', hs.trans hs', ht.trans ht', hx', hstill, hp'⟩
    · have hgoto := rowRead_behind.1
      exact ⟨.goto "row_read", by simp [eventWays], s', t', hs.trans (hs'.trans (run_goto hgoto)),
        ht.trans (ht'.trans (run_goto hgoto)), hx', hstill, hp'⟩
    · exact ⟨_, by simp [eventWays], s', t', hs.trans hs', ht.trans ht', hx', hstill, hp'⟩

/-- A pair that is not the end of the sequence is an event. -/
theorem both_event (hshared : Shared score here there) (hdepth : depth + 2 ≤ stackLimit)
    (h : Paired score here there spots s t) (hx : s.regs.x.toNat < 3) (hstopped : s.cells (36 + s.regs.x.toNat) = 0)
    {rest : Bytes} (hc : c ≠ 0x7F) (hrest : (spots s.regs.x.toNat).rest = c :: parameter :: rest)
    (hreadable : Readable rest)
    (hloop : ∀ fuel' < fuel, ∀ s' t', Reading score here there s.regs.x s' t' →
      Both here there depth fuel' (itemsFrom "row_read") s' t' (RowLeft score here there s.regs.x)) :
    Both here there depth fuel (itemsFrom "row_read") s t (RowLeft score here there s.regs.x) := by
  obtain ⟨w, hw, s', t', hs, ht, hx', hstill, hp⟩ := run_event hshared.twin h hx hstopped hc hrest hreadable
  simp only [eventWays, List.mem_cons, List.not_mem_nil, or_false] at hw
  rcases hw with rfl | rfl | rfl
  · exact both_ret hs ht ⟨hx', _, hp⟩
  · exact both_goto hs ht fun fuel' hfuel => hloop fuel' hfuel s' t' ⟨hx', hstill, _, hp⟩
  · refine both_call (R := Reading score here there s.regs.x) hdepth hs ht (fun fuel' _ => ?_)
      fun fuel' hfuel s'' t'' hreading => ?_
    · obtain ⟨w, hw, s'', t'', hs'', ht'', hp'', hx'', hheld⟩ :=
        run_tame hshared.twin tame_command.1 hp (by rw [hx']; exact hx) stop
      rw [← itemsFrom_row.2.2] at hs'' ht''
      cases tame_command.2 w hw
      exact both_ret hs'' ht'' ⟨hx''.trans hx', by rw [hheld _ (isHeld_stopped hx), hstill], _, hp''⟩
    · have hgoto := rowRead_behind.2.1
      exact both_goto (run_goto (s := s'') hgoto) (run_goto (s := t'') hgoto) fun fuel'' hfuel' =>
        hloop fuel'' (Nat.lt_trans hfuel' hfuel) s'' t'' hreading

/-- At the end of a sequence the next order entry is taken, which may stop the voice. -/
theorem both_finish (hshared : Shared score here there) (hdepth : depth + 2 ≤ stackLimit)
    (h : Paired score here there spots s t) (hx : s.regs.x.toNat < 3) (hstopped : s.cells (36 + s.regs.x.toNat) = 0)
    {rest : Bytes} (hrest : (spots s.regs.x.toNat).rest = 0x7F :: parameter :: rest)
    (hloop : ∀ fuel' < fuel, ∀ s' t', Reading score here there s.regs.x s' t' →
      Both here there depth fuel' (itemsFrom "row_read") s' t' (RowLeft score here there s.regs.x)) :
    Both here there depth fuel (itemsFrom "row_read") s t (RowLeft score here there s.regs.x) := by
  have hregs := h.alike.regs
  have hstopped' : t.cells (36 + t.regs.x.toNat) = 0 := by
    rw [← hregs, ← h.alike.cells _ (isAddress_eq_false.mpr (.inr (by omega)))]
    exact hstopped
  obtain ⟨pointer, hpointer, hmark, -⟩ := h.here.reads hx hstopped hrest
  obtain ⟨pointer', hpointer', hmark', -⟩ := h.there.reads (hregs ▸ hx) hstopped' (hregs ▸ hrest)
  have hs := run_row_finish _ (rowEvents ++ (noteOn ++ (noteEnvelope ++ afterRow))) hx h.here.saved hpointer hmark
  have ht := run_row_finish _ (rowEvents ++ (noteOn ++ (noteEnvelope ++ afterRow))) (hregs ▸ hx) h.there.saved
    hpointer' hmark'
  rw [← hregs] at ht
  have hp := h.compute (r := marked s.regs) rfl (pointed s) (pointed t)
  have hx₁ : (marked s.regs).x.toNat < 3 := hx
  rw [itemsFrom_row.2.1]
  refine both_call (R := RowLeft score here there s.regs.x) hdepth hs ht (fun fuel' _ => ?_) fun fuel' hfuel s' t' hleft => ?_
  · refine both_nextOrder hshared hp.alike hx₁ hp.here.saved hp.here.decimal (hp.here.follows _ hx₁).lists
      (hp.there.follows _ hx₁).lists fun s' t' halike hkeeps hkeeps' hfollows hfollows' => ?_
    exact ⟨hkeeps.x, _, hp.here.move hkeeps (isHeld_orderCells hx₁) hfollows,
      hp.there.move hkeeps' (isHeld_orderCells hx₁) hfollows', halike⟩
  · obtain ⟨hx', spots', h'⟩ := hleft
    have hregs' := h'.alike.regs
    rw [← hx'] at hx
    have hflag := h'.alike.cells (36 + s'.regs.x.toNat) (isAddress_eq_false.mpr (.inr (by omega)))
    have hs' := run_ordered here (rowEvents ++ (noteOn ++ (noteEnvelope ++ afterRow))) hx h'.here.saved
    have ht' := run_ordered there (rowEvents ++ (noteOn ++ (noteEnvelope ++ afterRow))) (hregs' ▸ hx)
      h'.there.saved
    rw [← hregs', ← hflag] at ht'
    have hp' := h'.compute (r := plain (s'.regs.setA (s'.cells (36 + s'.regs.x.toNat)))) rfl s'.page t'.page
    by_cases hflag' : s'.cells (36 + s'.regs.x.toNat) = 0
    · rw [if_pos hflag'] at hs' ht'
      have hgoto := rowRead_behind.2.2
      refine both_goto (hs'.trans (run_goto hgoto)) (ht'.trans (run_goto hgoto)) fun fuel'' hfuel' =>
        hloop fuel'' (Nat.lt_trans hfuel' hfuel) _ _ ⟨hx', ?_, _, hp'⟩
      rw [← hx']
      exact hflag'
    · rw [if_neg hflag'] at hs' ht'
      exact both_ret hs' ht' ⟨hx', _, hp'⟩

/-- **Two players read a row in step.** The induction is on the fuel, of which every jump back takes some. -/
theorem both_rowRead (hshared : Shared score here there) (hdepth : depth + 2 ≤ stackLimit) : ∀ (fuel : Nat)
    {spots : Nat → Spot} {s t : State}, Paired score here there spots s t → s.regs.x.toNat < 3 →
      s.cells (36 + s.regs.x.toNat) = 0 →
      Both here there depth fuel (itemsFrom "row_read") s t (RowLeft score here there s.regs.x) := by
  intro fuel
  induction fuel using Nat.strongRecOn with
  | ind fuel ih =>
    intro spots s t h hx hstopped
    obtain ⟨-, -, hreadable⟩ := (h.here.follows _ hx).sequence hstopped
    have hloop : ∀ fuel' < fuel, ∀ s' t', Reading score here there s.regs.x s' t' →
        Both here there depth fuel' (itemsFrom "row_read") s' t' (RowLeft score here there s.regs.x) := by
      intro fuel' hfuel s' t' ⟨hx', hstopped', spots', h'⟩
      rw [← hx'] at hx hstopped' ⊢
      exact ih fuel' hfuel h' hx hstopped'
    generalize hrest : (spots s.regs.x.toNat).rest = bytes at hreadable
    cases hreadable with
    | event hc hreadable =>
      exact both_event hshared hdepth h hx hstopped hc hrest hreadable hloop
    | finish parameter rest => exact both_finish hshared hdepth h hx hstopped hrest hloop

/-- **Two players play a row of a voice in step**: it rests, or reads. -/
theorem both_row (hshared : Shared score here there) (hdepth : depth + 2 ≤ stackLimit)
    (h : Paired score here there spots s t) (hx : s.regs.x.toNat < 3) (hstopped : s.cells (36 + s.regs.x.toNat) = 0) :
    Both here there depth fuel (itemsFrom "row") s t (RowLeft score here there s.regs.x) := by
  obtain ⟨w, hw, s', t', hs, ht, hp, hx', hheld⟩ := run_tame hshared.twin tame_waiting.1 h hx (itemsFrom "row_read")
  rw [← itemsFrom_row.1] at hs ht
  rw [tame_waiting.2] at hw
  have hfound (here : Site) (s : State) :
      run here (some "row_read") (itemsFrom "row_read") s = run here none (itemsFrom "row_read") s := by
    rw [itemsFrom_row.2.1]
    rfl
  simp only [List.mem_cons, List.not_mem_nil, or_false] at hw
  rcases hw with rfl | rfl
  · exact both_ret hs ht ⟨hx', _, hp⟩
  · rw [← hx']
    refine both_congr (hs.trans (hfound here s')) (ht.trans (hfound there t'))
      (both_rowRead hshared hdepth fuel hp (hx' ▸ hx) ?_)
    rw [hx', hheld _ (isHeld_stopped hx), hstopped]

end Routine

end Chiptune.Player.Minimal
