/-
Reading a row ends in the song.

A voice walks over positions: through the events of a sequence, on to the next
entry of its order list, and round the loop for good if there is one
(`Visited`). The walk has no end of its own, but between two rows it is short.
What is left of the list is finite, and so is the way through the loop up to an
entry that takes a row, which there is in a song without faults
(`Rendition.exists_sounding`). So it settles from wherever it is
(`rowsEnd_of_wellFormed`).
-/
import Mathlib.Algebra.BigOperators.Intervals
import Mathlib.Algebra.Order.BigOperators.Group.Finset
import Chiptune.Proofs.Player.Minimal.Endless

namespace Chiptune.Player.Minimal

open Song Sound

variable {song : Song} {l : OrderList} {v : Voice} {n m k : Nat}

/-! ## Positions -/

/-- A position in the music of a voice. -/
structure Position where
  /-- The entry of the order list that is played. -/
  entry : Nat
  /-- The event of its sequence to read next. -/
  event : Nat

/-- The events that an entry of an order list plays. -/
def entryEvents (song : Song) (l : OrderList) (entry : Nat) : List Event :=
  eventsOf song ((l.entries[entry]?).getD ⟨0, 0⟩).sequence

/-- The event at a position, if its sequence is not at its end there. -/
def Position.event? (song : Song) (l : OrderList) (p : Position) : Option Event := (entryEvents song l p.entry)[p.event]?

/-- The position after this one: past its event, or at the start of the next entry. There is none at the end of a list
that stops. -/
def Position.next? (song : Song) (l : OrderList) (p : Position) : Option Position :=
  match p.event? song l with
  | some _ => some { p with event := p.event + 1 }
  | none => ( nextEntry? l (p.entry + 1)).map fun entry => ⟨entry, 0⟩

/-- The positions at which a voice can be that plays its order list. -/
inductive Visited (song : Song) (l : OrderList) : Position → Prop
  | start {k : Nat} (hfirst : nextEntry? l 0 = some k) : Visited song l ⟨k, 0⟩
  | next {p q : Position} (hp : Visited song l p) (hnext : p.next? song l = some q) : Visited song l q

/-- From a position it takes no more than `n` moves, past events that take no row and on to other entries, to get to an
event that takes one or to where the list stops. -/
inductive Settles (song : Song) (l : OrderList) : Nat → Position → Prop
  | row {n : Nat} {p : Position} {e : Event} (hevent : p.event? song l = some e) (hrow : 0 < e.rows) : Settles song l n p
  | stop {n : Nat} {p : Position} (hnext : p.next? song l = none) : Settles song l n p
  | move {n : Nat} {p q : Position} (hsilent : ∀ e, p.event? song l = some e → e.rows = 0)
      (hnext : p.next? song l = some q) (hrest : Settles song l n q) : Settles song l (n + 1) p

theorem Settles.mono {p : Position} (h : Settles song l n p) (hnm : n ≤ m) : Settles song l m p := by
  induction h generalizing m with
  | row hevent hrow => exact .row hevent hrow
  | stop hnext => exact .stop hnext
  | move hsilent hnext _ ih =>
    obtain ⟨m, rfl⟩ : ∃ i, m = i + 1 := ⟨m - 1, by omega⟩
    exact .move hsilent hnext (ih (Nat.le_of_succ_le_succ hnm))

/-! ## Within an entry -/

/-- Past the end of a sequence it goes on at the next entry. -/
theorem settles_end {i : Nat} (hend : (entryEvents song l k).length ≤ i)
    (hnext : ∀ q, nextEntry? l (k + 1) = some q → Settles song l n ⟨q, 0⟩) : Settles song l (n + 1) ⟨k, i⟩ := by
  have hevent : Position.event? song l ⟨k, i⟩ = none := List.getElem?_eq_none hend
  have hmove : Position.next? song l ⟨k, i⟩ = ( nextEntry? l (k + 1)).map fun entry => ⟨entry, 0⟩ := by
    rw [Position.next?, hevent]
  cases hq : nextEntry? l (k + 1) with
  | none => exact .stop (by rw [hmove, hq]; rfl)
  | some q => exact .move (fun e he => by rw [hevent] at he; cases he) (by rw [hmove, hq]; rfl) (hnext q hq)

/-- An event takes a row, or is one move. -/
theorem settles_event {i : Nat} {e : Event} (hevent : (entryEvents song l k)[i]? = some e)
    (hrest : e.rows = 0 → Settles song l n ⟨k, i + 1⟩) : Settles song l (n + 1) ⟨k, i⟩ := by
  have hevent : Position.event? song l ⟨k, i⟩ = some e := hevent
  rcases Nat.eq_zero_or_pos e.rows with hsilent | hrow
  · refine .move (fun e' he' => ?_) (by rw [Position.next?, hevent]) (hrest hsilent)
    cases hevent.symm.trans he'
    exact hsilent
  · exact .row hevent hrow

/-- An entry takes a move for each of its events, and one to the next entry. -/
theorem settles_through (hnext : ∀ q, nextEntry? l (k + 1) = some q → Settles song l n ⟨q, 0⟩) : ∀ (left : Nat) {i : Nat},
    (entryEvents song l k).length ≤ i + left → Settles song l (n + left + 1) ⟨k, i⟩
  | 0, _, hend => settles_end hend hnext
  | left + 1, i, hleft => by
    cases hevent : (entryEvents song l k)[i]? with
    | none => exact (settles_end (List.getElem?_eq_none_iff.mp hevent) hnext).mono (by omega)
    | some e => exact settles_event hevent fun _ => settles_through hnext left (by omega)

/-- An event ahead that takes a row is as many moves away. -/
theorem settles_before {e : Event} (hrow : 0 < e.rows) : ∀ (left : Nat) {i : Nat},
    (entryEvents song l k)[i + left]? = some e → Settles song l left ⟨k, i⟩
  | 0, _, hevent => .row hevent hrow
  | left + 1, i, hevent => by
    have hlt := (List.getElem?_eq_some_iff.mp hevent).1
    refine settles_event (List.getElem?_eq_getElem (show i < _ by omega)) fun _ => settles_before hrow left ?_
    rw [← hevent]
    congr 1
    omega

/-! ## Through the list -/

/-- Moves through the entries from one up to another. -/
def movesBetween (song : Song) (l : OrderList) (first stop : Nat) : Nat :=
  ∑ k ∈ Finset.Ico first stop, ((entryEvents song l k).length + 1)

/-- Moves through the whole list. -/
def movesThrough (song : Song) (l : OrderList) : Nat := movesBetween song l 0 l.entries.length

theorem movesBetween_succ {stop : Nat} (hk : k < stop) :
    movesBetween song l k stop = (entryEvents song l k).length + 1 + movesBetween song l (k + 1) stop :=
  Finset.sum_eq_sum_Ico_succ_bot hk _

theorem movesBetween_le {first stop : Nat} (hstop : stop ≤ l.entries.length) :
    movesBetween song l first stop ≤ movesThrough song l :=
  Finset.sum_le_sum_of_subset (Finset.Ico_subset_Ico (Nat.zero_le _) hstop)

/-- In a song without faults an event that takes a row takes one at least. -/
theorem exists_row (hsong : song.WellFormed) (hsounding : Rendition.Sounding song l k) :
    ∃ (i : Nat) (e : Event), (entryEvents song l k)[i]? = some e ∧ 0 < e.rows := by
  obtain ⟨e, hmem, htakes⟩ := hsounding
  obtain ⟨i, hi⟩ := List.getElem?_of_mem hmem
  refine ⟨i, e, hi, ?_⟩
  have hsound := sound_of_mem_events hsong (mem_events_of_mem_eventsOf hmem)
  cases e with
  | noteOn | noteOff => exact Nat.one_pos
  | rest rows => exact Nat.pos_of_ne_zero fun hzero => hsound (UInt8.toNat_inj.mp hzero)
  | tie | setInstrument | setCommand => cases htakes

/-- An entry is a stretch of the way, wherever in it the way starts. -/
theorem settles_stretch {i stop : Nat} (hk : k < stop)
    (hnext : ∀ q, nextEntry? l (k + 1) = some q → Settles song l (movesBetween song l (k + 1) stop + n) ⟨q, 0⟩) :
    Settles song l (movesBetween song l k stop + n) ⟨k, i⟩ := by
  refine (settles_through hnext (entryEvents song l k).length (Nat.le_add_left ..)).mono ?_
  rw [movesBetween_succ hk]
  omega

/-- The way to an entry ahead that takes a row. -/
theorem settles_ahead (hsong : song.WellFormed) {j : Nat} (hj : j < l.entries.length)
    (hsounding : Rendition.Sounding song l j) : ∀ (ahead : Nat) {k : Nat}, k + ahead = j →
      Settles song l (movesBetween song l k (j + 1)) ⟨k, 0⟩
  | 0, k, hk => by
    obtain rfl : k = j := hk
    obtain ⟨i, e, hevent, hrow⟩ := exists_row hsong hsounding
    have hlt := (List.getElem?_eq_some_iff.mp hevent).1
    refine (settles_before (i := 0) hrow i (by rwa [Nat.zero_add])).mono ?_
    rw [movesBetween_succ (Nat.lt_succ_self k)]
    omega
  | ahead + 1, k, hk => by
    refine settles_stretch (n := 0) (by omega) fun q hq => ?_
    rw [ nextEntry?, if_pos (by omega), Option.some.injEq] at hq
    exact hq ▸ settles_ahead hsong hj hsounding ahead (by omega)

/-- **From anywhere in an entry**: what is left of the list, and then the loop up to an entry that takes a row. -/
theorem settles_entry (hsong : song.WellFormed) (hl : orderListOf song v = l) : ∀ (left : Nat) {k i : Nat},
    k + left + 1 = l.entries.length →
      Settles song l (movesBetween song l k l.entries.length + movesThrough song l) ⟨k, i⟩
  | 0, k, i, hk => by
    refine settles_stretch (by omega) fun q hq => ?_
    -- the list is at its end, and loops
    rw [ nextEntry?, if_neg (by omega)] at hq
    split at hq
    next target hfinish =>
      cases hq
      subst hl
      obtain ⟨j, hle, hj, hsounding⟩ := Rendition.exists_sounding hsong hfinish
      exact (settles_ahead hsong hj hsounding (j - target.toNat) (by omega)).mono
        (Nat.le_add_left_of_le (movesBetween_le hj))
    · cases hq
  | left + 1, k, i, hk => by
    refine settles_stretch (by omega) fun q hq => ?_
    rw [ nextEntry?, if_pos (by omega), Option.some.injEq] at hq
    exact hq ▸ settles_entry hsong hl left (by omega)

/-- No way to a row is longer than twice through the order list. -/
theorem settles_within (hsong : song.WellFormed) (hk : k < (orderListOf song v).entries.length) (i : Nat) :
    Settles song (orderListOf song v) (2 * movesThrough song (orderListOf song v)) ⟨k, i⟩ := by
  refine (settles_entry (i := i) hsong rfl ((orderListOf song v).entries.length - k - 1) (by omega)).mono ?_
  have hleft : movesBetween song (orderListOf song v) k _ ≤ _ := movesBetween_le (Nat.le_refl _)
  omega

/-- A voice is in an entry of its list. -/
theorem Visited.entry_lt (hsong : song.WellFormed) {p : Position} (h : Visited song (orderListOf song v) p) :
    p.entry < (orderListOf song v).entries.length := by
  have hloops := (wellFormed_iff_consistent.mp hsong).1.loops _ (orderListOf_mem hsong v)
  induction h with
  | start hfirst => exact nextEntry?_lt hloops hfirst
  | next _ hnext ih =>
    unfold Position.next? at hnext
    split at hnext
    · cases hnext
      exact ih
    · obtain ⟨k, hk, rfl⟩ := Option.map_eq_some_iff.mp hnext
      exact nextEntry?_lt hloops hk

/-- Reading a row of a song ends: from wherever a voice can be, there are no more moves to the row or to where the voice
stops than twice through its order list. -/
def RowsEnd (song : Song) : Prop :=
  ∀ (v : Voice) (p : Position), Visited song (orderListOf song v) p →
    Settles song (orderListOf song v) (2 * movesThrough song (orderListOf song v)) p

/-- **In a song without faults** reading a row ends. -/
theorem rowsEnd_of_wellFormed (hsong : song.WellFormed) : RowsEnd song :=
  fun _ p hp => settles_within hsong (hp.entry_lt hsong) p.event

end Chiptune.Player.Minimal
