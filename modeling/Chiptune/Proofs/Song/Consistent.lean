/-
Songs with nothing wrong but that a loop may play no rows.

Everything that a song refers to is there (`Consistent`). That is what cutting
a song down can keep; whether a loop still plays rows (`LoopPlays`) depends on
which entries are left of it. Together the two make a song without faults.
-/
import Chiptune.Proofs.Song.WellFormed

namespace Chiptune.Song

/-! ## Parts -/

/-- The event refers to an instrument or a filter row that there is, and takes time if it rests. -/
def Event.Sound (instruments filterLength : Nat) : Event → Prop
  | .setInstrument id => id.toNat < instruments
  | .rest n => n ≠ 0
  | .setCommand c => commandFault? filterLength c = none
  | .noteOn _ | .noteOff | .tie => True

/-- The entry plays a sequence that there is, at pitches that the chip plays. -/
def OrderEntry.Sound (s : Song) (e : OrderEntry) : Prop :=
  e.transpose.toInt.natAbs ≤ Sound.Pitch.highest ∧
    ∃ q, s.sequences[e.sequence.toNat]? = some q ∧ ∀ p ∈ q.pitches, inRange (sounding e.transpose p) = true

/-- The list loops to one of its entries, if it loops. -/
def OrderList.LoopsInside (l : OrderList) : Prop := ∀ target, l.finish = .loop target → target.toNat < l.entries.length

/-- What the list repeats takes rows, if it loops. -/
def LoopPlays (s : Song) (l : OrderList) : Prop :=
  ∀ target, l.finish = .loop target → ∃ e ∈ l.entries.drop target.toNat, playsNothing s e = false

theorem eventFault?_eq_none {instruments filterLength sequence index : Nat} {e : Event} :
    eventFault? instruments filterLength sequence index e = none ↔ e.Sound instruments filterLength := by
  cases e <;> simp [eventFault?, Event.Sound]

theorem sequenceFaults_eq_nil {s : Song} {index : Nat} {q : Sequence} :
    sequenceFaults s index q = [] ↔ ∀ e ∈ q.events, e.Sound s.instruments.length (s.tableLength .filter) := by
  simp only [sequenceFaults, filterMap_zipIdx_eq_nil, eventFault?_eq_none]
  constructor
  · intro h e he
    obtain ⟨i, hi⟩ := List.getElem?_of_mem he
    exact h i e hi
  · exact fun h i e he => h e (List.mem_of_getElem? he)

theorem entryFault?_eq_none {s : Song} {voice index : Nat} {e : OrderEntry} :
    entryFault? s voice index e = none ↔ e.Sound s := by
  simp only [entryFault?, OrderEntry.Sound]
  by_cases htranspose : Sound.Pitch.highest < e.transpose.toInt.natAbs
  · simp only [htranspose, if_true, reduceCtorEq, false_iff, not_and]
    omega
  · simp only [htranspose, if_false, Nat.not_lt.mp htranspose, true_and]
    cases s.sequences[e.sequence.toNat]? with
    | none => simp
    | some q => simp [List.find?_eq_none]

theorem orderEndFaults_eq_nil {s : Song} {voice : Nat} {l : OrderList} :
    orderEndFaults s voice l = [] ↔ l.LoopsInside ∧ LoopPlays s l := by
  simp only [orderEndFaults, OrderList.LoopsInside, LoopPlays]
  cases l.finish with
  | stop => simp
  | loop target =>
    simp only [OrderEnd.loop.injEq, forall_eq']
    by_cases hinside : l.entries.length ≤ target.toNat
    · simp only [hinside, if_true, List.cons_ne_nil, false_iff, not_and]
      omega
    · simp only [hinside, if_false, Nat.not_le.mp hinside, true_and]
      simp only [ite_eq_right_iff, List.cons_ne_nil, imp_false, List.all_eq_true, not_forall, Bool.not_eq_true,
        exists_prop]

/-! ## Songs -/

/-- Nothing is wrong with the song but that a loop may play no rows. -/
structure Consistent (s : Song) : Prop where
  tempo : s.tempo ≠ 0
  voices : s.orderLists.length = voiceCount
  distinct : Distinct s.tables
  tables : ∀ t ∈ s.tables, t.Sound
  starts : ∀ x ∈ s.instruments, ∀ kind row, x.start? kind = some row → row.toNat < s.tableLength kind
  events : ∀ q ∈ s.sequences, ∀ e ∈ q.events, e.Sound s.instruments.length (s.tableLength .filter)
  entries : ∀ l ∈ s.orderLists, ∀ e ∈ l.entries, e.Sound s
  loops : ∀ l ∈ s.orderLists, l.LoopsInside

variable {s : Song}

theorem forall_getElem? {α : Type} {l : List α} {P : α → Prop} :
    (∀ (i : Nat) a, l[i]? = some a → P a) ↔ ∀ a ∈ l, P a := by
  constructor
  · intro h a ha
    obtain ⟨i, hi⟩ := List.getElem?_of_mem ha
    exact h i a hi
  · exact fun h i a ha => h a (List.mem_of_getElem? ha)

/-- **A song without faults** is one with nothing else wrong and loops that play rows. -/
theorem wellFormed_iff_consistent : s.WellFormed ↔ s.Consistent ∧ ∀ l ∈ s.orderLists, LoopPlays s l := by
  simp only [wellFormed_iff, tablesFaults_eq_nil, instrumentFaults_eq_nil, sequenceFaults_eq_nil, orderFaults_eq_nil,
    orderEndFaults_eq_nil, entryFault?_eq_none, forall_getElem?]
  constructor
  · rintro ⟨htempo, hvoices, ⟨hdistinct, htables⟩, hstarts, hevents, horders⟩
    exact ⟨⟨htempo, hvoices, hdistinct, htables, hstarts, hevents, fun l hl => (horders l hl).2,
      fun l hl => (horders l hl).1.1⟩, fun l hl => (horders l hl).1.2⟩
  · rintro ⟨h, hplays⟩
    exact ⟨h.tempo, h.voices, ⟨h.distinct, h.tables⟩, h.starts, h.events,
      fun l hl => ⟨⟨h.loops l hl, hplays l hl⟩, h.entries l hl⟩⟩

/-- A consistent song has no faults but loops without rows. -/
theorem Consistent.faults (h : s.Consistent) {f : Fault} (hf : f ∈ s.faults) :
    ∃ voice target, f = .emptyOrderLoop voice target := by
  simp only [Song.faults, if_neg h.tempo, if_pos h.voices, List.nil_append, List.mem_append, List.mem_flatMap,
    Prod.exists, List.mk_mem_zipIdx_iff_getElem?] at hf
  rcases hf with ((⟨t, i, ht, hf⟩ | ⟨x, i, hx, hf⟩) | ⟨q, i, hq, hf⟩) | ⟨l, voice, hl, hf⟩
  · rw [tablesFaults_eq_nil.mpr ⟨h.distinct, h.tables⟩ i t ht] at hf
    cases hf
  · rw [instrumentFaults_eq_nil.mpr (h.starts x (List.mem_of_getElem? hx))] at hf
    cases hf
  · rw [sequenceFaults_eq_nil.mpr (h.events q (List.mem_of_getElem? hq))] at hf
    cases hf
  · have hmem := List.mem_of_getElem? hl
    have hinside := h.loops l hmem
    simp only [orderFaults, List.mem_append, List.mem_filterMap, Prod.exists, List.mk_mem_zipIdx_iff_getElem?] at hf
    rcases hf with hf | ⟨e, i, he, hf⟩
    · unfold orderEndFaults at hf
      split at hf
      · cases hf
      next target hfinish =>
        rw [if_neg (Nat.not_le.mpr (hinside target hfinish))] at hf
        split at hf
        · exact ⟨voice, target, List.mem_singleton.mp hf⟩
        · cases hf
    · rw [entryFault?_eq_none.mpr (h.entries l hmem e (List.mem_of_getElem? he))] at hf
      cases hf

end Chiptune.Song
