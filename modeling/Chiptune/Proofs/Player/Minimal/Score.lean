/-
The music in a player's memory, and where each voice is in it.

The order lists and the sequences are data at offsets of the player, and tables
of pointers lead to them (`Score.Stored`). A voice reads its order list at an
entry and its sequence at an offset that depend on nothing but the score, while
its variables hold addresses (`Follows`).
-/
import Chiptune.Proofs.Player.Layout
import Chiptune.Proofs.Player.Minimal.Meaning

namespace Chiptune.Player.Minimal

open Machine Sound Song Music

/-! ## Bytes in memory -/

/-- The bytes are in memory, past the variables and below the limit. -/
structure Site.Has (here : Site) (n : Nat) (bytes : Bytes) : Prop where
  start : slotsAt ≤ n
  room : here.base.toNat + n + bytes.length ≤ Layout.limitOf here.base
  read : ∀ i b, bytes[i]? = some b → here.byte (n + i) = b

namespace Site.Has

variable {here : Site} {n : Nat} {bytes : Bytes} {b : UInt8}

theorem through (h : here.Has n bytes) {index : UInt8} (hb : bytes[index.toNat]? = some b) :
    here.through? (here.address n) index = some (.value b) := by
  have hbound := (List.getElem?_eq_some_iff.mp hb).1
  have hstart := h.start
  have hroom := h.room
  have htop := Layout.limitOf_le here.base
  have hspace : addressSpace = 65536 := rfl
  have hread := h.read _ _ hb
  have haddress : here.address n + index.toUInt16 = here.address (n + index.toNat) := by
    rw [address_add, UInt8.toNat_toUInt16]
  have hnat : (here.address (n + index.toNat)).toNat = here.base.toNat + (n + index.toNat) := by
    rw [address, UInt16.toNat_add, UInt16.toNat_ofNat']
    omega
  have hdata : here.isData (here.address (n + index.toNat)) = true := by
    rw [isData, hnat]
    simp only [Bool.and_eq_true, decide_eq_true_eq]
    omega
  rw [through?, haddress, if_pos hdata]
  exact congrArg (some ∘ Place.value) hread

theorem drop (h : here.Has n bytes) {k : Nat} (hk : k ≤ bytes.length) : here.Has (n + k) (bytes.drop k) := by
  have hroom := h.room
  refine ⟨Nat.le_add_right_of_le h.start, ?_, fun i b hb => ?_⟩
  · rw [List.length_drop]
    omega
  · rw [List.getElem?_drop] at hb
    rw [Nat.add_assoc]
    exact h.read _ _ hb

end Site.Has

/-! ## Sequences -/

/-- Pairs up to an end mark. -/
inductive Readable : Bytes → Prop where
  | finish (parameter : UInt8) (rest : Bytes) : Readable (EventClass.code .finish :: parameter :: rest)
  | event {c parameter : UInt8} {rest : Bytes} (hc : c ≠ EventClass.code .finish) (hrest : Readable rest) :
    Readable (c :: parameter :: rest)

theorem readable_events (commands : List Command) : ∀ events : List Event,
    Readable (events.flatMap (encodeEvent commands) ++ [EventClass.code .finish, 0])
  | [] => .finish 0 []
  | e :: events => by
    have hrest := readable_events commands events
    rw [List.flatMap_cons, List.append_assoc]
    cases e with
    | setCommand c =>
      unfold encodeEvent
      dsimp only
      split
      · exact .event (by decide) hrest
      · exact hrest
    | _ => exact .event (by decide) hrest

theorem readable_encodeSequence (commands : List Command) (s : Sequence) : Readable (encodeSequence commands s) :=
  readable_events commands s.events

/-! ## Order lists -/

theorem getElem?_pairs {α : Type} (f g : α → UInt8) (tail : Bytes) : ∀ {l : List α} {k : Nat} {x : α}, l[k]? = some x →
    ((l.flatMap fun x => [f x, g x]) ++ tail)[2 * k]? = some (f x) ∧
      ((l.flatMap fun x => [f x, g x]) ++ tail)[2 * k + 1]? = some (g x)
  | [], _, _, h => by simp at h
  | y :: l, 0, x, h => by
    cases h
    exact ⟨rfl, rfl⟩
  | y :: l, k + 1, x, h => getElem?_pairs f g tail (l := l) (k := k) (by simpa using h)

theorem length_pairs {α : Type} (f g : α → UInt8) (l : List α) :
    (l.flatMap fun x => [f x, g x]).length = 2 * l.length := by
  induction l with
  | nil => rfl
  | cons x l ih =>
    rw [List.flatMap_cons, List.length_append, ih, List.length_cons]
    simp only [List.length_cons, List.length_nil]
    omega

/-- An entry of an order list is in two bytes. -/
theorem entry_encodeOrderList {l : OrderList} {k : Nat} {e : OrderEntry} (h : l.entries[k]? = some e) :
    (encodeOrderList l)[2 * k]? = some (transposeBias + e.transpose.toUInt8) ∧
      (encodeOrderList l)[2 * k + 1]? = some e.sequence :=
  getElem?_pairs _ _ _ h

/-- The end of an order list is in the two bytes after its entries. -/
theorem finish_encodeOrderList (l : OrderList) (i : Nat) : (encodeOrderList l)[2 * l.entries.length + i]? =
    (match l.finish with
      | .loop target => [loopMark, target]
      | .stop => [stopMark, 0])[i]? := by
  rw [encodeOrderList, List.getElem?_append_right (by rw [length_pairs]; omega), length_pairs]
  congr 1
  omega

/-- The entry that a voice takes when it is at one: this, or the one that a loop leads to. -/
def nextEntry? (l : OrderList) (entry : Nat) : Option Nat :=
  if entry < l.entries.length then some entry
  else
    match l.finish with
    | .loop target => some target.toNat
    | .stop => none

/-! ## Scores -/

/-- Order lists and sequences, and at which offsets of the player they are. -/
structure Score where
  /-- The order list of each voice. -/
  list : Nat → OrderList
  listAt : Nat → Nat
  /-- The bytes of each sequence. -/
  sequence : Nat → Bytes
  sequenceAt : Nat → Nat
  /-- How many sequences there are. -/
  count : Nat

namespace Score

variable (score : Score)

/-- The player can play the score: its lists are as short as its positions are bytes, and they name
sequences that there are. -/
structure Playable : Prop where
  few : score.count ≤ 128
  short : ∀ v < voiceCount, (score.list v).entries.length ≤ 127
  loops : ∀ v < voiceCount, ∀ target, (score.list v).finish = .loop target →
    target.toNat < (score.list v).entries.length
  plain : ∀ v < voiceCount, ∀ e ∈ (score.list v).entries,
    transposeBias + e.transpose.toUInt8 ≠ loopMark ∧ transposeBias + e.transpose.toUInt8 ≠ stopMark
  known : ∀ v < voiceCount, ∀ e ∈ (score.list v).entries, e.sequence.toNat < score.count
  readable : ∀ i < score.count, Readable (score.sequence i)

/-- The score is in a player's memory. -/
structure Stored (here : Site) : Prop where
  list : ∀ v < voiceCount, here.Has (score.listAt v) (encodeOrderList (score.list v))
  listPointer : ∀ v < voiceCount,
    Word.ofBytes (here.byte (2474 + v)) (here.byte (2477 + v)) = here.address (score.listAt v)
  sequence : ∀ i < score.count, here.Has (score.sequenceAt i) (score.sequence i)
  sequencePointer : ∀ i < score.count,
    Word.ofBytes (here.byte (2480 + i)) (here.byte (2608 + i)) = here.address (score.sequenceAt i)

end Score

/-- Where a voice is in the score. -/
structure Spot where
  /-- The entry of the order list to take next. -/
  entry : Nat
  /-- The rest of the sequence, and its offset. -/
  rest : Bytes
  offset : Nat

/-- A voice's variables lead to an entry of its order list. -/
structure Lists (score : Score) (here : Site) (s : State) (v entry : Nat) : Prop where
  list : Word.ofBytes (s.cells v) (s.cells (3 + v)) = here.address (score.listAt v)
  bound : entry ≤ (score.list v).entries.length
  position : (s.cells (6 + v)).toNat = 2 * entry

/-- A voice's variables lead to a spot of the score. -/
structure Follows (score : Score) (here : Site) (s : State) (v : Nat) (spot : Spot) : Prop where
  lists : Lists score here s v spot.entry
  /-- A voice that has stopped reads no sequence. -/
  sequence : s.cells (36 + v) = 0 → Word.ofBytes (s.cells (9 + v)) (s.cells (12 + v)) = here.address spot.offset ∧
    here.Has spot.offset spot.rest ∧ Readable spot.rest

section Frame

variable {score : Score} {here : Site} {s s' : State} {v : Nat}

theorem Lists.congr {entry : Nat} (h : Lists score here s v entry)
    (hcells : ∀ n ∈ [v, 3 + v, 6 + v], s'.cells n = s.cells n) : Lists score here s' v entry := by
  simp only [List.forall_mem_cons] at hcells
  obtain ⟨hlo, hhi, hposition, -⟩ := hcells
  refine ⟨?_, h.bound, ?_⟩
  · rw [hlo, hhi]
    exact h.list
  · rw [hposition]
    exact h.position

theorem Follows.congr {spot : Spot} (h : Follows score here s v spot)
    (hcells : ∀ n ∈ [v, 3 + v, 6 + v, 9 + v, 12 + v, 36 + v], s'.cells n = s.cells n) :
    Follows score here s' v spot := by
  refine ⟨h.lists.congr fun n hn => hcells n (by simp at hn ⊢; omega), ?_⟩
  simp only [List.forall_mem_cons] at hcells
  obtain ⟨-, -, -, hlo, hhi, hstopped, -⟩ := hcells
  rw [hstopped, hlo, hhi]
  exact h.sequence

end Frame

/-- Where a voice is after it took the entry that is next. -/
def nextSpot (score : Score) (v entry : Nat) : Spot :=
  match nextEntry? (score.list v) entry with
  | some k =>
    let id := (((score.list v).entries[k]?).map (·.sequence.toNat)).getD 0
    { entry := k + 1, rest := score.sequence id, offset := score.sequenceAt id }
  | none => { entry, rest := [], offset := 0 }

theorem nextSpot_some {score : Score} {v entry k : Nat} {e : OrderEntry} (h : nextEntry? (score.list v) entry = some k)
    (he : (score.list v).entries[k]? = some e) : nextSpot score v entry =
      { entry := k + 1, rest := score.sequence e.sequence.toNat, offset := score.sequenceAt e.sequence.toNat } := by
  simp only [nextSpot, h, he, Option.map_some, Option.getD_some]

theorem nextSpot_none {score : Score} {v entry : Nat} (h : nextEntry? (score.list v) entry = none) :
    nextSpot score v entry = { entry, rest := [], offset := 0 } := by
  simp only [nextSpot, h]

section Entries

variable {score : Score} {here : Site} {v k : Nat} {e : OrderEntry} {position : UInt8}

/-- Where the bytes of an entry are. -/
theorem entry_through (hscore : score.Playable) (hstored : score.Stored here) (hv : v < voiceCount)
    (he : (score.list v).entries[k]? = some e) (hposition : position.toNat = 2 * k) :
    here.through? (here.address (score.listAt v)) position = some (.value (transposeBias + e.transpose.toUInt8)) ∧
      here.through? (here.address (score.listAt v)) (position + 1) = some (.value e.sequence) := by
  obtain ⟨hfirst, hsecond⟩ := entry_encodeOrderList he
  have hk := (List.getElem?_eq_some_iff.mp he).1
  have hshort := hscore.short v hv
  have hnext : (position + 1).toNat = 2 * k + 1 := by
    rw [UInt8.toNat_add, hposition]
    show (2 * k + 1) % 256 = _
    omega
  exact ⟨(hstored.list v hv).through (by rw [hposition]; exact hfirst),
    (hstored.list v hv).through (by rw [hnext]; exact hsecond)⟩

/-- Where the bytes of the end of a list are. -/
theorem finish_through (hscore : score.Playable) (hstored : score.Stored here) (hv : v < voiceCount)
    (hposition : position.toNat = 2 * (score.list v).entries.length) :
    match (score.list v).finish with
    | .loop target =>
      here.through? (here.address (score.listAt v)) position = some (.value loopMark) ∧
        here.through? (here.address (score.listAt v)) (position + 1) = some (.value target)
    | .stop => here.through? (here.address (score.listAt v)) position = some (.value stopMark) := by
  have hfirst := finish_encodeOrderList (score.list v) 0
  have hsecond := finish_encodeOrderList (score.list v) 1
  have hshort := hscore.short v hv
  have hnext : (position + 1).toNat = 2 * (score.list v).entries.length + 1 := by
    rw [UInt8.toNat_add, hposition]
    show (2 * (score.list v).entries.length + 1) % 256 = _
    omega
  rw [Nat.add_zero, ← hposition] at hfirst
  rw [← hnext] at hsecond
  cases hfinish : (score.list v).finish with
  | loop target =>
    rw [hfinish] at hfirst hsecond
    exact ⟨(hstored.list v hv).through hfirst, (hstored.list v hv).through hsecond⟩
  | stop =>
    rw [hfinish] at hfirst
    exact (hstored.list v hv).through hfirst

end Entries

end Chiptune.Player.Minimal
