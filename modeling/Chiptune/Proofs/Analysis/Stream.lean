/-
A range-coded sequence accounts for every row of its stream.

Which bytes are tokens and which are arguments of commands is a matter of the
stream alone (`Stream`), as is the duration in force at each of them: the last
one that was set before it, or one. What is read off the stream token by token
lasts for the durations in force at its notes, releases and rests, and every
event comes at the row that they say (`accounted_sequence`).
-/
import Chiptune.Analysis.Scanner
import Chiptune.Proofs.Outcome

namespace Chiptune.Analysis.Scanner

open Machine Song

/-! ## Tokens -/

namespace Token

/-- Bytes of a token with its arguments. -/
def length : Token → Nat
  | .command _ => 3
  | _ => 1

/-- Whether a token takes rows. -/
def takesRows : Token → Bool
  | .note _ | .gateOff | .rest => true
  | _ => false

/-- The duration that a token sets. -/
def duration? : Token → Option Nat
  | .duration index => some (min (index.toNat + 1) 255)
  | _ => none

/-- The duration in force after some tokens: the last one they set, or one. -/
def inForce (before : List Token) : Nat := ((before.filterMap duration?).getLast?).getD 1

/-- Rows of a token that comes after others. -/
def rows (before : List Token) (t : Token) : Nat := if t.takesRows then inForce before else 0

/-- A sequence can have the token. -/
def Legible : Token → Prop
  | .unknown => False
  | .command id => ∃ kind, CommandKind.ofId? id = some kind
  | _ => True

theorem inForce_append (before : List Token) (t : Token) :
    inForce (before ++ [t]) = t.duration?.getD (inForce before) := by
  unfold inForce
  rw [List.filterMap_append]
  cases h : t.duration? <;> simp [h]

end Token

/-! ## Streams -/

section Stream

variable (m : Memory) (code : SequenceCode)

/-- The token at an address. -/
def tokenAt (a : UInt16) : Token := token code (m.read a)

/-- The tokens from an address up to the one that ends the sequence are those at these addresses. -/
inductive Stream : UInt16 → List UInt16 → Prop where
  | finish {a : UInt16} (h : tokenAt m code a = .finish) : Stream a []
  | token {a : UInt16} {stream : List UInt16} (h : tokenAt m code a ≠ .finish)
      (later : Stream (a + UInt16.ofNat (tokenAt m code a).length) stream) : Stream a (a :: stream)

/-- The event that a token stands for; rests and durations stand for none. -/
def eventAt (a : UInt16) : Option Event :=
  match tokenAt m code a with
  | .note index => some (.noteOn (saturatingAdd index code.noteBase))
  | .instrument id => some (.setInstrument id)
  | .command id =>
    (CommandKind.ofId? id).map fun kind => .setCommand ⟨kind, m.read (a + 1), m.read (a + 2)⟩
  | .gateOff => some .noteOff
  | .tie => some .tie
  | .finish | .duration _ | .rest | .unknown => none

/-- Rows of a stream whose tokens come after others. -/
def streamRows (before : List Token) : List UInt16 → Nat
  | [] => 0
  | a :: stream =>
    (tokenAt m code a).rows before + streamRows (before ++ [tokenAt m code a]) stream

/-- The events of a stream whose tokens come after others, each with its row. -/
def placed (before : List Token) (row : Nat) : List UInt16 → List (Nat × Event)
  | [] => []
  | a :: stream =>
    let t := tokenAt m code a
    ((eventAt m code a).map (row, ·)).toList ++ placed (before ++ [t]) (row + t.rows before) stream

/-- There is one stream at an address. -/
theorem Stream.unique {m : Memory} {code : SequenceCode} {a : UInt16} {stream stream' : List UInt16}
    (h : Stream m code a stream) (h' : Stream m code a stream') : stream = stream' := by
  induction h generalizing stream' with
  | finish hfinish =>
    cases h' with
    | finish => rfl
    | token hne => exact absurd hfinish hne
  | token hne _ ih =>
    cases h' with
    | finish hfinish => exact absurd hfinish hne
    | token _ later' => rw [ih later']

end Stream

/-! ## Events -/

/-- Rows that events take. -/
def eventRows (events : List Event) : Nat := (Sequence.mk events .static).rowCount

/-- Events that are not rests, each with its row. -/
def schedule (row : Nat) : List Event → List (Nat × Event)
  | [] => []
  | .rest n :: events => schedule (row + n.toNat) events
  | e :: events => (row, e) :: schedule (row + e.rows) events

@[simp] theorem eventRows_nil : eventRows [] = 0 := rfl

@[simp] theorem eventRows_cons (e : Event) (events : List Event) : eventRows (e :: events) = e.rows + eventRows events :=
  rfl

theorem eventRows_append (events later : List Event) :
    eventRows (events ++ later) = eventRows events + eventRows later := by
  induction events with
  | nil => exact (Nat.zero_add _).symm
  | cons e events ih => rw [List.cons_append, eventRows_cons, eventRows_cons, ih, Nat.add_assoc]

theorem schedule_cons {e : Event} (he : ∀ n, e ≠ .rest n) (row : Nat) (events : List Event) :
    schedule row (e :: events) = (row, e) :: schedule (row + e.rows) events := by
  cases e with
  | rest n => exact absurd rfl (he n)
  | _ => rfl

theorem schedule_append (later : List Event) : ∀ (events : List Event) (row : Nat),
    schedule row (events ++ later) = schedule row events ++ schedule (row + eventRows events) later
  | [], _ => rfl
  | e :: events, row => by
    have hlater := schedule_append later events (row + e.rows)
    rw [Nat.add_assoc] at hlater
    cases e <;> simpa [schedule, Event.rows] using hlater

theorem toNat_saturatingAdd (a b : UInt8) : (saturatingAdd a b).toNat = min (a.toNat + b.toNat) 255 :=
  UInt8.toNat_ofNat_of_lt' (Nat.lt_of_le_of_lt (Nat.min_le_right ..) (by decide))

/-! ## One token -/

variable {m : Memory} {code : SequenceCode}

/-- The duration after a token. -/
def Token.next (t : Token) (d : UInt8) : UInt8 :=
  match t with
  | .duration index => saturatingAdd index 1
  | _ => d

/-- What a token is read as. -/
def expanded (m : Memory) (code : SequenceCode) (a : UInt16) (d : UInt8) : List Event :=
  match tokenAt m code a with
  | .note index => held (.noteOn (saturatingAdd index code.noteBase)) d
  | .gateOff => held .noteOff d
  | .rest => [.rest d]
  | _ => (eventAt m code a).toList

/-- A token is read, and the stream goes on after it and its arguments. -/
theorem eventsFrom_succ {start a : UInt16} {fuel : Nat} {d : UInt8} {events : List Event}
    (h : eventsFrom m code start (fuel + 1) a d = .ok events) :
    (tokenAt m code a = .finish ∧ events = []) ∨
      (tokenAt m code a ≠ .finish ∧ (tokenAt m code a).Legible ∧ ∃ later,
        eventsFrom m code start fuel (a + UInt16.ofNat (tokenAt m code a).length) ((tokenAt m code a).next d) = .ok later ∧
        events = expanded m code a d ++ later) := by
  have htoken : token code (m.read a) = tokenAt m code a := rfl
  simp only [eventsFrom, htoken] at h
  unfold expanded eventAt
  cases ht : tokenAt m code a with
  | finish =>
    rw [ht] at h
    cases h
    exact .inl ⟨rfl, rfl⟩
  | unknown =>
    rw [ht] at h
    cases h
  | command id =>
    simp only [ht] at h
    cases hkind : CommandKind.ofId? id with
    | none =>
      rw [hkind] at h
      cases h
    | some kind =>
      simp only [hkind] at h
      obtain ⟨later, hlater, h⟩ := bind_eq_ok.mp h
      cases h
      exact .inr ⟨by simp, ⟨kind, hkind⟩, later, hlater, by simp [hkind]⟩
  | note | instrument | duration | gateOff | tie | rest =>
    simp only [ht] at h
    obtain ⟨later, hlater, h⟩ := bind_eq_ok.mp h
    cases h
    exact .inr ⟨by simp, trivial, later, hlater, rfl⟩

/-- What a token is read as takes its rows, and has its event at the first of them. -/
structure Expands (m : Memory) (code : SequenceCode) (before : List Token) (a : UInt16) (events : List Event) : Prop where
  rows : eventRows events = (tokenAt m code a).rows before
  rowless : events.filter (·.rows == 0) = (eventAt m code a).toList.filter (·.rows == 0)
  schedule : ∀ row, schedule row events = ((eventAt m code a).map (row, ·)).toList

/-- An event held for a duration is a single event, with nothing but rows after it. -/
theorem held_cases {d : UInt8} (hd : 0 < d) (e : Event) :
    held e d = [e] ∧ d.toNat = 1 ∨ ∃ n : UInt8, held e d = [e, .rest n] ∧ d.toNat = n.toNat + 1 ∧ 0 < n.toNat := by
  have hpos : 0 < d.toNat := UInt8.lt_iff_toNat_lt.mp hd
  unfold held
  by_cases h : 1 < d
  · have hlt : 1 < d.toNat := UInt8.lt_iff_toNat_lt.mp h
    have hsub : (d - 1).toNat = d.toNat - 1 := UInt8.toNat_sub_of_le _ _ (UInt8.le_of_lt h)
    exact .inr ⟨d - 1, if_pos h, by omega, by omega⟩
  · have hle : ¬ 1 < d.toNat := fun hlt => h (UInt8.lt_iff_toNat_lt.mpr hlt)
    exact .inl ⟨if_neg h, by omega⟩

/-- No token stands for a rest, and the event of one that takes rows takes the first of them. -/
theorem eventAt_eq_some {a : UInt16} {e : Event} (h : eventAt m code a = some e) :
    (∀ n, e ≠ .rest n) ∧ e.rows = if (tokenAt m code a).takesRows then 1 else 0 := by
  unfold eventAt at h
  cases ht : tokenAt m code a with
  | finish | duration | rest | unknown =>
    rw [ht] at h
    cases h
  | note | instrument | gateOff | tie =>
    rw [ht] at h
    cases h
    exact ⟨by simp, rfl⟩
  | command id =>
    rw [ht] at h
    obtain ⟨kind, -, rfl⟩ := Option.map_eq_some_iff.mp h
    exact ⟨by simp, rfl⟩

theorem filter_rest {n : UInt8} (hn : 0 < n.toNat) : [Event.rest n].filter (·.rows == 0) = [] := by
  have hne : (Event.rest n).rows ≠ 0 := Nat.ne_of_gt hn
  rw [List.filter_cons_of_neg (by simpa using hne), List.filter_nil]

theorem expands_held {before : List Token} {a : UInt16} {d : UInt8} {e : Event} (hforce : Token.inForce before = d.toNat)
    (hd : 0 < d) (htakes : (tokenAt m code a).takesRows = true) (hevent : eventAt m code a = some e) :
    Expands m code before a (held e d) := by
  obtain ⟨he, hrows⟩ := eventAt_eq_some hevent
  rw [htakes, if_pos rfl] at hrows
  have htoken : (tokenAt m code a).rows before = d.toNat := by rw [Token.rows, htakes, if_pos rfl, hforce]
  rcases held_cases hd e with ⟨hheld, hone⟩ | ⟨n, hheld, hmore, hn⟩
  · refine ⟨?_, ?_, ?_⟩
    · simp [hheld, hrows, htoken, hone]
    · simp [hheld, hevent]
    · simp [hheld, hevent, schedule_cons he, schedule]
  · have hrest : (Event.rest n).rows = n.toNat := rfl
    refine ⟨?_, ?_, ?_⟩
    · simp [hheld, hrows, hrest, htoken, hmore, Nat.add_comm]
    · rw [hheld, hevent, Option.toList_some, List.filter_cons, filter_rest hn, List.filter_cons, List.filter_nil]
    · simp [hheld, hevent, schedule_cons he, schedule]

theorem expands_rest {before : List Token} {a : UInt16} {d : UInt8} (hforce : Token.inForce before = d.toNat)
    (hd : 0 < d) (ht : tokenAt m code a = .rest) : Expands m code before a [.rest d] := by
  refine ⟨?_, ?_, ?_⟩
  · rw [Token.rows, ht]
    exact hforce.symm
  · rw [filter_rest (UInt8.lt_iff_toNat_lt.mp hd), eventAt, ht]
    rfl
  · simp [schedule, eventAt, ht]

theorem expands_rowless {before : List Token} {a : UInt16} (htakes : (tokenAt m code a).takesRows = false) :
    Expands m code before a (eventAt m code a).toList := by
  have htoken : (tokenAt m code a).rows before = 0 := by rw [Token.rows, htakes, if_neg Bool.false_ne_true]
  cases hevent : eventAt m code a with
  | none => exact ⟨htoken.symm, by rw [hevent], by simp [hevent, schedule]⟩
  | some e =>
    obtain ⟨he, hrows⟩ := eventAt_eq_some hevent
    rw [htakes, if_neg Bool.false_ne_true] at hrows
    exact ⟨by simp [hrows, htoken], by rw [hevent], by simp [hevent, schedule_cons he, schedule]⟩

theorem expands_expanded {before : List Token} {d : UInt8} (hforce : Token.inForce before = d.toNat) (hd : 0 < d)
    (a : UInt16) : Expands m code before a (expanded m code a d) := by
  unfold expanded
  cases ht : tokenAt m code a with
  | note index => exact expands_held hforce hd (by rw [ht]; rfl) (by simp [eventAt, ht])
  | gateOff => exact expands_held hforce hd (by rw [ht]; rfl) (by simp [eventAt, ht])
  | rest => exact expands_rest hforce hd ht
  | finish | instrument | duration | command | tie | unknown => exact expands_rowless (by rw [ht]; rfl)

/-! ## The whole stream -/

/-- The duration after a token is that in force after it. -/
theorem inForce_next {before : List Token} {d : UInt8} (hforce : Token.inForce before = d.toNat) (t : Token) :
    Token.inForce (before ++ [t]) = (t.next d).toNat := by
  rw [Token.inForce_append, hforce]
  cases t with
  | duration index => exact (toNat_saturatingAdd index 1).symm
  | _ => rfl

theorem next_pos {d : UInt8} (hd : 0 < d) (t : Token) : 0 < t.next d := by
  cases t with
  | duration index =>
    refine UInt8.lt_iff_toNat_lt.mpr ?_
    show 0 < (saturatingAdd index 1).toNat
    rw [toNat_saturatingAdd]
    have hone : (1 : UInt8).toNat = 1 := rfl
    omega
  | _ => exact hd

/-- Events account for the tokens of a stream that come after others. -/
structure Accounted (m : Memory) (code : SequenceCode) (before : List Token) (stream : List UInt16)
    (events : List Event) : Prop where
  legible : ∀ a ∈ stream, (tokenAt m code a).Legible
  rows : eventRows events = streamRows m code before stream
  rowless : events.filter (·.rows == 0) = (stream.filterMap (eventAt m code)).filter (·.rows == 0)
  schedule : ∀ row, schedule row events = placed m code before row stream

theorem Accounted.cons {before : List Token} {a : UInt16} {stream : List UInt16} {events later : List Event}
    (hlegible : (tokenAt m code a).Legible) (h : Expands m code before a events)
    (hlater : Accounted m code (before ++ [tokenAt m code a]) stream later) :
    Accounted m code before (a :: stream) (events ++ later) := by
  refine ⟨?_, ?_, ?_, ?_⟩
  · intro b hb
    rcases List.mem_cons.mp hb with rfl | hb
    · exact hlegible
    · exact hlater.legible b hb
  · rw [eventRows_append, h.rows, hlater.rows, streamRows]
  · rw [List.filter_append, h.rowless, hlater.rowless, ← List.filter_append]
    cases hevent : eventAt m code a <;> simp [hevent]
  · intro row
    rw [schedule_append, h.schedule, h.rows, hlater.schedule, placed]

/-- **What is read of a stream accounts for its tokens.** By induction on the tokens that may be read; the duration is
always the one in force after those before. -/
theorem accounted_eventsFrom {start : UInt16} : ∀ (fuel : Nat) {a : UInt16} {d : UInt8} {before : List Token}
    {events : List Event}, Token.inForce before = d.toNat → 0 < d → eventsFrom m code start fuel a d = .ok events →
    ∃ stream, Stream m code a stream ∧ Accounted m code before stream events
  | 0, _, _, _, _, _, _, h => by cases h
  | fuel + 1, a, d, before, events, hforce, hd, h => by
    rcases eventsFrom_succ h with ⟨hfinish, rfl⟩ | ⟨hne, hlegible, later, hlater, rfl⟩
    · exact ⟨[], .finish hfinish, by simp, rfl, rfl, fun _ => rfl⟩
    · obtain ⟨stream, hstream, haccounted⟩ :=
        accounted_eventsFrom fuel (inForce_next hforce _) (next_pos hd _) hlater
      exact ⟨a :: stream, .token hne hstream, haccounted.cons hlegible (expands_expanded hforce hd a)⟩

/-- **A range-coded sequence accounts for every row.** It lasts for the durations in force at the notes, releases and
rests of its stream. No rest is empty, instruments, ties and commands are those of the stream in its order, and every
event comes at the row of its token. -/
theorem accounted_sequence {address : UInt16} {s : Sequence} (h : sequence m address code = .ok s) :
    ∃ stream, Stream m code address stream ∧ (∀ stream', Stream m code address stream' → stream' = stream) ∧
      (∀ a ∈ stream, (tokenAt m code a).Legible) ∧
      s.rowCount = streamRows m code [] stream ∧
      .rest 0 ∉ s.events ∧
      s.events.filter (·.rows == 0) = (stream.filterMap (eventAt m code)).filter (·.rows == 0) ∧
      schedule 0 s.events = placed m code [] 0 stream := by
  obtain ⟨events, hevents, h⟩ := bind_eq_ok.mp h
  cases h
  have hforce : Token.inForce [] = (1 : UInt8).toNat := rfl
  obtain ⟨stream, hstream, haccounted⟩ := accounted_eventsFrom maxTokens hforce (by decide) hevents
  refine ⟨stream, hstream, fun stream' h' => h'.unique hstream, haccounted.legible, haccounted.rows, ?_,
    haccounted.rowless, haccounted.schedule 0⟩
  intro hrest
  -- an empty rest would be among the events without rows, and no token stands for a rest
  have hrowless : Event.rest 0 ∈ events.filter (·.rows == 0) := List.mem_filter.mpr ⟨hrest, rfl⟩
  rw [haccounted.rowless, List.mem_filter] at hrowless
  obtain ⟨a, -, hevent⟩ := List.mem_filterMap.mp hrowless.1
  exact (eventAt_eq_some hevent).1 0 rfl

/-- Instruments overlap notes, and durations overlap instruments. -/
def overlapping : SequenceCode where
  note := ⟨0x00, 0x5F⟩
  instrument := some ⟨0x58, 0x6F⟩
  duration := some ⟨0x60, 0x9F⟩
  command := some ⟨0xA0, 0xA7⟩
  gateOff := some 0xFE
  tie := some 0xFD
  rest := some 0xFC
  finish := 0xFF

/-- A command's arguments are a byte that ends sequences and one that is a duration. -/
def overlappingMemory : Memory :=
  Memory.zeroed.writeAll 0x2000 [0x65, 0x82, 0x30, 0xA2, 0xFF, 0x71, 0xFD, 0xFE, 0x70, 0xFC, 0xFF]

theorem accounted_sequence_overlapping : ∃ s stream, sequence overlappingMemory 0x2000 overlapping = .ok s ∧
    Stream overlappingMemory overlapping 0x2000 stream ∧ s.rowCount = streamRows overlappingMemory overlapping [] stream ∧
    s.rowCount = 35 + 35 + 17 ∧
    s.events.filter (·.rows == 0) = [.setInstrument 13, .setCommand ⟨.vibrato, 0xFF, 0x71⟩, .tie] := by
  have h : sequence overlappingMemory 0x2000 overlapping = .ok { events := [.setInstrument 13, .noteOn 0x30, .rest 34,
      .setCommand ⟨.vibrato, 0xFF, 0x71⟩, .tie, .noteOff, .rest 34, .rest 17] } := rfl
  obtain ⟨stream, hstream, -, -, hrows, -⟩ := accounted_sequence h
  exact ⟨_, stream, h, hstream, hrows, rfl, rfl⟩

end Chiptune.Analysis.Scanner
