/-
The trace of a session records what becomes of the chip.

Between instructions no write is pending, and the trace's writes lead from the
registers it started with to those of the chip (`Tracked`). Every action keeps
that, whether it succeeds or stops with an error half way: a routine that runs
out of cycles has run whole instructions only, and each of them has its writes
recorded before the next one starts.
-/
import Chiptune.Playback.Session
import Chiptune.Proofs.Sound.Trace

namespace Chiptune

open Machine

namespace Sound

/-- The registers after writes. -/
def Bank.writes (b : Bank) (writes : List (Register × UInt8)) : Bank :=
  writes.foldl (fun b (register, value) => b.set register value) b

end Sound

namespace Playback

open Sound

/-! ## The bus -/

namespace Bus

/-- The pending writes are those made to the chip since it had these registers. -/
def InStep (base : Bank) (b : Bus) : Prop := base.writes b.pending = b.sid

variable {base : Bank} {b : Bus}

theorem InStep.write (h : InStep base b) (s : Store) : InStep base (b.write s) := by
  unfold Bus.write Bank.write
  split
  · cases Register.ofOffset? (Word.low s.address) with
    | none => exact h
    | some r =>
      show base.writes (b.pending ++ [(r, s.value)]) = b.sid.set r s.value
      rw [← h, Bank.writes, List.foldl_append]
      rfl
  · exact h

theorem InStep.writeAll : ∀ {stores : List Store} {b : Bus}, InStep base b → InStep base (b.writeAll stores)
  | [], _, h => h
  | s :: stores, b, h => @InStep.writeAll stores (b.write s) (h.write s)

/-- The chip does not see stores outside its window. -/
theorem writeAll_outside : ∀ {stores : List Store} {b : Bus}, (∀ s ∈ stores, inWindow s.address = false) →
    (b.writeAll stores).sid = b.sid ∧ (b.writeAll stores).pending = b.pending
  | [], _, _ => ⟨rfl, rfl⟩
  | s :: stores, b, h => by
    have hs : b.write s = { b with memory := b.memory.write s.address s.value } := by
      rw [Bus.write, h s (by simp)]
      rfl
    have hrest := @writeAll_outside stores (b.write s) fun s hs => h s (by simp [hs])
    rw [hs] at hrest
    show ((b.write s).writeAll stores).sid = b.sid ∧ ((b.write s).writeAll stores).pending = b.pending
    rw [hs]
    exact hrest

end Bus

theorem inWindow_push : ∀ (bytes : Bytes) (r : Registers), ∀ s ∈ (r.push bytes).stores, inWindow s.address = false
  | [], _, _, hs => by cases hs
  | v :: bytes, r, s, hs => by
    rcases List.mem_cons.mp hs with rfl | hs
    · exact inWindow_stackAddress r.sp
    · exact inWindow_push bytes _ s hs

/-! ## What is recorded -/

theorem replay_zipIdx {entry : (Register × UInt8) × Nat → Entry}
    (h : ∀ w, (entry w).register = w.1.1 ∧ (entry w).value = w.1.2) :
    ∀ (writes : List (Register × UInt8)) (first : Nat) (b : Bank),
      b.replay ((writes.zipIdx first).map entry) = b.writes writes
  | [], _, _ => rfl
  | w :: writes, first, b => by
    have hrest := replay_zipIdx h writes (first + 1) (b.set w.1 w.2)
    obtain ⟨hregister, hvalue⟩ := h (w, first)
    rw [List.zipIdx_cons, List.map_cons, Bank.replay, List.foldl_cons, hregister, hvalue]
    exact hrest

theorem replay_entriesOf (b : Bank) (frame stop : Nat) (writes : List (Register × UInt8)) :
    b.replay (Session.entriesOf frame stop writes) = b.writes writes :=
  replay_zipIdx (fun _ => ⟨rfl, rfl⟩) writes 0 b

theorem frame_entriesOf {frame stop : Nat} {writes : List (Register × UInt8)} :
    ∀ e ∈ Session.entriesOf frame stop writes, e.frame = frame := by
  intro e he
  obtain ⟨w, -, rfl⟩ := List.mem_map.mp he
  rfl

/-- The trace is a record of the session's chip. -/
structure Recorded (t : Trace) (s : Session) : Prop where
  replay : t.initial.replay t.entries.toList = s.sid
  frames : t.frames = s.frame
  ordered : Trace.Ordered t.entries.toList
  frame_le : ∀ e ∈ t.entries.toList, e.frame ≤ s.frame

/-- No write is pending, and a trace records the chip; `ends` are its snapshots. -/
structure Tracked (ends : List Bank) (s : Session) : Prop where
  settled : s.pending = []
  recorded : ∀ t, s.trace = some t → Recorded t s
  snapshots : ∀ t, s.trace = some t → t.snapshots = ends

namespace Tracked

variable {ends : List Bank} {s s' : Session}

/-- Only the chip, its pending writes, the trace and the frame matter. -/
theorem of_eq (h : Tracked ends s) (hsid : s'.sid = s.sid) (hpending : s'.pending = s.pending)
    (htrace : s'.trace = s.trace) (hframe : s'.frame = s.frame) : Tracked ends s' := by
  refine ⟨hpending.trans h.settled, fun t ht => ?_, fun t ht => h.snapshots t (htrace ▸ ht)⟩
  have hrecorded := h.recorded t (htrace ▸ ht)
  exact ⟨hrecorded.replay.trans hsid.symm, hrecorded.frames.trans hframe.symm, hrecorded.ordered,
    fun e he => hframe ▸ hrecorded.frame_le e he⟩

theorem regs (h : Tracked ends s) (r : Registers) : Tracked ends { s with regs := r } := h.of_eq rfl rfl rfl rfl

theorem push (h : Tracked ends s) (bytes : Bytes) : Tracked ends (s.push bytes) := by
  obtain ⟨hsid, hpending⟩ := Bus.writeAll_outside (inWindow_push bytes s.regs)
  exact h.of_eq hsid hpending rfl rfl

/-- Writes of the frame being played come after all others and are in no snapshot. -/
theorem append_entries {t : Trace} (h : Recorded t s) {entries : List Entry} (hframe : ∀ e ∈ entries, e.frame = s.frame) :
    let t' : Trace := { t with entries := t.entries ++ entries }
    Trace.Ordered t'.entries.toList ∧ (∀ e ∈ t'.entries.toList, e.frame ≤ s.frame) ∧ t'.snapshots = t.snapshots := by
  have hlist : (t.entries ++ entries).toList = t.entries.toList ++ entries := by simp
  refine ⟨?_, fun e he => ?_, ?_⟩
  · rw [hlist]
    refine List.pairwise_append.mpr ⟨h.ordered, List.pairwise_of_forall_mem_list fun a ha b hb => ?_, fun a ha b hb => ?_⟩
    · rw [hframe a ha, hframe b hb]
    · rw [hframe b hb]
      exact h.frame_le a ha
  · rw [hlist] at he
    rcases List.mem_append.mp he with he | he
    · exact h.frame_le e he
    · exact Nat.le_of_eq (hframe e he)
  · show Trace.snapshotsFrom t.initial (t.entries ++ entries).toList 0 t.frames = t.snapshots
    rw [hlist, Trace.snapshotsFrom_append fun e he => by rw [hframe e he, h.frames]; omega]
    rfl

/-- **An instruction's writes are recorded before the next instruction.** -/
theorem after (h : Tracked ends s) (o : Outcome) : Tracked ends (s.after o) := by
  have hstart : s.toBus.InStep s.sid := by
    rw [Bus.InStep, h.settled]
    rfl
  have hbus : (s.toBus.writeAll o.stores).InStep s.sid := hstart.writeAll
  unfold Session.after
  dsimp only
  -- Nothing else of the stores matters here than that chip and pending writes went together.
  generalize s.toBus.writeAll o.stores = bus at hbus
  split
  next hnone =>
    have hnone : bus.pending = [] := List.isEmpty_iff.mp hnone
    rw [Bus.InStep, hnone] at hbus
    exact h.of_eq hbus.symm (hnone.trans h.settled.symm) rfl rfl
  next hsome =>
    refine ⟨rfl, fun t' ht' => ?_, fun t' ht' => ?_⟩
    all_goals
      obtain ⟨t, ht, rfl⟩ := Option.map_eq_some_iff.mp ht'
      have hrecorded := h.recorded t ht
      obtain ⟨hordered, hframe, hsnapshots⟩ :=
        append_entries hrecorded (@frame_entriesOf s.frame (s.frameCycle + o.cycles) bus.pending)
    · refine ⟨?_, hrecorded.frames, hordered, hframe⟩
      show t.initial.replay (t.entries ++ Session.entriesOf _ _ bus.pending).toList = bus.sid
      rw [Array.toList_appendList, Bank.replay_append, hrecorded.replay, replay_entriesOf]
      exact hbus
    · exact hsnapshots.trans (h.snapshots t ht)

theorem restartTrace (h : s.pending = []) : Tracked [] s.restartTrace := by
  refine ⟨h, fun t ht => ?_, fun t ht => ?_⟩
  · cases ht
    exact ⟨rfl, rfl, .nil, nofun⟩
  · cases ht
    rfl

/-- When a frame ends its snapshot is the chip's registers. -/
theorem endFrame (h : Tracked ends s) : Tracked (ends ++ [s.sid]) s.endFrame := by
  refine ⟨h.settled, fun t' ht' => ?_, fun t' ht' => ?_⟩
  all_goals
    obtain ⟨t, ht, rfl⟩ := Option.map_eq_some_iff.mp ht'
    have hrecorded := h.recorded t ht
  · exact ⟨hrecorded.replay, congrArg (· + 1) hrecorded.frames, hrecorded.ordered,
      fun e he => Nat.le_succ_of_le (hrecorded.frame_le e he)⟩
  · show Trace.snapshotsFrom t.initial t.entries.toList 0 (t.frames + 1) = ends ++ [s.sid]
    rw [Trace.snapshotsFrom_succ hrecorded.ordered, hrecorded.replay, ← h.snapshots t ht]
    · rfl
    · intro e he
      rw [hrecorded.frames]
      exact ⟨Nat.zero_le _, by have := hrecorded.frame_le e he; omega⟩

end Tracked

end Playback

end Chiptune
