/-
The writes of a trace are in order.

Writes of one instruction take their cycles from its own, so they come after all
that is recorded already as long as the cycle counter has not been set back. A
frame sets it back when it begins: that is right where nothing is recorded in
the frame yet, and wrong where an instruction or a call between frames, or a
run that stopped half way, has left writes in it.
-/
import Chiptune.Proofs.Machine.Instruction
import Chiptune.Proofs.Playback.History

namespace Chiptune

open Machine Sound

namespace Sound

theorem Entry.precedes_iff {a b : Entry} :
    a.precedes b = true ↔ a.frame < b.frame ∨ a.frame = b.frame ∧ a.cycle ≤ b.cycle := by
  simp [Entry.precedes]

/-- Each write is made no earlier than all before it. -/
abbrev Chronological (entries : List Entry) : Prop := entries.Pairwise fun a b => a.precedes b

theorem Trace.isOrdered_of_chronological {t : Trace} (h : Chronological t.entries.toList) : t.isOrdered = true := by
  unfold Trace.isOrdered
  generalize t.entries.toList = entries at h
  induction entries with
  | nil => rfl
  | cons a entries ih =>
    obtain ⟨ha, hentries⟩ := List.pairwise_cons.mp h
    cases entries with
    | nil => rfl
    | cons b entries =>
      simp only [List.tail_cons, List.zip_cons_cons, List.all_cons, Bool.and_eq_true]
      exact ⟨ha b (by simp), ih hentries⟩

end Sound

namespace Playback

open Session

/-! ## Writes that wait to be recorded -/

namespace Bus

theorem length_pending_write (b : Bus) (s : Store) : (b.write s).pending.length ≤ b.pending.length + 1 := by
  unfold Bus.write
  split
  · split
    · simp
    · exact Nat.le_succ _
  · exact Nat.le_succ _

theorem length_pending_writeAll : ∀ (stores : List Store) (b : Bus),
    (b.writeAll stores).pending.length ≤ b.pending.length + stores.length
  | [], _ => Nat.le_refl _
  | s :: stores, b => by
    have hwrite := b.length_pending_write s
    have hrest := length_pending_writeAll stores (b.write s)
    simp only [Bus.writeAll, List.foldl_cons, List.length_cons] at hrest ⊢
    omega

end Bus

/-- An instruction makes no more writes to the chip than it has cycles. -/
theorem length_pending_step {b : Bus} {r : Registers} {o : Outcome} (h : Machine.step b.read r = .ok o)
    (hpending : b.pending = []) : (b.writeAll o.stores).pending.length ≤ o.cycles := by
  rcases stores_step h with hlength | hstack
  · have hwrites := Bus.length_pending_writeAll o.stores b
    rw [hpending, List.length_nil] at hwrites
    omega
  · have houtside : ∀ s ∈ o.stores, inWindow s.address = false := fun s hs => by
      obtain ⟨sp, hsp⟩ := hstack s hs
      rw [hsp]
      exact inWindow_stackAddress sp
    rw [(Bus.writeAll_outside houtside).2, hpending]
    exact Nat.zero_le _

/-! ## Time -/

/-- The write comes before a cycle of a frame. -/
def Sooner (frame cycle : Nat) (e : Entry) : Prop := e.frame < frame ∨ e.frame = frame ∧ e.cycle < cycle

theorem chronological_entriesOf (frame stop : Nat) (writes : List (Register × UInt8)) :
    Chronological (entriesOf frame stop writes) := by
  unfold entriesOf
  rw [Chronological, List.pairwise_map]
  refine List.pairwise_iff_getElem.mpr fun i j hi hj hij => Entry.precedes_iff.mpr ?_
  simp only [List.getElem_zipIdx]
  exact .inr ⟨trivial, by omega⟩

theorem bounds_entriesOf {frame stop : Nat} {writes : List (Register × UInt8)} (h : writes.length ≤ stop) :
    ∀ e ∈ entriesOf frame stop writes, stop - writes.length ≤ e.cycle ∧ e.cycle < stop := by
  intro e he
  obtain ⟨⟨w, i⟩, hw, rfl⟩ := List.mem_map.mp he
  have hi : i < writes.length := by
    have := List.snd_lt_of_mem_zipIdx hw
    dsimp only at this
    omega
  dsimp only
  omega

/-- No write is pending, and the trace's writes are in order and in the past. -/
structure Timed (s : Session) : Prop where
  settled : s.pending = []
  ordered : ∀ t, s.trace = some t → Chronological t.entries.toList
  sooner : ∀ t, s.trace = some t → ∀ e ∈ t.entries.toList, Sooner s.frame s.frameCycle e

/-- Nothing is recorded in the current frame. -/
def unwritten (s : Session) : Bool := s.trace.all fun t => t.entries.toList.all fun e => e.frame < s.frame

namespace Timed

variable {s s' : Session}

theorem of_eq (h : Timed s) (hpending : s'.pending = s.pending) (htrace : s'.trace = s.trace)
    (hframe : s'.frame = s.frame) (hcycle : s'.frameCycle = s.frameCycle) : Timed s' := by
  refine ⟨hpending.trans h.settled, fun t ht => h.ordered t (htrace ▸ ht), fun t ht => ?_⟩
  rw [hframe, hcycle]
  exact h.sooner t (htrace ▸ ht)

/-- The cycles that an instruction takes are those its writes are made in. -/
theorem after (h : Timed s) {o : Outcome} (ho : Machine.step s.toBus.read s.regs = .ok o) : Timed (s.after o) := by
  have hlength := length_pending_step ho h.settled
  have hpassed : ∀ t, s.trace = some t → ∀ e ∈ t.entries.toList, Sooner s.frame (s.frameCycle + o.cycles) e := by
    intro t ht e he
    exact (h.sooner t ht e he).imp_right fun ⟨hframe, hcycle⟩ => ⟨hframe, by omega⟩
  unfold Session.after
  dsimp only
  -- All that matters of the stores is how many of them wait to be recorded.
  generalize s.toBus.writeAll o.stores = bus at hlength
  split
  next hnone => exact ⟨List.isEmpty_iff.mp hnone, h.ordered, hpassed⟩
  next hsome =>
    have hbounds := @bounds_entriesOf s.frame (s.frameCycle + o.cycles) bus.pending (by omega)
    refine ⟨rfl, fun t' ht' => ?_, fun t' ht' => ?_⟩
    all_goals
      obtain ⟨t, ht, rfl⟩ := Option.map_eq_some_iff.mp ht'
      simp only [Array.toList_appendList]
    · refine List.pairwise_append.mpr ⟨h.ordered t ht, chronological_entriesOf .., fun a ha b hb => ?_⟩
      have hb' := frame_entriesOf b hb
      obtain ⟨hstart, -⟩ := hbounds b hb
      rw [Entry.precedes_iff, hb']
      rcases h.sooner t ht a ha with hframe | ⟨hframe, hcycle⟩
      · exact .inl hframe
      · exact .inr ⟨hframe, by omega⟩
    · intro e he
      rcases List.mem_append.mp he with he | he
      · exact hpassed t ht e he
      · exact .inr ⟨frame_entriesOf e he, (hbounds e he).2⟩

theorem restartTrace (h : s.pending = []) : Timed s.restartTrace := by
  refine ⟨h, fun t ht => ?_, fun t ht => ?_⟩
  · cases ht
    exact .nil
  · cases ht
    exact nofun

/-- The cycle counter can be set back while nothing is recorded in the frame. -/
theorem startFrame (h : Timed s) (hunwritten : unwritten s) : Timed { s with frameCycle := 0 } := by
  refine ⟨h.settled, h.ordered, fun t ht e he => ?_⟩
  have hframe : e.frame < s.frame := by
    simp only [unwritten, Option.all_eq_true, List.all_eq_true, decide_eq_true_eq] at hunwritten
    exact hunwritten t ht e he
  exact .inl hframe

theorem endFrame (h : Timed s) : Timed s.endFrame ∧ unwritten s.endFrame := by
  have hpassed : ∀ t, s.trace = some t → ∀ e ∈ t.entries.toList, e.frame < s.frame + 1 := by
    intro t ht e he
    have := h.sooner t ht e he
    unfold Sooner at this
    omega
  refine ⟨⟨h.settled, fun t' ht' => ?_, fun t' ht' e he => ?_⟩, ?_⟩
  · obtain ⟨t, ht, rfl⟩ := Option.map_eq_some_iff.mp ht'
    exact h.ordered t ht
  · obtain ⟨t, ht, rfl⟩ := Option.map_eq_some_iff.mp ht'
    exact .inl (hpassed t ht e he)
  · simp only [unwritten, Option.all_eq_true, List.all_eq_true, decide_eq_true_eq]
    intro t' ht' e he
    obtain ⟨t, ht, rfl⟩ := Option.map_eq_some_iff.mp ht'
    exact hpassed t ht e he

theorem inOrder (h : Timed s) : s.inOrder = true := by
  simp only [Session.inOrder, Option.all_eq_true]
  exact fun t ht => Trace.isOrdered_of_chronological (h.ordered t ht)

end Timed

theorem steady_timed : Steady Timed where
  after h ho := h.after ho
  push bytes h := h.of_eq (Bus.writeAll_outside (inWindow_push bytes _)).2 rfl rfl rfl
  regs _ h := h.of_eq rfl rfl rfl rfl

/-! ## Frames -/

/-- A frame played to its end leaves the next one unwritten. -/
theorem timed_playFrame (mode : PlayMode) :
    Leads (fun s => Timed s ∧ unwritten s) (playFrame mode) (fun s => Timed s ∧ unwritten s) Timed := by
  have hcheck : Leads (fun s => Timed s ∧ unwritten s) checkCancelled (fun s => Timed s ∧ unwritten s) Timed :=
    Leads.checkCancelled.mono fun s h => h.1
  refine .bind hcheck fun _ => .bind (.modify fun s h => h.1.startFrame h.2) fun _ =>
    .bind (steady_timed.playOnce mode) fun cycles => .bind (.modify fun s h => h.endFrame) fun _ => .pure cycles

theorem timed_playFrames (mode : PlayMode) : ∀ n count longest : Nat,
    Leads (fun s => Timed s ∧ unwritten s) (playFrames mode n count longest) Timed Timed
  | 0, _, _ => fun _ h => h.1
  | n + 1, count, longest => by
    refine .bind (timed_playFrame mode) fun cycles => .bind .get fun s => ?_
    split
    · exact timed_playFrames mode n (count + 1) (max longest cycles)
    · exact timed_playFrames mode n count longest

theorem timed_runFrames (n : Nat) :
    Leads (fun s => Timed s ∧ unwritten s) (Session.runFrames n) Timed Timed := by
  refine .runFrames (fun _ h => h.1) (fun {s mode} _ h => ?_) fun s overruns h => h.of_eq rfl rfl rfl rfl
  have hrecording : Timed s.recording ∧ unwritten s.recording := by
    unfold Session.recording
    split
    · exact ⟨.restartTrace h.1.settled, rfl⟩
    · exact h
  rintro s rfl
  exact timed_playFrames mode n 0 0 _ hrecording

/-! ## Operations -/

theorem timed_loaded (s : Session) (image : Memory) (entry : UInt16) : Timed (s.loaded image entry) := .restartTrace rfl

theorem timed_loadProgram (p : Program) : Keeps Timed (Session.loadProgram p) := by
  refine .loadProgram steady_timed (fun _ h => h) (fun {image s} _ _ => ?_) fun _ h => .restartTrace h.settled
  have hloaded := timed_loaded s image p.init
  unfold Session.prepared
  split
  · exact hloaded.of_eq rfl rfl rfl rfl
  · exact hloaded

/-- Whether an operation finds a session as it needs it for the order of its writes. -/
def Operation.isTimely (s : Session) : Operation → Bool
  | .runFrames _ => unwritten s
  | _ => true

/-- **An operation keeps the order of the writes** if it does not start a frame that has some. -/
theorem Timed.perform {s : Session} (h : Timed s) : ∀ o : Operation, o.isTimely s → Timed (o.perform s)
  | .load image entry, _ => timed_loaded s image entry
  | .loadProgram p, _ => (timed_loadProgram p).left h
  | .beginTrace, _ => .restartTrace h.settled
  | .step, _ => steady_timed.step.left h
  | .call entry a, _ => (steady_timed.call entry a).left h
  | .runFrames n, ho => (timed_runFrames n).left ⟨h, ho⟩
  | .cancel, _ => h.of_eq rfl rfl rfl rfl

/-- Whether frames are only started when they have no writes. -/
def timely (s : Session) : List Operation → Bool
  | [] => true
  | o :: operations => o.isTimely s && timely (o.perform s) operations

theorem Timed.foldl : ∀ (operations : List Operation) {s : Session}, Timed s → timely s operations →
    Timed (operations.foldl (fun s o => o.perform s) s)
  | [], _, h, _ => h
  | o :: operations, s, h, htimely => by
    simp only [timely, Bool.and_eq_true] at htimely
    exact Timed.foldl operations (h.perform o htimely.1) htimely.2

/-- **The writes of a trace are in order** where no frame is started that has writes already. -/
theorem trace_ordered (limits : Limits) (operations : List Operation) (h : timely { limits } operations) :
    (performed limits operations).inOrder :=
  have hnew : Timed { limits } := ⟨rfl, nofun, nofun⟩
  (Timed.foldl operations hnew h).inOrder

/-- Frames after a call whose writes are dropped with its trace, one that is cancelled, and an
instruction in the next frame. -/
def orderly : List Operation :=
  [.loadProgram blip, .call 0x1001 0, .beginTrace, .runFrames 2, .cancel, .runFrames 1, .step]

theorem trace_ordered_orderly :
    timely { limits := {} } orderly ∧ (performed {} orderly).inOrder := by
  have h : timely { limits := {} } orderly = true := by decide +kernel
  exact ⟨h, trace_ordered {} orderly h⟩

/-- A routine that stores the accumulator to the volume is called twice between frames, and then
played for a frame. -/
def stray : List Operation :=
  [.load (Memory.zeroed.writeAll 0x1000 [0x8D, 0x18, 0xD4, 0x60]) 0x1000, .call 0x1000 15, .call 0x1000 14, .runFrames 1]

theorem stray_disordered : (performed {} stray).inOrder = false := by decide +kernel

end Playback

end Chiptune
