/-
Whatever is done with a session, its trace stays a faithful record.

A session's history is what was done with it so far and, for each frame since
the trace began, the registers of the chip when that frame ended. Operations
that fail are part of it like any others: they leave a session behind too, and
the history goes on from there.
-/
import Chiptune.Proofs.Playback.Actions
import Chiptune.Proofs.Playback.Recording

namespace Chiptune.Playback

open Machine Sound Session

variable {α : Type} {ends : List Bank}

theorem steady_tracked : Steady (Tracked ends) where
  after h _ := h.after _
  push bytes h := h.push bytes
  regs r h := h.regs r

/-! ## Frames -/

/-- A frame played to its end adds the registers it ends with. -/
theorem leads_playFrame (mode : PlayMode) :
    Leads (Tracked ends) (playFrame mode) (fun s => Tracked (ends ++ [s.sid]) s) (Tracked ends) := by
  refine .bind .checkCancelled fun _ => .bind (.modify fun s h => h.of_eq rfl rfl rfl rfl) fun _ =>
    .bind (steady_tracked.playOnce mode) fun cycles => .bind (.modify fun s h => ?_) fun _ => .pure cycles
  exact h.endFrame

/-- The registers at the end of each of `n` frames that are played to their end. -/
def frameEnds (mode : PlayMode) : (n : Nat) → Session → List Bank
  | 0, _ => []
  | n + 1, s =>
    match playFrame mode s with
    | .ok _ s => s.sid :: frameEnds mode n s
    | .error _ _ => []

theorem leads_playFrames (mode : PlayMode) : ∀ (n count longest : Nat) {ends : List Bank} {s : Session},
    Tracked ends s →
      Leads (· = s) (playFrames mode n count longest) (Tracked (ends ++ frameEnds mode n s))
        (Tracked (ends ++ frameEnds mode n s))
  | 0, count, longest, ends, s, h => by
    rintro s rfl
    show Tracked (ends ++ []) s
    rwa [List.append_nil]
  | n + 1, count, longest, ends, s, h => by
    have hframe := leads_playFrame mode s h
    refine .bind_from ?_
    unfold frameEnds
    cases hs : playFrame mode s with
    | error e s' =>
      rw [hs] at hframe
      simpa using hframe
    | ok cycles s' =>
      rw [hs] at hframe
      have hrest := fun count longest => leads_playFrames mode n count longest hframe
      rw [List.append_assoc, List.singleton_append] at hrest
      refine .bind .get fun _ => ?_
      split
      · exact hrest _ _
      · exact hrest _ _

/-! ## Operations -/

/-- Something to do with a session. -/
inductive Operation where
  | load (image : Memory) (entry : UInt16)
  | loadProgram (p : Program)
  | beginTrace
  | step
  | call (entry : UInt16) (a : UInt8)
  | runFrames (n : Nat)
  /-- Ask the job to stop. -/
  | cancel

/-- The session that an action leaves behind, whether it succeeds or not. -/
def left (x : Action α) (s : Session) : Session :=
  match x s with
  | .ok _ s => s
  | .error _ s => s

namespace Operation

/-- The session after an operation, whether it succeeds or not. -/
def perform : Operation → Session → Session
  | .load image entry => left (Session.load image entry)
  | .loadProgram p => left (Session.loadProgram p)
  | .beginTrace => left Session.beginTrace
  | .step => left Session.step
  | .call entry a => left (Session.call entry a)
  | .runFrames n => left (Session.runFrames n)
  | .cancel => fun s => { s with cancelled := true }

/-- The registers at the end of each frame since the trace began, after an operation on a session;
`before` are those before it. -/
def endsAfter (s : Session) (before : List Bank) : Operation → List Bank
  | .load .. | .beginTrace => []
  | .loadProgram p =>
    match p.image with
    | .ok _ => []
    | .error _ => before
  | .runFrames n =>
    match s.play with
    | none => before
    | some mode =>
      if s.trace.isSome then before ++ frameEnds mode n s else frameEnds mode n s.restartTrace
  | .step | .call .. | .cancel => before

end Operation

theorem Leads.left {P Q : Session → Prop} {x : Action α} (h : Leads P x Q Q) {s : Session} (hs : P s) :
    Q (left x s) := by
  have hleads := h s hs
  unfold Playback.left
  cases hx : x s <;> rw [hx] at hleads <;> exact hleads

theorem Tracked.loaded {s : Session} (image : Memory) (entry : UInt16) : Tracked [] (s.loaded image entry) :=
  .restartTrace rfl

theorem Tracked.prepared {s : Session} (p : Program) (image : Memory) : Tracked [] (s.prepared p image) := by
  have hloaded : Tracked [] (s.loaded image p.init) := .loaded image p.init
  unfold Session.prepared
  split
  · exact hloaded.of_eq rfl rfl rfl rfl
  · exact hloaded

theorem tracked_loadProgram {s : Session} (h : Tracked ends s) (p : Program) :
    Tracked (Operation.endsAfter s ends (.loadProgram p)) (left (Session.loadProgram p) s) := by
  refine Leads.left (P := (· = s)) (.loadProgram steady_tracked ?_ ?_ ?_) rfl
  · rintro e s himage rfl
    simp only [Operation.endsAfter, himage]
    exact h
  · intro image s himage _
    simp only [Operation.endsAfter, himage]
    exact .prepared p image
  · intro image s himage hs
    simp only [Operation.endsAfter, himage] at hs ⊢
    exact .restartTrace hs.settled

/-- Counting overruns changes nothing that is recorded. -/
theorem Tracked.counted (s : Session) (overruns : Nat) (h : Tracked ends s) : Tracked ends { s with overruns } :=
  h.of_eq rfl rfl rfl rfl

theorem tracked_runFrames {s : Session} (h : Tracked ends s) (n : Nat) :
    Tracked (Operation.endsAfter s ends (.runFrames n)) (left (Session.runFrames n) s) := by
  refine Leads.left (P := (· = s)) (.runFrames ?_ ?_ Tracked.counted) rfl
  · rintro s hplay rfl
    simp only [Operation.endsAfter, hplay]
    exact h
  · rintro s mode hplay rfl
    simp only [Operation.endsAfter, hplay]
    unfold Session.recording
    cases s.trace with
    | none => exact leads_playFrames mode n 0 0 (.restartTrace h.settled)
    | some t => exact leads_playFrames mode n 0 0 h

/-- **Every operation keeps the trace a record of the chip.** -/
theorem Tracked.perform {s : Session} (h : Tracked ends s) : ∀ o : Operation,
    Tracked (o.endsAfter s ends) (o.perform s)
  | .load image entry => .loaded image entry
  | .loadProgram p => tracked_loadProgram h p
  | .beginTrace => .restartTrace h.settled
  | .step => steady_tracked.step.left h
  | .call entry a => (steady_tracked.call entry a).left h
  | .runFrames n => tracked_runFrames h n
  | .cancel => h.of_eq rfl rfl rfl rfl

/-! ## Histories -/

/-- What a new session has become after some operations. -/
def performed (limits : Limits) (operations : List Operation) : Session :=
  operations.foldl (fun s o => o.perform s) { limits }

/-- A session, and the registers of its chip at the end of each frame since its trace began. -/
structure History where
  session : Session
  ends : List Bank := []

namespace History

/-- The history with one operation more. -/
def perform (h : History) (o : Operation) : History where
  session := o.perform h.session
  ends := o.endsAfter h.session h.ends

/-- The history of a new session. -/
def of (limits : Limits) (operations : List Operation) : History :=
  operations.foldl perform { session := { limits } }

theorem session_of (limits : Limits) (operations : List Operation) :
    (of limits operations).session = performed limits operations :=
  (List.foldl_hom (fun h : History => h.session) fun _ _ => rfl).symm

theorem tracked (limits : Limits) (operations : List Operation) :
    Tracked (of limits operations).ends (performed limits operations) := by
  have hnew : Tracked [] { limits } := ⟨rfl, nofun, nofun⟩
  rw [← session_of]
  exact List.foldlRecOn (motive := fun h : History => Tracked h.ends h.session) operations perform hnew
    fun h htracked o _ => htracked.perform o

end History

/-- **Whatever is done with a session, its trace is a faithful record of the chip, and the
snapshots are the registers as the frames ended.** -/
theorem trace_faithful (limits : Limits) (operations : List Operation) {t : Trace}
    (h : (performed limits operations).trace = some t) :
    Recorded t (performed limits operations) ∧ t.snapshots = (History.of limits operations).ends :=
  have htracked := History.tracked limits operations
  ⟨htracked.recorded t h, htracked.snapshots t h⟩

/-- A program that sets the volume and raises it by one each time it is played. -/
def blip : Program where
  loadAddress := 0x1000
  data := [0x60, 0xA9, 0x0E, 0x8D, 0x18, 0xD4, 0xEE, 0x18, 0xD4, 0x60]
  init := 0x1000
  play := .subroutine 0x1001

/-- Two frames of it, an instruction between frames, and a frame that is cancelled. -/
def blips : List Operation := [.loadProgram blip, .runFrames 2, .step, .cancel, .runFrames 1]

theorem blips_writes : (performed {} blips).trace.map (·.entries.size) = some 6 := by
  decide +kernel

theorem trace_faithful_blips :
    ∃ t, (performed {} blips).trace = some t ∧ t.entries.size = 6 ∧
      Recorded t (performed {} blips) ∧ t.snapshots = (History.of {} blips).ends := by
  obtain ⟨t, ht, hsize⟩ := Option.map_eq_some_iff.mp blips_writes
  exact ⟨t, ht, hsize, trace_faithful {} blips ht⟩

end Chiptune.Playback
