/-
Play calls that took longer than a frame, and those of them that are counted.

Frames are finished one by one, but their overruns are counted together when
all frames of a run have been played (`runFrames_of_some`). So the count goes
by the runs that were played to the end (`Counted`): what a run that fails half
way has finished, it does not count.
-/
import Mathlib.Algebra.GroupWithZero.Nat
import Chiptune.Proofs.Playback.Reuse

namespace Chiptune.Playback

open Machine Sound Session

variable {s s' : Session}

/-! ## Runs of frames -/

/-- The cycles of the play calls of `n` frames, up to the first that does not return. -/
def playCycles (mode : PlayMode) : (n : Nat) → Session → List Nat
  | 0, _ => []
  | n + 1, s =>
    match playFrame mode s with
    | .ok cycles s => cycles :: playCycles mode n s
    | .error _ _ => []

/-- A run of frames: the cycles of the play calls that returned, and how many frames there were to play. -/
structure FrameRun where
  cycles : List Nat
  frames : Nat

/-- Every frame of the run was played. -/
def FrameRun.finished (r : FrameRun) : Bool := r.cycles.length == r.frames

/-- The play calls among those of some runs that took longer than a frame. -/
def tooLong (clock : Clock) (runs : List FrameRun) : Nat :=
  (runs.map fun r => r.cycles.countP (clock.cyclesPerFrame < ·)).sum

/-- The runs of frames since loading, after an operation on a session; `before` are those before it. -/
def Operation.runsAfter (s : Session) (before : List FrameRun) : Operation → List FrameRun
  | .load .. => []
  | .loadProgram p =>
    match p.image with
    | .ok _ => []
    | .error _ => before
  | .runFrames n =>
    match s.play with
    | none => before
    | some mode => before ++ [{ cycles := playCycles mode n s.recording, frames := n }]
  | .beginTrace | .step | .call .. | .cancel => before

/-- The runs of frames since loading, after operations on a session. -/
def runsAfter : Session → List FrameRun → List Operation → List FrameRun
  | _, before, [] => before
  | s, before, o :: operations => runsAfter (o.perform s) (o.runsAfter s before) operations

/-- The runs of frames since loading, after operations on a new session. -/
def runsOf (limits : Limits) (operations : List Operation) : List FrameRun := runsAfter { limits } [] operations

theorem tooLong_cons (clock : Clock) (r : FrameRun) (runs : List FrameRun) :
    tooLong clock (r :: runs) = r.cycles.countP (clock.cyclesPerFrame < ·) + tooLong clock runs := by
  simp only [tooLong, List.map_cons, List.sum_cons]

theorem tooLong_append (clock : Clock) (runs later : List FrameRun) :
    tooLong clock (runs ++ later) = tooLong clock runs + tooLong clock later := by
  simp only [tooLong, List.map_append, List.sum_append]

/-- Every overrun is one of a run that was finished, or of one that was not. -/
theorem tooLong_eq_add (clock : Clock) (runs : List FrameRun) :
    tooLong clock runs =
      tooLong clock (runs.filter (·.finished)) + tooLong clock (runs.filter fun r => !r.finished) := by
  induction runs with
  | nil => rfl
  | cons r runs ih =>
    rw [tooLong_cons, ih]
    by_cases hr : r.finished = true
    · rw [List.filter_cons_of_pos hr, List.filter_cons_of_neg (by simp [hr]), tooLong_cons, Nat.add_assoc]
    · rw [List.filter_cons_of_neg hr, List.filter_cons_of_pos (by simpa using hr), tooLong_cons, Nat.add_left_comm]

/-- No run has a play call that took too long. -/
theorem tooLong_eq_zero {clock : Clock} {runs : List FrameRun} :
    tooLong clock runs = 0 ↔ ∀ r ∈ runs, ∀ cycles ∈ r.cycles, cycles ≤ clock.cyclesPerFrame := by
  induction runs with
  | nil => simp [tooLong]
  | cons r runs ih =>
    rw [tooLong_cons, Nat.add_eq_zero_iff, List.countP_eq_zero, ih, List.forall_mem_cons]
    simp only [decide_eq_true_eq, Nat.not_lt]

/-! ## Runs that are computed -/

/-- What `Playback.playCycles` gives, as a tape computes it. -/
def Tape.playCycles (play : UInt16) (budget : Nat) : Nat → Tape → List Nat
  | 0, _ => []
  | n + 1, t =>
    match runFor budget (budget / 2 + 1) 0 (t.calling play 0) with
    | some (cycles, t) => cycles :: playCycles play budget n t
    | none => []

theorem playCycles_of_tape {play : UInt16} : ∀ (n : Nat) {t : Tape} {s : Session}, t.Renders s.core →
    s.cancelled = false → playCycles (.subroutine play) n s = t.playCycles play s.limits.callCycles n
  | 0, _, _, _, _ => rfl
  | n + 1, t, s, hs, hcancelled => by
    have hruns := @runFor_tape s.limits.callCycles play (s.limits.callCycles / 2 + 1) 0 _ _
      (renders_calling (s := { s with frameCycle := 0 }) hs play 0)
    have hcall : playOnce (.subroutine play) { s with frameCycle := 0 } =
        runToHalt play s.limits.callCycles ({ s with frameCycle := 0 }.calling play 0) :=
      runRoutine_eq (s := { s with frameCycle := 0 }) hcancelled play 0 s.limits.callCycles
    rw [playCycles, Tape.playCycles, playFrame_eq hcancelled, hcall]
    cases hrun : Tape.runFor s.limits.callCycles (s.limits.callCycles / 2 + 1) 0 (t.calling play 0) with
    | none =>
      rw [hrun] at hruns
      obtain ⟨e, s', hfails⟩ := hruns
      rw [runToHalt, hfails]
    | some r =>
      rw [hrun] at hruns
      obtain ⟨s', hreturns, hs', hlimits, hcancelled'⟩ := hruns
      have hrest : playCycles (.subroutine play) n s'.endFrame = r.2.playCycles play s'.endFrame.limits.callCycles n :=
        playCycles_of_tape n hs' (hcancelled'.trans hcancelled)
      have hendLimits : s'.endFrame.limits = s.limits := hlimits
      rw [runToHalt, hreturns]
      dsimp only
      rw [hrest, hendLimits]

/-- What is played of an image that is loaded into a new session. -/
theorem runsOf_load (limits : Limits) (bytes : Bytes) (entry : UInt16) (n : Nat) :
    runsOf limits [.load (Memory.zeroed.writeAll entry bytes) entry, .runFrames n] =
      [⟨Tape.playCycles entry limits.callCycles n ⟨Tape.withDigits 0 entry bytes, .cleared, { pc := entry }⟩, n⟩] := by
  let s : Session := ({ limits } : Session).loaded (Memory.zeroed.writeAll entry bytes) entry
  have hcycles : playCycles (.subroutine entry) n s = Tape.playCycles entry limits.callCycles n _ :=
    playCycles_of_tape (s := s) n (Tape.renders_start entry bytes { pc := entry }) rfl
  rw [← hcycles]
  rfl

/-! ## Counting -/

/-- A session with the same overruns counted, and the same limits. -/
def SameCount (s s' : Session) : Prop := s'.overruns = s.overruns ∧ s'.limits = s.limits

theorem steady_sameCount (s : Session) : Steady (SameCount s) where
  after {s' o} h _ := by
    have hafter : (s'.after o).overruns = s'.overruns ∧ (s'.after o).limits = s'.limits := by
      unfold Session.after
      dsimp only
      split <;> exact ⟨rfl, rfl⟩
    exact ⟨hafter.1.trans h.1, hafter.2.trans h.2⟩
  push _ h := h
  regs _ h := h

theorem sameCount_playFrame (s : Session) (mode : PlayMode) : Keeps (SameCount s) (playFrame mode) :=
  .bind .checkCancelled fun _ => .bind (.modify fun _ h => h) fun _ =>
    .bind ((steady_sameCount s).playOnce mode) fun cycles => .bind (.modify fun _ h => h) fun _ => .pure cycles

/-- What comes of playing `n` frames, those that were played having taken these cycles: the count of all that were too
long if all were played, and none if one fails. -/
def Counts (s : Session) (n count : Nat) (cycles : List Nat) : EStateM.Result RunError Session (Nat × Nat) → Prop
  | .ok counts s' =>
    counts.1 = count + cycles.countP (s.limits.clock.cyclesPerFrame < ·) ∧ cycles.length = n ∧ SameCount s s'
  | .error _ s' => cycles.length < n ∧ SameCount s s'

/-- A frame is counted before those that come after it. -/
theorem Counts.cons {n count first : Nat} {cycles : List Nat} {r : EStateM.Result RunError Session (Nat × Nat)}
    (hs : SameCount s s')
    (h : Counts s' n (count + if s.limits.clock.cyclesPerFrame < first then 1 else 0) cycles r) :
    Counts s (n + 1) count (first :: cycles) r := by
  obtain ⟨hoverruns, hlimits⟩ := hs
  cases r with
  | ok counts s'' =>
    obtain ⟨hcounts, hlength, hoverruns', hlimits'⟩ := h
    refine ⟨?_, congrArg (· + 1) hlength, hoverruns'.trans hoverruns, hlimits'.trans hlimits⟩
    rw [hcounts, hlimits, List.countP_cons]
    simp only [decide_eq_true_eq]
    omega
  | error e s'' =>
    obtain ⟨hlength, hoverruns', hlimits'⟩ := h
    exact ⟨Nat.succ_lt_succ hlength, hoverruns'.trans hoverruns, hlimits'.trans hlimits⟩

theorem counts_playFrames (mode : PlayMode) : ∀ (n count longest : Nat) (s : Session),
    Counts s n count (playCycles mode n s) (playFrames mode n count longest s)
  | 0, _, _, _ => ⟨rfl, rfl, rfl, rfl⟩
  | n + 1, count, longest, s => by
    have hframe := sameCount_playFrame s mode s ⟨rfl, rfl⟩
    rw [playFrames]
    unfold playCycles
    simp only [Bind.bind, EStateM.bind, run_get]
    cases hs : playFrame mode s with
    | error e s' =>
      rw [hs] at hframe
      exact ⟨Nat.zero_lt_succ n, hframe⟩
    | ok cycles s' =>
      rw [hs] at hframe
      dsimp only
      rw [hframe.2]
      refine .cons hframe ?_
      by_cases hlong : s.limits.clock.cyclesPerFrame < cycles
      · rw [if_pos hlong, if_pos hlong]
        exact counts_playFrames mode n _ _ s'
      · rw [if_neg hlong, if_neg hlong]
        exact counts_playFrames mode n _ _ s'

/-- What is counted of a session's runs of frames: the overruns of those that were finished. -/
def Counted (runs : List FrameRun) (s : Session) : Prop :=
  s.overruns = tooLong s.limits.clock (runs.filter (·.finished))

namespace Counted

variable {runs : List FrameRun}

theorem of_sameCount (h : Counted runs s) (hs : SameCount s s') : Counted runs s' := by
  unfold Counted
  rw [hs.1, hs.2]
  exact h

theorem steady (runs : List FrameRun) : Steady (Counted runs) where
  after h ho := h.of_sameCount ((steady_sameCount _).after ⟨rfl, rfl⟩ ho)
  push _ h := h
  regs _ h := h

/-- A run of frames adds its overruns when it is finished. -/
theorem runFrames (h : Counted runs s) (n : Nat) :
    Counted (Operation.runsAfter s runs (.runFrames n)) (left (Session.runFrames n) s) := by
  unfold Operation.runsAfter left
  cases hmode : s.play with
  | none =>
    rw [runFrames_of_none hmode]
    exact h
  | some mode =>
    have hrecording : SameCount s s.recording := by
      unfold recording
      split <;> exact ⟨rfl, rfl⟩
    have hcounts := counts_playFrames mode n 0 0 s.recording
    rw [runFrames_of_some hmode, Counted, List.filter_append, tooLong_append]
    cases hplay : playFrames mode n 0 0 s.recording with
    | error e s' =>
      rw [hplay] at hcounts
      obtain ⟨hlength, hsame⟩ := hcounts
      have hunfinished : ¬ FrameRun.finished ⟨playCycles mode n s.recording, n⟩ = true :=
        fun h => Nat.ne_of_lt hlength (beq_iff_eq.mp h)
      rw [List.filter_cons_of_neg hunfinished, List.filter_nil]
      exact (h.of_sameCount hrecording).of_sameCount hsame
    | ok counts s' =>
      rw [hplay] at hcounts
      obtain ⟨hcount, hlength, hsame⟩ := hcounts
      have hfinished : FrameRun.finished ⟨playCycles mode n s.recording, n⟩ = true := beq_iff_eq.mpr hlength
      have hbefore : s'.overruns = tooLong s'.limits.clock (runs.filter (·.finished)) :=
        (h.of_sameCount hrecording).of_sameCount hsame
      have hrun : tooLong s'.limits.clock [⟨playCycles mode n s.recording, n⟩] = counts.1 := by
        rw [hcount, hsame.2, Nat.zero_add]
        simp only [tooLong, List.map_singleton, List.sum_singleton]
      rw [List.filter_cons_of_pos hfinished, List.filter_nil]
      by_cases hnone : counts.1 = 0
      · simp only [hnone, if_true]
        rw [hrun, hnone]
        exact hbefore
      · simp only [hnone, if_false]
        rw [hrun, ← hbefore]

theorem loadProgram (h : Counted runs s) (p : Program) :
    Counted (Operation.runsAfter s runs (.loadProgram p)) (left (Session.loadProgram p) s) := by
  refine Leads.left (P := (· = s)) (.loadProgram (steady _) ?_ ?_ ?_) rfl
  · rintro e s himage rfl
    simp only [Operation.runsAfter, himage]
    exact h
  · intro image s himage _
    simp only [Operation.runsAfter, himage]
    unfold prepared
    split <;> rfl
  · intro image s himage hs
    exact hs

/-- **Every operation keeps the count** of the runs that were finished. -/
theorem perform (h : Counted runs s) : ∀ o : Operation, Counted (o.runsAfter s runs) (o.perform s)
  | .load .. => rfl
  | .loadProgram p => h.loadProgram p
  | .beginTrace => h
  | .step => (steady runs).step.left h
  | .call entry a => ((steady runs).call entry a).left h
  | .runFrames n => h.runFrames n
  | .cancel => h

theorem foldl : ∀ (operations : List Operation) {runs : List FrameRun} {s : Session}, Counted runs s →
    Counted (runsAfter s runs operations) (operations.foldl (fun s o => o.perform s) s)
  | [], _, _, h => h
  | o :: operations, _, _, h => foldl operations (h.perform o)

end Counted

theorem counted_performed (limits : Limits) (operations : List Operation) :
    (performed limits operations).overruns =
      tooLong limits.clock ((runsOf limits operations).filter (·.finished)) := by
  have hnew : Counted [] { limits } := rfl
  have hcounted : Counted (runsOf limits operations) (performed limits operations) := hnew.foldl operations
  rwa [Counted, (sameJob_performed limits operations).1] at hcounted

/-- **The overruns of the runs that were finished** are counted, whatever is done with a session: these are all since
loading just if no run that failed had one. -/
theorem overruns_performed (limits : Limits) (operations : List Operation) :
    (performed limits operations).overruns =
        tooLong limits.clock ((runsOf limits operations).filter (·.finished)) ∧
      ((performed limits operations).overruns = tooLong limits.clock (runsOf limits operations) ↔
        ∀ r ∈ runsOf limits operations, r.finished = false →
          ∀ cycles ∈ r.cycles, cycles ≤ limits.clock.cyclesPerFrame) := by
  have hcount := counted_performed limits operations
  refine ⟨hcount, ?_⟩
  rw [hcount, tooLong_eq_add limits.clock (runsOf limits operations), Nat.left_eq_add, tooLong_eq_zero]
  simp only [List.mem_filter, Bool.not_eq_true', and_imp]

/-- A play routine that takes longer than a frame, and in the end raises its first opcode, which cannot run then:
`LDA ($00),Y`, `LDY #$2F`, sixty-one times `ORA ($00,X)`, `DEY`, a branch back to the first of them, `INC $1000` and
`RTS`. -/
def jamming : Bytes :=
  [0xB1, 0x00, 0xA0, 0x2F] ++ (List.replicate 61 [0x01, 0x00]).flatten ++ [0x88, 0xD0, 0x83, 0xEE, 0x00, 0x10, 0x60]

/-- Two frames of it. -/
def jams : List Operation := [.load (Memory.zeroed.writeAll 0x1000 jamming) 0x1000, .runFrames 2]

theorem playCycles_jamming :
    Tape.playCycles 0x1000 200000 2 ⟨Tape.withDigits 0 0x1000 jamming, .cleared, { pc := 0x1000 }⟩ = [17455] := by
  decide +kernel

theorem jams_uncounted :
    (performed { clock := .ntsc } jams).overruns = 0 ∧ tooLong .ntsc (runsOf { clock := .ntsc } jams) = 1 := by
  have hruns : runsOf { clock := .ntsc } jams = [⟨[17455], 2⟩] := by
    rw [← playCycles_jamming]
    exact runsOf_load { clock := .ntsc } jamming 0x1000 2
  rw [counted_performed, hruns]
  decide

end Chiptune.Playback
