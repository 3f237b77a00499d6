/-
What an action on a session leaves true, whether it succeeds or stops half way.

`Leads` follows the text of an action. All that a routine does is to push to
the stack, to set registers and to run instructions, so a property that these
keep (`Steady`) is kept by every routine, however it ends. Loading a program is
a call of its init routine (`loadProgram_of_ok`), and playing frames counts the
overruns once all of them are played (`runFrames_of_some`).
-/
import Chiptune.Playback.Session
import Chiptune.Proofs.Outcome

namespace Chiptune.Playback

open Machine Session

variable {α β : Type}

/-! ## Actions -/

/-- From a session with `P`, the action leads to one with `Q` when it succeeds and to one with
`E` when it fails. -/
def Leads (P : Session → Prop) (x : Action α) (Q E : Session → Prop) : Prop :=
  ∀ s, P s →
    match x s with
    | .ok _ s => Q s
    | .error _ s => E s

/-- Whatever comes of the action, what holds before it holds after it. -/
abbrev Keeps (P : Session → Prop) (x : Action α) : Prop := Leads P x P P

namespace Leads

variable {P Q R E : Session → Prop}

theorem pure (a : α) : Leads P (Pure.pure a) P E := fun _ h => h

theorem get : Leads P get P E := fun _ h => h

theorem throw (e : RunError) : Leads P (throw e : Action α) Q P := fun _ h => h

theorem modify {f : Session → Session} (hf : ∀ s, P s → Q (f s)) : Leads P (modify f : Action Unit) Q E :=
  fun s h => hf s h

theorem bind {x : Action α} {f : α → Action β} (hx : Leads P x Q E) (hf : ∀ a, Leads Q (f a) R E) :
    Leads P (x >>= f) R E := by
  intro s h
  have hleads := hx s h
  simp only [Bind.bind, EStateM.bind]
  cases hs : x s with
  | ok a s' =>
    rw [hs] at hleads
    exact hf a s' hleads
  | error e s' =>
    rw [hs] at hleads
    exact hleads

/-- An action from one session goes on from the one that its first part leads to. -/
theorem bind_from {x : Action α} {f : α → Action β} {s : Session}
    (h : match x s with
      | .ok a s => Leads (· = s) (f a) R E
      | .error _ s => E s) : Leads (· = s) (x >>= f) R E := by
  rintro s rfl
  simp only [Bind.bind, EStateM.bind]
  cases hs : x s with
  | ok a s' =>
    rw [hs] at h
    exact h s' rfl
  | error e s' =>
    rw [hs] at h
    exact h

theorem mono {E' : Session → Prop} {x : Action α} (h : Leads P x Q E) (hE : ∀ s, E s → E' s) : Leads P x Q E' := by
  intro s hs
  have hleads := h s hs
  cases hx : x s with
  | ok a s' =>
    rw [hx] at hleads
    exact hleads
  | error e s' =>
    rw [hx] at hleads
    exact hE s' hleads

theorem checkCancelled : Keeps P checkCancelled := by
  intro s h
  unfold Session.checkCancelled
  cases s.cancelled <;> exact h

end Leads

/-! ## Routines -/

/-- Instructions, pushes and changes of the registers keep it. -/
structure Steady (P : Session → Prop) : Prop where
  after : ∀ {s o}, P s → Machine.step s.toBus.read s.regs = .ok o → P (s.after o)
  push : ∀ {s} bytes, P s → P (s.push bytes)
  regs : ∀ {s} r, P s → P { s with regs := r }

namespace Steady

variable {P : Session → Prop}

theorem step (hP : Steady P) : Keeps P Session.step := by
  intro s h
  unfold Session.step
  cases hs : Machine.step s.toBus.read s.regs with
  | error e => exact h
  | ok o => exact hP.after h hs

theorem runFor (hP : Steady P) (entry : UInt16) (budget : Nat) : ∀ fuel spent : Nat,
    Keeps P (runFor entry budget fuel spent)
  | 0, spent => by
    intro s h
    unfold Session.runFor
    by_cases hhalt : s.regs.pc = haltAddress
    · simp only [hhalt, if_true]
      exact h
    · simp only [hhalt, if_false]
      exact h
  | fuel + 1, spent => by
    intro s h
    unfold Session.runFor
    by_cases hhalt : s.regs.pc = haltAddress
    · simp only [hhalt, if_true]
      exact h
    · simp only [hhalt, if_false]
      have hstep := hP.step s h
      cases hs : Session.step s with
      | error e s' =>
        rw [hs] at hstep
        exact hstep
      | ok cycles s' =>
        rw [hs] at hstep
        dsimp only
        by_cases hbudget : budget < spent + cycles
        · simp only [hbudget, if_true]
          exact hstep
        · simp only [hbudget, if_false]
          exact hP.runFor entry budget fuel (spent + cycles) s' hstep

theorem runRoutine (hP : Steady P) (entry : UInt16) (a : UInt8) (budget : Nat) :
    Keeps P (runRoutine entry a budget) := by
  refine .bind .checkCancelled fun _ => .bind (.modify fun s h => ?_) fun _ => hP.runFor _ _ _ _
  exact hP.regs _ (hP.push _ h)

theorem call (hP : Steady P) (entry : UInt16) (a : UInt8) : Keeps P (call entry a) :=
  .bind .get fun _ => hP.runRoutine _ _ _

theorem interrupted (hP : Steady P) {s : Session} (h : P s) (entry : UInt16) (bySystem : Bool) :
    P (s.interrupted entry bySystem) := by
  unfold Session.interrupted
  cases bySystem with
  | false => exact hP.regs _ (hP.regs _ (hP.push _ h))
  | true => exact hP.regs _ (hP.push _ (hP.regs _ (hP.push _ h)))

theorem interrupt (hP : Steady P) : Keeps P interrupt := by
  refine .bind .get fun s => ?_
  cases handler s.memory with
  | none => exact .throw _
  | some vector => exact .bind (.modify fun s h => hP.interrupted h _ _) fun _ => hP.runFor _ _ _ _

theorem playOnce (hP : Steady P) : ∀ mode : PlayMode, Keeps P (playOnce mode)
  | .subroutine address => hP.call address 0
  | .interrupt => hP.interrupt

end Steady

/-! ## Programs and runs of frames -/

namespace Session

variable {p : Program} {n : Nat} {mode : PlayMode}

/-- The session in which the init routine of a program is called. -/
def prepared (s : Session) (p : Program) (image : Memory) : Session :=
  if p.play = .interrupt then { s.loaded image p.init with memory := withSystemExit image } else s.loaded image p.init

/-- Only interrupts need the way out of them. -/
theorem prepared_of_subroutine {s : Session} {address : UInt16} (h : p.play = .subroutine address) (image : Memory) :
    s.prepared p image = s.loaded image p.init := by
  rw [prepared, if_neg]
  simp [h]

/-- The session once the init routine of a program has returned. -/
def started (s : Session) (p : Program) : Session := restartTrace { s with play := some p.play }

theorem loadProgram_of_error {e : RunError} (h : p.image = .error e) (s : Session) : loadProgram p s = .error e s := by
  simp only [loadProgram, h]
  rfl

theorem loadProgram_of_ok {image : Memory} (h : p.image = .ok image) (s : Session) :
    loadProgram p s =
      match runRoutine p.init p.song s.limits.initCycles (s.prepared p image) with
      | .ok _ s' => .ok () (s'.started p)
      | .error e s' => .error e s' := by
  have hinit (s : Session) : (do
      let _ ← runRoutine p.init p.song (← get).limits.initCycles
      modify fun s => { s with play := some p.play }
      beginTrace : Action Unit) s =
        match runRoutine p.init p.song s.limits.initCycles s with
        | .ok _ s' => .ok () (s'.started p)
        | .error e s' => .error e s' := by
    simp only [Bind.bind, EStateM.bind, run_get]
    cases runRoutine p.init p.song s.limits.initCycles s <;> rfl
  simp only [loadProgram, h]
  unfold prepared
  split
  · exact hinit _
  · exact hinit _

/-- The session in which frames are played: there is a trace to record them. -/
def recording (s : Session) : Session := if s.trace.isNone then s.restartTrace else s

theorem runFrames_of_none {s : Session} (h : s.play = none) (n : Nat) : runFrames n s = .error .noPlayRoutine s := by
  rw [runFrames, run_get_bind, h]
  rfl

theorem runFrames_of_some {s : Session} (h : s.play = some mode) (n : Nat) :
    runFrames n s =
      match playFrames mode n 0 0 s.recording with
      | .ok (count, longest) s' =>
        if count = 0 then .ok none s'
        else .ok (some ⟨count, n, longest, s'.limits.clock.cyclesPerFrame⟩) { s' with overruns := s'.overruns + count }
      | .error e s' => .error e s' := by
  have hbegin : beginTrace s = .ok () s.restartTrace := rfl
  rw [runFrames, run_get_bind, h]
  dsimp only
  rw [run_get_bind]
  unfold recording
  cases s.trace.isNone with
  | true =>
    simp only [if_true, Bind.bind, EStateM.bind, hbegin]
    cases playFrames mode n 0 0 s.restartTrace with
    | error e s' => rfl
    | ok counts s' =>
      dsimp only
      split <;> rfl
  | false =>
    simp only [Bool.false_eq_true, if_false, Bind.bind, EStateM.bind]
    cases playFrames mode n 0 0 s with
    | error e s' => rfl
    | ok counts s' =>
      dsimp only
      split <;> rfl

end Session

namespace Leads

variable {P Q : Session → Prop} {p : Program} {n : Nat}

/-- A program is refused, or its init routine is called in the session prepared for it. -/
theorem loadProgram (hQ : Steady Q) (hrefused : ∀ {e s}, p.image = .error e → P s → Q s)
    (hprepared : ∀ {image s}, p.image = .ok image → P s → Q (s.prepared p image))
    (hstarted : ∀ {image s}, p.image = .ok image → Q s → Q (s.started p)) : Leads P (loadProgram p) Q Q := by
  intro s hs
  cases himage : p.image with
  | error e =>
    rw [loadProgram_of_error himage]
    exact hrefused himage hs
  | ok image =>
    have hinit := hQ.runRoutine p.init p.song s.limits.initCycles _ (hprepared himage hs)
    rw [loadProgram_of_ok himage]
    cases hrun : runRoutine p.init p.song s.limits.initCycles (s.prepared p image) with
    | error e s' =>
      rw [hrun] at hinit
      exact hinit
    | ok cycles s' =>
      rw [hrun] at hinit
      exact hstarted himage hinit

/-- Frames are played in a session with a trace, and then overruns are counted. -/
theorem runFrames (hrefused : ∀ {s}, s.play = none → P s → Q s)
    (hframes : ∀ {s mode}, s.play = some mode → P s → Leads (· = s.recording) (playFrames mode n 0 0) Q Q)
    (hcounted : ∀ s overruns, Q s → Q { s with overruns }) : Leads P (runFrames n) Q Q := by
  intro s hs
  cases hplay : s.play with
  | none =>
    rw [runFrames_of_none hplay]
    exact hrefused hplay hs
  | some mode =>
    have hleads := hframes hplay hs s.recording rfl
    rw [runFrames_of_some hplay]
    cases hrun : playFrames mode n 0 0 s.recording with
    | error e s' =>
      rw [hrun] at hleads
      exact hleads
    | ok counts s' =>
      rw [hrun] at hleads
      by_cases hcount : counts.1 = 0
      · simp only [hcount, if_true]
        exact hleads
      · simp only [hcount, if_false]
        exact hcounted s' _ hleads

end Leads

end Chiptune.Playback
