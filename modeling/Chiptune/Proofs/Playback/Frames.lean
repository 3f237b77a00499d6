/-
Frames, one after another.

A run of frames that ends well goes through a session at the end of each frame
(`frameSessions`), and the snapshots of its recording are the registers there.
-/
import Chiptune.Proofs.Playback.Execution
import Chiptune.Proofs.Playback.Shorter

namespace Chiptune.Playback

open Machine Sound Session

variable {mode : PlayMode} {n count longest : Nat} {counts : Nat × Nat} {s s' : Session}

/-- The sessions at the ends of `n` frames that are played to their end. -/
def frameSessions (mode : PlayMode) : (n : Nat) → Session → List Session
  | 0, _ => []
  | n + 1, s =>
    match playFrame mode s with
    | .ok _ s => s :: frameSessions mode n s
    | .error _ _ => []

theorem frameEnds_eq_map (mode : PlayMode) : ∀ (n : Nat) (s : Session),
    frameEnds mode n s = (frameSessions mode n s).map (·.sid)
  | 0, _ => rfl
  | n + 1, s => by
    unfold frameEnds frameSessions
    cases playFrame mode s with
    | ok cycles s₁ => exact congrArg _ (frameEnds_eq_map mode n s₁)
    | error e s₁ => rfl

/-- The first frame of a run, and the frames after it. -/
theorem playFrames_succ_eq_ok (h : playFrames mode (n + 1) count longest s = .ok counts s') :
    ∃ cycles s₁ count' longest', playFrame mode s = .ok cycles s₁ ∧
      playFrames mode n count' longest' s₁ = .ok counts s' ∧
      frameSessions mode (n + 1) s = s₁ :: frameSessions mode n s₁ := by
  rw [playFrames] at h
  obtain ⟨cycles, s₁, hframe, h⟩ := run_bind_eq_ok.mp h
  have hsessions : frameSessions mode (n + 1) s = s₁ :: frameSessions mode n s₁ := by
    rw [frameSessions, hframe]
  rw [run_get_bind] at h
  split at h
  · exact ⟨cycles, s₁, _, _, hframe, h, hsessions⟩
  · exact ⟨cycles, s₁, _, _, hframe, h, hsessions⟩

/-- The sessions at the ends of the frames of a recording. -/
def recordedSessions (p : Program) (n : Nat) (limits : Limits) (cancelled : Bool) : List Session :=
  match loadProgram p { limits, cancelled } with
  | .ok _ s => frameSessions p.play n s
  | .error _ _ => []

/-- A recording is one of the frames after the program was loaded. -/
theorem snapshots_record {p : Program} {limits : Limits} {cancelled : Bool} {r : Recording}
    (h : record p n limits cancelled = .ok r) : ∃ s counts s',
      loadProgram p { limits, cancelled } = .ok () s ∧ playFrames p.play n 0 0 s = .ok counts s' ∧
        r.trace.snapshots = (frameSessions p.play n s).map (·.sid) := by
  obtain ⟨s, s', hload, hrun, hfinish⟩ := record_eq_ok_iff.mp h
  obtain ⟨t, ht, hzero, -, hframe, hplay⟩ := loadProgram_eq_ok hload
  have hplayed := runFrames_eq (n := n) hplay ht
  cases hframes : playFrames p.play n 0 0 s with
  | error e s₁ =>
    rw [hframes] at hplayed
    cases hplayed.symm.trans hrun
  | ok counts s₁ =>
    rw [hframes] at hplayed
    obtain ⟨overrun, s'', hrun', htrace⟩ := hplayed
    cases hrun'.symm.trans hrun
    refine ⟨s, counts, s₁, hload, hframes, ?_⟩
    have hnew : Tracked [] ({ limits, cancelled } : Session) := ⟨rfl, nofun, nofun⟩
    have hloaded := tracked_loadProgram hnew p
    rw [left, hload] at hloaded
    have hends : Operation.endsAfter { limits, cancelled } [] (.loadProgram p) = [] := by
      simp only [Operation.endsAfter]
      cases p.image <;> rfl
    rw [hends] at hloaded
    have htracked := leads_playFrames p.play n 0 0 hloaded s rfl
    rw [hframes] at htracked
    have hcontinues := Continues.playFrames p.play n 0 0 s ⟨.refl ht (hzero.trans hframe.symm), rfl⟩
    rw [hframes] at hcontinues
    obtain ⟨-, t₁, ht₁, -⟩ := hcontinues.1
    have hsnapshots := htracked.snapshots t₁ ht₁
    rw [List.nil_append, frameEnds_eq_map] at hsnapshots
    rw [← hsnapshots, ← hfinish, finish, htrace, ht₁]
    rfl

/-- Frames that are played after a program was loaded make a recording. -/
theorem record_of_playFrames {p : Program} {limits : Limits} {cancelled : Bool}
    (hload : loadProgram p { limits, cancelled } = .ok () s) (hplay : playFrames p.play n 0 0 s = .ok counts s') :
    ∃ r, record p n limits cancelled = .ok r := by
  obtain ⟨t, ht, -, -, -, hmode⟩ := loadProgram_eq_ok hload
  have hplayed := runFrames_eq (n := n) hmode ht
  rw [hplay] at hplayed
  obtain ⟨overrun, s'', hrun, -⟩ := hplayed
  exact ⟨{ trace := s''.finish, overrun }, record_eq_ok_iff.mpr ⟨s, s'', hload, hrun, rfl⟩⟩

/-! ## Loading and frames, as far as instructions see -/

theorem checkCancelled_eq_ok {u : Unit} (h : checkCancelled s = .ok u s') : s = s' := by
  unfold checkCancelled at h
  split at h
  · cases h
  · cases h
    rfl

/-- A program that is loaded fits in memory. -/
theorem image_of_loadProgram {p : Program} (h : loadProgram p s = .ok () s') : ∃ image, p.image = .ok image := by
  cases himage : p.image with
  | error e =>
    rw [loadProgram_of_error himage] at h
    cases h
  | ok image => exact ⟨image, rfl⟩

/-- What is left of a session for the instructions when a program is loaded. -/
theorem core_loadProgram {p : Program} {address : UInt16} {image : Memory} (hmode : p.play = .subroutine address)
    (himage : p.image = .ok image) (h : loadProgram p s = .ok () s') :
    ∃ s₁ budget cycles s₂, s₁.core = ⟨image, .cleared, { pc := p.init }⟩ ∧
      runRoutine p.init p.song budget s₁ = .ok cycles s₂ ∧ s'.core = s₂.core := by
  rw [loadProgram_of_ok himage, prepared_of_subroutine hmode] at h
  cases hrun : runRoutine p.init p.song s.limits.initCycles (s.loaded image p.init) with
  | error e s₂ =>
    rw [hrun] at h
    cases h
  | ok cycles s₂ =>
    rw [hrun] at h
    cases h
    exact ⟨s.loaded image p.init, _, cycles, s₂, rfl, hrun, rfl⟩

/-- A frame is a call of the play routine. -/
theorem core_playFrame {address : UInt16} {cycles : Nat} (h : playFrame (.subroutine address) s = .ok cycles s') :
    ∃ s₁ budget s₂, s₁.core = s.core ∧ runRoutine address 0 budget s₁ = .ok cycles s₂ ∧ s'.core = s₂.core := by
  unfold playFrame at h
  obtain ⟨_, s₁, hcheck, h⟩ := run_bind_eq_ok.mp h
  obtain ⟨_, s₂, hstart, hrest⟩ := run_bind_eq_ok.mp h
  cases hstart
  obtain ⟨cycles', s₃, hplay, hend⟩ := run_bind_eq_ok.mp hrest
  cases hend
  obtain rfl := checkCancelled_eq_ok hcheck
  exact ⟨{ s with frameCycle := 0 }, s.limits.callCycles, s₃, rfl, hplay, rfl⟩

end Chiptune.Playback
