/-
A session that was used before plays a program like a new one.

Whatever is done with a session, it stays with its job: with its limits, and
with whether it was asked to stop (`sameJob_performed`). All else is set anew
when an image is loaded (`loaded_eq`), before the init routine runs. So a
program that is loaded finds nothing of what went before, however that ended,
and a program that does not fit leaves everything as it was.
-/
import Chiptune.Proofs.Playback.Tape

namespace Chiptune.Playback

open Machine Session

variable {s s' : Session}

/-! ## Jobs -/

theorem steady_sameJob (s : Session) : Steady (SameJob s) where
  after h _ := h.trans (sameJob_after _ _)
  push _ h := h
  regs _ h := h

theorem sameJob_playFrames (s : Session) (mode : PlayMode) : ∀ n count longest : Nat,
    Keeps (SameJob s) (playFrames mode n count longest)
  | 0, _, _ => .pure _
  | n + 1, count, longest => by
    have hframe : Keeps (SameJob s) (playFrame mode) :=
      .bind .checkCancelled fun _ => .bind (.modify fun _ h => h) fun _ =>
        .bind ((steady_sameJob s).playOnce mode) fun cycles => .bind (.modify fun _ h => h) fun _ => .pure cycles
    refine .bind hframe fun cycles => .bind .get fun _ => ?_
    split
    · exact sameJob_playFrames s mode n _ _
    · exact sameJob_playFrames s mode n _ _

theorem sameJob_runFrames (s : Session) (n : Nat) : Keeps (SameJob s) (runFrames n) := by
  refine .runFrames (fun _ h => h) (fun {s' mode} _ h => ?_) fun _ _ h => h
  have hrecording : SameJob s s'.recording := by
    unfold recording
    split <;> exact h
  rintro s' rfl
  exact sameJob_playFrames s mode n 0 0 _ hrecording

theorem sameJob_prepared (s : Session) (p : Program) (image : Memory) : SameJob s (s.prepared p image) := by
  unfold prepared
  split <;> exact ⟨rfl, rfl⟩

theorem sameJob_loadProgram (s : Session) (p : Program) : Keeps (SameJob s) (loadProgram p) :=
  .loadProgram (steady_sameJob s) (fun _ h => h) (fun _ h => h.trans (sameJob_prepared _ p _)) fun _ h => h

/-- Whether an operation asks the job to stop. -/
def Operation.stops : Operation → Bool
  | .cancel => true
  | _ => false

/-- **An operation leaves a session with its job**, however it ends. -/
theorem sameJob_perform (s : Session) (o : Operation) :
    SameJob { s with cancelled := s.cancelled || o.stops } (o.perform s) := by
  have hrefl : SameJob s s := ⟨rfl, rfl⟩
  have hrunning {s' : Session} (h : SameJob s s') : SameJob { s with cancelled := s.cancelled || false } s' := by
    rwa [Bool.or_false]
  cases o with
  | load image entry => exact hrunning hrefl
  | loadProgram p => exact hrunning ((sameJob_loadProgram s p).left hrefl)
  | beginTrace => exact hrunning hrefl
  | step => exact hrunning ((steady_sameJob s).step.left hrefl)
  | call entry a => exact hrunning (((steady_sameJob s).call entry a).left hrefl)
  | runFrames n => exact hrunning ((sameJob_runFrames s n).left hrefl)
  | cancel => exact ⟨rfl, (Bool.or_true _).symm⟩

theorem sameJob_foldl : ∀ (operations : List Operation) (s : Session),
    SameJob { s with cancelled := s.cancelled || operations.any Operation.stops }
      (operations.foldl (fun s o => o.perform s) s)
  | [], _ => ⟨rfl, (Bool.or_false _).symm⟩
  | o :: operations, s => by
    obtain ⟨hlimits, hcancelled⟩ := sameJob_perform s o
    obtain ⟨hlimits', hcancelled'⟩ := sameJob_foldl operations (o.perform s)
    refine ⟨hlimits'.trans hlimits, hcancelled'.trans ?_⟩
    rw [List.any_cons, ← Bool.or_assoc]
    exact congrArg (· || operations.any Operation.stops) hcancelled

/-- A session that was used is one of the job that a new session is made for. -/
theorem sameJob_performed (limits : Limits) (operations : List Operation) :
    SameJob { limits, cancelled := operations.any Operation.stops } (performed limits operations) :=
  sameJob_foldl operations { limits }

/-! ## Loading -/

/-- Of the session before, an image that is loaded leaves nothing but its job. -/
theorem loaded_eq (h : SameJob s s') (image : Memory) (entry : UInt16) : s'.loaded image entry = s.loaded image entry := by
  obtain ⟨hlimits, hcancelled⟩ := h
  have hloaded (s : Session) : s.loaded image entry =
      { limits := s.limits, cancelled := s.cancelled, regs := { pc := entry }, memory := image
        play := some (.subroutine entry), trace := some { initial := .cleared } } := rfl
  rw [hloaded, hloaded, hlimits, hcancelled]

/-- A program that fits in memory is loaded into every session of a job alike. -/
theorem loadProgram_eq (h : SameJob s s') {p : Program} (hfits : p.endAddress ≤ addressSpace) :
    loadProgram p s' = loadProgram p s := by
  have himage : p.image = .ok (Memory.zeroed.writeAll p.loadAddress p.data) := if_neg (Nat.not_lt.mpr hfits)
  have hprepared (image : Memory) : s'.prepared p image = s.prepared p image := by
    rw [prepared, prepared, loaded_eq h]
  rw [loadProgram_of_ok himage, loadProgram_of_ok himage, hprepared, h.1]

/-- A program that does not fit is not loaded. -/
theorem loadProgram_of_overflow {p : Program} (hfits : ¬ p.endAddress ≤ addressSpace) (s : Session) :
    loadProgram p s = .error (.blockOverflow p.loadAddress p.data.length) s :=
  loadProgram_of_error (if_pos (Nat.not_le.mp hfits)) s

/-- **Loading erases all history**: after any operations, a program that fits is loaded with the result and into the
state that it is loaded with into a new session of the job, and one that does not fit leaves the session as it was. -/
theorem loadProgram_performed (limits : Limits) (operations : List Operation) (p : Program) :
    loadProgram p (performed limits operations) =
      if p.endAddress ≤ addressSpace then loadProgram p { limits, cancelled := operations.any Operation.stops }
      else .error (.blockOverflow p.loadAddress p.data.length) (performed limits operations) := by
  split
  next hfits => exact loadProgram_eq (sameJob_performed limits operations) hfits
  next hfits => exact loadProgram_of_overflow hfits _

/-- What is recorded of a program in a session of its own is what a session that was used records of it. -/
theorem record_eq_ok_iff_performed (limits : Limits) (operations : List Operation) {p : Program} {n : Nat} {r : Recording} :
    record p n limits (operations.any Operation.stops) = .ok r ↔
      ∃ s s', loadProgram p (performed limits operations) = .ok () s ∧ runFrames n s = .ok r.overrun s' ∧
        s'.finish = r.trace := by
  rw [record_eq_ok_iff]
  by_cases hfits : p.endAddress ≤ addressSpace
  · rw [loadProgram_eq (sameJob_performed limits operations) hfits]
  · simp only [loadProgram_of_overflow hfits, reduceCtorEq, false_and, exists_false]

end Chiptune.Playback
