/-
A routine keeps to its budget.

What is run may loop or change itself, so nothing but the cycles it spends can
tell when it ends. `Course` says how a run goes that is cut off by its budget
alone, however many instructions it takes; since each takes two cycles at least,
it is over after half the budget and one instruction, and the fuel of `runFor`
never is what ends it (`course_runFor`). Since each takes eight at most, a run
that is cut off has spent little more than its budget.
-/
import Chiptune.Proofs.Machine.Footprint
import Chiptune.Proofs.Playback.Tape

namespace Chiptune.Playback

open Machine

namespace Session

variable {entry : UInt16} {budget spent n : Nat} {s s' : Session} {cycles cycles' : List Nat}
  {r r' : EStateM.Result RunError Session Nat}

/-! ## Instructions -/

/-- An instruction takes between two and eight cycles of its frame. -/
theorem step_eq_ok (h : step s = .ok n s') : 2 ≤ n ∧ n ≤ 8 ∧ s'.frameCycle = s.frameCycle + n := by
  unfold step at h
  cases ho : Machine.step s.toBus.read s.regs with
  | error e =>
    rw [ho] at h
    cases h
  | ok o =>
    rw [ho] at h
    cases h
    obtain ⟨hlow, hhigh⟩ := cycles_step ho
    exact ⟨hlow, hhigh, rfl⟩

/-- An instruction that cannot run takes no time. -/
theorem step_eq_error {e : RunError} (h : step s = .error e s') :
    s' = s ∧ e = .unsupportedOpcode (s.toBus.read s.regs.pc) s.regs.pc := by
  unfold step at h
  cases ho : Machine.step s.toBus.read s.regs with
  | ok o =>
    rw [ho] at h
    cases h
  | error e' =>
    rw [ho] at h
    cases h
    simp only [Machine.step] at ho
    split at ho
    · cases ho
      exact ⟨rfl, rfl⟩
    · cases ho

/-! ## Runs -/

/-- How the run of a routine goes that has spent some of its budget: the cycles of each instruction from here on,
and what comes of the run. -/
inductive Course (entry : UInt16) (budget : Nat) :
    Nat → Session → List Nat → EStateM.Result RunError Session Nat → Prop
  | returned {spent : Nat} {s : Session} (hhalt : s.regs.pc = haltAddress) : Course entry budget spent s [] (.ok spent s)
  | refused {spent : Nat} {s s' : Session} {e : RunError} (hhalt : s.regs.pc ≠ haltAddress) (hstep : step s = .error e s') :
      Course entry budget spent s [] (.error e s')
  | timedOut {spent n : Nat} {s s' : Session} (hhalt : s.regs.pc ≠ haltAddress) (hstep : step s = .ok n s')
      (hbudget : budget < spent + n) :
      Course entry budget spent s [n] (.error (.timeout entry s'.frame (spent + n)) s')
  | next {spent n : Nat} {s s' : Session} {cycles : List Nat} {r : EStateM.Result RunError Session Nat}
      (hhalt : s.regs.pc ≠ haltAddress) (hstep : step s = .ok n s') (hbudget : spent + n ≤ budget)
      (hrest : Course entry budget (spent + n) s' cycles r) : Course entry budget spent s (n :: cycles) r

/-- The session that a result leaves. -/
def ending : EStateM.Result RunError Session Nat → Session
  | .ok _ s => s
  | .error _ s => s

namespace Course

/-- A run goes one way only. -/
theorem unique (h : Course entry budget spent s cycles r) (h' : Course entry budget spent s cycles' r') :
    cycles' = cycles ∧ r' = r := by
  induction h generalizing cycles' r' with
  | returned hhalt =>
    cases h' with
    | returned => exact ⟨rfl, rfl⟩
    | refused hrunning | timedOut hrunning | next hrunning => exact absurd hhalt hrunning
  | refused hrunning hstep =>
    cases h' with
    | returned hhalt => exact absurd hhalt hrunning
    | refused _ hstep' =>
      cases hstep.symm.trans hstep'
      exact ⟨rfl, rfl⟩
    | timedOut _ hstep' | next _ hstep' => cases hstep.symm.trans hstep'
  | timedOut hrunning hstep hbudget =>
    cases h' with
    | returned hhalt => exact absurd hhalt hrunning
    | refused _ hstep' => cases hstep.symm.trans hstep'
    | timedOut _ hstep' =>
      cases hstep.symm.trans hstep'
      exact ⟨rfl, rfl⟩
    | next _ hstep' hbudget' =>
      cases hstep.symm.trans hstep'
      omega
  | next hrunning hstep hbudget hrest ih =>
    cases h' with
    | returned hhalt => exact absurd hhalt hrunning
    | refused _ hstep' => cases hstep.symm.trans hstep'
    | timedOut _ hstep' hbudget' =>
      cases hstep.symm.trans hstep'
      omega
    | next _ hstep' _ hrest' =>
      cases hstep.symm.trans hstep'
      obtain ⟨rfl, rfl⟩ := ih hrest'
      exact ⟨rfl, rfl⟩

/-- Every instruction but the last leaves the budget unspent, and takes two cycles of it. -/
theorem length_le (h : Course entry budget spent s cycles r) (hspent : spent ≤ budget) :
    spent + 2 * cycles.length ≤ budget + 2 := by
  induction h with
  | returned | refused => simp only [List.length_nil]; omega
  | timedOut => simp only [List.length_singleton]; omega
  | next _ hstep hbudget _ ih =>
    have hrest := ih hbudget
    have hlow := (step_eq_ok hstep).1
    simp only [List.length_cons]
    omega

/-- Only the last instruction goes beyond the budget. -/
theorem sum_le (h : Course entry budget spent s cycles r) (hspent : spent ≤ budget) : spent + cycles.sum ≤ budget + 8 := by
  induction h with
  | returned | refused => simp only [List.sum_nil]; omega
  | timedOut _ hstep =>
    have hhigh := (step_eq_ok hstep).2.1
    simp only [List.sum_singleton]
    omega
  | next _ _ hbudget _ ih =>
    have hrest := ih hbudget
    simp only [List.sum_cons]
    omega

theorem frameCycle (h : Course entry budget spent s cycles r) : (ending r).frameCycle = s.frameCycle + cycles.sum := by
  induction h with
  | returned => rfl
  | refused _ hstep => rw [ending, (step_eq_error hstep).1, List.sum_nil, Nat.add_zero]
  | timedOut _ hstep => rw [ending, (step_eq_ok hstep).2.2, List.sum_singleton]
  | next _ hstep _ _ ih => rw [ih, (step_eq_ok hstep).2.2, List.sum_cons, Nat.add_assoc]

theorem eq_ok (h : Course entry budget spent s cycles r) (hspent : spent ≤ budget) (hr : r = .ok n s') :
    n = spent + cycles.sum ∧ n ≤ budget ∧ s'.regs.pc = haltAddress := by
  induction h with
  | returned hhalt =>
    cases hr
    exact ⟨rfl, hspent, hhalt⟩
  | refused | timedOut => cases hr
  | next _ _ hbudget _ ih =>
    obtain ⟨rfl, hn, hhalt⟩ := ih hbudget hr
    exact ⟨by rw [List.sum_cons, Nat.add_assoc], hn, hhalt⟩

/-- A run that fails was cut off, or came to an instruction that cannot run. -/
theorem eq_error (h : Course entry budget spent s cycles r) {e : RunError} (hr : r = .error e s') :
    (e = .timeout entry s'.frame (spent + cycles.sum) ∧ budget < spent + cycles.sum) ∨
      e = .unsupportedOpcode (s'.toBus.read s'.regs.pc) s'.regs.pc := by
  induction h with
  | returned => cases hr
  | refused _ hstep =>
    obtain ⟨rfl, hrefused⟩ := step_eq_error hstep
    cases hr
    exact .inr hrefused
  | timedOut _ _ hbudget =>
    cases hr
    rw [List.sum_singleton]
    exact .inl ⟨rfl, hbudget⟩
  | next _ _ _ _ ih =>
    rw [List.sum_cons, ← Nat.add_assoc]
    exact ih hr

end Course

/-- **Fuel for half of what is left of the budget** is enough: it is the budget that ends a run. -/
theorem course_runFor : ∀ {fuel spent : Nat} {s : Session}, spent ≤ budget → budget < spent + 2 * fuel →
    ∃ cycles, Course entry budget spent s cycles (runFor entry budget fuel spent s)
  | 0, _, _, hspent, hfuel => by omega
  | fuel + 1, spent, s, hspent, hfuel => by
    unfold runFor
    by_cases hhalt : s.regs.pc = haltAddress
    · rw [if_pos hhalt]
      exact ⟨[], .returned hhalt⟩
    rw [if_neg hhalt]
    cases hstep : step s with
    | error e s' => exact ⟨[], .refused hhalt hstep⟩
    | ok n s' =>
      dsimp only
      by_cases hbudget : budget < spent + n
      · rw [if_pos hbudget]
        exact ⟨[n], .timedOut hhalt hstep hbudget⟩
      · rw [if_neg hbudget]
        have hlow := (step_eq_ok hstep).1
        obtain ⟨cycles, hrest⟩ := @course_runFor fuel (spent + n) s' (by omega) (by omega)
        exact ⟨n :: cycles, .next hhalt hstep (by omega) hrest⟩

/-- What the run of a routine is that keeps to its budget, with the cycles of each of its instructions. -/
structure Bounded (entry : UInt16) (budget : Nat) (s : Session) (cycles : List Nat)
    (r : EStateM.Result RunError Session Nat) : Prop where
  course : Course entry budget 0 s cycles r
  only : ∀ cycles' r', Course entry budget 0 s cycles' r' → cycles' = cycles ∧ r' = r
  instructions : cycles.length ≤ budget / 2 + 1
  returned : ∀ n s', r = .ok n s' → n = cycles.sum ∧ n ≤ budget ∧ s'.regs.pc = haltAddress
  failed : ∀ e s', r = .error e s' →
    (e = .timeout entry s'.frame cycles.sum ∧ budget < cycles.sum ∧ cycles.sum ≤ budget + 8) ∨
      e = .unsupportedOpcode (s'.toBus.read s'.regs.pc) s'.regs.pc
  /-- Of the cycles that the frame's counter has room for, a run uses no more than these. -/
  counter : (ending r).frameCycle = s.frameCycle + cycles.sum ∧ cycles.sum ≤ budget + 8

theorem bounded_runToHalt (entry : UInt16) (budget : Nat) (s : Session) :
    ∃ cycles, Bounded entry budget s cycles (runToHalt entry budget s) := by
  obtain ⟨cycles, hcourse⟩ := @course_runFor entry budget (budget / 2 + 1) 0 s (Nat.zero_le _) (by omega)
  have hlength := hcourse.length_le (Nat.zero_le _)
  have hsum := hcourse.sum_le (Nat.zero_le _)
  rw [Nat.zero_add] at hlength hsum
  refine ⟨cycles, hcourse, fun _ _ h => hcourse.unique h, by omega, fun n s' hr => ?_, fun e s' hr => ?_,
    hcourse.frameCycle, hsum⟩
  · have hreturned := hcourse.eq_ok (Nat.zero_le _) hr
    rwa [Nat.zero_add] at hreturned
  · have hfailed := hcourse.eq_error hr
    rw [Nat.zero_add] at hfailed
    rcases hfailed with ⟨he, hbudget⟩ | hrefused
    · exact .inl ⟨he, hbudget, hsum⟩
    · exact .inr hrefused

/-! ## Routines -/

/-- What comes of a routine that is called: it is not run if the job was asked to stop, and keeps to its budget if it
is. -/
def BoundedCall (entry : UInt16) (a : UInt8) (budget : Nat) (s : Session) (r : EStateM.Result RunError Session Nat) :
    Prop :=
  if s.cancelled then r = .error .cancelled s else ∃ cycles, Bounded entry budget (s.calling entry a) cycles r

theorem boundedCall_runRoutine (entry : UInt16) (a : UInt8) (budget : Nat) (s : Session) :
    BoundedCall entry a budget s (runRoutine entry a budget s) := by
  unfold BoundedCall
  cases hcancelled : s.cancelled with
  | true =>
    simp only [runRoutine, checkCancelled, hcancelled, Bind.bind, EStateM.bind, if_true]
  | false =>
    rw [runRoutine_eq hcancelled]
    exact bounded_runToHalt entry budget (s.calling entry a)

theorem bounded_interrupt (s : Session) :
    match handler s.memory with
    | none => interrupt s = .error .noPlayRoutine s
    | some (entry, bySystem) =>
      ∃ cycles, Bounded entry s.limits.callCycles (s.interrupted entry bySystem) cycles (interrupt s) := by
  rw [interrupt, run_get_bind]
  cases handler s.memory with
  | none => rfl
  | some vector => exact bounded_runToHalt vector.1 s.limits.callCycles (s.interrupted vector.1 vector.2)

/-- **Every routine ends within its budget**, whatever its code does: one that is run from where the session is, one
that is called, the init routine of a program that is loaded, and the handler of an interrupt. -/
theorem routines_bounded (s : Session) :
    (∀ entry budget, ∃ cycles, Bounded entry budget s cycles (runToHalt entry budget s)) ∧
    (∀ entry a, BoundedCall entry a s.limits.callCycles s (call entry a s)) ∧
    (∀ p : Program,
      match p.image with
      | .error e => loadProgram p s = .error e s
      | .ok image =>
        ∃ r, BoundedCall p.init p.song s.limits.initCycles (s.prepared p image) r ∧
          loadProgram p s =
            match r with
            | .ok _ s' => .ok () (s'.started p)
            | .error e s' => .error e s') ∧
    (match handler s.memory with
      | none => interrupt s = .error .noPlayRoutine s
      | some (entry, bySystem) =>
        ∃ cycles, Bounded entry s.limits.callCycles (s.interrupted entry bySystem) cycles (interrupt s)) := by
  refine ⟨fun entry budget => bounded_runToHalt entry budget s, fun entry a => ?_, fun p => ?_, bounded_interrupt s⟩
  · rw [call, run_get_bind]
    exact boundedCall_runRoutine entry a s.limits.callCycles s
  · cases himage : p.image with
    | error e => exact loadProgram_of_error himage s
    | ok image => exact ⟨_, boundedCall_runRoutine p.init p.song s.limits.initCycles _, loadProgram_of_ok himage s⟩

end Session

end Chiptune.Playback
