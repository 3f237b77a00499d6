/-
Routines that return, in sessions with time for them.

Instructions see nothing of a session but its core, so it is a matter of cores
whether a routine returns and frames can be played (`Core.Calls`,
`Core.Performs`). There are only so many cores, so if each frame can be played
there is a bound on the instructions of all frames (`exists_performs`). And an
instruction takes eight cycles at most, so a session with eight times as many
cycles does not cut a routine off (`record_of_performs`).
-/
import Mathlib.Data.FinEnum
import Mathlib.Data.Finite.Prod
import Mathlib.Data.Fintype.Order
import Chiptune.Proofs.Playback.Budget

namespace Chiptune.Playback

open Machine Sound

/-! ## Cores -/

namespace Core

/-- A routine that is called returns, after so many instructions at most. -/
def Calls (entry : UInt16) (a : UInt8) (k : Nat) (c d : Core) : Prop :=
  ∃ n ≤ k, (c.calling entry a).Reaches n d ∧ d.Halted

/-- So many frames can be played, with no more than `k` instructions in each. -/
inductive Performs (play : UInt16) (k : Nat) : Nat → Core → Prop
  | none (c : Core) : Performs play k 0 c
  | frame {n : Nat} {c d : Core} (hcall : Calls play 0 k c d) (hrest : Performs play k n d) : Performs play k (n + 1) c

variable {play entry : UInt16} {a : UInt8} {k l : Nat} {c d : Core}

theorem Calls.mono (h : Calls entry a k c d) (hk : k ≤ l) : Calls entry a l c d := by
  obtain ⟨n, hn, hreaches⟩ := h
  exact ⟨n, Nat.le_trans hn hk, hreaches⟩

/-! ### Finitely many cores -/

instance {α : Type} [Finite α] {n : Nat} : Finite (Vector α n) :=
  Finite.of_injective (fun v (i : Fin n) => v[i]) fun _ _ h => Vector.ext fun i hi => congrFun h ⟨i, hi⟩

instance : Finite Flags :=
  Finite.of_injective (fun p : Flags =>
      (p.carry, p.zero, p.irqDisable, p.decimal, p.brk, p.unused, p.overflow, p.negative)) fun p q h => by
    cases p
    cases q
    cases h
    rfl

instance : Finite Registers :=
  Finite.of_injective (fun r : Registers => (r.pc, r.a, r.x, r.y, r.sp, r.p)) fun r r' h => by
    cases r
    cases r'
    cases h
    rfl

instance : Finite Core :=
  Finite.of_injective (fun c : Core => (c.memory.pages, c.sid.values, c.regs)) fun ⟨⟨_⟩, ⟨_⟩, _⟩ ⟨⟨_⟩, ⟨_⟩, _⟩ h => by
    cases h
    rfl

/-- **If each frame can be played**, there is a bound on the instructions of them all. -/
theorem exists_performs {I : Core → Prop} (h : ∀ c, I c → ∃ k d, Calls play 0 k c d ∧ I d) :
    ∃ k, ∀ n c, I c → Performs play k n c := by
  choose k d hcall hkeeps using h
  obtain ⟨l, hl⟩ := Finite.exists_le fun c : {c // I c} => k c.1 c.2
  refine ⟨l, fun n => ?_⟩
  induction n with
  | zero => exact fun c _ => .none c
  | succ n ih => exact fun c hc => .frame ((hcall c hc).mono (hl ⟨c, hc⟩)) (ih _ (hkeeps c hc))

end Core

/-! ## Sessions -/

namespace Session

variable {entry : UInt16} {a : UInt8} {budget k : Nat} {s : Session} {d : Core}

theorem step_of_next? (h : s.core.next? = some d) : ∃ n s', step s = .ok n s' ∧ s'.core = d ∧ SameJob s s' := by
  unfold Core.next? at h
  rw [show s.core.read = s.toBus.read from rfl, show s.core.regs = s.regs from rfl] at h
  unfold step
  split at h
  next o ho =>
    cases h
    rw [ho]
    exact ⟨o.cycles, s.after o, rfl, core_after s o, sameJob_after s o⟩
  · cases h

/-- A run that gets to its end by so many instructions is over before eight times as many cycles. -/
theorem course_of_reaches (entry : UInt16) (budget : Nat) {c : Core} (h : c.Reaches k d) : d.Halted →
    ∀ (spent : Nat) {s : Session}, s.core = c → spent + 8 * k ≤ budget →
      ∃ cycles n s', Course entry budget spent s cycles (.ok n s') ∧ s'.core = d ∧ SameJob s s' := by
  induction h with
  | refl c =>
    rintro hhalted spent s rfl -
    exact ⟨[], spent, s, .returned hhalted, rfl, rfl, rfl⟩
  | head hrunning hnext _ ih =>
    rintro hhalted spent s rfl hbudget
    obtain ⟨n, s₁, hstep, hcore, hjob⟩ := step_of_next? hnext
    have hhigh := (step_eq_ok hstep).2.1
    obtain ⟨cycles, m, s', hcourse, hcore', hjob'⟩ := ih hhalted (spent + n) hcore (by omega)
    exact ⟨n :: cycles, m, s', .next hrunning hstep (by omega) hcourse, hcore', hjob.trans hjob'⟩

theorem runRoutine_of_calls (hcancelled : s.cancelled = false) (h : Core.Calls entry a k s.core d)
    (hbudget : 8 * k ≤ budget) :
    ∃ cycles s', runRoutine entry a budget s = .ok cycles s' ∧ s'.core = d ∧ SameJob s s' := by
  obtain ⟨n, hn, hreaches, hhalted⟩ := h
  obtain ⟨cycles, m, s', hcourse, hcore, hjob⟩ :=
    course_of_reaches entry budget hreaches hhalted 0 (core_calling s entry a) (by omega)
  obtain ⟨_, hbounded⟩ := bounded_runToHalt entry budget (s.calling entry a)
  obtain ⟨-, hrun⟩ := hbounded.only _ _ hcourse
  exact ⟨m, s', (runRoutine_eq hcancelled entry a budget).trans hrun.symm, hcore, hjob⟩

theorem playFrame_of_calls {play : UInt16} (hcancelled : s.cancelled = false) (h : Core.Calls play 0 k s.core d)
    (hbudget : 8 * k ≤ s.limits.callCycles) :
    ∃ cycles s', playFrame (.subroutine play) s = .ok cycles s' ∧ s'.core = d ∧ SameJob s s' := by
  obtain ⟨cycles, s', hrun, hcore, hjob⟩ := runRoutine_of_calls (s := { s with frameCycle := 0 }) hcancelled h hbudget
  exact ⟨cycles, s'.endFrame, playFrame_of_runRoutine hcancelled hrun, hcore, hjob⟩

theorem playFrames_of_performs {play : UInt16} {n : Nat} {c : Core} (h : Core.Performs play k n c) : ∀ {s : Session},
    s.core = c → s.cancelled = false → 8 * k ≤ s.limits.callCycles →
      ∀ count longest, ∃ counts s', playFrames (.subroutine play) n count longest s = .ok counts s' := by
  induction h with
  | none => exact fun {s} _ _ _ count longest => ⟨(count, longest), s, rfl⟩
  | frame hcall _ ih =>
    rintro s rfl hcancelled hbudget
    obtain ⟨cycles, s₁, hframe, hcore, hlimits, hcancelled₁⟩ := playFrame_of_calls hcancelled hcall hbudget
    rw [← hlimits] at hbudget
    exact playFrames_of_playFrame hframe (ih hcore (hcancelled₁.trans hcancelled) hbudget)

theorem loadProgram_of_calls {p : Program} {play : UInt16} {image : Memory} (hmode : p.play = .subroutine play)
    (himage : p.image = .ok image) (hcancelled : s.cancelled = false)
    (h : Core.Calls p.init p.song k ⟨image, .cleared, { pc := p.init }⟩ d) (hbudget : 8 * k ≤ s.limits.initCycles) :
    ∃ s', loadProgram p s = .ok () s' ∧ s'.core = d ∧ SameJob s s' := by
  obtain ⟨cycles, s₁, hrun, hcore, hjob⟩ := runRoutine_of_calls (s := s.loaded image p.init) hcancelled h hbudget
  exact ⟨s₁.started p, loadProgram_of_runRoutine hmode himage hrun, hcore, hjob⟩

end Session

/-- **A program whose routines return** is recorded by every job that has time for them. -/
theorem record_of_performs {p : Program} {play : UInt16} {image : Memory} {k l n : Nat} {d : Core} {limits : Limits}
    (hmode : p.play = .subroutine play) (himage : p.image = .ok image)
    (hinit : Core.Calls p.init p.song k ⟨image, .cleared, { pc := p.init }⟩ d) (hframes : Core.Performs play l n d)
    (hinitCycles : 8 * k ≤ limits.initCycles) (hcallCycles : 8 * l ≤ limits.callCycles) :
    ∃ r, record p n limits false = .ok r := by
  obtain ⟨s, hload, rfl, hlimits, hcancelled⟩ :=
    Session.loadProgram_of_calls (s := { limits, cancelled := false }) hmode himage rfl hinit hinitCycles
  rw [← show s.limits.callCycles = limits.callCycles from congrArg _ hlimits] at hcallCycles
  obtain ⟨counts, s', hplay⟩ := Session.playFrames_of_performs hframes rfl hcancelled hcallCycles 0 0
  rw [← hmode] at hplay
  obtain ⟨r, hr⟩ := record_of_playFrames hload hplay
  exact ⟨r, hr⟩

end Chiptune.Playback
