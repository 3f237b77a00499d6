/-
What a routine computes, apart from the record of it.

Of a session, an instruction sees the memory, the chip and the registers only
(`Core`). Instructions are deterministic, so a routine that returns passes
through everything that can be reached from its start (`Reaches.past`).
-/
import Chiptune.Playback.Session
import Chiptune.Proofs.Outcome

namespace Chiptune.Playback

open Machine Sound

/-- What instructions see of a session. -/
structure Core where
  memory : Memory
  sid : Bank
  regs : Registers

/-- What instructions see of the session. -/
def Session.core (s : Session) : Core := ⟨s.memory, s.sid, s.regs⟩

namespace Core

/-- What the processor reads. -/
def read (c : Core) (address : UInt16) : UInt8 :=
  if inWindow address then c.sid.read (Word.low address) else c.memory.read address

/-- The core after a store. -/
def write (c : Core) (s : Store) : Core :=
  if inWindow s.address then { c with sid := (c.sid.write (Word.low s.address) s.value).2 }
  else { c with memory := c.memory.write s.address s.value }

theorem read_of_not_inWindow {c : Core} {a : UInt16} (h : inWindow a = false) : c.read a = c.memory.read a := by
  rw [read, h, if_neg (by decide)]

theorem write_of_not_inWindow {c : Core} {a : UInt16} {v : UInt8} (h : inWindow a = false) :
    c.write ⟨a, v⟩ = { c with memory := c.memory.write a v } := by
  rw [write, h, if_neg (by decide)]

/-- The core after stores, in order. -/
def writeAll (c : Core) (stores : List Store) : Core := stores.foldl write c

/-- The core after an instruction, if it can run. -/
def next? (c : Core) : Option Core :=
  match Machine.step c.read c.regs with
  | .ok o => some { c.writeAll o.stores with regs := o.regs }
  | .error _ => none

/-- The core at the start of a routine. -/
def calling (c : Core) (entry : UInt16) (a : UInt8) : Core :=
  let effect := c.regs.push [Word.high (haltAddress - 1), Word.low (haltAddress - 1)]
  { c.writeAll effect.stores with regs := { effect.regs with a, pc := entry } }

/-- The routine has returned. -/
def Halted (c : Core) : Prop := c.regs.pc = haltAddress

/-- So many instructions lead from one core to another without returning before them. -/
inductive Reaches : Nat → Core → Core → Prop
  | refl (c : Core) : Reaches 0 c c
  | head {n : Nat} {c d e : Core} (hrunning : ¬ c.Halted) (hnext : c.next? = some d) (hrest : Reaches n d e) :
      Reaches (n + 1) c e

namespace Reaches

variable {m n : Nat} {c d e h : Core}

theorem trans (hcd : Reaches m c d) (hde : Reaches n d e) : Reaches (m + n) c e := by
  induction hcd with
  | refl =>
    rw [Nat.zero_add]
    exact hde
  | head hrunning hnext _ ih =>
    rw [Nat.add_right_comm]
    exact .head hrunning hnext (ih hde)

theorem step (hrunning : ¬ c.Halted) (hnext : c.next? = some d) : Reaches 1 c d := .head hrunning hnext (.refl d)

/-- **A routine that returns** passes through whatever can be reached. -/
theorem past (hch : Reaches n c h) (hh : h.Halted) (hcd : Reaches m c d) : ∃ k, n = m + k ∧ Reaches k d h := by
  induction hcd generalizing n with
  | refl => exact ⟨n, (Nat.zero_add n).symm, hch⟩
  | head hrunning hnext _ ih =>
    cases hch with
    | refl => exact absurd hh hrunning
    | head _ hnext' hrest =>
      rw [hnext, Option.some.injEq] at hnext'
      subst hnext'
      obtain ⟨k, rfl, hk⟩ := ih hrest
      exact ⟨k, by omega, hk⟩

/-- A routine that has returned runs no further. -/
theorem eq_of_halted (hch : Reaches n c h) (hc : c.Halted) : c = h := by
  cases hch with
  | refl => rfl
  | head hrunning => exact absurd hc hrunning

end Reaches

end Core

/-! ## Sessions -/

theorem core_writeAll : ∀ (stores : List Store) (b : Bus) (regs : Registers),
    (⟨(b.writeAll stores).memory, (b.writeAll stores).sid, regs⟩ : Core) =
      (⟨b.memory, b.sid, regs⟩ : Core).writeAll stores
  | [], _, _ => rfl
  | s :: stores, b, regs => by
    have hstore : (⟨(b.write s).memory, (b.write s).sid, regs⟩ : Core) = (⟨b.memory, b.sid, regs⟩ : Core).write s := by
      unfold Bus.write Core.write Bank.write
      split
      · cases Register.ofOffset? (Word.low s.address) <;> rfl
      · rfl
    have hrest := core_writeAll stores (b.write s) regs
    rw [hstore] at hrest
    exact hrest

namespace Session

theorem core_after (s : Session) (o : Outcome) :
    (s.after o).core = { s.core.writeAll o.stores with regs := o.regs } := by
  have hstores := core_writeAll o.stores s.toBus s.regs
  have hcore : (s.after o).core = ⟨(s.toBus.writeAll o.stores).memory, (s.toBus.writeAll o.stores).sid, o.regs⟩ := by
    unfold after
    dsimp only
    split <;> rfl
  have hstart : s.core = ⟨s.toBus.memory, s.toBus.sid, s.regs⟩ := rfl
  rw [hcore, hstart, ← hstores]

theorem core_push (s : Session) (bytes : Bytes) :
    (s.push bytes).core = { s.core.writeAll (s.regs.push bytes).stores with regs := (s.regs.push bytes).regs } := by
  have hstores := core_writeAll (s.regs.push bytes).stores s.toBus s.regs
  have hstart : s.core = ⟨s.toBus.memory, s.toBus.sid, s.regs⟩ := rfl
  rw [hstart, ← hstores]
  rfl

/-- The session at the start of a routine. -/
def calling (s : Session) (entry : UInt16) (a : UInt8) : Session :=
  let s := s.push [Word.high (haltAddress - 1), Word.low (haltAddress - 1)]
  { s with regs := { s.regs with a := a, pc := entry } }

theorem core_calling (s : Session) (entry : UInt16) (a : UInt8) : (s.calling entry a).core = s.core.calling entry a := by
  have hpushed := core_push s [Word.high (haltAddress - 1), Word.low (haltAddress - 1)]
  exact congrArg (fun c : Core => { c with regs := { c.regs with a, pc := entry } }) hpushed

/-- A run that ends well has reached the end of the routine. -/
theorem runFor_eq_ok {entry : UInt16} {budget : Nat} : ∀ {fuel spent cycles : Nat} {s s' : Session},
    runFor entry budget fuel spent s = .ok cycles s' → (∃ n, Core.Reaches n s.core s'.core) ∧ s'.core.Halted
  | 0, spent, cycles, s, s', h => by
    unfold runFor at h
    by_cases hhalt : s.regs.pc = haltAddress
    · simp only [hhalt, if_true] at h
      cases h
      exact ⟨⟨0, .refl _⟩, hhalt⟩
    · simp only [hhalt, if_false] at h
      cases h
  | fuel + 1, spent, cycles, s, s', h => by
    unfold runFor at h
    by_cases hhalt : s.regs.pc = haltAddress
    · simp only [hhalt, if_true] at h
      cases h
      exact ⟨⟨0, .refl _⟩, hhalt⟩
    simp only [hhalt, if_false] at h
    cases hs : step s with
    | error e s₁ =>
      rw [hs] at h
      cases h
    | ok n s₁ =>
      rw [hs] at h
      dsimp only at h
      by_cases hbudget : budget < spent + n
      · simp only [hbudget, if_true] at h
        cases h
      simp only [hbudget, if_false] at h
      obtain ⟨⟨n, hreaches⟩, hhalted⟩ := runFor_eq_ok h
      refine ⟨⟨n + 1, .head hhalt ?_ hreaches⟩, hhalted⟩
      unfold step at hs
      unfold Core.next?
      have hread : s.core.read = s.toBus.read := rfl
      have hregs : s.core.regs = s.regs := rfl
      rw [hread, hregs]
      split at hs
      · cases hs
      next o ho =>
        cases hs
        rw [ho, core_after]

end Session

end Chiptune.Playback
