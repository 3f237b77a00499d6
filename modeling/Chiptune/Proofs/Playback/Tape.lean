/-
Runs that are computed, with memory as one number.

A number in base 256 has a digit for each address, and numbers are quick to
compute with. What a tape computes, a session does (`record_of_tape`).
-/
import Chiptune.Proofs.Playback.Frames

namespace Chiptune.Playback

open Machine Sound

/-! ## Digits -/

/-- What a digit counts. -/
def weight (a : Nat) : Nat := Nat.pow 256 a

theorem weight_pos (a : Nat) : 0 < weight a := @Nat.pow_pos 256 a (by decide)

/-- What a higher digit counts. -/
theorem weight_above (b k : Nat) : weight (b + k + 1) = weight b * (256 * weight k) := by
  have hsplit : weight (b + (k + 1)) = weight b * weight (k + 1) := Nat.pow_add 256 b (k + 1)
  have hnext : weight (k + 1) = weight k * 256 := rfl
  rw [Nat.add_assoc, hsplit, hnext, Nat.mul_comm (weight k)]

/-- The byte of a number at an address. -/
def digit (m a : Nat) : Nat := m / weight a % 256

/-- The number with another byte at an address. -/
def withDigit (m a v : Nat) : Nat := (m / weight a / 256 * 256 + v) * weight a + m % weight a

theorem withDigit_div (m a v : Nat) : withDigit m a v / weight a = m / weight a / 256 * 256 + v := by
  have hpositive := weight_pos a
  rw [withDigit, Nat.mul_comm, Nat.mul_add_div hpositive, Nat.div_eq_of_lt (Nat.mod_lt _ hpositive), Nat.add_zero]

theorem withDigit_mod (m a v : Nat) : withDigit m a v % weight a = m % weight a := by
  rw [withDigit, Nat.mul_comm, Nat.mul_add_mod, Nat.mod_mod]

/-- A byte depends on what is up to it only. -/
theorem digit_mod {a b : Nat} (h : b < a) (m : Nat) : digit (m % weight a) b = digit m b := by
  obtain ⟨k, rfl⟩ := Nat.exists_eq_add_of_lt h
  rw [digit, digit, weight_above, Nat.mod_mul_right_div_self, Nat.mod_mod_of_dvd _ (Nat.dvd_mul_right ..)]

theorem digit_withDigit {v : Nat} (hv : v < 256) (m a b : Nat) :
    digit (withDigit m a v) b = if b = a then v else digit m b := by
  rcases Nat.lt_trichotomy b a with hlt | rfl | hgt
  · rw [if_neg (Nat.ne_of_lt hlt), ← digit_mod hlt, withDigit_mod, digit_mod hlt]
  · rw [if_pos rfl, digit, withDigit_div, Nat.mul_comm, Nat.mul_add_mod, Nat.mod_eq_of_lt hv]
  · obtain ⟨k, rfl⟩ := Nat.exists_eq_add_of_lt hgt
    rw [if_neg (Nat.ne_of_gt hgt), digit, digit, weight_above, ← Nat.div_div_eq_div_mul, withDigit_div,
      ← Nat.div_div_eq_div_mul, Nat.mul_comm _ 256, Nat.mul_add_div (by decide), Nat.div_eq_of_lt hv, Nat.add_zero,
      Nat.div_div_eq_div_mul, Nat.div_div_eq_div_mul]

/-! ## Tapes -/

/-- What instructions see of a session, with memory as one number. -/
structure Tape where
  memory : Nat
  sid : Bank
  regs : Registers

namespace Tape

/-- The byte of memory at an address. -/
def byte (t : Tape) (address : UInt16) : UInt8 := UInt8.ofNat (digit t.memory address.toNat)

def read (t : Tape) (address : UInt16) : UInt8 :=
  if inWindow address then t.sid.read (Word.low address) else t.byte address

def write (t : Tape) (s : Store) : Tape :=
  if inWindow s.address then { t with sid := (t.sid.write (Word.low s.address) s.value).2 }
  else { t with memory := withDigit t.memory s.address.toNat s.value.toNat }

def writeAll (t : Tape) (stores : List Store) : Tape := stores.foldl write t

/-- The tape at the return of a routine, with the cycles it took. -/
def runFor (budget : Nat) : (fuel spent : Nat) → Tape → Option (Nat × Tape)
  | 0, spent, t => if t.regs.pc = haltAddress then some (spent, t) else none
  | fuel + 1, spent, t =>
    if t.regs.pc = haltAddress then some (spent, t)
    else match Machine.step t.read t.regs with
      | .error _ => none
      | .ok o =>
        if budget < spent + o.cycles then none
        else runFor budget fuel (spent + o.cycles) { t.writeAll o.stores with regs := o.regs }

def push (t : Tape) (bytes : Bytes) : Tape :=
  { t.writeAll (t.regs.push bytes).stores with regs := (t.regs.push bytes).regs }

/-- The tape at the start of a routine. -/
def calling (t : Tape) (entry : UInt16) (a : UInt8) : Tape :=
  let t := t.push [Word.high (haltAddress - 1), Word.low (haltAddress - 1)]
  { t with regs := { t.regs with a := a, pc := entry } }

/-- The tape after a call of a routine. -/
def call (entry : UInt16) (a : UInt8) (budget : Nat) (t : Tape) : Option Tape :=
  (runFor budget (budget / 2 + 1) 0 (t.calling entry a)).map (·.2)

/-- The tapes at the ends of `n` frames. -/
def frames (play : UInt16) (budget : Nat) : Nat → Tape → Option (List Tape)
  | 0, _ => some []
  | n + 1, t => (t.call play 0 budget).bind fun t => (frames play budget n t).map (t :: ·)

/-- The number with consecutive bytes at an address. -/
def withDigits (m : Nat) (address : UInt16) : Bytes → Nat
  | [] => m
  | b :: bs => withDigits (withDigit m address.toNat b.toNat) (address + 1) bs

/-- The tapes at the ends of the frames of a recording. -/
def record (p : Program) (n : Nat) (limits : Limits) : Option (List Tape) :=
  match p.play with
  | .interrupt => none
  | .subroutine play =>
    if addressSpace < p.endAddress then none
    else
      let start : Tape := ⟨withDigits 0 p.loadAddress p.data, .cleared, { pc := p.init }⟩
      (start.call p.init p.song limits.initCycles).bind (frames play limits.callCycles n)

/-! ## What a tape shows -/

/-- A tape with the memory, the chip and the registers of a core. -/
structure Renders (t : Tape) (c : Core) : Prop where
  memory : ∀ address, c.memory.read address = t.byte address
  sid : c.sid = t.sid
  regs : c.regs = t.regs

namespace Renders

variable {t : Tape} {c : Core}

theorem read (h : t.Renders c) : c.read = t.read := by
  funext address
  rw [Core.read, Tape.read, h.memory, h.sid]

theorem withRegs (h : t.Renders c) (regs : Registers) : { t with regs }.Renders { c with regs } := ⟨h.memory, h.sid, rfl⟩

end Renders

theorem read_withDigit {m : Memory} {k : Nat} (h : ∀ address, m.read address = UInt8.ofNat (digit k address.toNat))
    (start : UInt16) (v : UInt8) (address : UInt16) :
    (m.write start v).read address = UInt8.ofNat (digit (withDigit k start.toNat v.toNat) address.toNat) := by
  rw [Memory.read_write, digit_withDigit v.toNat_lt, h]
  by_cases haddress : address = start
  · subst haddress
    simp
  · rw [if_neg (Ne.symm haddress), if_neg fun heq => haddress (UInt16.toNat_inj.mp heq)]

theorem read_withDigits : ∀ (bytes : Bytes) {m : Memory} {k : Nat} (start : UInt16),
    (∀ address, m.read address = UInt8.ofNat (digit k address.toNat)) → ∀ address : UInt16,
      (m.writeAll start bytes).read address = UInt8.ofNat (digit (withDigits k start bytes) address.toNat)
  | [], _, _, _, h => h
  | b :: bs, _, _, start, h => read_withDigits bs (start + 1) (read_withDigit h start b)

theorem renders_start (address : UInt16) (bytes : Bytes) (regs : Registers) :
    (⟨withDigits 0 address bytes, .cleared, regs⟩ : Tape).Renders ⟨Memory.zeroed.writeAll address bytes, .cleared, regs⟩ := by
  refine ⟨read_withDigits bytes address fun a => ?_, rfl, rfl⟩
  rw [Memory.read_zeroed, digit, Nat.zero_div]
  rfl

namespace Renders

variable {t : Tape} {c : Core}

theorem write (h : t.Renders c) (s : Store) : (t.write s).Renders (c.write s) := by
  unfold Tape.write Core.write
  split
  · exact ⟨h.memory, by rw [h.sid], h.regs⟩
  · exact ⟨read_withDigit h.memory s.address s.value, h.sid, h.regs⟩

theorem writeAll : ∀ (stores : List Store) {t : Tape} {c : Core}, t.Renders c →
    (t.writeAll stores).Renders (c.writeAll stores)
  | [], _, _, h => h
  | s :: stores, _, _, h => writeAll stores (h.write s)

end Renders

end Tape

/-! ## Runs -/

namespace Session

variable {t t' : Tape} {s : Session} {entry : UInt16} {a : UInt8} {budget : Nat}

/-- A session of the same job. -/
def SameJob (s s' : Session) : Prop := s'.limits = s.limits ∧ s'.cancelled = s.cancelled

theorem SameJob.trans {s s' s'' : Session} (h : SameJob s s') (h' : SameJob s' s'') : SameJob s s'' :=
  ⟨h'.1.trans h.1, h'.2.trans h.2⟩

theorem sameJob_after (s : Session) (o : Outcome) : SameJob s (s.after o) := by
  unfold SameJob after
  dsimp only
  split <;> exact ⟨rfl, rfl⟩

/-- A routine returns just if a tape says so, and then both have come to the same. -/
theorem runFor_tape (entry : UInt16) : ∀ {fuel spent : Nat} {t : Tape} {s : Session}, t.Renders s.core →
    match t.runFor budget fuel spent with
    | some (cycles, t') => ∃ s', runFor entry budget fuel spent s = .ok cycles s' ∧ t'.Renders s'.core ∧ SameJob s s'
    | none => ∃ e s', runFor entry budget fuel spent s = .error e s'
  | 0, spent, t, s, hs => by
    have hregs : s.regs = t.regs := hs.regs
    unfold Tape.runFor runFor
    rw [hregs]
    by_cases hhalt : t.regs.pc = haltAddress
    · rw [if_pos hhalt, if_pos hhalt]
      exact ⟨s, rfl, hs, rfl, rfl⟩
    · rw [if_neg hhalt, if_neg hhalt]
      exact ⟨_, s, rfl⟩
  | fuel + 1, spent, t, s, hs => by
    have hread : s.toBus.read = t.read := hs.read
    have hregs : s.regs = t.regs := hs.regs
    unfold Tape.runFor runFor
    rw [Session.step, hread, hregs]
    by_cases hhalt : t.regs.pc = haltAddress
    · rw [if_pos hhalt, if_pos hhalt]
      exact ⟨s, rfl, hs, rfl, rfl⟩
    rw [if_neg hhalt, if_neg hhalt]
    cases hstep : Machine.step t.read t.regs with
    | error e => exact ⟨e, s, rfl⟩
    | ok o =>
      dsimp only
      by_cases hspent : budget < spent + o.cycles
      · rw [if_pos hspent, if_pos hspent]
        exact ⟨_, _, rfl⟩
      rw [if_neg hspent, if_neg hspent]
      have hnext := (Tape.Renders.writeAll o.stores hs).withRegs o.regs
      rw [← core_after] at hnext
      have hrest := @runFor_tape entry fuel (spent + o.cycles) _ _ hnext
      cases hrun : Tape.runFor budget fuel (spent + o.cycles) { t.writeAll o.stores with regs := o.regs } with
      | none =>
        rw [hrun] at hrest
        exact hrest
      | some r =>
        rw [hrun] at hrest
        obtain ⟨s', hreturns, hs', hjob⟩ := hrest
        exact ⟨s', hreturns, hs', (sameJob_after s o).trans hjob⟩

theorem renders_push (hs : t.Renders s.core) (bytes : Bytes) : (t.push bytes).Renders (s.push bytes).core := by
  rw [core_push, show s.regs = t.regs from hs.regs]
  exact (Tape.Renders.writeAll _ hs).withRegs _

theorem renders_calling (hs : t.Renders s.core) (entry : UInt16) (a : UInt8) :
    (t.calling entry a).Renders (s.calling entry a).core := by
  have hpushed := renders_push hs [Word.high (haltAddress - 1), Word.low (haltAddress - 1)]
  exact ⟨hpushed.memory, hpushed.sid, congrArg (fun regs : Registers => { regs with a := a, pc := entry }) hpushed.regs⟩

theorem checkCancelled_running (hcancelled : s.cancelled = false) : checkCancelled s = .ok () s := by
  rw [checkCancelled, hcancelled]
  rfl

/-- A routine that is called is run from its start. -/
theorem runRoutine_eq (hcancelled : s.cancelled = false) (entry : UInt16) (a : UInt8) (budget : Nat) :
    runRoutine entry a budget s = runToHalt entry budget (s.calling entry a) := by
  simp only [runRoutine, Bind.bind, EStateM.bind, checkCancelled_running hcancelled]
  rfl

/-- A frame ends where its play call returns. -/
theorem playFrame_eq (hcancelled : s.cancelled = false) (mode : PlayMode) :
    playFrame mode s =
      match playOnce mode { s with frameCycle := 0 } with
      | .ok cycles s' => .ok cycles s'.endFrame
      | .error e s' => .error e s' := by
  have hstart : (modify fun s => { s with frameCycle := 0 } : Action Unit) s = .ok () { s with frameCycle := 0 } := rfl
  simp only [playFrame, Bind.bind, EStateM.bind, checkCancelled_running hcancelled, hstart]
  cases playOnce mode { s with frameCycle := 0 } <;> rfl

theorem playFrame_of_runRoutine {play : UInt16} {cycles : Nat} {s' : Session} (hcancelled : s.cancelled = false)
    (h : runRoutine play 0 s.limits.callCycles { s with frameCycle := 0 } = .ok cycles s') :
    playFrame (.subroutine play) s = .ok cycles s'.endFrame := by
  have hplay : playOnce (.subroutine play) { s with frameCycle := 0 } = .ok cycles s' := h
  rw [playFrame_eq hcancelled, hplay]

/-- Frames are played if the first one is and the others are after it. -/
theorem playFrames_of_playFrame {mode : PlayMode} {n cycles : Nat} {s' : Session} (hframe : playFrame mode s = .ok cycles s')
    (hrest : ∀ count longest, ∃ counts s'', playFrames mode n count longest s' = .ok counts s'') (count longest : Nat) :
    ∃ counts s'', playFrames mode (n + 1) count longest s = .ok counts s'' := by
  rw [playFrames]
  simp only [Bind.bind, EStateM.bind, hframe, run_get]
  split <;> exact hrest _ _

theorem loadProgram_of_runRoutine {p : Program} {play : UInt16} {image : Memory} {cycles : Nat} {s' : Session}
    (hmode : p.play = .subroutine play) (himage : p.image = .ok image)
    (h : runRoutine p.init p.song s.limits.initCycles (s.loaded image p.init) = .ok cycles s') :
    loadProgram p s = .ok () (s'.started p) := by
  rw [loadProgram_of_ok himage, prepared_of_subroutine hmode, h]

theorem runRoutine_of_tape (hs : t.Renders s.core) (hcancelled : s.cancelled = false)
    (h : t.call entry a budget = some t') :
    ∃ cycles s', runRoutine entry a budget s = .ok cycles s' ∧ t'.Renders s'.core ∧ SameJob s s' := by
  obtain ⟨⟨cycles, t'⟩, hrun, rfl⟩ := Option.map_eq_some_iff.mp h
  have hruns := @runFor_tape budget entry (budget / 2 + 1) 0 _ _ (renders_calling hs entry a)
  rw [hrun] at hruns
  obtain ⟨s', hrun', hs', hjob⟩ := hruns
  exact ⟨cycles, s', (runRoutine_eq hcancelled entry a budget).trans hrun', hs', hjob⟩

theorem playFrame_of_tape {play : UInt16} (hs : t.Renders s.core) (hcancelled : s.cancelled = false)
    (h : t.call play 0 s.limits.callCycles = some t') :
    ∃ cycles s', playFrame (.subroutine play) s = .ok cycles s' ∧ t'.Renders s'.core ∧ SameJob s s' := by
  obtain ⟨cycles, s', hrun, hs', hjob⟩ := runRoutine_of_tape (s := { s with frameCycle := 0 }) hs hcancelled h
  exact ⟨cycles, s'.endFrame, playFrame_of_runRoutine hcancelled hrun, hs', hjob⟩

theorem playFrames_of_tape {play : UInt16} : ∀ (n : Nat) {t : Tape} {s : Session} {tapes : List Tape},
    t.Renders s.core → s.cancelled = false → t.frames play s.limits.callCycles n = some tapes →
      (∀ count longest, ∃ counts s', playFrames (.subroutine play) n count longest s = .ok counts s') ∧
        List.Forall₂ (fun s t => t.Renders s.core) (frameSessions (.subroutine play) n s) tapes
  | 0, _, s, _, _, _, h => by
    cases h
    exact ⟨fun _ _ => ⟨_, s, rfl⟩, .nil⟩
  | n + 1, t, s, tapes, hs, hcancelled, h => by
    obtain ⟨t₁, hcall, hrest⟩ := Option.bind_eq_some_iff.mp h
    obtain ⟨later, hlater, rfl⟩ := Option.map_eq_some_iff.mp hrest
    obtain ⟨cycles, s₁, hframe, hs₁, hlimits, hcancelled₁⟩ := playFrame_of_tape hs hcancelled hcall
    rw [← hlimits] at hlater
    obtain ⟨hrun, hsessions⟩ := playFrames_of_tape n hs₁ (hcancelled₁.trans hcancelled) hlater
    refine ⟨playFrames_of_playFrame hframe hrun, ?_⟩
    rw [frameSessions, hframe]
    exact .cons hs₁ hsessions

theorem loadProgram_of_tape {p : Program} {play : UInt16} {image : Memory} (hmode : p.play = .subroutine play)
    (himage : p.image = .ok image) (ht : t.Renders ⟨image, .cleared, { pc := p.init }⟩) (hcancelled : s.cancelled = false)
    (h : t.call p.init p.song s.limits.initCycles = some t') :
    ∃ s', loadProgram p s = .ok () s' ∧ t'.Renders s'.core ∧ SameJob s s' := by
  obtain ⟨cycles, s₁, hrun, hs₁, hjob⟩ := runRoutine_of_tape (s := s.loaded image p.init) ht hcancelled h
  exact ⟨s₁.started p, loadProgram_of_runRoutine hmode himage hrun, hs₁, hjob⟩

end Session

/-- **What a tape computes**, a session does. -/
theorem record_of_tape {p : Program} {n : Nat} {limits : Limits} {tapes : List Tape}
    (h : Tape.record p n limits = some tapes) :
    ∃ r, record p n limits false = .ok r ∧ r.trace.snapshots = tapes.map (·.sid) ∧
      List.Forall₂ (fun s t => t.Renders s.core) (recordedSessions p n limits false) tapes := by
  unfold Tape.record at h
  split at h
  · cases h
  next play hmode =>
    split at h
    · cases h
    next hroom =>
      obtain ⟨t, hinit, hframes⟩ := Option.bind_eq_some_iff.mp h
      have himage : p.image = .ok (Memory.zeroed.writeAll p.loadAddress p.data) := if_neg hroom
      have hstart := Tape.renders_start p.loadAddress p.data { pc := p.init }
      obtain ⟨s, hload, hs, hlimits, hcancelled⟩ :=
        Session.loadProgram_of_tape (s := { limits, cancelled := false }) hmode himage hstart rfl hinit
      rw [← show s.limits.callCycles = limits.callCycles from congrArg _ hlimits] at hframes
      obtain ⟨hplays, hsessions⟩ := Session.playFrames_of_tape n hs hcancelled hframes
      obtain ⟨counts, s', hplay⟩ := hplays 0 0
      rw [← hmode] at hplay hsessions
      obtain ⟨r, hr⟩ := record_of_playFrames hload hplay
      obtain ⟨s₁, -, -, hload₁, -, hsnapshots⟩ := snapshots_record hr
      cases hload.symm.trans hload₁
      refine ⟨r, hr, hsnapshots.trans ?_, ?_⟩
      · have hsids : List.Forall₂ (fun bank (t : Tape) => t.sid = bank) ((frameSessions p.play n s).map (·.sid)) tapes :=
          List.forall₂_map_left_iff.mpr (hsessions.imp fun s t hst => hst.sid.symm)
        exact (map_eq_of_forall₂ hsids).symm
      · rw [recordedSessions, hload]
        exact hsessions

end Chiptune.Playback
