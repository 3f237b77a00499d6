/-
What a longer run records, a shorter one with more cycles to spend records too.

Limits decide only whether a routine runs out of cycles. So an action that ends
well under some limits does the same under larger ones (`Agrees`). A run of
frames passes through the end of each of its frames, and what it records from
there on are writes of later frames (`Continues`).
-/
import Chiptune.Proofs.Outcome
import Chiptune.Proofs.Playback.History

namespace Chiptune.Playback

open Machine Sound Session

variable {α β : Type}

/-! ## Larger limits -/

/-- The same clock, and at least as many cycles for every routine. -/
structure Limits.Within (limits larger : Limits) : Prop where
  clock : larger.clock = limits.clock
  initFrames : limits.initFrames ≤ larger.initFrames
  callCycles : limits.callCycles ≤ larger.callCycles

theorem Limits.Within.initCycles {limits larger : Limits} (h : limits.Within larger) :
    limits.initCycles ≤ larger.initCycles := by
  rw [Limits.initCycles, Limits.initCycles, h.clock]
  exact Nat.mul_le_mul_right _ h.initFrames

/-- The session with other limits. -/
def Session.under (s : Session) (limits : Limits) : Session := { s with limits }

/-- If the first action ends well from this session, the second one does the same under larger limits. -/
def AgreesAt (limits larger : Limits) (x y : Action α) (s : Session) : Prop :=
  ∀ a s', x s = .ok a s' → s'.limits = limits ∧ y (s.under larger) = .ok a (s'.under larger)

/-- If the first action ends well under the limits, the second one does the same under larger ones. -/
def Agrees (limits larger : Limits) (x y : Action α) : Prop :=
  ∀ s : Session, s.limits = limits → AgreesAt limits larger x y s

namespace Agrees

variable {limits larger : Limits}

theorem pure (a : α) : Agrees limits larger (Pure.pure a) (Pure.pure a) := by
  intro s hs b s' h
  cases h
  exact ⟨hs, rfl⟩

theorem throw (e : RunError) {y : Action α} : Agrees limits larger (throw e) y := by
  intro s _ a s' h
  cases h

theorem modify {f : Session → Session} (hlimits : ∀ s, (f s).limits = s.limits)
    (hunder : ∀ s, f (s.under larger) = (f s).under larger) :
    Agrees limits larger (modify f : Action Unit) (modify f) := by
  intro s hs a s' h
  cases h
  exact ⟨(hlimits s).trans hs, congrArg (EStateM.Result.ok ()) (hunder s)⟩

theorem bind {x y : Action α} {f g : α → Action β} (hx : Agrees limits larger x y)
    (hf : ∀ a, Agrees limits larger (f a) (g a)) : Agrees limits larger (x >>= f) (y >>= g) := by
  intro s hs b s' h
  simp only [Bind.bind, EStateM.bind] at h ⊢
  cases hfirst : x s with
  | error e s₁ =>
    rw [hfirst] at h
    cases h
  | ok a s₁ =>
    rw [hfirst] at h
    obtain ⟨hs₁, hy⟩ := hx s hs a s₁ hfirst
    rw [hy]
    exact hf a s₁ hs₁ b s' h

/-- What is read off the session before the rest of the action may depend on the limits. -/
theorem get {f g : Session → Action α}
    (h : ∀ s, s.limits = limits → AgreesAt limits larger (f s) (g (s.under larger)) s) :
    Agrees limits larger (get >>= f) (get >>= g) :=
  fun s hs a s' hrun => h s hs a s' hrun

theorem checkCancelled : Agrees limits larger checkCancelled checkCancelled := by
  intro s hs a s' h
  have hcancelled : (s.under larger).cancelled = s.cancelled := rfl
  unfold Session.checkCancelled at h ⊢
  rw [hcancelled]
  split at h
  · cases h
  next hrunning =>
    cases h
    rw [if_neg hrunning]
    exact ⟨hs, rfl⟩

/-! ## Routines under larger limits -/

theorem step : Agrees limits larger Session.step Session.step := by
  intro s hs a s' h
  have hread : (s.under larger).toBus.read = s.toBus.read := rfl
  have hregs : (s.under larger).regs = s.regs := rfl
  have hafter (o : Outcome) : (s.after o).limits = s.limits ∧
      (s.under larger).after o = (s.after o).under larger := by
    have hbus : (s.under larger).toBus = s.toBus := rfl
    simp only [after, hbus]
    split <;> exact ⟨rfl, rfl⟩
  unfold Session.step at h ⊢
  rw [hread, hregs]
  split at h
  · cases h
  next o ho =>
    cases h
    exact ⟨(hafter o).1.trans hs, congrArg (EStateM.Result.ok _) (hafter o).2⟩

theorem runFor_halted {budget : Nat} (entry : UInt16) {fuel spent : Nat} {s : Session} (h : s.regs.pc = haltAddress) :
    Session.runFor entry budget fuel spent s = .ok spent s := by
  cases fuel <;> exact if_pos h

theorem runFor {budget budget' : Nat} (entry : UInt16) (hbudget : budget ≤ budget') : ∀ {fuel fuel' : Nat} (spent : Nat),
    fuel ≤ fuel' → Agrees limits larger (runFor entry budget fuel spent) (runFor entry budget' fuel' spent)
  | 0, fuel', spent, _ => by
    intro s hs a s' h
    have hpc : (s.under larger).regs.pc = s.regs.pc := rfl
    unfold Session.runFor at h
    split at h
    next hhalt =>
      cases h
      exact ⟨hs, runFor_halted entry (hpc.trans hhalt)⟩
    · cases h
  | fuel + 1, 0, spent, hfuel => absurd hfuel (Nat.not_succ_le_zero fuel)
  | fuel + 1, fuel' + 1, spent, hfuel => by
    intro s hs a s' h
    have hpc : (s.under larger).regs.pc = s.regs.pc := rfl
    unfold Session.runFor at h ⊢
    rw [hpc]
    split at h
    next hhalt =>
      cases h
      rw [if_pos hhalt]
      exact ⟨hs, rfl⟩
    next hrunning =>
      rw [if_neg hrunning]
      cases hstep : Session.step s with
      | error e s₁ =>
        rw [hstep] at h
        cases h
      | ok cycles s₁ =>
        rw [hstep] at h
        obtain ⟨hs₁, hstep'⟩ := step s hs cycles s₁ hstep
        rw [hstep']
        dsimp only at h ⊢
        split at h
        · cases h
        next hspent =>
          rw [if_neg (by omega)]
          exact runFor entry hbudget (spent + cycles) (Nat.le_of_succ_le_succ hfuel) s₁ hs₁ a s' h

theorem runToHalt {budget budget' : Nat} (entry : UInt16) (hbudget : budget ≤ budget') :
    Agrees limits larger (runToHalt entry budget) (runToHalt entry budget') :=
  runFor entry hbudget 0 (by omega)

theorem runRoutine {budget budget' : Nat} (entry : UInt16) (a : UInt8) (hbudget : budget ≤ budget') :
    Agrees limits larger (runRoutine entry a budget) (runRoutine entry a budget') :=
  bind checkCancelled fun _ => bind (modify (fun _ => rfl) fun _ => rfl) fun _ => runToHalt entry hbudget

variable (hwithin : limits.Within larger)

include hwithin

theorem call (entry : UInt16) (a : UInt8) : Agrees limits larger (call entry a) (call entry a) := by
  refine get fun s hs => ?_
  have hbudget : s.limits.callCycles ≤ (s.under larger).limits.callCycles := by
    rw [hs]
    exact hwithin.callCycles
  exact runRoutine entry a hbudget s hs

theorem interrupt : Agrees limits larger interrupt interrupt := by
  refine get fun s hs => ?_
  have hbudget : s.limits.callCycles ≤ (s.under larger).limits.callCycles := by
    rw [hs]
    exact hwithin.callCycles
  have hmemory : (s.under larger).memory = s.memory := rfl
  rw [hmemory]
  cases handler s.memory with
  | none => exact throw _ s hs
  | some vector =>
    refine bind (modify (fun s => ?_) fun s => ?_) (fun _ => runToHalt vector.1 hbudget) s hs
    · simp only [interrupted]
      split <;> rfl
    · simp only [interrupted]
      split <;> rfl

theorem playFrame (mode : PlayMode) : Agrees limits larger (playFrame mode) (playFrame mode) := by
  have honce : Agrees limits larger (playOnce mode) (playOnce mode) := by
    cases mode with
    | subroutine address => exact call hwithin address 0
    | interrupt => exact interrupt hwithin
  exact bind checkCancelled fun _ => bind (modify (fun _ => rfl) fun _ => rfl) fun _ =>
    bind honce fun cycles => bind (modify (fun _ => rfl) fun _ => rfl) fun _ => pure cycles

theorem playFrames (mode : PlayMode) : ∀ n count longest : Nat,
    Agrees limits larger (playFrames mode n count longest) (playFrames mode n count longest)
  | 0, count, longest => pure (count, longest)
  | n + 1, count, longest => by
    refine bind (playFrame hwithin mode) fun cycles => get fun s hs => ?_
    have hclock : (s.under larger).limits.clock = s.limits.clock := by
      rw [hs]
      exact hwithin.clock
    rw [hclock]
    split
    · exact playFrames mode n _ _ s hs
    · exact playFrames mode n _ _ s hs

end Agrees

theorem agrees_loadProgram {limits larger : Limits} (hwithin : limits.Within larger) (p : Program) :
    Agrees limits larger (loadProgram p) (loadProgram p) := by
  intro s hs u s' h
  cases himage : p.image with
  | error e =>
    rw [loadProgram_of_error himage] at h
    cases h
  | ok image =>
    have hprepared : (s.under larger).prepared p image = (s.prepared p image).under larger := by
      unfold prepared
      split <;> rfl
    have hlimits : (s.prepared p image).limits = limits := by
      rw [← hs]
      unfold prepared
      split <;> rfl
    have hbudget : s.limits.initCycles ≤ (s.under larger).limits.initCycles := by
      rw [hs]
      exact hwithin.initCycles
    rw [loadProgram_of_ok himage] at h ⊢
    cases hrun : runRoutine p.init p.song s.limits.initCycles (s.prepared p image) with
    | error e s₁ =>
      rw [hrun] at h
      cases h
    | ok cycles s₁ =>
      rw [hrun] at h
      cases h
      obtain ⟨hlimits₁, hrun'⟩ := Agrees.runRoutine p.init p.song hbudget _ hlimits cycles s₁ hrun
      rw [hprepared, hrun']
      exact ⟨hlimits₁, rfl⟩

/-! ## Fewer frames -/

/-- A run of frames passes through the end of each of them. -/
theorem playFrames_add (mode : PlayMode) {n : Nat} : ∀ (m : Nat) {count longest : Nat} {counts : Nat × Nat} {s s' : Session},
    playFrames mode (m + n) count longest s = .ok counts s' →
      ∃ counts₁ s₁, playFrames mode m count longest s = .ok counts₁ s₁ ∧
        playFrames mode n counts₁.1 counts₁.2 s₁ = .ok counts s'
  | 0, count, longest, counts, s, s', h => ⟨(count, longest), s, rfl, by rwa [Nat.zero_add] at h⟩
  | m + 1, count, longest, counts, s, s', h => by
    rw [Nat.add_right_comm] at h
    simp only [playFrames, Bind.bind, EStateM.bind] at h ⊢
    cases hframe : playFrame mode s with
    | error e s₀ =>
      rw [hframe] at h
      cases h
    | ok cycles s₀ =>
      rw [hframe] at h
      simp only [run_get] at h ⊢
      split at h
      next hover =>
        rw [if_pos hover]
        exact playFrames_add mode m h
      next hover =>
        rw [if_neg hover]
        exact playFrames_add mode m h

/-- The trace has the writes of `t` first, and then those of the frames from its end on that are below `bound`. -/
structure Continues (t : Trace) (bound : Nat) (s : Session) : Prop where
  started : t.frames ≤ s.frame
  recorded : ∃ t', s.trace = some t' ∧ t'.initial = t.initial ∧ t'.frames = s.frame ∧
    ∃ later, t'.entries.toList = t.entries.toList ++ later ∧ ∀ e ∈ later, t.frames ≤ e.frame ∧ e.frame < bound

namespace Continues

variable {t : Trace} {bound : Nat} {s s' : Session}

theorem refl (h : s.trace = some t) (hframe : t.frames = s.frame) : Continues t bound s :=
  ⟨Nat.le_of_eq hframe, t, h, rfl, hframe, [], (List.append_nil _).symm, nofun⟩

theorem of_eq (h : Continues t bound s) (htrace : s'.trace = s.trace) (hframe : s'.frame = s.frame) :
    Continues t bound s' := by
  obtain ⟨hstarted, hrecorded⟩ := h
  rw [← hframe] at hstarted hrecorded
  rw [← htrace] at hrecorded
  exact ⟨hstarted, hrecorded⟩

theorem mono (h : Continues t bound s) {bound' : Nat} (hbound : bound ≤ bound') : Continues t bound' s := by
  obtain ⟨hstarted, t', ht', hinitial, hframes, later, hentries, hlater⟩ := h
  exact ⟨hstarted, t', ht', hinitial, hframes, later, hentries,
    fun e he => ⟨(hlater e he).1, Nat.lt_of_lt_of_le (hlater e he).2 hbound⟩⟩

theorem recordedWrites {n : Nat} (h : Continues t (n + 1) s) (hn : s.frame = n) (stop : Nat) :
    Continues t (n + 1) (s.recorded stop) := by
  subst hn
  obtain ⟨hstarted, t', ht', hinitial, hframes, later, hentries, hlater⟩ := h
  refine ⟨hstarted, { t' with entries := t'.entries ++ entriesOf s.frame stop s.pending },
    by simp only [Session.recorded, ht', Option.map_some], hinitial, hframes, later ++ entriesOf s.frame stop s.pending, ?_,
    fun e he => ?_⟩
  · rw [Array.toList_appendList, hentries, List.append_assoc]
  · rcases List.mem_append.mp he with he | he
    · exact hlater e he
    · rw [frame_entriesOf e he]
      exact ⟨hstarted, Nat.lt_succ_self s.frame⟩

/-- The writes of an instruction belong to the frame that is played. -/
theorem after (h : Continues t (s.frame + 1) s) (o : Outcome) : Continues t (s.frame + 1) (s.after o) := by
  have hstored : Continues t (s.frame + 1) { s with toBus := s.toBus.writeAll o.stores, regs := o.regs } := h.of_eq rfl rfl
  have hrecorded := hstored.recordedWrites rfl (s.frameCycle + o.cycles)
  unfold Session.after
  dsimp only
  split
  · exact h.of_eq rfl rfl
  · exact hrecorded.of_eq rfl rfl

/-- In the frame `n`. -/
theorem steady (t : Trace) (n : Nat) : Steady fun s => Continues t (n + 1) s ∧ s.frame = n where
  after := by
    rintro s o ⟨h, rfl⟩ _
    refine ⟨h.after o, ?_⟩
    unfold Session.after
    dsimp only
    split <;> rfl
  push _ h := ⟨h.1.of_eq rfl rfl, h.2⟩
  regs _ h := ⟨h.1.of_eq rfl rfl, h.2⟩

theorem playFrame (mode : PlayMode) (n : Nat) :
    Leads (fun s => Continues t n s ∧ s.frame = n) (playFrame mode) (fun s => Continues t (n + 1) s ∧ s.frame = n + 1)
      fun _ => True := by
  refine .bind (Q := fun s => Continues t n s ∧ s.frame = n) (.mono .checkCancelled fun _ _ => trivial) fun _ =>
    .bind (.modify fun s h => ⟨(h.1.mono (Nat.le_succ n)).of_eq rfl rfl, h.2⟩) fun _ =>
    .bind (.mono ((steady t n).playOnce mode) fun _ _ => trivial) fun cycles => .bind (.modify fun s h => ?_) fun _ => .pure cycles
  obtain ⟨⟨hstarted, t', ht', hinitial, hframes, hentries⟩, rfl⟩ := h
  exact ⟨⟨Nat.le_succ_of_le hstarted, { t' with frames := t'.frames + 1 }, by simp only [Session.endFrame, ht', Option.map_some], hinitial,
    congrArg (· + 1) hframes, hentries⟩, rfl⟩

/-- **Frames that are played leave what was recorded**, and their writes come after it. -/
theorem playFrames (mode : PlayMode) : ∀ (m count longest : Nat) {n : Nat},
    Leads (fun s => Continues t n s ∧ s.frame = n) (playFrames mode m count longest)
      (fun s => Continues t (n + m) s ∧ s.frame = n + m) fun _ => True
  | 0, count, longest, n => fun _ h => h
  | m + 1, count, longest, n => by
    refine .bind (playFrame mode n) fun cycles => .bind .get fun s => ?_
    rw [show n + (m + 1) = n + 1 + m by omega]
    split
    · exact playFrames mode m _ _
    · exact playFrames mode m _ _

theorem of_playFrames {mode : PlayMode} {m count longest : Nat} {counts : Nat × Nat} (ht : s.trace = some t)
    (hframes : t.frames = s.frame) (h : Session.playFrames mode m count longest s = .ok counts s') :
    Continues t (s.frame + m) s' ∧ s'.frame = s.frame + m := by
  have hleads := playFrames mode m count longest s ⟨.refl ht hframes, rfl⟩
  rwa [h] at hleads

end Continues

/-- Where the writes of later frames come after the others. -/
theorem filter_frame_lt {m : Nat} {earlier later : List Entry} (hearlier : ∀ e ∈ earlier, e.frame < m)
    (hlater : ∀ e ∈ later, m ≤ e.frame) : (earlier ++ later).filter (·.frame < m) = earlier := by
  rw [List.filter_append, List.filter_eq_self.mpr fun e he => decide_eq_true (hearlier e he),
    List.filter_eq_nil_iff.mpr fun e he => ?_, List.append_nil]
  simpa using hlater e he

/-! ## Recordings -/

/-- A program that is loaded has a new trace. -/
theorem loadProgram_eq_ok {p : Program} {s s' : Session} (h : loadProgram p s = .ok () s') :
    ∃ t, s'.trace = some t ∧ t.frames = 0 ∧ t.entries = #[] ∧ s'.frame = 0 ∧ s'.play = some p.play := by
  cases himage : p.image with
  | error e =>
    rw [loadProgram_of_error himage] at h
    cases h
  | ok image =>
    rw [loadProgram_of_ok himage] at h
    split at h
    · cases h
      exact ⟨_, rfl, rfl, rfl, rfl, rfl⟩
    · cases h

/-- A session that has a trace plays frames into it; only overruns are counted after them. -/
theorem runFrames_eq {n : Nat} {s : Session} {mode : PlayMode} {t : Trace} (hplay : s.play = some mode)
    (htrace : s.trace = some t) :
    match playFrames mode n 0 0 s with
    | .ok _ s₁ => ∃ overrun s', runFrames n s = .ok overrun s' ∧ s'.trace = s₁.trace
    | .error e s₁ => runFrames n s = .error e s₁ := by
  have hrecording : s.recording = s := by
    rw [recording, htrace]
    rfl
  rw [runFrames_of_some hplay, hrecording]
  cases playFrames mode n 0 0 s with
  | error e s₁ => rfl
  | ok counts s₁ =>
    by_cases hcount : counts.1 = 0
    · exact ⟨_, _, if_pos hcount, rfl⟩
    · exact ⟨_, _, if_neg hcount, rfl⟩

/-- A recording is made by loading the program and playing the frames. -/
theorem record_eq_ok_iff {p : Program} {n : Nat} {limits : Limits} {cancelled : Bool} {r : Recording} :
    record p n limits cancelled = .ok r ↔ ∃ s s', loadProgram p { limits, cancelled } = .ok () s ∧
      runFrames n s = .ok r.overrun s' ∧ s'.finish = r.trace := by
  simp only [record, EStateM.run, Bind.bind, EStateM.bind]
  cases hload : loadProgram p { limits, cancelled } with
  | error e s => simp
  | ok u s =>
    cases hrun : runFrames n s with
    | error e s' => simp [hrun]
    | ok overrun s' =>
      obtain ⟨trace, overrun'⟩ := r
      dsimp only
      rw [hrun]
      constructor
      · intro h
        cases h
        exact ⟨s, s', rfl, hrun, rfl⟩
      · rintro ⟨s₁, s₂, hs₁, hs₂, rfl⟩
        cases hs₁
        cases hrun.symm.trans hs₂
        rfl

/-- **A recording says what a shorter run with larger limits records**: the writes of the frames that are played. -/
theorem record_shorter {p : Program} {n m : Nat} {limits larger : Limits} {cancelled : Bool} {r : Recording}
    (h : record p n limits cancelled = .ok r) (hm : m ≤ n) (hwithin : limits.Within larger) :
    ∃ r', record p m larger cancelled = .ok r' ∧ r'.trace.frames = m ∧ r'.trace.initial = r.trace.initial ∧
      r'.trace.entries.toList = r.trace.entries.toList.filter (·.frame < m) := by
  obtain ⟨s, s', hload, hrun, hfinish⟩ := record_eq_ok_iff.mp h
  obtain ⟨t, ht, hframes, hentries, hframe, hplay⟩ := loadProgram_eq_ok hload
  obtain ⟨hlimits, hload'⟩ := agrees_loadProgram hwithin p { limits, cancelled } rfl () s hload
  have hplayed := runFrames_eq (n := n) hplay ht
  cases hlong : playFrames p.play n 0 0 s with
  | error e s₁ =>
    rw [hlong] at hplayed
    cases hplayed.symm.trans hrun
  | ok counts s₁ =>
    rw [hlong] at hplayed
    obtain ⟨overrun, s'', hrun', htrace⟩ := hplayed
    cases hrun'.symm.trans hrun
    -- The frames under the larger limits, cut where the shorter run ends.
    obtain ⟨k, rfl⟩ := Nat.exists_eq_add_of_le hm
    obtain ⟨-, hlong'⟩ := Agrees.playFrames hwithin p.play (m + k) 0 0 s hlimits counts s₁ hlong
    obtain ⟨counts₂, s₂, hshort, hrest⟩ := playFrames_add p.play m hlong'
    have hstart : (s.under larger).frame = 0 := hframe
    obtain ⟨hfirst, hframe₂⟩ := Continues.of_playFrames (s := s.under larger) ht (hframes.trans hframe.symm) hshort
    rw [hstart, Nat.zero_add] at hfirst hframe₂
    obtain ⟨-, t₂, ht₂, hinitial₂, hframes₂, later, hentries₂, hlater⟩ := hfirst
    obtain ⟨⟨-, t₁, ht₁, hinitial₁, -, later₁, hentries₁, hlater₁⟩, -⟩ := Continues.of_playFrames ht₂ hframes₂ hrest
    have hplayed' := runFrames_eq (n := m) (s := s.under larger) hplay ht
    rw [hshort] at hplayed'
    obtain ⟨overrun', s₃, hrun₃, htrace₃⟩ := hplayed'
    have htrace₁ : r.trace = t₁ := by
      rw [← hfinish, finish, htrace, show s₁.trace = some t₁ from ht₁]
      rfl
    rw [hentries, List.nil_append] at hentries₂
    refine ⟨{ trace := t₂, overrun := overrun' }, record_eq_ok_iff.mpr ⟨_, s₃, hload', hrun₃, ?_⟩, hframes₂.trans hframe₂, ?_, ?_⟩
    · rw [finish, htrace₃, ht₂]
      rfl
    · rw [htrace₁, hinitial₁]
    · rw [htrace₁, hentries₁, hentries₂]
      refine (filter_frame_lt (fun e he => (hlater e he).2) fun e he => ?_).symm
      rw [← hframe₂, ← hframes₂]
      exact (hlater₁ e he).1

theorem record_blip_writes :
    (record blip 2 { callCycles := 100 } false).toOption.map (·.trace.entries.size) = some 6 := by
  decide +kernel

theorem record_shorter_blip : ∃ r, record blip 2 { callCycles := 100 } false = .ok r ∧ r.trace.entries.size = 6 ∧
    ∃ r', record blip 1 {} false = .ok r' ∧ r'.trace.frames = 1 ∧ r'.trace.initial = r.trace.initial ∧
      r'.trace.entries.toList = r.trace.entries.toList.filter (·.frame < 1) := by
  have hwrites := record_blip_writes
  cases hr : record blip 2 { callCycles := 100 } false with
  | error e =>
    rw [hr] at hwrites
    cases hwrites
  | ok r =>
    rw [hr] at hwrites
    exact ⟨r, rfl, Option.some.inj hwrites, record_shorter hr (by decide) ⟨rfl, by decide, by decide⟩⟩

end Chiptune.Playback
