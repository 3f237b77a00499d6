/-
The update of a voice and the filter, with the programs they step.

Each program is read in the same way: a marker of a loop leads to another row,
and what is there is a step or an end (`Site.Carries.looks`, `Site.Carries.step`,
`Site.Carries.stop`).
-/
import Chiptune.Proofs.Player.Minimal.Tracks

namespace Chiptune.Player.Minimal

open Machine Sound Song Music

variable {here : Site} {song : Song} {commands : List Command} {s s' : State} {rest : List Item} {r r' : Rendition}
  {p p' : Part} {v : Voice}

/-! ## Rows of programs -/

namespace Site.Carries

section

variable {kind : TableKind} {n : Nat} {row : UInt8}

/-- A row of a table is not numbered like none. -/
theorem row_ne (h : here.Carries song commands) (hrow : row.toNat < (programRows song kind).length) : row ≠ 0xFF := by
  rintro rfl
  have hshort := h.short kind
  have h255 : (0xFF : UInt8).toNat = 255 := rfl
  omega

/-- A row is the one that is read, or a loop to it. -/
theorem looks (h : here.Carries song commands) (hsong : song.WellFormed)
    (hstart : offsetOf? (.table (.ofTable kind)) = some n) (hrow : row.toNat < (programRows song kind).length) :
    (here.byte (n + row.toNat) = 0x7F ∧
        here.byte (n + 128 + row.toNat) = (reached (programRows song kind) row).1) ∨
      (here.byte (n + row.toNat) ≠ 0x7F ∧ (reached (programRows song kind) row).1 = row) := by
  have hat := List.getElem?_eq_getElem hrow
  have hcolumns := h.program kind n hstart _ _ hat
  have hspec := (reached_spec hsong hrow).2.2
  cases hfound : (programRows song kind)[row.toNat] with
  | loop target =>
    rw [hfound] at hat hcolumns
    rw [reached, hat]
    exact .inl hcolumns.loop
  | stop =>
    rw [hfound] at hat hcolumns
    refine .inr ⟨?_, by rw [reached, hat]; rfl⟩
    rw [hcolumns.stop]
    decide
  | step bytes =>
    rw [hfound] at hat hcolumns
    have hreached : reached (programRows song kind) row = (row, .step bytes) := by
      rw [reached, hat]
      rfl
    rw [hreached] at hspec ⊢
    exact .inr ⟨(hcolumns.step (ne_arpeggio hstart) (hspec bytes rfl).1
      (h.collides_eq_false (List.mem_of_getElem? hat))).1, rfl⟩

/-- The bytes of a step that is read. -/
theorem step (h : here.Carries song commands) (hsong : song.WellFormed)
    (hstart : offsetOf? (.table (.ofTable kind)) = some n) (hrow : row.toNat < (programRows song kind).length)
    {found : UInt8} {bytes : Bytes} (hfound : reached (programRows song kind) row = (found, .step bytes)) :
    (∀ k < kind.width, here.byte (n + 128 * k + found.toNat) = bytes[k]?.getD 0) ∧
      bytes[0]?.getD 0 ≠ 0x7F ∧ bytes[0]?.getD 0 ≠ 0x7E := by
  obtain ⟨hat, -, hspec⟩ := reached_spec hsong hrow
  rw [hfound] at hat hspec
  have hwidth := (hspec bytes rfl).1
  have hcolumns := h.program kind n hstart _ _ hat
  refine ⟨fun k hk => ?_, ?_⟩
  · have hbyte := List.getElem?_eq_getElem (hwidth ▸ hk)
    rw [hcolumns k _ hbyte, hbyte]
    rfl
  · obtain ⟨first, rest, rfl, hmarks⟩ := exists_first (ne_arpeggio hstart) hwidth
      (h.collides_eq_false (List.mem_of_getElem? hat))
    exact hmarks

/-- The mark of an end that is read. -/
theorem stop (h : here.Carries song commands) (hsong : song.WellFormed)
    (hstart : offsetOf? (.table (.ofTable kind)) = some n) (hrow : row.toNat < (programRows song kind).length)
    {found : UInt8} (hfound : reached (programRows song kind) row = (found, .stop)) :
    here.byte (n + found.toNat) = 0x7E := by
  have hat := (reached_spec hsong hrow).1
  rw [hfound] at hat
  exact (h.program kind n hstart _ _ hat).stop

end

end Site.Carries

/-! ## Blocks -/

/-- A block that leads on to a label, which is next. -/
theorem run_onto {l : String} {block : List Item} (after : List Item)
    (hway : (run here none block s).1 = .fall ∨ (run here none block s).1 = .goto l) :
    run here none (block ++ .label l :: after) s = run here none (.label l :: after) (run here none block s).2 := by
  rw [run_append]
  rcases hrun : run here none block s with ⟨w, s'⟩
  rw [hrun] at hway
  rcases hway with rfl | rfl
  · rfl
  · simp only [run_skip_label, if_true]
    rfl

/-- A block that can only lead on to a label, which is next. -/
theorem run_into (here : Site) {l : String} {block : List Item} (after : List Item)
    (hsteady : ∀ item ∈ block, isSteady item = true)
    (hways : ∀ w ∈ ways none block, w = .fall ∨ w = .goto l) (hx : s.regs.x.toNat < 3) (hsaved : s.saved = []) :
    run here none (block ++ .label l :: after) s = run here none (.label l :: after) (run here none block s).2 :=
  run_onto after (hways _ (run_steady here block none hsteady (.of_lt hx) hsaved).1)

@[simp] theorem run_nil : run here none [] s = (.fall, s) := rfl

@[simp] theorem run_seek_nil {l : String} : run here (some l) [] s = (.goto l, s) := rfl

/-- A row of a program is looked up: which one is read, its first byte, and what the position becomes. -/
structure Looked (found first : UInt8) (n : Nat) (s s' : State) : Prop where
  y : s'.regs.y = found
  a : s'.regs.a = first
  cells : s'.cells = Function.update s.cells n found
  sid : s'.sid = s.sid

/-- A difference that borrows nothing. -/
theorem sub_fst {f : Flags} (hcarry : f.carry = true) (hdecimal : f.decimal = false) (a v : UInt8) :
    (f.sub a v).1 = a - v := by
  have ha := a.toNat_lt
  have hv := v.toNat_lt
  have hsize : UInt8.size = 256 := rfl
  simp only [Flags.sub, Flags.add, hdecimal, Bool.false_eq_true, if_false, Flags.addBinary, hcarry, Bool.toNat_true]
  apply UInt8.toNat_inj.mp
  rw [UInt8.toNat_ofNat', UInt8.toNat_sub, UInt8.toNat_not]
  omega

section Wave

variable {row found first second third : UInt8}

theorem looked_wave (hx : s.regs.x.toNat = v.val) (hcell : s.cells (39 + v) = row)
    (hlooks : (here.byte (1129 + row.toNat) = 0x7F ∧ here.byte (1257 + row.toNat) = found) ∨
      (here.byte (1129 + row.toNat) ≠ 0x7F ∧ found = row)) :
    Looked found (here.byte (1129 + found.toNat)) (39 + v) s (run here none (updateWave.take 9) s).2 := by
  subst hcell
  rcases hlooks with ⟨hmark, hfound⟩ | ⟨hmark, rfl⟩
  · constructor <;> simp -implicitDefEqProofs [updateWave, hx, hmark, hfound]
  · constructor <;> simp -implicitDefEqProofs [updateWave, hx, hmark]

theorem cells_wave_step (hx : s.regs.x.toNat = v.val) (hy : s.regs.y = found) (ha : s.regs.a = first)
    (hplain : first ≠ 0x7E) (hsecond : here.byte (1257 + found.toNat) = second) :
    (run here none (updateWave.drop 9) s).2.cells = Function.update (Function.update (Function.update s.cells (42 + v) first)
        (45 + v) second) (39 + v) (s.cells (39 + v) + 1) ∧
      (run here none (updateWave.drop 9) s).2.sid = s.sid := by
  constructor <;> simp -implicitDefEqProofs [updateWave, hx, hy, ha, hplain, hsecond]

theorem cells_wave_stop (ha : s.regs.a = 0x7E) :
    (run here none (updateWave.drop 9) s).2.cells = s.cells ∧ (run here none (updateWave.drop 9) s).2.sid = s.sid := by
  constructor <;> simp -implicitDefEqProofs [updateWave, ha]

theorem looked_pulse (hx : s.regs.x.toNat = v.val) (hcell : s.cells (48 + v) = row) (hy : s.regs.y = row)
    (hlooks : (here.byte (1385 + row.toNat) = 0x7F ∧ here.byte (1513 + row.toNat) = found) ∨
      (here.byte (1385 + row.toNat) ≠ 0x7F ∧ found = row)) :
    Looked found (here.byte (1385 + found.toNat)) (48 + v) s (run here none (updatePulse.take 8) s).2 := by
  subst hcell
  rcases hlooks with ⟨hmark, hfound⟩ | ⟨hmark, rfl⟩
  · constructor <;> simp -implicitDefEqProofs [updatePulse, hx, hy, hmark, hfound]
  · constructor <;> simp -implicitDefEqProofs [updatePulse, hx, hy, hmark]

theorem cells_pulse_step (hx : s.regs.x.toNat = v.val) (hdecimal : s.regs.p.decimal = false) (hy : s.regs.y = found)
    (ha : s.regs.a = first) (hplain : first ≠ 0x7E) (hsecond : here.byte (1513 + found.toNat) = second)
    (hthird : here.byte (1641 + found.toNat) = third) :
    (run here none ((updatePulse.drop 8).take 13) s).2.cells = Function.update (Function.update (Function.update
        (Function.update s.cells (57 + v) first) (54 + v) second) (51 + v) (if third = 0 then 0 else third - 1))
        (48 + v) (s.cells (48 + v) + 1) ∧
      (run here none ((updatePulse.drop 8).take 13) s).2.sid = s.sid := by
  by_cases hzero : third = 0
  · constructor <;> simp -implicitDefEqProofs [updatePulse, hx, hy, ha, hplain, hsecond, hthird, hzero]
  · constructor <;>
      simp -implicitDefEqProofs [updatePulse, sub_fst, hx, hdecimal, hy, ha, hplain, hsecond, hthird, hzero]

theorem cells_pulse_stop (ha : s.regs.a = 0x7E) :
    (run here none ((updatePulse.drop 8).take 13) s).2.cells = s.cells ∧
      (run here none ((updatePulse.drop 8).take 13) s).2.sid = s.sid := by
  constructor <;> simp -implicitDefEqProofs [updatePulse, ha]

end Wave

theorem in_iff {v : Nat} : p.In v s ↔ s.cells (15 + v) = p.transpose.toUInt8 ∧ s.cells (18 + v) = p.wait ∧
    s.cells (21 + v) = p.note ∧ s.cells (24 + v) = p.instrument ∧ s.cells (27 + v) = flag p.tied ∧
    s.cells (30 + v) = flag p.gate ∧ s.cells (33 + v) = flag p.active ∧ s.cells (36 + v) = flag p.stopped ∧
    s.cells (39 + v) = p.wave ∧ s.cells (42 + v) = p.control ∧ s.cells (45 + v) = p.offset ∧
    s.cells (48 + v) = p.pulse.getD Rows.noProgram ∧ s.cells (51 + v) = p.hold ∧ s.cells (54 + v) = p.pulseLo ∧
    s.cells (57 + v) = p.pulseHi :=
  ⟨fun ⟨h1, h2, h3, h4, h5, h6, h7, h8, h9, h10, h11, h12, h13, h14, h15⟩ =>
      ⟨h1, h2, h3, h4, h5, h6, h7, h8, h9, h10, h11, h12, h13, h14, h15⟩,
    fun ⟨h1, h2, h3, h4, h5, h6, h7, h8, h9, h10, h11, h12, h13, h14, h15⟩ =>
      ⟨h1, h2, h3, h4, h5, h6, h7, h8, h9, h10, h11, h12, h13, h14, h15⟩⟩

theorem updateWave_take : (∀ item ∈ updateWave.take 9, isSteady item = true) ∧
    ∀ w ∈ ways none (updateWave.take 9), w = .fall ∨ w = .goto "wave_not_loop" := by
  decide

/-- **The wave program is stepped.** -/
theorem in_updateWave (hcarries : here.Carries song commands) (hsong : song.WellFormed) (hx : s.regs.x.toNat = v.val)
    (hsaved : s.saved = []) (hp : p.In v s) (hvalid : p.wave.toNat < (programRows song .wave).length) :
    (p.stepWave song).In v (run here none updateWave s).2 ∧ (run here none updateWave s).2.sid = s.sid := by
  have hlt : s.regs.x.toNat < 3 := hx ▸ v.isLt
  have hlooked := looked_wave hx hp.wave (hcarries.looks (n := 1129) hsong rfl hvalid)
  have hkeeps := (run_steady here _ none updateWave_take.1 (.of_lt hlt) hsaved).2
  have hsplit : run here none updateWave s = run here none (updateWave.drop 9) (run here none (updateWave.take 9) s).2 :=
    run_into here (updateWave.drop 10) updateWave_take.1 updateWave_take.2 hlt hsaved
  rw [hsplit]
  have hx₁ : (run here none (updateWave.take 9) s).2.regs.x.toNat = v.val := by rw [hkeeps.x, hx]
  have hspec := reached_spec hsong hvalid
  rw [in_iff] at hp ⊢
  rcases hfound : reached (programRows song .wave) p.wave with ⟨found, row⟩
  rw [hfound] at hlooked hspec
  simp only [Part.stepWave, hfound]
  cases row with
  | loop target => exact absurd rfl (hspec.2.1 target)
  | step bytes =>
    obtain ⟨hbytes, -, hplain⟩ := hcarries.step (n := 1129) hsong rfl hvalid hfound
    obtain ⟨hcells, hsid⟩ := cells_wave_step hx₁ hlooked.y (hlooked.a.trans (hbytes 0 (by decide))) hplain
      (hbytes 1 (by decide))
    rw [hcells, hsid, hlooked.cells, hlooked.sid]
    simp [hp]
  | stop =>
    obtain ⟨hcells, hsid⟩ := cells_wave_stop (hlooked.a.trans (hcarries.stop (n := 1129) hsong rfl hvalid hfound))
    rw [hcells, hsid, hlooked.cells, hlooked.sid]
    simp [hp]

/-! ## Registers -/

/-- The frequency of a voice has been looked up. -/
def Pitched (p : Part) (s : State) : Prop :=
  s.cells 68 = Word.low (Pitch.frequency p.pitch.toNat) ∧ s.cells 69 = Word.high (Pitch.frequency p.pitch.toNat)

theorem Pitched.congr (h : Pitched p s) (hpitch : p'.pitch = p.pitch)
    (hcells : ∀ n, 60 ≤ n → s'.cells n = s.cells n) : Pitched p' s' := by
  rw [Pitched, hpitch, hcells 68 (by decide), hcells 69 (by decide)]
  exact h

/-- The registers are written without the pulse width, if no pulse program runs. -/
theorem in_registers (hx : s.regs.x.toNat = v.val) (hoff : (here.byte (9 + v.val)).toNat = 7 * v.val)
    (hsaved : s.saved = []) (hp : p.In v s) (hpitched : Pitched p s) (hpulse : p.pulse = none) :
    p.In v (run here none updateRegisters s).2 ∧ (run here none updateRegisters s).2.sid = p.written v s.sid := by
  have hvoice : Voice.ofNat v.val = v := Fin.ext (Nat.mod_eq_of_lt v.isLt)
  have hcells : (run here none updateRegisters s).2.cells = s.cells := by
    simp -implicitDefEqProofs [updateRegisters, hx, hoff, hvoice, hsaved]
  refine ⟨hp.congr (fun n _ _ _ => congrFun hcells n) v.isLt, ?_⟩
  simp -implicitDefEqProofs [updateRegisters, hx, hoff, hvoice, hsaved, Part.written, Part.controlByte, hpulse, hpitched.1,
    hpitched.2, hp.control, hp.gate, withoutGate, flag, Sound.gate]

/-- The registers are written, the pulse width with them. -/
theorem in_pulse_registers (hx : s.regs.x.toNat = v.val) (hoff : (here.byte (9 + v.val)).toNat = 7 * v.val)
    (hsaved : s.saved = []) (hp : p.In v s) (hpitched : Pitched p s) (hpulse : p.pulse.isSome = true) :
    p.In v (run here none (updatePulse.drop 21 ++ updateRegisters) s).2 ∧
      (run here none (updatePulse.drop 21 ++ updateRegisters) s).2.sid = p.written v s.sid := by
  have hvoice : Voice.ofNat v.val = v := Fin.ext (Nat.mod_eq_of_lt v.isLt)
  have hcells : (run here none (updatePulse.drop 21 ++ updateRegisters) s).2.cells = s.cells := by
    simp -implicitDefEqProofs [updatePulse, updateRegisters, hx, hoff, hvoice, hsaved]
  refine ⟨hp.congr (fun n _ _ _ => congrFun hcells n) v.isLt, ?_⟩
  simp -implicitDefEqProofs [updatePulse, updateRegisters, hx, hoff, hvoice, hsaved, Part.written, Part.controlByte, hpulse,
    hpitched.1, hpitched.2, hp.control, hp.gate, hp.pulseLo, hp.pulseHi, withoutGate, flag, Sound.gate]

/-- The ways on from where a frequency is looked up: no pulse program, one that holds, one that reads a row. -/
theorem run_pulse_none (hx : s.regs.x.toNat = v.val) (hcell : s.cells (48 + v) = 0xFF) :
    (run here none (updatePitch.drop 9) s).1 = .goto "voice_regs_offset" ∧
      (run here none (updatePitch.drop 9) s).2.cells = s.cells ∧ (run here none (updatePitch.drop 9) s).2.sid = s.sid := by
  refine ⟨?_, ?_, ?_⟩ <;> simp -implicitDefEqProofs [updatePitch, hx, hcell]

theorem run_pulse_hold (hx : s.regs.x.toNat = v.val) (hcell : s.cells (48 + v) ≠ 0xFF) (hhold : s.cells (51 + v) ≠ 0) :
    (run here none (updatePitch.drop 9) s).1 = .goto "pulse_write" ∧
      (run here none (updatePitch.drop 9) s).2.cells = Function.update s.cells (51 + v) (s.cells (51 + v) - 1) ∧
      (run here none (updatePitch.drop 9) s).2.sid = s.sid := by
  refine ⟨?_, ?_, ?_⟩ <;> simp -implicitDefEqProofs [updatePitch, hx, hcell, hhold]

theorem run_pulse_read (hx : s.regs.x.toNat = v.val) (hcell : s.cells (48 + v) ≠ 0xFF) (hhold : s.cells (51 + v) = 0) :
    (run here none (updatePitch.drop 9) s).1 = .goto "pulse_read" ∧
      (run here none (updatePitch.drop 9) s).2.cells = s.cells ∧ (run here none (updatePitch.drop 9) s).2.sid = s.sid ∧
      (run here none (updatePitch.drop 9) s).2.regs.y = s.cells (48 + v) := by
  refine ⟨?_, ?_, ?_, ?_⟩ <;> simp -implicitDefEqProofs [updatePitch, hx, hcell, hhold]

theorem run_goto_append {l : String} {block : List Item} (hway : (run here none block s).1 = .goto l) :
    run here none (block ++ rest) s = run here (some l) rest (run here none block s).2 := by
  rw [run_append]
  rcases hrun : run here none block s with ⟨w, s'⟩
  rw [hrun] at hway
  cases hway
  rfl

theorem updatePulse_blocks :
    ((∀ item ∈ updatePulse.take 8, isSteady item = true) ∧
      ∀ w ∈ ways none (updatePulse.take 8), w = .fall ∨ w = .goto "pulse_not_loop") ∧
    (∀ item ∈ (updatePulse.drop 8).take 13, isSteady item = true) ∧
      ∀ w ∈ ways none ((updatePulse.drop 8).take 13), w = .fall ∨ w = .goto "pulse_write" := by
  decide

theorem updatePitch_drop : ∀ item ∈ updatePitch.drop 9, isSteady item = true := by decide

/-- A step of the pulse program is read, and the registers are written. -/
theorem in_updatePulse (hcarries : here.Carries song commands) (hsong : song.WellFormed) (hx : s.regs.x.toNat = v.val)
    (hsaved : s.saved = []) (hdecimal : s.regs.p.decimal = false) (hp : p.In v s) (hpitched : Pitched p s) {row : UInt8}
    (hpulse : p.pulse = some row) (hhold : p.hold = 0) (hrow : row.toNat < (programRows song .pulse).length)
    (hy : s.regs.y = row) :
    (p.stepPulse song).In v (run here none (updatePulse ++ updateRegisters) s).2 ∧
      (run here none (updatePulse ++ updateRegisters) s).2.sid = (p.stepPulse song).written v s.sid := by
  obtain ⟨⟨hsteady, hways⟩, hsteady', hways'⟩ := updatePulse_blocks
  have hlt : s.regs.x.toNat < 3 := hx ▸ v.isLt
  have hvoice := v.isLt
  have hcell : s.cells (48 + v) = row := by rw [hp.pulse, hpulse]; rfl
  have hlooked := looked_pulse hx hcell hy (hcarries.looks (n := 1385) hsong rfl hrow)
  have hspec := reached_spec hsong hrow
  have hkeeps := (run_steady here _ none hsteady (.of_lt hlt) hsaved).2
  have hsplit : run here none (updatePulse ++ updateRegisters) s =
      run here none ((updatePulse.drop 8).take 13 ++ (updatePulse.drop 21 ++ updateRegisters))
        (run here none (updatePulse.take 8) s).2 :=
    run_into here (updatePulse.drop 9 ++ updateRegisters) hsteady hways hlt hsaved
  rw [hsplit]
  generalize (run here none (updatePulse.take 8) s).2 = s₁ at hlooked hkeeps
  have hx₁ : s₁.regs.x.toNat = v.val := by rw [hkeeps.x, hx]
  have hlt₁ : s₁.regs.x.toNat < 3 := hx₁ ▸ v.isLt
  have hsaved₁ := hkeeps.saved.trans hsaved
  have hkeeps₂ := (run_steady here _ none hsteady' (.of_lt hlt₁) hsaved₁).2
  have hsplit' : run here none ((updatePulse.drop 8).take 13 ++ (updatePulse.drop 21 ++ updateRegisters)) s₁ =
      run here none (updatePulse.drop 21 ++ updateRegisters) (run here none ((updatePulse.drop 8).take 13) s₁).2 :=
    run_into here (updatePulse.drop 22 ++ updateRegisters) hsteady' hways' hlt₁ hsaved₁
  rw [hsplit']
  have hx₂ : (run here none ((updatePulse.drop 8).take 13) s₁).2.regs.x.toNat = v.val := by rw [hkeeps₂.x, hx₁]
  have hsaved₂ := hkeeps₂.saved.trans hsaved₁
  -- what is left to do is to write the registers of the part after its step
  have hwrite {p' : Part} (hin : p'.In v (run here none ((updatePulse.drop 8).take 13) s₁).2)
      (hpitched : Pitched p' (run here none ((updatePulse.drop 8).take 13) s₁).2)
      (hsid : (run here none ((updatePulse.drop 8).take 13) s₁).2.sid = s.sid) (hsome : p'.pulse.isSome = true) :=
    hsid ▸ in_pulse_registers hx₂ (hcarries.voiceOff v.val v.isLt) hsaved₂ hin hpitched hsome
  rw [in_iff] at hp
  rcases hfound : reached (programRows song .pulse) row with ⟨found, r⟩
  rw [hfound] at hlooked hspec
  simp only [Part.stepPulse, hpulse, hhold, if_true, hfound]
  cases r with
  | loop target => exact absurd rfl (hspec.2.1 target)
  | step bytes =>
    obtain ⟨hbytes, -, hplain⟩ := hcarries.step (n := 1385) hsong rfl hrow hfound
    obtain ⟨hcells, hsid⟩ := cells_pulse_step hx₁ (hkeeps.decimal.trans hdecimal) hlooked.y
      (hlooked.a.trans (hbytes 0 (by decide))) hplain (hbytes 1 (by decide)) (hbytes 2 (by decide))
    refine hwrite ?_ (hpitched.congr rfl fun n hn => ?_) (hsid.trans hlooked.sid) rfl
    · rw [in_iff, hcells, hlooked.cells]
      simp [hp]
    · rw [hcells, hlooked.cells]
      simp only [Function.update_of_ne (show n ≠ 48 + v.val by omega), Function.update_of_ne (show n ≠ 51 + v.val by omega),
        Function.update_of_ne (show n ≠ 54 + v.val by omega), Function.update_of_ne (show n ≠ 57 + v.val by omega)]
  | stop =>
    obtain ⟨hcells, hsid⟩ := cells_pulse_stop (hlooked.a.trans (hcarries.stop (n := 1385) hsong rfl hrow hfound))
    refine hwrite ?_ (hpitched.congr rfl fun n hn => ?_) (hsid.trans hlooked.sid) rfl
    · rw [in_iff, hcells, hlooked.cells]
      simp [hp, hhold]
    · rw [hcells, hlooked.cells]
      exact Function.update_of_ne (by omega) ..

/-- **A voice writes its registers**, after its pulse program is stepped. -/
theorem in_updateRest (hcarries : here.Carries song commands) (hsong : song.WellFormed) (hx : s.regs.x.toNat = v.val)
    (hsaved : s.saved = []) (hdecimal : s.regs.p.decimal = false) (hp : p.In v s) (hpitched : Pitched p s)
    (hvalid : ∀ row, p.pulse = some row → row.toNat < (programRows song .pulse).length) :
    (p.stepPulse song).In v (run here none updateRest s).2 ∧
      (run here none updateRest s).2.sid = (p.stepPulse song).written v s.sid := by
  have hlt : s.regs.x.toNat < 3 := hx ▸ v.isLt
  have hvoice := v.isLt
  have hoff := hcarries.voiceOff v.val v.isLt
  have hkeeps := (run_steady here _ none updatePitch_drop (.of_lt hlt) hsaved).2
  have hx₁ : (run here none (updatePitch.drop 9) s).2.regs.x.toNat = v.val := by rw [hkeeps.x, hx]
  have hsaved₁ := hkeeps.saved.trans hsaved
  rw [updateRest]
  cases hpulse : p.pulse with
  | none =>
    have hcell : s.cells (48 + v) = 0xFF := by rw [hp.pulse, hpulse]; rfl
    have hstay : p.stepPulse song = p := by simp only [Part.stepPulse, hpulse]
    obtain ⟨hway, hcells, hsid⟩ := @run_pulse_none here s v hx hcell
    have hnext (s : State) : run here (some "voice_regs_offset") (updatePulse ++ updateRegisters) s =
        run here none updateRegisters s :=
      @run_ahead here s _ _ (updateRegisters.drop 1) (by decide)
    rw [run_goto_append hway, hnext, hstay, ← hsid]
    exact in_registers hx₁ hoff hsaved₁ (hp.congr (fun n _ _ _ => congrFun hcells n) v.isLt)
      (by rw [Pitched, hcells]; exact hpitched) hpulse
  | some row =>
    have hrow := hvalid row hpulse
    have hne : s.cells (48 + v) ≠ 0xFF := by
      rw [hp.pulse, hpulse]
      exact hcarries.row_ne hrow
    by_cases hhold : p.hold = 0
    · obtain ⟨hway, hcells, hsid, hy⟩ := @run_pulse_read here s v hx hne (hp.hold.trans hhold)
      have hnext (s : State) : run here (some "pulse_read") (updatePulse ++ updateRegisters) s =
          run here none (updatePulse ++ updateRegisters) s :=
        @run_ahead here s "pulse_read" [] (updatePulse.drop 1 ++ updateRegisters) (by decide)
      rw [run_goto_append hway, hnext, ← hsid]
      exact in_updatePulse hcarries hsong hx₁ hsaved₁ (hkeeps.decimal.trans hdecimal)
        (hp.congr (fun n _ _ _ => congrFun hcells n) v.isLt) (by rw [Pitched, hcells]; exact hpitched) hpulse hhold hrow
        (hy.trans (by rw [hp.pulse, hpulse]; rfl))
    · obtain ⟨hway, hcells, hsid⟩ := @run_pulse_hold here s v hx hne (by rw [hp.hold]; exact hhold)
      have hnext (s : State) : run here (some "pulse_write") (updatePulse ++ updateRegisters) s =
          run here none (updatePulse.drop 21 ++ updateRegisters) s :=
        @run_ahead here s "pulse_write" (updatePulse.take 21) (updatePulse.drop 22 ++ updateRegisters) (by decide)
      have hstep : p.stepPulse song = { p with hold := p.hold - 1 } := by simp only [Part.stepPulse, hpulse, hhold, if_false]
      rw [run_goto_append hway, hnext, hstep, ← hsid]
      refine in_pulse_registers hx₁ hoff hsaved₁ ?_ (hpitched.congr rfl fun n hn => ?_) (by rw [hpulse]; rfl)
      · rw [in_iff] at hp ⊢
        rw [hcells]
        simp [hp]
      · rw [hcells]
        exact Function.update_of_ne (by omega) ..

end Chiptune.Player.Minimal
