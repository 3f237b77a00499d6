/-
A song in the slots of the player, and the rules to run what reads it.

The slots hold their rows column by column (`Site.InColumns`). With the
frequencies, the tempo and the offsets of the voices' registers they are all
that the code reads of a song, its music apart (`Site.Carries`).
-/
import Chiptune.Player.Rows
import Chiptune.Proofs.Player.Minimal.Rendition
import Chiptune.Proofs.Player.Minimal.Pairs

namespace Chiptune.Player.Minimal

open Machine Sound Song

variable {here : Site} {s s' : State} {rest : List Item} {a : Argument}

/-! ## Songs in memory -/

/-- A row of a slot is in memory, each byte of it in its column. -/
def Site.InColumns (here : Site) (start capacity row : Nat) (bytes : Bytes) : Prop :=
  ∀ k b, bytes[k]? = some b → here.byte (start + capacity * k + row) = b

/-- A row of a program as it is in memory. -/
def rowBytes : Row → Bytes
  | .step bytes => bytes
  | .loop target => [Rows.loopMark, target]
  | .stop => [Rows.endMark]

/-- A kind of table that the player has a slot for. -/
theorem ne_arpeggio {kind : TableKind} {start : Nat} (hstart : offsetOf? (.table (.ofTable kind)) = some start) :
    kind ≠ .arpeggio := by
  rintro rfl
  cases hstart

/-- A step that does not look like a marker starts with a byte that is none. -/
theorem exists_first {kind : TableKind} {bytes : Bytes} (hkind : kind ≠ .arpeggio) (hwidth : bytes.length = kind.width)
    (hplain : Rows.collides kind (.step bytes) = false) :
    ∃ first rest, bytes = first :: rest ∧ first ≠ 0x7F ∧ first ≠ 0x7E := by
  cases bytes with
  | nil => cases kind <;> cases hwidth
  | cons first rest =>
    refine ⟨first, rest, rfl, ?_⟩
    cases kind with
    | arpeggio => exact absurd rfl hkind
    | wave | pulse | filter =>
      simp only [Rows.collides, Rows.isMarker, Bool.or_eq_false_iff, beq_eq_false_iff_ne] at hplain
      exact hplain

/-- The song is in the player. -/
structure Site.Carries (here : Site) (song : Song) (commands : List Command) : Prop where
  voiceOff : ∀ v < voiceCount, (here.byte (9 + v)).toNat = 7 * v
  tempo : here.byte 2473 = song.tempo
  frequencyLo : ∀ i ≤ Pitch.highest, here.byte (2281 + i) = Word.low (Pitch.frequency i)
  frequencyHi : ∀ i ≤ Pitch.highest, here.byte (2377 + i) = Word.high (Pitch.frequency i)
  instrument : ∀ (i : Nat) x, song.instruments[i]? = some x → here.InColumns slotsAt 32 i (Rows.encodeInstrument x)
  command : ∀ (i : Nat) c, commands[i]? = some c → here.InColumns 1033 32 i (Rows.encodeCommand c)
  program : ∀ kind start, offsetOf? (.table (.ofTable kind)) = some start → ∀ (i : Nat) row,
    (programRows song kind)[i]? = some row → here.InColumns start 128 i (rowBytes row)
  /-- No row of a table is numbered like none. -/
  short : ∀ kind, (programRows song kind).length ≤ 128
  /-- No step looks like a marker. -/
  plain : ∀ kind first bytes, .step (first :: bytes) ∈ programRows song kind → Rows.isMarker kind first = false
  few : commands.length ≤ 256
  known : ∀ c, .setCommand c ∈ song.events → c ∈ commands

namespace Site.InColumns

variable {start row : Nat}

theorem loop {target : UInt8} (h : here.InColumns start 128 row (rowBytes (.loop target))) :
    here.byte (start + row) = 0x7F ∧ here.byte (start + 128 + row) = target := ⟨h 0 _ rfl, h 1 _ rfl⟩

theorem stop (h : here.InColumns start 128 row (rowBytes .stop)) : here.byte (start + row) = 0x7E := h 0 _ rfl

theorem step {kind : TableKind} {bytes : Bytes} (h : here.InColumns start 128 row (rowBytes (.step bytes)))
    (hkind : kind ≠ .arpeggio) (hwidth : bytes.length = kind.width) (hplain : Rows.collides kind (.step bytes) = false) :
    here.byte (start + row) ≠ 0x7F ∧ here.byte (start + row) ≠ 0x7E := by
  obtain ⟨first, rest, rfl, hmarks⟩ := exists_first hkind hwidth hplain
  have hbyte : here.byte (start + row) = first := h 0 first rfl
  rw [hbyte]
  exact hmarks

end Site.InColumns

theorem Site.Carries.collides_eq_false {song : Song} {commands : List Command} (h : here.Carries song commands)
    {kind : TableKind} {bytes : Bytes} (hstep : .step bytes ∈ programRows song kind) :
    Rows.collides kind (.step bytes) = false := by
  cases bytes with
  | nil => rfl
  | cons first rest => exact h.plain kind first rest hstep

/-! ## Places -/

/-- A column of a slot. -/
theorem place?_column {slot : Slot} {start : Nat} (hstart : offsetOf? (.table slot) = some start) {n : UInt16}
    (hn : slotsAt ≤ start ∧ start + n.toNat + 255 < musicAt) :
    here.place? s (.absoluteY (.symbol (.table slot) n)) =
      some (.value (here.byte (start + n.toNat + s.regs.y.toNat))) := by
  have hy := s.regs.y.toNat_lt
  show here.target? (.symbol (.table slot) n) s.regs.y = _
  rw [target?_symbol (by simp), hstart, Option.bind_some, Site.datum?, if_pos (by omega)]

@[simp] theorem place?_instruments {n : UInt16} (hn : n.toNat ≤ 160) :
    here.place? s (.absoluteY (.symbol (.table .instruments) n)) =
      some (.value (here.byte (841 + n.toNat + s.regs.y.toNat))) :=
  place?_column rfl ⟨by decide, show _ < 2736 by omega⟩

@[simp] theorem place?_commands {n : UInt16} (hn : n.toNat ≤ 64) :
    here.place? s (.absoluteY (.symbol (.table .commands) n)) =
      some (.value (here.byte (1033 + n.toNat + s.regs.y.toNat))) :=
  place?_column rfl ⟨by decide, show _ < 2736 by omega⟩

@[simp] theorem place?_wave {n : UInt16} (hn : n.toNat ≤ 128) :
    here.place? s (.absoluteY (.symbol (.table .wave) n)) =
      some (.value (here.byte (1129 + n.toNat + s.regs.y.toNat))) :=
  place?_column rfl ⟨by decide, show _ < 2736 by omega⟩

@[simp] theorem place?_pulse {n : UInt16} (hn : n.toNat ≤ 256) :
    here.place? s (.absoluteY (.symbol (.table .pulse) n)) =
      some (.value (here.byte (1385 + n.toNat + s.regs.y.toNat))) :=
  place?_column rfl ⟨by decide, show _ < 2736 by omega⟩

@[simp] theorem place?_filter {n : UInt16} (hn : n.toNat ≤ 384) :
    here.place? s (.absoluteY (.symbol (.table .filter) n)) =
      some (.value (here.byte (1769 + n.toNat + s.regs.y.toNat))) :=
  place?_column rfl ⟨by decide, show _ < 2736 by omega⟩

@[simp] theorem column_eq (slot : Slot) (index : UInt16) : column slot index = .symbol (.table slot) (index *
    match slot with
    | .instruments | .commands => 32
    | .wave | .pulse | .filter => 128
    | .arpeggio => 0) := by
  cases slot <;> rfl

/-- The offset of a voice's registers. -/
@[simp] theorem place?_voiceOff (hx : s.regs.x.toNat < 3) :
    here.place? s (.absoluteX (.label "voice_off")) = some (.value (here.byte (9 + s.regs.x.toNat))) := by
  have hlabel : Assembly.offset? labels "voice_off" = some 9 := by decide
  show here.target? (.label "voice_off") s.regs.x = _
  simp only [Site.target?, hlabel, Option.bind_some]
  exact if_pos ⟨.inl (show _ < 771 by simp; omega), show _ < 2736 by simp; omega⟩

/-! ## Instructions -/

@[simp] theorem run_and (ha : isPlain a = true) : run here none (.instruction .and a :: rest) s =
    (here.place? s a).elim (.stuck, s) fun p =>
      run here none rest { s with regs := plain (s.regs.setA (s.regs.a &&& s.load p)) } :=
  run_registers (f := fun s v => s.regs.setA (s.regs.a &&& v)) (by decide) ha (fun p => by cases p <;> rfl) rest

@[simp] theorem run_ora (ha : isPlain a = true) : run here none (.instruction .ora a :: rest) s =
    (here.place? s a).elim (.stuck, s) fun p =>
      run here none rest { s with regs := plain (s.regs.setA (s.regs.a ||| s.load p)) } :=
  run_registers (f := fun s v => s.regs.setA (s.regs.a ||| v)) (by decide) ha (fun p => by cases p <;> rfl) rest

@[simp] theorem run_cpy (ha : isPlain a = true) : run here none (.instruction .cpy a :: rest) s =
    (here.place? s a).elim (.stuck, s) fun p =>
      run here none rest { s with regs := plain { s.regs with p := s.regs.p.compare s.regs.y (s.load p) } } :=
  run_registers (f := fun s v => { s.regs with p := s.regs.p.compare s.regs.y v }) (by decide) ha
    (fun p => by cases p <;> rfl) rest

@[simp] theorem run_dey : run here none (.instruction .dey .implied :: rest) s =
    run here none rest { s with regs := plain (s.regs.setY (s.regs.y - 1)) } :=
  run_registers (f := fun s _ => s.regs.setY (s.regs.y - 1)) (by decide) rfl (fun p => by cases p <;> rfl) rest

@[simp] theorem run_tya : run here none (.instruction .tya .implied :: rest) s =
    run here none rest { s with regs := plain (s.regs.setA s.regs.y) } :=
  run_registers (f := fun s _ => s.regs.setA s.regs.y) (by decide) rfl (fun p => by cases p <;> rfl) rest

@[simp] theorem run_inc_variable {n : UInt16} (hn : n.toNat < 70) :
    run here none (.instruction .inc (.absolute (.symbol .workArea n)) :: rest) s =
      run here none rest { s with
        regs := plain { s.regs with p := s.regs.p.withResult (s.cells n.toNat + 1) }
        cells := Function.update s.cells n.toNat (s.cells n.toNat + 1) } :=
  run_modify (f := (· + 1)) (by decide) (fun _ => rfl) rfl (place?_variable hn)

/-! ## The chip -/

/-- The register of a voice whose address this is for the first voice. -/
def registerAt (address : UInt16) : VoiceRegister :=
  if address = 0xD400 then .freqLo
  else if address = 0xD401 then .freqHi
  else if address = 0xD402 then .pulseLo
  else if address = 0xD403 then .pulseHi
  else if address = 0xD404 then .control
  else if address = 0xD405 then .attackDecay
  else .sustainRelease

theorem write_voice (b : Bank) (v : Voice) (register : VoiceRegister) (value : UInt8) :
    (b.write (Word.low (0xD400 + UInt16.ofNat register.offset + (UInt8.ofNat (7 * v.val)).toUInt16)) value).2 =
      b.set (.voice v register) value := by
  have hfound : Register.ofOffset? (Word.low (0xD400 + UInt16.ofNat register.offset +
      (UInt8.ofNat (7 * v.val)).toUInt16)) = some (.voice v register) := by
    revert v
    cases register <;> decide
  rw [Bank.write, hfound]

theorem inWindow_voice (v : Voice) (register : VoiceRegister) :
    inWindow (0xD400 + UInt16.ofNat register.offset + (UInt8.ofNat (7 * v.val)).toUInt16) = true := by
  revert v
  cases register <;> decide

/-- A register of the voice in X is written, with its offset in Y. -/
theorem run_sta_register {v : Voice} (register : VoiceRegister) (hy : s.regs.y.toNat = 7 * v.val) :
    run here none (.instruction .sta (.absoluteY (.fixed (0xD400 + UInt16.ofNat register.offset))) :: rest) s =
      run here none rest { s with regs := plain s.regs, sid := s.sid.set (.voice v register) s.regs.a } := by
  have hoff : s.regs.y = UInt8.ofNat (7 * v.val) := by rw [← hy, UInt8.ofNat_toNat]
  have hplace : here.place? s (.absoluteY (.fixed (0xD400 + UInt16.ofNat register.offset))) =
      some (.chip (0xD400 + UInt16.ofNat register.offset + (UInt8.ofNat (7 * v.val)).toUInt16)) := by
    show (if inWindow (_ + s.regs.y.toUInt16) then _ else _) = _
    rw [hoff, if_pos (inWindow_voice v register)]
  rw [run_sta rfl hplace rfl, State.store, write_voice]
  rfl

@[simp] theorem run_sta_voiceChip (hx : s.regs.x.toNat < 3) (hy : s.regs.y.toNat = 7 * s.regs.x.toNat) {address : UInt16}
    (haddress : address = 0xD400 + UInt16.ofNat (registerAt address).offset) :
    run here none (.instruction .sta (.absoluteY (.fixed address)) :: rest) s =
      run here none rest { s with
        regs := plain s.regs
        sid := s.sid.set (.voice (Voice.ofNat s.regs.x.toNat) (registerAt address)) s.regs.a } := by
  have hv : (Voice.ofNat s.regs.x.toNat).val = s.regs.x.toNat := Nat.mod_eq_of_lt hx
  generalize registerAt address = register at haddress
  subst haddress
  exact run_sta_register register (by rw [hv, hy])

attribute [simp] registerAt VoiceRegister.offset

end Chiptune.Player.Minimal
