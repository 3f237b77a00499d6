/-
Rules to run a block with.

There is one for each instruction that the player uses where it handles
addresses or counts voices. They are for `simp`: it takes a block instruction by
instruction, and what is left is the way out with a state written out in full.
-/
import Chiptune.Proofs.Player.Minimal.Blocks

namespace Chiptune.Player.Minimal

open Machine Sound

variable {here : Site} {s : State} {rest : List Item} {a : Argument} {v : UInt8} {l : String}

-- what the listing and the rules are made of is opened on the way
attribute [simp] op var start chip Variable.offset sequencePointer orderPointer isPointer Music.stopMark Music.loopMark
  Music.transposeBias plain Registers.setA Registers.setX Registers.setY Flags.withResult Flags.compare

@[simp] theorem load_accumulator : s.load .accumulator = s.regs.a := rfl
@[simp] theorem load_value : s.load (.value v) = v := rfl
@[simp] theorem load_cell (n : Nat) : s.load (.cell n) = s.cells n := rfl

@[simp] theorem sign_zero : Flags.sign 0 = false := by decide

@[simp] theorem sub_eq_zero_iff {v w : UInt8} : v - w = 0 ↔ v = w := by
  refine ⟨fun h => ?_, fun h => by rw [h, UInt8.sub_self]⟩
  rw [← UInt8.sub_add_cancel v w, h, UInt8.zero_add]

/-! ### Counting down -/

theorem toNat_pred {x : UInt8} (hpositive : x ≠ 0) : (x - 1).toNat + 1 = x.toNat := by
  have hnonzero : x.toNat ≠ 0 := fun h => hpositive (UInt8.toNat_inj.mp h)
  have hle : (1 : UInt8) ≤ x := UInt8.le_iff_toNat_le.mpr (Nat.pos_of_ne_zero hnonzero)
  have hpred : (x - 1).toNat = x.toNat - 1 := UInt8.toNat_sub_of_le x 1 hle
  omega

/-- A loop that counts down goes on. -/
theorem sign_pred {x : UInt8} (hx : x.toNat < 128) (hpositive : x ≠ 0) : Flags.sign (x - 1) = false := by
  have hpred := toNat_pred hpositive
  rw [Flags.sign, decide_eq_false_iff_not]
  omega

/-- It ends after zero. -/
theorem sign_pred_zero {x : UInt8} (hzero : x = 0) : Flags.sign (x - 1) = true := by
  rw [hzero]
  decide

theorem pred_toNat {n bound : Nat} {x : UInt8} (hx : x.toNat = n + 1) (hn : n + 1 < bound) :
    x ≠ 0 ∧ x.toNat < bound ∧ (x - 1).toNat = n := by
  have hpositive : x ≠ 0 := by
    rintro rfl
    cases hx
  have hpred := toNat_pred hpositive
  exact ⟨hpositive, hx ▸ hn, by omega⟩

/-! ## Instructions -/

/-- The argument is not one of a jump. -/
def isPlain : Argument → Bool
  | .absolute (.label _) | .branch _ => false
  | _ => true

@[simp] theorem isPlain_immediate : isPlain (.immediate v) = true := rfl
@[simp] theorem isPlain_zeroPage : isPlain (.zeroPage v) = true := rfl
@[simp] theorem isPlain_indirectIndexed : isPlain (.indirectIndexed v) = true := rfl
@[simp] theorem isPlain_absoluteX (t : Target) : isPlain (.absoluteX t) = true := rfl
@[simp] theorem isPlain_absoluteY (t : Target) : isPlain (.absoluteY t) = true := rfl
@[simp] theorem isPlain_symbol (symbol : Symbol) (n : UInt16) : isPlain (.absolute (.symbol symbol n)) = true := rfl
@[simp] theorem isPlain_fixed (address : UInt16) : isPlain (.absolute (.fixed address)) = true := rfl

theorem act_eq {m : Mnemonic} (ha : isPlain a = true) : here.act m a s = here.actHere m a s := by
  cases a with
  | absolute t => cases t <;> first | rfl | cases ha
  | branch => cases ha
  | _ => rfl

/-- An instruction that computes. -/
theorem run_computing {m : Mnemonic} (hm : m ∈ computing) (ha : isPlain a = true) (rest : List Item) :
    run here none (.instruction m a :: rest) s =
      (here.compute? m a s).elim (.stuck, s) fun s => run here none rest s := by
  rw [run, act_eq ha, actHere_computing hm]
  cases here.compute? m a s <;> rfl

/-- An instruction that stores nothing. -/
theorem run_registers {m : Mnemonic} (hm : m ∈ computing) (ha : isPlain a = true) {f : State → UInt8 → Registers}
    (h : ∀ p, m.execute (fun _ => s.load p) p.operand s.regs = { regs := f s (s.load p) }) (rest : List Item) :
    run here none (.instruction m a :: rest) s =
      (here.place? s a).elim (.stuck, s) fun p => run here none rest { s with regs := plain (f s (s.load p)) } := by
  rw [run_computing hm ha, Site.compute?, if_pos hm]
  cases here.place? s a with
  | none => rfl
  | some p =>
    simp only [Option.bind_some, h p]
    rfl

/-- The registers after a sum. -/
@[simp] def summed (r : Registers) (v : UInt8) : Registers := { r with a := (r.p.add r.a v).1, p := (r.p.add r.a v).2 }

/-- The registers after a difference. -/
@[simp] def subtracted (r : Registers) (v : UInt8) : Registers := { r with a := (r.p.sub r.a v).1, p := (r.p.sub r.a v).2 }

/-- The registers after a shift of the accumulator. -/
@[simp] def shifted (r : Registers) : Registers := { r with a := (r.p.shiftLeft r.a).1, p := (r.p.shiftLeft r.a).2 }

@[simp] theorem run_lda (ha : isPlain a = true) : run here none (.instruction .lda a :: rest) s =
    (here.place? s a).elim (.stuck, s) fun p => run here none rest { s with regs := plain (s.regs.setA (s.load p)) } :=
  run_registers (f := fun s v => s.regs.setA v) (by decide) ha (fun p => by cases p <;> rfl) rest

@[simp] theorem run_ldx (ha : isPlain a = true) : run here none (.instruction .ldx a :: rest) s =
    (here.place? s a).elim (.stuck, s) fun p => run here none rest { s with regs := plain (s.regs.setX (s.load p)) } :=
  run_registers (f := fun s v => s.regs.setX v) (by decide) ha (fun p => by cases p <;> rfl) rest

@[simp] theorem run_ldy (ha : isPlain a = true) : run here none (.instruction .ldy a :: rest) s =
    (here.place? s a).elim (.stuck, s) fun p => run here none rest { s with regs := plain (s.regs.setY (s.load p)) } :=
  run_registers (f := fun s v => s.regs.setY v) (by decide) ha (fun p => by cases p <;> rfl) rest

@[simp] theorem run_cmp (ha : isPlain a = true) : run here none (.instruction .cmp a :: rest) s =
    (here.place? s a).elim (.stuck, s) fun p =>
      run here none rest { s with regs := plain { s.regs with p := s.regs.p.compare s.regs.a (s.load p) } } :=
  run_registers (f := fun s v => { s.regs with p := s.regs.p.compare s.regs.a v }) (by decide) ha
    (fun p => by cases p <;> rfl) rest

@[simp] theorem run_adc (ha : isPlain a = true) : run here none (.instruction .adc a :: rest) s =
    (here.place? s a).elim (.stuck, s) fun p => run here none rest { s with regs := plain (summed s.regs (s.load p)) } :=
  run_registers (f := fun s v => summed s.regs v) (by decide) ha (fun p => by cases p <;> rfl) rest

@[simp] theorem run_sbc (ha : isPlain a = true) : run here none (.instruction .sbc a :: rest) s =
    (here.place? s a).elim (.stuck, s) fun p =>
      run here none rest { s with regs := plain (subtracted s.regs (s.load p)) } :=
  run_registers (f := fun s v => subtracted s.regs v) (by decide) ha (fun p => by cases p <;> rfl) rest

@[simp] theorem run_asl : run here none (.instruction .asl .accumulator :: rest) s =
    run here none rest { s with regs := plain (shifted s.regs) } := by
  rw [run_computing (by decide) rfl, Site.compute?, if_pos (by decide)]
  rfl

@[simp] theorem run_iny : run here none (.instruction .iny .implied :: rest) s =
    run here none rest { s with regs := plain (s.regs.setY (s.regs.y + 1)) } :=
  run_registers (f := fun s _ => s.regs.setY (s.regs.y + 1)) (by decide) rfl (fun p => by cases p <;> rfl) rest

@[simp] theorem run_dex : run here none (.instruction .dex .implied :: rest) s =
    run here none rest { s with regs := plain (s.regs.setX (s.regs.x - 1)) } :=
  run_registers (f := fun s _ => s.regs.setX (s.regs.x - 1)) (by decide) rfl (fun p => by cases p <;> rfl) rest

@[simp] theorem run_tay : run here none (.instruction .tay .implied :: rest) s =
    run here none rest { s with regs := plain (s.regs.setY s.regs.a) } :=
  run_registers (f := fun s _ => s.regs.setY s.regs.a) (by decide) rfl (fun p => by cases p <;> rfl) rest

@[simp] theorem run_clc : run here none (.instruction .clc .implied :: rest) s =
    run here none rest { s with regs := plain { s.regs with p := { s.regs.p with carry := false } } } :=
  run_registers (f := fun s _ => { s.regs with p := { s.regs.p with carry := false } }) (by decide) rfl
    (fun p => by cases p <;> rfl) rest

@[simp] theorem run_sec : run here none (.instruction .sec .implied :: rest) s =
    run here none rest { s with regs := plain { s.regs with p := { s.regs.p with carry := true } } } :=
  run_registers (f := fun s _ => { s.regs with p := { s.regs.p with carry := true } }) (by decide) rfl
    (fun p => by cases p <;> rfl) rest

/-! ## Places -/

@[simp] theorem place?_immediate : here.place? s (.immediate v) = some (.value v) := rfl

@[simp] theorem place?_pointer (z : UInt8) : here.place? s (.indirectIndexed z) =
    if isPointer z && isPointer (z + 1) then here.through? (Word.ofBytes (s.page z) (s.page (z + 1))) s.regs.y
    else none := rfl

/-- A variable that is indexed. -/
@[simp] theorem place?_indexed {n : UInt16} (hn : n.toNat + s.regs.x.toNat < 70) :
    here.place? s (.absoluteX (.symbol .workArea n)) = some (.cell (n.toNat + s.regs.x.toNat)) := by
  have hbytes : variableBytes.toNat = 70 := rfl
  simp only [Site.place?, Site.target?]
  rw [if_pos (by omega)]

/-- A variable of the voice in X. -/
@[simp] theorem place?_voice (hx : s.regs.x.toNat < 3) {n : UInt16} (hn : n.toNat + 2 < 70) :
    here.place? s (.absoluteX (.symbol .workArea n)) = some (.cell (n.toNat + s.regs.x.toNat)) :=
  place?_indexed (by omega)

@[simp] theorem place?_variable {n : UInt16} (hn : n.toNat < 70) :
    here.place? s (.absolute (.symbol .workArea n)) = some (.cell n.toNat) := by
  have hbytes : variableBytes.toNat = 70 := rfl
  have hzero : (0 : UInt8).toNat = 0 := rfl
  simp only [Site.place?, Site.target?, hzero, Nat.add_zero]
  rw [if_pos (by omega)]

theorem target?_table (symbol : Symbol) {start : Nat} (hsymbol : symbol ≠ .workArea)
    (hstart : offsetOf? symbol = some start) (hslots : slotsAt ≤ start) {index : UInt8}
    (hmusic : start + index.toNat < musicAt) :
    here.target? (.symbol symbol 0) index = some (.value (here.byte (start + index.toNat))) := by
  rw [target?_symbol hsymbol, hstart, Option.bind_some, Site.datum?, if_pos]
  · rfl
  · show _ ∧ start + 0 + _ < musicAt
    simp only [UInt16.toNat_zero]
    omega

section Tables

variable {symbol : Symbol} {start : Nat}

/-- A byte of a table that has one for each voice. -/
theorem place?_tableX (hsymbol : symbol ≠ .workArea) (hstart : offsetOf? symbol = some start)
    (hslots : slotsAt ≤ start) (hmusic : start + 2 < musicAt) (hx : s.regs.x.toNat < 3) :
    here.place? s (.absoluteX (.symbol symbol 0)) = some (.value (here.byte (start + s.regs.x.toNat))) :=
  target?_table _ hsymbol hstart hslots (by omega)

/-- A byte of a table that has one for each sequence. -/
theorem place?_tableY (hsymbol : symbol ≠ .workArea) (hstart : offsetOf? symbol = some start)
    (hslots : slotsAt ≤ start) (hmusic : start + 127 < musicAt) (hy : s.regs.y.toNat < 128) :
    here.place? s (.absoluteY (.symbol symbol 0)) = some (.value (here.byte (start + s.regs.y.toNat))) :=
  target?_table _ hsymbol hstart hslots (by omega)

end Tables

@[simp] theorem place?_songSettings :
    here.place? s (.absolute (.symbol .songSettings 0)) = some (.value (here.byte 2473)) :=
  by
  exact target?_table .songSettings (by decide) rfl (by decide) (by decide)

@[simp] theorem place?_orderListsLo (hx : s.regs.x.toNat < 3) :
    here.place? s (.absoluteX (.symbol .orderListsLo 0)) = some (.value (here.byte (2474 + s.regs.x.toNat))) :=
  place?_tableX (by decide) rfl (by decide) (by decide) hx

@[simp] theorem place?_orderListsHi (hx : s.regs.x.toNat < 3) :
    here.place? s (.absoluteX (.symbol .orderListsHi 0)) = some (.value (here.byte (2477 + s.regs.x.toNat))) :=
  place?_tableX (by decide) rfl (by decide) (by decide) hx

@[simp] theorem place?_sequencesLo (hy : s.regs.y.toNat < 128) :
    here.place? s (.absoluteY (.symbol .sequencesLo 0)) = some (.value (here.byte (2480 + s.regs.y.toNat))) :=
  place?_tableY (by decide) rfl (by decide) (by decide) hy

@[simp] theorem place?_sequencesHi (hy : s.regs.y.toNat < 128) :
    here.place? s (.absoluteY (.symbol .sequencesHi 0)) = some (.value (here.byte (2608 + s.regs.y.toNat))) :=
  place?_tableY (by decide) rfl (by decide) (by decide) hy

/-! ## Stores -/

section Stores

variable {p : Place} {n : UInt16} {z : UInt8}

theorem run_sta (ha : isPlain a = true) (hp : here.place? s a = some p) (hoperand : p.operand = .address 0) :
    run here none (.instruction .sta a :: rest) s =
      (State.store { s with regs := plain s.regs } p s.regs.a).elim (.stuck, s) fun s => run here none rest s := by
  rw [run_computing (by decide) ha, Site.compute?, if_pos (by decide), hp]
  cases p <;> first | rfl | cases hoperand

/-- An instruction that stores what was there before what it computes. -/
theorem run_modify {m : Mnemonic} {f : UInt8 → UInt8} (hm : m ∈ computing)
    (h : ∀ v, m.execute (fun _ => v) (.address 0) s.regs =
      { regs := { s.regs with p := s.regs.p.withResult (f v) }, stores := [⟨0, v⟩, ⟨0, f v⟩] })
    (ha : isPlain a = true) {n : Nat} (hp : here.place? s a = some (.cell n)) :
    run here none (.instruction m a :: rest) s =
      run here none rest { s with
        regs := plain { s.regs with p := s.regs.p.withResult (f (s.cells n)) }
        cells := Function.update s.cells n (f (s.cells n)) } := by
  have hexecute : m.execute (fun _ => s.load (.cell n)) (Place.operand (.cell n)) s.regs =
      { regs := { s.regs with p := s.regs.p.withResult (f (s.cells n)) },
        stores := [⟨0, s.cells n⟩, ⟨0, f (s.cells n)⟩] } := h (s.cells n)
  rw [run_computing hm ha, Site.compute?, if_pos hm, hp]
  simp only [Option.bind_some, hexecute, List.foldlM_cons, List.foldlM_nil, State.store, Option.bind_eq_bind,
    Function.update_idem]
  rfl

theorem run_sta_indexed (hn : n.toNat + s.regs.x.toNat < 70) :
    run here none (.instruction .sta (.absoluteX (.symbol .workArea n)) :: rest) s =
      run here none rest { s with
        regs := plain s.regs
        cells := Function.update s.cells (n.toNat + s.regs.x.toNat) s.regs.a } :=
  run_sta rfl (place?_indexed hn) rfl

@[simp] theorem run_sta_voice (hx : s.regs.x.toNat < 3) (hn : n.toNat + 2 < 70) :
    run here none (.instruction .sta (.absoluteX (.symbol .workArea n)) :: rest) s =
      run here none rest { s with
        regs := plain s.regs
        cells := Function.update s.cells (n.toNat + s.regs.x.toNat) s.regs.a } :=
  run_sta_indexed (by omega)

@[simp] theorem run_sta_variable (hn : n.toNat < 70) :
    run here none (.instruction .sta (.absolute (.symbol .workArea n)) :: rest) s =
      run here none rest { s with regs := plain s.regs, cells := Function.update s.cells n.toNat s.regs.a } :=
  run_sta rfl (place?_variable hn) rfl

@[simp] theorem run_sta_page (hz : isPointer z = true) :
    run here none (.instruction .sta (.zeroPage z) :: rest) s =
      run here none rest { s with regs := plain s.regs, page := Function.update s.page z s.regs.a } :=
  run_sta rfl (show here.place? s (.zeroPage z) = some (.page z) from if_pos hz) rfl

@[simp] theorem run_sta_chip {address : UInt16} (haddress : inWindow address = true) :
    run here none (.instruction .sta (.absolute (.fixed address)) :: rest) s =
      run here none rest { s with regs := plain s.regs, sid := (s.sid.write (Word.low address) s.regs.a).2 } := by
  have hplace : here.place? s (.absolute (.fixed address)) = some (.chip address) := by
    show (if inWindow (address + 0) then _ else _) = _
    rw [UInt16.add_zero, if_pos haddress]
    show some (Place.chip (address + 0)) = _
    rw [UInt16.add_zero]
  exact run_sta rfl hplace rfl

@[simp] theorem run_inc_voice (hx : s.regs.x.toNat < 3) (hn : n.toNat + 2 < 70) :
    run here none (.instruction .inc (.absoluteX (.symbol .workArea n)) :: rest) s =
      run here none rest { s with
        regs := plain { s.regs with p := s.regs.p.withResult (s.cells (n.toNat + s.regs.x.toNat) + 1) }
        cells := Function.update s.cells (n.toNat + s.regs.x.toNat) (s.cells (n.toNat + s.regs.x.toNat) + 1) } :=
  run_modify (f := (· + 1)) (by decide) (fun _ => rfl) rfl (place?_voice hx hn)

@[simp] theorem run_dec_voice (hx : s.regs.x.toNat < 3) (hn : n.toNat + 2 < 70) :
    run here none (.instruction .dec (.absoluteX (.symbol .workArea n)) :: rest) s =
      run here none rest { s with
        regs := plain { s.regs with p := s.regs.p.withResult (s.cells (n.toNat + s.regs.x.toNat) - 1) }
        cells := Function.update s.cells (n.toNat + s.regs.x.toNat) (s.cells (n.toNat + s.regs.x.toNat) - 1) } :=
  run_modify (f := (· - 1)) (by decide) (fun _ => rfl) rfl (place?_voice hx hn)

@[simp] theorem run_dec_variable (hn : n.toNat < 70) :
    run here none (.instruction .dec (.absolute (.symbol .workArea n)) :: rest) s =
      run here none rest { s with
        regs := plain { s.regs with p := s.regs.p.withResult (s.cells n.toNat - 1) }
        cells := Function.update s.cells n.toNat (s.cells n.toNat - 1) } :=
  run_modify (f := (· - 1)) (by decide) (fun _ => rfl) rfl (place?_variable hn)

end Stores

/-! ## Jumps -/

@[simp] theorem run_label (name : String) : run here none (.label name :: rest) s = run here none rest s := rfl

@[simp] theorem run_bcc : run here none (.instruction .bcc (.branch l) :: rest) s =
    if s.regs.p.carry then run here none rest s else run here (some l) rest s := by
  simp only [run, Site.act, taken?]
  cases s.regs.p.carry <;> rfl

@[simp] theorem run_bne : run here none (.instruction .bne (.branch l) :: rest) s =
    if s.regs.p.zero then run here none rest s else run here (some l) rest s := by
  simp only [run, Site.act, taken?]
  cases s.regs.p.zero <;> rfl

@[simp] theorem run_beq : run here none (.instruction .beq (.branch l) :: rest) s =
    if s.regs.p.zero then run here (some l) rest s else run here none rest s := by
  simp only [run, Site.act, taken?]
  cases s.regs.p.zero <;> rfl

@[simp] theorem run_bpl : run here none (.instruction .bpl (.branch l) :: rest) s =
    if s.regs.p.negative then run here none rest s else run here (some l) rest s := by
  simp only [run, Site.act, taken?]
  cases s.regs.p.negative <;> rfl

@[simp] theorem run_jmp : run here none (.instruction .jmp (.absolute (.label l)) :: rest) s = run here (some l) rest s :=
  rfl

@[simp] theorem run_jsr (hs : s.saved = []) :
    run here none (.instruction .jsr (.absolute (.label l)) :: rest) s = (.call l rest, s) := by
  rw [run, show here.act .jsr (.absolute (.label l)) s = .call l from if_pos hs]

@[simp] theorem run_rts (hs : s.saved = []) : run here none (.instruction .rts .implied :: rest) s = (.ret, s) := by
  rw [run, show here.act .rts .implied s = .ret from if_pos ⟨rfl, hs⟩]

@[simp] theorem run_pha (hs : s.saved = []) : run here none (.instruction .pha .implied :: rest) s =
    run here none rest { s with saved := [s.regs.a] } := by
  rw [run, show here.act .pha .implied s = .next { s with saved := [s.regs.a] } from if_pos ⟨rfl, hs⟩]

@[simp] theorem run_pla (hs : s.saved = [v]) : run here none (.instruction .pla .implied :: rest) s =
    run here none rest { s with regs := s.regs.setA v, saved := [] } := by
  have hact : here.act .pla .implied s = .next { s with regs := s.regs.setA v, saved := [] } := by
    show here.actHere .pla .implied s = _
    simp only [Site.actHere, hs, if_true]
  rw [run, hact]

/-! ## Looking for a label -/

@[simp] theorem run_skip_instruction (m : Mnemonic) (a : Argument) :
    run here (some l) (.instruction m a :: rest) s = run here (some l) rest s := by
  rw [run, if_neg (by simp)]

@[simp] theorem run_skip_label (name : String) : run here (some l) (.label name :: rest) s =
    if name = l then run here none rest s else run here (some l) rest s := by
  rw [run]
  simp only [Item.label.injEq]

/-- A label that is not ahead leads out. -/
theorem run_goto : ∀ {items : List Item}, .label l ∉ items → run here (some l) items s = (.goto l, s)
  | [], _ => rfl
  | item :: items, h => by
    rw [List.mem_cons, not_or] at h
    rw [run, if_neg (Ne.symm h.1), run_goto h.2]

/-- A label that is not in a block is looked for after it. -/
theorem run_seek_append : ∀ {block : List Item}, .label l ∉ block →
    run here (some l) (block ++ rest) s = run here (some l) rest s
  | [], _ => rfl
  | item :: block, h => by
    rw [List.mem_cons, not_or] at h
    rw [List.cons_append, run, if_neg (Ne.symm h.1), run_seek_append h.2]

/-- A label that is ahead is gone on from. -/
theorem run_ahead {block after : List Item} (hblock : .label l ∉ block) :
    run here (some l) (block ++ .label l :: after) s = run here none (.label l :: after) s := by
  rw [run_seek_append hblock, run, if_pos rfl, run]

/-- **A block and what follows it.** -/
theorem run_append : ∀ (block : List Item) (seek : Option String) (s : State), run here seek (block ++ rest) s =
    match run here seek block s with
    | (.fall, s) => run here none rest s
    | (.goto l, s) => run here (some l) rest s
    | (.call l left, s) => (.call l (left ++ rest), s)
    | (.ret, s) => (.ret, s)
    | (.stuck, s) => (.stuck, s)
  | [], none, _ => rfl
  | [], some _, _ => rfl
  | item :: block, some l, s => by
    rw [List.cons_append, run, run]
    split
    · exact run_append block none s
    · exact run_append block (some l) s
  | .label _ :: block, none, s => run_append block none s
  | .data _ :: _, none, _ => rfl
  | .instruction m a :: block, none, s => by
    rw [List.cons_append, run, run]
    cases here.act m a s with
    | next s => exact run_append block none s
    | jump l => exact run_append block (some l) s
    | _ => rfl

/-- A block that can only return does so, whatever follows it. -/
theorem run_returning (here : Site) (rest : List Item) {block : List Item} (hsteady : ∀ item ∈ block, isSteady item = true)
    (hways : ∀ w ∈ ways none block, w = .ret) (hx : Voiced s.regs.x block) (hsaved : s.saved = []) :
    run here none (block ++ rest) s = (.ret, (run here none block s).2) := by
  have hret := hways _ (run_steady here block none hsteady hx hsaved).1
  rw [run_append]
  rcases hrun : run here none block s with ⟨w, s'⟩
  rw [hrun] at hret
  cases hret
  rfl

end Chiptune.Player.Minimal
