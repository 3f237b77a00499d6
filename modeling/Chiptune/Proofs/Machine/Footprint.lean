/-
What one step of the processor can change.

An instruction is carried out with the program counter at the next one, and
only branches, jumps, calls and returns move it from there. It stores to the
address that its operand has, or to the stack page, and it leaves the status
register with the two bits that have no flag behind them as they always are
(`footprint_execute`). That the program counter is at the next instruction is a
fact about operands: the bytes that finding one takes, one after another, are as
many as its mode is said to have (`fetch_eq`).
-/
import Mathlib.Algebra.GroupWithZero.Nat
import Chiptune.Machine.Computer
import Chiptune.Proofs.Machine.Instruction

namespace Chiptune.Machine

/-! ## Status -/

/-- Outside the stack the unused bit is set and the break bit is clear. -/
structure Flags.Proper (f : Flags) : Prop where
  unused : f.unused = true
  brk : f.brk = false

namespace Flags

variable {f : Flags}

theorem Proper.add (h : f.Proper) (a v : UInt8) : (f.add a v).2.Proper := by
  unfold Flags.add
  split
  · exact ⟨h.unused, h.brk⟩
  · exact ⟨h.unused, h.brk⟩

theorem Proper.sub (h : f.Proper) (a v : UInt8) : (f.sub a v).2.Proper := by
  unfold Flags.sub
  split
  · exact ⟨h.unused, h.brk⟩
  · exact h.add a _

theorem proper_pulled (b : UInt8) : (pulled b).Proper := ⟨rfl, rfl⟩

end Flags

/-! ## Instructions -/

/-- Instructions that go somewhere else when a flag says so. -/
def Mnemonic.branches : Mnemonic → Bool
  | .bcc | .bcs | .bne | .beq | .bpl | .bmi | .bvc | .bvs => true
  | _ => false

/-- Instructions that may not go on to the next one. -/
def Mnemonic.jumps : Mnemonic → Bool
  | .jmp | .jsr | .rts | .rti | .brk => true
  | m => m.branches

/-- What an instruction with an operand can leave behind when it is carried out. -/
structure Footprint (m : Mnemonic) (o : Operand) (r : Registers) (e : Effect) : Prop where
  pc : m.jumps = false → e.regs.pc = r.pc
  proper : r.p.Proper → e.regs.p.Proper
  stores : ∀ s ∈ e.stores, o = .address s.address ∨ ∃ sp, s.address = Registers.stackAddress sp
  extra : e.extraCycles ≤ if m.branches then 2 else 0

namespace Footprint

variable {m : Mnemonic} {o : Operand} {r r' : Registers} {e : Effect} {read : UInt16 → UInt8}

theorem ofRegs (hpc : m.jumps = false → r'.pc = r.pc) (hproper : r.p.Proper → r'.p.Proper) :
    Footprint m o r { regs := r' } :=
  ⟨hpc, hproper, nofun, Nat.zero_le _⟩

/-- A jump may set the program counter. -/
theorem ofJump (hm : m.jumps = true) (hproper : r.p.Proper → r'.p.Proper) : Footprint m o r { regs := r' } :=
  ofRegs (fun h => absurd (hm.symm.trans h) Bool.true_eq_false.mp) hproper

theorem store (v : UInt8) : Footprint m o r (o.store r v) := by
  cases o with
  | none => exact ofRegs (fun _ => rfl) id
  | accumulator => exact ofRegs (fun _ => rfl) fun h => h
  | address target =>
    refine ⟨fun _ => rfl, id, fun s hs => ?_, Nat.zero_le _⟩
    obtain rfl := List.mem_singleton.mp hs
    exact .inl rfl

theorem modify {f : Flags → UInt8 → UInt8 × Flags} (hf : ∀ p v, p.Proper → (f p v).2.Proper) :
    Footprint m o r (o.modify read r f).2 := by
  cases o with
  | none => exact ofRegs (fun _ => rfl) (hf r.p _)
  | accumulator => exact ofRegs (fun _ => rfl) (hf r.p _)
  | address target =>
    refine ⟨fun _ => rfl, hf r.p _, fun s hs => ?_, Nat.zero_le _⟩
    simp only [Operand.modify, List.mem_cons, List.not_mem_nil, or_false] at hs
    rcases hs with rfl | rfl
    · exact .inl rfl
    · exact .inl rfl

theorem andThen (h : Footprint m o r e) {f : Registers → Registers} (hpc : m.jumps = false → (f e.regs).pc = e.regs.pc)
    (hproper : e.regs.p.Proper → (f e.regs).p.Proper) : Footprint m o r (e.andThen f) :=
  ⟨fun hm => (hpc hm).trans (h.pc hm), fun hr => hproper (h.proper hr), h.stores, h.extra⟩

theorem push : ∀ (bytes : Bytes) (r : Registers), Footprint m o r (r.push bytes)
  | [], _ => ofRegs (fun _ => rfl) id
  | v :: bytes, r => by
    have hrest := push bytes { r with sp := r.sp - 1 }
    refine ⟨hrest.pc, hrest.proper, fun s hs => ?_, hrest.extra⟩
    rcases List.mem_cons.mp hs with rfl | hs
    · exact .inr ⟨r.sp, rfl⟩
    · exact hrest.stores s hs

theorem branch (hm : m.branches = true) (taken : Bool) : Footprint m o r (branch taken o r) := by
  have hjumps : m.jumps = true := by
    cases m <;> first | rfl | cases hm
  cases o with
  | none | accumulator => exact ofRegs (fun _ => rfl) id
  | address target =>
    cases taken with
    | false => exact ofRegs (fun _ => rfl) id
    | true =>
      refine ⟨fun h => ?_, id, fun s hs => absurd hs List.not_mem_nil, ?_⟩
      · rw [hjumps] at h
        cases h
      · simp only [Machine.branch, hm, if_true]
        split <;> omega

end Footprint

/-- **What an instruction can change.** One case for each way in which effects are made. -/
theorem footprint_execute (m : Mnemonic) (read : UInt16 → UInt8) (o : Operand) (r : Registers) :
    Footprint m o r (m.execute read o r) := by
  cases m
  case sta | stx | sty | sax => exact .store _
  case asl | lsr | rol | ror | inc | dec => exact .modify fun _ _ h => ⟨h.unused, h.brk⟩
  case dcp =>
    simp only [Mnemonic.execute]
    exact .andThen (.modify fun _ _ h => h) (fun _ => rfl) fun h => ⟨h.unused, h.brk⟩
  case isc =>
    simp only [Mnemonic.execute]
    exact .andThen (.modify fun _ _ h => h) (fun _ => rfl) fun h => h.sub _ _
  case slo | rla | sre =>
    simp only [Mnemonic.execute]
    exact .andThen (.modify fun _ _ h => ⟨h.unused, h.brk⟩) (fun _ => rfl) fun h => ⟨h.unused, h.brk⟩
  case rra =>
    simp only [Mnemonic.execute]
    exact .andThen (.modify fun _ _ h => ⟨h.unused, h.brk⟩) (fun _ => rfl) fun h => h.add _ _
  case pha | php => exact .push _ r
  case bcc | bcs | bne | beq | bpl | bmi | bvc | bvs => exact .branch rfl _
  case jmp => cases o <;> exact .ofJump rfl id
  case jsr =>
    cases o with
    | none | accumulator => exact .ofJump rfl id
    | address target =>
      simp only [Mnemonic.execute]
      exact .andThen (.push _ r) (fun h => absurd h (by decide)) fun h => h
  case brk =>
    simp only [Mnemonic.execute]
    exact .andThen (.push _ r) (fun h => absurd h (by decide)) fun h => ⟨h.unused, h.brk⟩
  case rts => exact .ofJump rfl id
  case rti => exact .ofJump rfl fun _ => Flags.proper_pulled _
  case plp => exact .ofRegs (fun _ => rfl) fun _ => Flags.proper_pulled _
  case adc => exact .ofRegs (fun _ => rfl) fun h => h.add _ _
  case sbc => exact .ofRegs (fun _ => rfl) fun h => h.sub _ _
  all_goals exact .ofRegs (fun _ => rfl) fun h => ⟨h.unused, h.brk⟩

/-! ## Time -/

theorem cycles_le_eight {byte : UInt8} {op : Opcode} (h : Opcode.decode byte = some op) :
    op.cycles + (if op.pagePenalty then 1 else 0) + (if op.mnemonic.branches then 2 else 0) ≤ 8 := by
  have hall : ∀ n : Fin 256, ∀ op ∈ Opcode.decode (UInt8.ofNat n),
      op.cycles + (if op.pagePenalty then 1 else 0) + (if op.mnemonic.branches then 2 else 0) ≤ 8 := by decide +kernel
  exact hall ⟨byte.toNat, byte.toNat_lt⟩ op (by simpa using h)

/-- **An instruction takes between two and eight cycles.** -/
theorem cycles_step {read : UInt16 → UInt8} {r : Registers} {o : Outcome} (h : step read r = .ok o) :
    2 ≤ o.cycles ∧ o.cycles ≤ 8 := by
  simp only [step] at h
  split at h
  · cases h
  next op hop =>
    cases h
    have hlow := two_le_cycles hop
    have hhigh := cycles_le_eight hop
    have hextra := (footprint_execute op.mnemonic read (op.mode.locate read { r with pc := r.pc + 1 }).operand
      { r with pc := r.pc + 1 + UInt16.ofNat op.mode.operandLength }).extra
    have hcrossed : (if (op.mode.locate read { r with pc := r.pc + 1 }).crossed && op.pagePenalty then 1 else 0) ≤
        if op.pagePenalty then 1 else 0 := by
      split
      next hboth => exact Nat.le_of_eq (if_pos (Bool.and_eq_true_iff.mp hboth).2).symm
      · exact Nat.zero_le _
    dsimp only
    omega

/-! ## Operands -/

/-- Take the byte at the program counter. -/
def fetchByte (read : UInt16 → UInt8) (r : Registers) : UInt8 × Registers := (read r.pc, { r with pc := r.pc + 1 })

/-- Take the word at the program counter, low byte first. -/
def fetchWord (read : UInt16 → UInt8) (r : Registers) : UInt16 × Registers :=
  let (low, r) := fetchByte read r
  let (high, r) := fetchByte read r
  (Word.ofBytes low high, r)

/-- Find an operand by taking its bytes one after another. -/
def Mode.fetch (mode : Mode) (read : UInt16 → UInt8) (r : Registers) : Located × Registers :=
  let indexed (base : UInt16) (index : UInt8) : Located := ⟨.address (base + index.toUInt16), crosses base (base + index.toUInt16)⟩
  match mode with
  | .implied => (⟨.none, false⟩, r)
  | .accumulator => (⟨.accumulator, false⟩, r)
  | .immediate => (⟨.address r.pc, false⟩, (fetchByte read r).2)
  | .zeroPage =>
    let (zp, r) := fetchByte read r
    (⟨.address zp.toUInt16, false⟩, r)
  | .zeroPageX =>
    let (zp, r) := fetchByte read r
    (⟨.address (zp + r.x).toUInt16, false⟩, r)
  | .zeroPageY =>
    let (zp, r) := fetchByte read r
    (⟨.address (zp + r.y).toUInt16, false⟩, r)
  | .absolute =>
    let (target, r) := fetchWord read r
    (⟨.address target, false⟩, r)
  | .absoluteX =>
    let (base, r) := fetchWord read r
    (indexed base r.x, r)
  | .absoluteY =>
    let (base, r) := fetchWord read r
    (indexed base r.y, r)
  | .indirect =>
    let (pointer, r) := fetchWord read r
    (⟨.address (jumpPointer read pointer), false⟩, r)
  | .indexedIndirect =>
    let (zp, r) := fetchByte read r
    (⟨.address (zeroPagePointer read (zp + r.x)), false⟩, r)
  | .indirectIndexed =>
    let (zp, r) := fetchByte read r
    (indexed (zeroPagePointer read zp) r.y, r)
  | .relative =>
    let (offset, r) := fetchByte read r
    (⟨.address (displaced r.pc offset), false⟩, r)

/-- **The bytes that an operand is found with** are as many as its mode is said to have. -/
theorem fetch_eq (mode : Mode) (read : UInt16 → UInt8) (r : Registers) :
    mode.fetch read r = (mode.locate read r, { r with pc := r.pc + UInt16.ofNat mode.operandLength }) := by
  have hnone : r.pc + UInt16.ofNat 0 = r.pc := UInt16.add_zero r.pc
  have htwo : r.pc + 1 + 1 = r.pc + UInt16.ofNat 2 := UInt16.add_assoc ..
  cases mode
  case implied | accumulator => simp only [Mode.fetch, Mode.locate, Mode.operandLength, hnone]
  case absolute | absoluteX | absoluteY | indirect =>
    simp only [Mode.fetch, Mode.locate, Mode.operandLength, fetchWord, fetchByte, readWord, htwo]
  all_goals rfl

/-! ## Computers -/

theorem exists_store_of_read : ∀ (stores : List Store) {m : Memory} {a : UInt16},
    (m.applyStores stores).read a ≠ m.read a → ∃ s ∈ stores, s.address = a
  | [], _, _, h => absurd rfl h
  | s :: stores, m, a, h => by
    by_cases hs : s.address = a
    · exact ⟨s, List.mem_cons_self, hs⟩
    · have hrest : ((m.write s.address s.value).applyStores stores).read a ≠ (m.write s.address s.value).read a := by
        rw [Memory.read_write_of_ne hs]
        exact h
      obtain ⟨t, ht, haddress⟩ := exists_store_of_read stores hrest
      exact ⟨t, List.mem_cons_of_mem s ht, haddress⟩

/-- The stack page. -/
def InStackPage (a : UInt16) : Prop := 0x100 ≤ a.toNat ∧ a.toNat < 0x200

theorem inStackPage_stackAddress (sp : UInt8) : InStackPage (Registers.stackAddress sp) := by
  have hsp := sp.toNat_lt
  have haddress := Registers.toNat_stackAddress sp
  unfold InStackPage
  omega

namespace Computer

/-- The operand of the instruction at the program counter, and the registers when its bytes are taken. -/
def fetched (c : Computer) (op : Opcode) : Located × Registers :=
  op.mode.fetch c.memory.read { c.regs with pc := c.regs.pc + 1 }

/-- What a computer keeps and what it changes when it runs an instruction. -/
structure Stepped (c : Computer) (op : Opcode) (o : Outcome) (next : Computer) : Prop where
  two_le : 2 ≤ o.cycles
  le_eight : o.cycles ≤ 8
  total : next.cycles = c.cycles + o.cycles
  proper : next.regs.p.Proper
  pc : op.mnemonic.jumps = false →
    next.regs.pc = (c.fetched op).2.pc ∧ next.regs.pc = c.regs.pc + UInt16.ofNat op.length
  memory : ∀ a, next.memory.read a ≠ c.memory.read a → (c.fetched op).1.operand = .address a ∨ InStackPage a

theorem step_of_none {c : Computer} (h : Opcode.decode (c.memory.read c.regs.pc) = none) :
    c.step = .error (.unsupportedOpcode (c.memory.read c.regs.pc) c.regs.pc) := by
  simp only [step, Machine.step, h]

theorem step_of_some {c : Computer} {op : Opcode} (hproper : c.regs.p.Proper)
    (h : Opcode.decode (c.memory.read c.regs.pc) = some op) : ∃ o next, c.step = .ok (o, next) ∧ c.Stepped op o next := by
  cases hstep : Machine.step c.memory.read c.regs with
  | error e =>
    simp only [Machine.step, h] at hstep
    cases hstep
  | ok o =>
    obtain ⟨htwo, height⟩ := cycles_step hstep
    have hrun : c.step = .ok (o, ⟨o.regs, c.memory.applyStores o.stores, c.cycles + o.cycles⟩) := by
      simp only [step, hstep]
    refine ⟨o, _, hrun, ?_⟩
    simp only [Machine.step, h, Except.ok.injEq] at hstep
    have hend : c.regs.pc + 1 + UInt16.ofNat op.mode.operandLength = c.regs.pc + UInt16.ofNat op.length := by
      rw [UInt16.add_assoc, Opcode.length, UInt16.ofNat_add]
      rfl
    have hprint := footprint_execute op.mnemonic c.memory.read (c.fetched op).1.operand (c.fetched op).2
    simp only [fetched, fetch_eq] at hprint
    subst hstep
    refine ⟨htwo, height, rfl, hprint.proper hproper, fun hjumps => ?_, fun a ha => ?_⟩
    · simp only [fetched, fetch_eq]
      exact ⟨hprint.pc hjumps, (hprint.pc hjumps).trans hend⟩
    · obtain ⟨s, hs, rfl⟩ := exists_store_of_read _ ha
      simp only [fetched, fetch_eq]
      rcases hprint.stores s hs with htarget | ⟨sp, hsp⟩
      · exact .inl htarget
      · rw [hsp]
        exact .inr (inStackPage_stackAddress sp)

/-- **A step of the processor** is refused and changes nothing, or it keeps to the instruction it runs. -/
theorem stepped_or_refused {c : Computer} (hproper : c.regs.p.Proper) :
    match Opcode.decode (c.memory.read c.regs.pc) with
    | none =>
      c.run 1 = { error := some (.unsupportedOpcode (c.memory.read c.regs.pc) c.regs.pc), computer := c }
    | some op => ∃ o next, c.run 1 = { outcomes := [o], computer := next } ∧ c.Stepped op o next := by
  cases hop : Opcode.decode (c.memory.read c.regs.pc) with
  | none => simp only [run, step_of_none hop]
  | some op =>
    obtain ⟨o, next, hstep, hnext⟩ := step_of_some hproper hop
    refine ⟨o, next, ?_, hnext⟩
    simp only [run, hstep]

/-- `INC $20F0,X` with an index that leads into the next page, where the byte is `$FF`. -/
def rollover : Computer where
  regs := { pc := 0x1000, x := 0x20, p := { carry := true, unused := true } }
  memory := (Memory.zeroed.writeAll 0x1000 [0xFE, 0xF0, 0x20]).write 0x2110 0xFF

theorem stepped_rollover : rollover.regs.p.Proper ∧ ∃ o next, rollover.run 1 = { outcomes := [o], computer := next } ∧
    rollover.Stepped ⟨.inc, .absoluteX, 7, false, true⟩ o next := by
  have hproper : rollover.regs.p.Proper := ⟨rfl, rfl⟩
  have hstepped := stepped_or_refused hproper
  have hop : Opcode.decode (rollover.memory.read rollover.regs.pc) = some ⟨.inc, .absoluteX, 7, false, true⟩ := by
    decide +kernel
  rw [hop] at hstepped
  exact ⟨hproper, hstepped⟩

/-- However many instructions are run, the status register stays as it is between them, and the cycles are theirs. -/
theorem proper_run : ∀ (count : Nat) {c : Computer}, c.regs.p.Proper →
    (c.run count).computer.regs.p.Proper ∧
      (c.run count).computer.cycles = c.cycles + ((c.run count).outcomes.map (·.cycles)).sum
  | 0, c, h => ⟨h, rfl⟩
  | count + 1, c, h => by
    cases hop : Opcode.decode (c.memory.read c.regs.pc) with
    | none =>
      simp only [run, step_of_none hop]
      exact ⟨h, rfl⟩
    | some op =>
      obtain ⟨o, next, hstep, hnext⟩ := step_of_some h hop
      obtain ⟨hproper, hcycles⟩ := proper_run count hnext.proper
      simp only [run, hstep, List.map_cons, List.sum_cons]
      refine ⟨hproper, ?_⟩
      rw [hcycles, hnext.total, Nat.add_assoc]

end Computer

end Chiptune.Machine
