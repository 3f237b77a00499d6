/-
Undocumented instructions that do the work of two documented ones.

The chip's decoder lets some opcodes drive two operations at once, so that an
address is modified and its new value used in the same instruction. The first
operation's zero and negative flags are never seen, since the second one sets
both, and the carry that it leaves or takes is that of the pair
(`perform_combined`). A computer that runs such an instruction therefore comes
to where one comes to that runs the pair (`combined_pair`).
-/
import Chiptune.Proofs.Machine.Footprint

namespace Chiptune.Machine

/-- The documented instructions whose work an undocumented one does, in their order. -/
def Mnemonic.pair? : Mnemonic → Option (Mnemonic × Mnemonic)
  | .dcp => some (.dec, .cmp)
  | .isc => some (.inc, .sbc)
  | .slo => some (.asl, .ora)
  | .rla => some (.rol, .and)
  | .sre => some (.lsr, .eor)
  | .rra => some (.ror, .adc)
  | .lax => some (.lda, .ldx)
  | _ => none

variable {m first second : Mnemonic}

/-! ## Flags that are overwritten -/

namespace Flags

variable (f : Flags) (r a v : UInt8)

@[simp] theorem withResult_withResult : (f.withResult r).withResult v = f.withResult v := rfl

@[simp] theorem compare_withResult : (f.withResult r).compare a v = f.compare a v := rfl

@[simp] theorem decimal_withResult : (f.withResult r).decimal = f.decimal := rfl

@[simp] theorem addBinary_withResult : (f.withResult r).addBinary a v = f.addBinary a v := rfl

@[simp] theorem addDecimal_withResult : (f.withResult r).addDecimal a v = f.addDecimal a v := rfl

@[simp] theorem subDecimal_withResult : (f.withResult r).subDecimal a v = f.subDecimal a v := rfl

@[simp] theorem add_withResult : (f.withResult r).add a v = f.add a v := by
  cases h : f.decimal <;> simp [add, h]

@[simp] theorem sub_withResult : (f.withResult r).sub a v = f.sub a v := by
  cases h : f.decimal <;> simp [sub, h]

end Flags

/-! ## Work on an address -/

/-- What instructions make of registers and memory, with the stores made on the way. -/
structure Work where
  regs : Registers
  memory : Memory
  stores : List Store := []

/-- Carry an instruction out on an operand. -/
def Work.perform (w : Work) (m : Mnemonic) (o : Operand) : Work :=
  let effect := m.execute w.memory.read o w.regs
  { regs := effect.regs
    memory := w.memory.applyStores effect.stores
    stores := w.stores ++ effect.stores }

/-- No instruction of a pair leaves the order of the program. -/
theorem jumps_pair (hpair : m.pair? = some (first, second)) :
    m.jumps = false ∧ first.jumps = false ∧ second.jumps = false := by
  cases m <;> simp only [Mnemonic.pair?, reduceCtorEq] at hpair <;> cases hpair <;> exact ⟨rfl, rfl, rfl⟩

/-- The first one stores what the undocumented instruction does. -/
theorem stores_first (hpair : m.pair? = some (first, second)) (w : Work) (o : Operand) :
    (w.perform m o).stores = (w.perform first o).stores := by
  cases m <;> simp only [Mnemonic.pair?, reduceCtorEq] at hpair <;> cases hpair <;> cases o <;> rfl

/-- The second one stores nothing. -/
theorem stores_second (hpair : m.pair? = some (first, second)) (w : Work) (o : Operand) :
    (w.perform second o).stores = w.stores := by
  cases m <;> simp only [Mnemonic.pair?, reduceCtorEq] at hpair <;> cases hpair <;> exact List.append_nil _

/-- **An undocumented instruction does the work of its pair** on the same address. -/
theorem perform_combined (hpair : m.pair? = some (first, second)) (w : Work) (target : UInt16) :
    w.perform m (.address target) = (w.perform first (.address target)).perform second (.address target) := by
  cases m <;> simp only [Mnemonic.pair?, reduceCtorEq] at hpair <;> cases hpair
  -- The second instruction loads what the first one has stored, and takes over its carry but no other flag it sets.
  case dcp | isc =>
    simp [Work.perform, Mnemonic.execute, Operand.modify, Operand.load, Effect.andThen, Flags.decrement,
      Flags.increment, Memory.applyStores]
  case slo | rla | sre | rra =>
    simp [Work.perform, Mnemonic.execute, Operand.modify, Operand.load, Effect.andThen, Memory.applyStores]
  case lax =>
    simp [Work.perform, Mnemonic.execute, Operand.load, Registers.setA, Registers.setX, Memory.applyStores]

/-- An instruction that does not jump neither reads nor sets the program counter. -/
theorem execute_moved (hm : m.jumps = false) (read : UInt16 → UInt8) (o : Operand) (r : Registers) (pc : UInt16) :
    m.execute read o { r with pc } =
      { m.execute read o r with regs := { (m.execute read o r).regs with pc } } := by
  cases m
  case jmp | jsr | rts | rti | brk | bcc | bcs | bne | beq | bpl | bmi | bvc | bvs => cases hm
  all_goals cases o <;> rfl

/-! ## Computers -/

namespace Computer

/-- The next instruction of the computer works on an address. -/
def WorksOn (c : Computer) (m : Mnemonic) (target : UInt16) : Prop :=
  ∃ op, Opcode.decode (c.memory.read c.regs.pc) = some op ∧ op.mnemonic = m ∧ (c.fetched op).1.operand = .address target

/-- Registers and memory of the computer, from which work starts. -/
def work (c : Computer) : Work := { regs := c.regs, memory := c.memory }

/-- The computer has this memory and, but for the program counter, these registers. -/
def Holds (c : Computer) (w : Work) : Prop := c.memory = w.memory ∧ c.regs = { w.regs with pc := c.regs.pc }

theorem holds_work (c : Computer) : c.Holds c.work := ⟨rfl, rfl⟩

/-- Two computers with the same work have each other's. -/
theorem Holds.work {c d : Computer} {w : Work} (hd : d.Holds w) (hc : c.Holds w) : d.Holds c.work := by
  obtain ⟨hmemory, hregs⟩ := hd
  obtain ⟨hmemory', hregs'⟩ := hc
  refine ⟨hmemory.trans hmemory'.symm, ?_⟩
  simp only [Computer.work]
  rw [hregs', ← hregs]

/-- **One instruction** on an address, wherever it stands in memory. -/
theorem step_of_worksOn {c : Computer} {w : Work} {target : UInt16} (hc : c.Holds w) (hm : m.jumps = false)
    (h : c.WorksOn m target) : ∃ o next, c.step = .ok (o, next) ∧ next.Holds (w.perform m (.address target)) ∧
      (w.perform m (.address target)).stores = w.stores ++ o.stores := by
  obtain ⟨op, hop, rfl, htarget⟩ := h
  obtain ⟨hmemory, hregs⟩ := hc
  simp only [fetched, fetch_eq] at htarget
  have hregs' (pc : UInt16) : { c.regs with pc } = { w.regs with pc } := by rw [hregs]
  cases hstep : Machine.step c.memory.read c.regs with
  | error e =>
    simp only [Machine.step, hop] at hstep
    cases hstep
  | ok o =>
    refine ⟨o, ⟨o.regs, c.memory.applyStores o.stores, c.cycles + o.cycles⟩, by simp only [step, hstep], ?_⟩
    simp only [Machine.step, hop, htarget] at hstep
    rw [hregs', hmemory, execute_moved hm] at hstep
    cases hstep
    simp only [Holds, Work.perform, hmemory, and_self]

end Computer

/-- **An undocumented instruction and its pair.** They do the same work on every address, with the stores of the
first of the pair. A computer that runs the one and a computer that runs the other, with the same registers and
memory before, have the same ones afterwards. -/
theorem combined_pair (hpair : m.pair? = some (first, second)) (target : UInt16) :
    (∀ w : Work, w.perform m (.address target) = (w.perform first (.address target)).perform second (.address target) ∧
      (w.perform m (.address target)).stores = (w.perform first (.address target)).stores) ∧
    ∀ c d : Computer, d.Holds c.work → c.WorksOn m target → d.WorksOn first target →
      ∃ o c' o₁ between, c.step = .ok (o, c') ∧ d.step = .ok (o₁, between) ∧ o.stores = o₁.stores ∧
        (between.WorksOn second target →
          ∃ o₂ d', between.step = .ok (o₂, d') ∧ o₂.stores = [] ∧ d'.Holds c'.work) := by
  obtain ⟨hjumps, hjumps₁, hjumps₂⟩ := jumps_pair hpair
  refine ⟨fun w => ⟨perform_combined hpair w target, stores_first hpair w _⟩, ?_⟩
  intro c d hd hc hd₁
  obtain ⟨o, c', hstep, hc', hstores⟩ := Computer.step_of_worksOn c.holds_work hjumps hc
  obtain ⟨o₁, between, hstep₁, hbetween, hstores₁⟩ := Computer.step_of_worksOn hd hjumps₁ hd₁
  have hsame : o.stores = o₁.stores := by
    rw [stores_first hpair, hstores₁] at hstores
    exact (List.append_cancel_left hstores).symm
  refine ⟨o, c', o₁, between, hstep, hstep₁, hsame, ?_⟩
  intro hd₂
  obtain ⟨o₂, d', hstep₂, hd', hstores₂⟩ := Computer.step_of_worksOn hbetween hjumps₂ hd₂
  refine ⟨o₂, d', hstep₂, ?_, ?_⟩
  · rw [stores_second hpair] at hstores₂
    simpa using hstores₂
  · rw [← perform_combined hpair] at hd'
    exact hd'.work hc'

/-- `RRA $21`, `ROR $21` and `ADC $21` one after another, in decimal mode with $19 in A and $51 at $21. -/
def rotating (pc : UInt16) : Computer where
  regs := { pc, a := 0x19, p := { decimal := true, unused := true } }
  memory := (Memory.zeroed.writeAll 0x1000 [0x67, 0x21, 0x66, 0x21, 0x65, 0x21]).write 0x21 0x51

/-- Decimal 28, the byte rotated to the right, its lost bit and decimal 19 are decimal 48. -/
theorem combined_pair_rotating : Mnemonic.rra.pair? = some (.ror, .adc) ∧
    (rotating 0x1002).Holds (rotating 0x1000).work ∧
    (rotating 0x1000).WorksOn .rra 0x21 ∧ (rotating 0x1002).WorksOn .ror 0x21 ∧
    ∃ o c' o₁ between o₂ d', (rotating 0x1000).step = .ok (o, c') ∧ (rotating 0x1002).step = .ok (o₁, between) ∧
      o.stores = o₁.stores ∧ between.WorksOn .adc 0x21 ∧ between.step = .ok (o₂, d') ∧ o₂.stores = [] ∧
      d'.Holds c'.work ∧ d'.regs.a = 0x48 := by
  have hd : (rotating 0x1002).Holds (rotating 0x1000).work := ⟨rfl, rfl⟩
  have hc : (rotating 0x1000).WorksOn .rra 0x21 :=
    ⟨⟨.rra, .zeroPage, 5, false, false⟩, by decide +kernel, rfl, by decide +kernel⟩
  have hd₁ : (rotating 0x1002).WorksOn .ror 0x21 :=
    ⟨⟨.ror, .zeroPage, 5, false, true⟩, by decide +kernel, rfl, by decide +kernel⟩
  obtain ⟨o, c', o₁, between, hstep, hstep₁, hsame, hsecond⟩ := (combined_pair rfl 0x21).2 _ _ hd hc hd₁
  have hc' : c'.regs.a = 0x48 := by
    have hout : Machine.step (rotating 0x1000).memory.read (rotating 0x1000).regs =
        .ok ⟨{ pc := 0x1002, a := 0x48, p := { decimal := true, unused := true } },
          [⟨0x21, 0x51⟩, ⟨0x21, 0x28⟩], 5⟩ := rfl
    simp only [Computer.step, hout, Except.ok.injEq, Prod.mk.injEq] at hstep
    obtain ⟨-, rfl⟩ := hstep
    rfl
  have hbetween : between.WorksOn .adc 0x21 := by
    have hout : Machine.step (rotating 0x1002).memory.read (rotating 0x1002).regs =
        .ok ⟨{ pc := 0x1004, a := 0x19, p := { carry := true, decimal := true, unused := true } },
          [⟨0x21, 0x51⟩, ⟨0x21, 0x28⟩], 5⟩ := rfl
    simp only [Computer.step, hout, Except.ok.injEq, Prod.mk.injEq] at hstep₁
    obtain ⟨-, rfl⟩ := hstep₁
    exact ⟨⟨.adc, .zeroPage, 3, false, true⟩, by decide +kernel, rfl, by decide +kernel⟩
  obtain ⟨o₂, d', hstep₂, hstores, hd'⟩ := hsecond hbetween
  refine ⟨rfl, hd, hc, hd₁, o, c', o₁, between, o₂, d', hstep, hstep₁, hsame, hbetween, hstep₂, hstores, hd', ?_⟩
  rw [hd'.2]
  exact hc'

end Chiptune.Machine
