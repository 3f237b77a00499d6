/-
What an instruction stores and how long it takes.

An instruction that pushes stores to the stack only, and every other one makes
two stores at the most: the old and the new value of what it modifies. None
takes less than two cycles, so what it stores elsewhere than on the stack never
outnumbers its cycles.
-/
import Chiptune.Machine.Step

namespace Chiptune.Machine

/-- Every store goes to the stack page. -/
def OnStack (stores : List Store) : Prop := ∀ s ∈ stores, ∃ sp, s.address = Registers.stackAddress sp

theorem onStack_push : ∀ (bytes : Bytes) (r : Registers), OnStack (r.push bytes).stores
  | [], _, _, hs => by cases hs
  | v :: bytes, r, s, hs => by
    rcases List.mem_cons.mp hs with rfl | hs
    · exact ⟨r.sp, rfl⟩
    · exact onStack_push bytes _ s hs

namespace Operand

theorem length_stores_store (o : Operand) (r : Registers) (v : UInt8) : (o.store r v).stores.length ≤ 2 := by
  cases o <;> simp [store]

theorem length_stores_modify (o : Operand) (read : UInt16 → UInt8) (r : Registers)
    (f : Flags → UInt8 → UInt8 × Flags) : (o.modify read r f).2.stores.length ≤ 2 := by
  cases o <;> simp [modify]

end Operand

@[simp] theorem Effect.stores_andThen (e : Effect) (f : Registers → Registers) : (e.andThen f).stores = e.stores :=
  rfl

theorem stores_branch (taken : Bool) (o : Operand) (r : Registers) : (branch taken o r).stores = [] := by
  cases o with
  | address target => cases taken <;> rfl
  | none | accumulator => rfl

theorem stores_execute (m : Mnemonic) (read : UInt16 → UInt8) (o : Operand) (r : Registers) :
    (m.execute read o r).stores.length ≤ 2 ∨ OnStack (m.execute read o r).stores := by
  cases m
  case sta | stx | sty | sax => exact .inl (o.length_stores_store ..)
  case asl | lsr | rol | ror | inc | dec => exact .inl (o.length_stores_modify ..)
  case dcp | isc | slo | rla | sre | rra =>
    simp only [Mnemonic.execute, Effect.stores_andThen]
    exact .inl (o.length_stores_modify ..)
  case pha | php | brk => exact .inr (onStack_push _ r)
  case jsr =>
    cases o with
    | address target => exact .inr (onStack_push _ r)
    | none | accumulator => exact .inl (Nat.zero_le _)
  case jmp => cases o <;> exact .inl (Nat.zero_le _)
  case bcc | bcs | bne | beq | bpl | bmi | bvc | bvs =>
    simp [Mnemonic.execute, stores_branch]
  all_goals exact .inl (Nat.zero_le _)

theorem two_le_cycles {byte : UInt8} {op : Opcode} (h : Opcode.decode byte = some op) : 2 ≤ op.cycles := by
  have hall : ∀ n : Fin 256, ∀ op ∈ Opcode.decode (UInt8.ofNat n), 2 ≤ op.cycles := by decide +kernel
  exact hall ⟨byte.toNat, byte.toNat_lt⟩ op (by simpa using h)

/-- **The stores of an instruction** are no more than its cycles, unless they are on the stack. -/
theorem stores_step {read : UInt16 → UInt8} {r : Registers} {o : Outcome} (h : step read r = .ok o) :
    o.stores.length ≤ o.cycles ∨ OnStack o.stores := by
  simp only [step] at h
  split at h
  · cases h
  next op hop =>
    cases h
    have hcycles := two_le_cycles hop
    refine (stores_execute ..).imp_left fun hlength => Nat.le_trans hlength ?_
    dsimp only
    omega

end Chiptune.Machine
