/-
The processor runs the instructions of a listing that is in memory.

What the assembler writes for an instruction is decoded to the same mnemonic
and mode, and the operand found is the one the listing names
(`locate_operand`). So a step at an item's place does what the item says
(`step_item`).
-/
import Mathlib.Data.List.Nodup
import Chiptune.Machine.Step
import Chiptune.Proofs.Player.Assembly

namespace Chiptune.Player

open Machine

/-- The operand that an argument names; `r.pc` is at the operand's bytes. -/
def Argument.operand (address : Target → UInt16) (read : UInt16 → UInt8) (r : Registers) : Argument → Operand
  | .implied => .none
  | .accumulator => .accumulator
  | .immediate _ => .address r.pc
  | .zeroPage z => .address z.toUInt16
  | .zeroPageX z => .address (z + r.x).toUInt16
  | .zeroPageY z => .address (z + r.y).toUInt16
  | .absolute t => .address (address t)
  | .absoluteX t => .address (address t + r.x.toUInt16)
  | .absoluteY t => .address (address t + r.y.toUInt16)
  | .indirect t => .address (jumpPointer read (address t))
  | .indexedIndirect z => .address (zeroPagePointer read (z + r.x))
  | .indirectIndexed z => .address (zeroPagePointer read z + r.y.toUInt16)
  | .branch label => .address (address (.label label))

namespace Assembly

variable {base : UInt16} {labels : List (String × UInt16)} {resolve : Symbol → Option UInt16} {items : List Item}
  {read : UInt16 → UInt8}

/-- The address of a target, zero if it has none. -/
def addressOf (base : UInt16) (labels : List (String × UInt16)) (resolve : Symbol → Option UInt16) (t : Target) :
    UInt16 :=
  (targetAddress? base labels resolve t).getD 0

/-- Memory holds the code of the items. -/
def Loaded (base : UInt16) (labels : List (String × UInt16)) (resolve : Symbol → Option UInt16) (items : List Item)
    (read : UInt16 → UInt8) : Prop :=
  ∀ (i : Nat) (b : UInt8), (codeFrom base labels resolve 0 items)[i]? = some b → read (base + UInt16.ofNat i) = b

/-! ## Places -/

theorem length_append : ∀ first second : List Item, length (first ++ second) = length first + length second
  | [], _ => (Nat.zero_add _).symm
  | item :: first, second => by
    have hrest := length_append first second
    show sizeOf item + length (first ++ second) = sizeOf item + length first + length second
    omega

theorem codeFrom_append : ∀ (first second : List Item) (offset : Nat),
    codeFrom base labels resolve offset (first ++ second) =
      codeFrom base labels resolve offset first ++ codeFrom base labels resolve (offset + length first) second
  | [], _, _ => rfl
  | item :: first, second, offset => by
    have hrest := codeFrom_append first second (offset + sizeOf item)
    have hlength : offset + sizeOf item + length first = offset + length (item :: first) := Nat.add_assoc ..
    rw [hlength] at hrest
    show itemBytes base labels resolve offset item ++ codeFrom base labels resolve (offset + sizeOf item) (first ++ second) = _
    rw [hrest, ← List.append_assoc]
    rfl

/-- An item's bytes are at its place. -/
theorem Loaded.read_item {before after : List Item} {item : Item} (h : Loaded base labels resolve items read)
    (hitems : items = before ++ item :: after) {k : Nat} {b : UInt8}
    (hb : (itemBytes base labels resolve (length before) item)[k]? = some b) :
    read (base + UInt16.ofNat (length before + k)) = b := by
  refine h _ b ?_
  have hk := (List.getElem?_eq_some_iff.mp hb).1
  have hitem : codeFrom base labels resolve (length before) (item :: after) =
      itemBytes base labels resolve (length before) item ++
        codeFrom base labels resolve (length before + sizeOf item) after := rfl
  rw [hitems, codeFrom_append, Nat.zero_add, hitem, List.getElem?_append_right (by rw [length_codeFrom]; omega),
    length_codeFrom, Nat.add_sub_cancel_left, List.getElem?_append_left hk, hb]

/-! ## Labels -/

theorem mem_place_append : ∀ (before after : List Item) (item : Item) (offset : Nat),
    (offset + length before, item) ∈ place offset (before ++ item :: after)
  | [], _, _, _ => by simp [place, length]
  | first :: before, after, item, offset => by
    have hrest := mem_place_append before after item (offset + sizeOf first)
    rw [Nat.add_assoc] at hrest
    exact List.mem_cons_of_mem _ hrest

theorem exists_append_of_mem_place {item : Item} {position : Nat} : ∀ {items : List Item} {offset : Nat},
    (position, item) ∈ place offset items →
      ∃ before after, items = before ++ item :: after ∧ position = offset + length before
  | first :: rest, offset, h => by
    rcases List.mem_cons.mp h with heq | h
    · cases heq
      exact ⟨[], rest, rfl, rfl⟩
    · obtain ⟨before, after, rfl, hposition⟩ := exists_append_of_mem_place h
      exact ⟨first :: before, after, rfl, by rw [hposition, Nat.add_assoc]; rfl⟩

theorem mem_labelsOf {placed : List (Nat × Item)} {name : String} {n : UInt16} :
    (name, n) ∈ labelsOf placed ↔ ∃ position, (position, .label name) ∈ placed ∧ n = UInt16.ofNat position := by
  simp only [labelsOf, List.mem_filterMap, Prod.exists]
  constructor
  · rintro ⟨position, item, hmem, hitem⟩
    cases item with
    | label other =>
      cases hitem
      exact ⟨position, hmem, rfl⟩
    | _ => cases hitem
  · rintro ⟨position, hmem, rfl⟩
    exact ⟨position, .label name, hmem, rfl⟩

/-- Of labels that are defined once, each has the offset of its definition. -/
theorem offset?_eq_some {name : String} {n : UInt16} (hnodup : (labels.map (·.1)).Nodup) :
    offset? labels name = some n ↔ (name, n) ∈ labels := by
  rw [offset?, Option.map_eq_some_iff]
  constructor
  · rintro ⟨p, hfind, rfl⟩
    have hname : p.1 = name := by simpa using List.find?_some hfind
    subst hname
    exact List.mem_reverse.mp (List.mem_of_find?_eq_some hfind)
  · intro hmem
    cases hfind : labels.reverse.find? (·.1 == name) with
    | none => simpa using List.find?_eq_none.mp hfind _ (List.mem_reverse.mpr hmem)
    | some p =>
      have hname : p.1 = name := by simpa using List.find?_some hfind
      have hp := List.mem_reverse.mp (List.mem_of_find?_eq_some hfind)
      exact ⟨p, rfl, congrArg Prod.snd (List.inj_on_of_nodup_map hnodup hp hmem hname)⟩

/-! ## Operands -/

/-- A branch within reach leads to its label. -/
theorem displaced_of_reachable {position : Nat} {target : UInt16} (h : reachable (distance position target) = true) :
    displaced (base + UInt16.ofNat (position + 1)) (UInt8.ofNat (distance position target % 256).toNat) =
      base + target := by
  obtain ⟨hlow, hhigh⟩ : -128 ≤ distance position target ∧ distance position target ≤ 127 := by
    simpa [reachable] using h
  have htarget : (target.toNat : Int) = distance position target + (position + 1 : Nat) := by
    simp only [distance]
    omega
  generalize distance position target = d at hlow hhigh htarget ⊢
  have hbyte : (UInt8.ofNat (d % 256).toNat).toNat = (d % 256).toNat := by
    rw [UInt8.toNat_ofNat']
    omega
  rw [displaced, UInt16.add_assoc]
  congr 1
  rw [← UInt16.toNat_inj, Flags.sign, hbyte]
  have hbound := target.toNat_lt
  rcases Int.lt_or_le d 0 with hd | hd
  · have hmod : (d % 256).toNat = (d + 256).toNat := by omega
    rw [if_pos (decide_eq_true (by omega)), UInt16.toNat_add, UInt16.toNat_add, UInt16.toNat_ofNat',
      UInt8.toNat_toUInt16, hbyte, hmod]
    have hpage : (0xFF00 : UInt16).toNat = 65280 := rfl
    omega
  · have hmod : (d % 256).toNat = d.toNat := by omega
    rw [if_neg (by simp only [decide_eq_true_eq]; omega), UInt16.toNat_add, UInt16.toNat_ofNat',
      UInt8.toNat_toUInt16, hbyte, hmod]
    omega

theorem readWord_of_bytes {address value : UInt16} (hlow : read address = Word.low value)
    (hhigh : read (address + 1) = Word.high value) : readWord read address = value := by
  rw [readWord, hlow, hhigh, Word.ofBytes_low_high]

/-- **The operand found** is the one that the listing names. -/
theorem locate_operand {a : Argument} {position : Nat} {r : Registers} (hpc : r.pc = base + UInt16.ofNat position)
    (hread : ∀ (k : Nat) (b : UInt8), (operandBytes base labels resolve position a)[k]? = some b →
      read (base + UInt16.ofNat (position + k)) = b)
    (hbranch : ∀ label, a = .branch label →
      ∃ target, offset? labels label = some target ∧ reachable (distance position target) = true) :
    (a.mode.locate read r).operand = a.operand (addressOf base labels resolve) read r := by
  have hbyte {b : UInt8} (h : (operandBytes base labels resolve position a)[0]? = some b) : read r.pc = b := by
    rw [hpc]
    exact hread 0 b h
  have hword {value : UInt16} (h : operandBytes base labels resolve position a = Word.toBytes value) :
      readWord read r.pc = value := by
    refine readWord_of_bytes (hbyte (by rw [h]; rfl)) ?_
    have hhigh := hread 1 (Word.high value) (by rw [h]; rfl)
    rwa [UInt16.ofNat_add, ← UInt16.add_assoc, ← hpc] at hhigh
  cases a with
  | implied | accumulator | immediate v => rfl
  | zeroPage z | zeroPageX z | zeroPageY z | indexedIndirect z | indirectIndexed z =>
    have hz : read r.pc = z := hbyte rfl
    simp only [Argument.mode, Mode.locate, Argument.operand, hz]
  | absolute t | absoluteX t | absoluteY t | indirect t =>
    have ht : readWord read r.pc = addressOf base labels resolve t := hword rfl
    simp only [Argument.mode, Mode.locate, Argument.operand, ht]
  | branch label =>
    obtain ⟨target, htarget, hreachable⟩ := hbranch label rfl
    have hdistance : read r.pc = UInt8.ofNat (distance position target % 256).toNat := by
      refine hbyte ?_
      simp only [operandBytes, htarget]
      rfl
    have haddress : addressOf base labels resolve (.label label) = base + target := by
      simp only [addressOf, targetAddress?, htarget, Option.map_some, Option.getD_some]
    have hnext : r.pc + 1 = base + UInt16.ofNat (position + 1) := by
      rw [hpc, UInt16.ofNat_add, UInt16.add_assoc]
      rfl
    simp only [Argument.mode, Mode.locate, Argument.operand, hdistance, haddress, hnext]
    rw [displaced_of_reachable hreachable]

/-- An instruction of a listing without faults has an opcode. -/
theorem encode_of_listingFaults {m : Mnemonic} {a : Argument} : ∀ {items : List Item} {seen : List String},
    listingFaults seen items = [] → .instruction m a ∈ items → ∃ op, Opcode.encode m a.mode = some op
  | .label name :: rest, seen, h, hmem => by
    rw [listingFaults, List.append_eq_nil_iff] at h
    exact encode_of_listingFaults h.2 (by simpa using hmem)
  | .data bytes :: rest, seen, h, hmem => @encode_of_listingFaults m a rest seen h (by simpa using hmem)
  | .instruction m' a' :: rest, seen, h, hmem => by
    rw [listingFaults, List.append_eq_nil_iff] at h
    rcases List.mem_cons.mp hmem with heq | hmem
    · cases heq
      cases hop : Opcode.encode m a.mode with
      | some op => exact ⟨op, rfl⟩
      | none => simp [hop] at h
    · exact encode_of_listingFaults h.2 hmem

theorem reachable_of_branchFault? {m : Mnemonic} {op : UInt8} {label : String} {offset : Nat}
    (hencode : Opcode.encode m .relative = some op)
    (h : branchFault? labels offset (.instruction m (.branch label)) = none) :
    ∃ target, offset? labels label = some target ∧ reachable (distance (offset + 1) target) = true := by
  simp only [branchFault?, hencode] at h
  split at h
  · rename_i heq
    cases heq
  · cases h
  next _ _ _ target _ htarget =>
    refine ⟨target, htarget, ?_⟩
    by_cases hnear : reachable (distance (offset + 1) target) = true
    · exact hnear
    · rw [if_neg hnear] at h
      cases h

/-- **A step does what the item at its place says.** -/
theorem step_item {before after : List Item} {m : Mnemonic} {a : Argument} {op : UInt8}
    (h : Loaded base labels resolve items read) (hitems : items = before ++ .instruction m a :: after)
    (hencode : Opcode.encode m a.mode = some op)
    (hfault : branchFault? labels (length before) (.instruction m a) = none) {r : Registers}
    (hpc : r.pc = base + UInt16.ofNat (length before)) :
    let operand := a.operand (addressOf base labels resolve) read { r with pc := r.pc + 1 }
    let next := { r with pc := base + UInt16.ofNat (length before + sizeOf (.instruction m a)) }
    ∃ o, Machine.step read r = .ok o ∧ o.regs = (m.execute read operand next).regs ∧
      o.stores = (m.execute read operand next).stores := by
  intro operand next
  have hbytes : itemBytes base labels resolve (length before) (.instruction m a) =
      op :: operandBytes base labels resolve (length before + 1) a := by
    simp only [itemBytes, hencode]
  have hop : read r.pc = op := by
    have hfirst := @Loaded.read_item base labels resolve items read before after _ h hitems 0 op (by rw [hbytes]; rfl)
    rwa [Nat.add_zero, ← hpc] at hfirst
  obtain ⟨o, hdecode, hmnemonic, hmode⟩ := Opcode.decode_of_encode hencode
  have hnext : r.pc + 1 = base + UInt16.ofNat (length before + 1) := by
    rw [hpc, UInt16.ofNat_add, UInt16.add_assoc]
    rfl
  have hlocate : (a.mode.locate read { r with pc := r.pc + 1 }).operand = operand :=
    @locate_operand base labels resolve read a (length before + 1) { r with pc := r.pc + 1 } hnext
      (fun k b hk => by
        have hb := @Loaded.read_item base labels resolve items read before after _ h hitems (k + 1) b (by rw [hbytes]; exact hk)
        rwa [Nat.add_comm k 1, ← Nat.add_assoc] at hb)
      (fun label hlabel => by
        subst hlabel
        exact reachable_of_branchFault? hencode hfault)
  have hend : r.pc + 1 + UInt16.ofNat a.mode.operandLength =
      base + UInt16.ofNat (length before + sizeOf (.instruction m a)) := by
    have hsize : sizeOf (.instruction m a) = 1 + a.mode.operandLength := by simp only [sizeOf, hencode]
    rw [hsize, hnext, UInt16.add_assoc, ← UInt16.ofNat_add (length before + 1), Nat.add_assoc]
  have hstep : ∃ cycles, Machine.step read r =
      .ok ⟨(m.execute read operand next).regs, (m.execute read operand next).stores, cycles⟩ := by
    simp only [Machine.step, hop, hdecode, hmnemonic, hmode, hlocate, hend]
    exact ⟨_, rfl⟩
  obtain ⟨cycles, hstep⟩ := hstep
  exact ⟨_, hstep, rfl, rfl⟩

end Assembly

end Chiptune.Player
