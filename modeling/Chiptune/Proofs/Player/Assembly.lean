/-
The code that a listing is assembled to.

Its length and its labels depend on the listing alone. Of its bytes only the
operands with a relocation depend on where the player goes, and each of them
holds the address that its relocation stands for.
-/
import Chiptune.Player.Assembly
import Chiptune.Proofs.Player.Layout

namespace Chiptune.Player

/-! ## Addresses -/

/-- The address a relocation stands for. -/
def Layout.relocated? (l : Layout) (r : Relocation) : Option UInt16 := (l.address? r.symbol).map (· + r.addend)

theorem Layout.isSome_slot? (t : Template) (base : UInt16) (slot : Slot) :
    ((placed t base).slot? slot).isSome = t.tables.any (·.slot == slot) := by
  have hslots := congrArg (List.any · (· == slot)) (map_slot_placeSlots t.tables (t.slotsAt base))
  simp only [List.any_map, Function.comp_def] at hslots
  rw [Layout.slot?, List.isSome_find?]
  exact hslots

/-- Which symbols have an address does not depend on the base. -/
theorem Layout.isSome_address? (t : Template) (base base' : UInt16) (s : Symbol) :
    ((placed t base).address? s).isSome = ((placed t base').address? s).isSome := by
  cases s with
  | table slot => simp only [address?, Option.isSome_map, isSome_slot?]
  | _ => rfl

namespace Assembly

variable {base base' : UInt16} {labels : List (String × UInt16)} {resolve resolve' : Symbol → Option UInt16}

/-! ## Code -/

/-- The code of items from an offset on. -/
def codeFrom (base : UInt16) (labels : List (String × UInt16)) (resolve : Symbol → Option UInt16)
    (offset : Nat) (items : List Item) : Bytes :=
  (place offset items).flatMap fun (offset, item) => itemBytes base labels resolve offset item

/-- The relocations of items from an offset on. -/
def relocationsFrom (labels : List (String × UInt16)) (offset : Nat) (items : List Item) : List Relocation :=
  (place offset items).filterMap fun (offset, item) => itemRelocation? labels offset item

theorem length_operandBytes (position : Nat) (a : Argument) :
    (operandBytes base labels resolve position a).length = a.mode.operandLength := by
  cases a with
  | branch label =>
    simp only [operandBytes]
    split <;> rfl
  | _ => rfl

theorem length_itemBytes (offset : Nat) (item : Item) :
    (itemBytes base labels resolve offset item).length = sizeOf item := by
  cases item with
  | label name => rfl
  | data bytes => rfl
  | instruction m a =>
    simp only [itemBytes, sizeOf]
    split
    · rw [List.length_cons, length_operandBytes, Nat.add_comm]
    · rfl

theorem length_codeFrom : ∀ (items : List Item) (offset : Nat),
    (codeFrom base labels resolve offset items).length = length items
  | [], _ => rfl
  | item :: items, offset => by
    have hrest := length_codeFrom items (offset + sizeOf item)
    simp only [codeFrom] at hrest ⊢
    rw [place, List.flatMap_cons, List.length_append, length_itemBytes, hrest]
    rfl

theorem assemble_eq_ok {items : List Item} {a : Assembly} :
    assemble base resolve items = .ok a ↔
      faults base resolve items = [] ∧
        { code := codeFrom base (labelsOf (place 0 items)) resolve 0 items
          relocations := relocationsFrom (labelsOf (place 0 items)) 0 items
          labels := labelsOf (place 0 items) } = a := by
  unfold assemble
  dsimp only
  split
  next h =>
    simp only [h, true_and, Except.ok.injEq]
    rfl
  next h =>
    simp only [reduceCtorEq, false_iff, not_and]
    exact fun hnone => absurd hnone h

theorem length_code {items : List Item} {a : Assembly} (h : assemble base resolve items = .ok a) :
    a.code.length = length items := by
  obtain ⟨-, rfl⟩ := assemble_eq_ok.mp h
  exact length_codeFrom items 0

/-! ## Faults -/

theorem isSome_targetAddress? (h : ∀ s, (resolve s).isSome = (resolve' s).isSome) (target : Target) :
    (targetAddress? base labels resolve target).isSome = (targetAddress? base' labels resolve' target).isSome := by
  cases target with
  | label name => simp only [targetAddress?, Option.isSome_map]
  | symbol s addend => simp only [targetAddress?, Option.isSome_map, h s]
  | fixed address => rfl

theorem targetFault?_congr (h : ∀ s, (resolve s).isSome = (resolve' s).isSome) (item : Item) :
    targetFault? base labels resolve item = targetFault? base' labels resolve' item := by
  cases item with
  | label name => rfl
  | data bytes => rfl
  | instruction m a =>
    simp only [targetFault?]
    cases Machine.Opcode.encode m a.mode with
    | none => rfl
    | some op =>
      cases a.target? with
      | none => rfl
      | some target =>
        have hsome := @isSome_targetAddress? base base' labels resolve resolve' h target
        dsimp only
        cases haddress : targetAddress? base labels resolve target <;>
          cases haddress' : targetAddress? base' labels resolve' target <;>
          simp_all

/-- What is wrong with a listing does not depend on the addresses themselves. -/
theorem faults_congr (h : ∀ s, (resolve s).isSome = (resolve' s).isSome) (items : List Item) :
    faults base resolve items = faults base' resolve' items := by
  unfold faults
  dsimp only
  have htargets := funext (@targetFault?_congr base base' (labelsOf (place 0 items)) resolve resolve' h)
  rw [htargets]

/-! ## Relocations -/

theorem operandBytes_of_target {position : Nat} {a : Argument} {target : Target} (h : a.target? = some target) :
    operandBytes base labels resolve position a =
      Word.toBytes ((targetAddress? base labels resolve target).getD 0) := by
  cases a <;> cases h <;> rfl

/-- An operand without a relocation is the same everywhere. -/
theorem itemBytes_congr {offset : Nat} {item : Item} (h : itemRelocation? labels offset item = none) :
    itemBytes base labels resolve offset item = itemBytes base' labels resolve' offset item := by
  cases item with
  | label name => rfl
  | data bytes => rfl
  | instruction m a =>
    simp only [itemRelocation?] at h
    simp only [itemBytes]
    cases hop : Machine.Opcode.encode m a.mode with
    | none => rfl
    | some op =>
      cases htarget : a.target? with
      | none =>
        cases a with
        | absolute t | absoluteX t | absoluteY t | indirect t => cases htarget
        | _ => rfl
      | some target =>
        simp only [hop, htarget] at h
        simp only [operandBytes_of_target htarget]
        cases target with
        | fixed address => rfl
        | symbol s addend => cases h
        | label name =>
          simp only [relocation?, Option.map_eq_none_iff] at h
          simp only [targetAddress?, h, Option.map_none]

theorem targetAddress?_of_relocation {position : Nat} {target : Target} {r : Relocation}
    (h : relocation? labels position target = some r) (l : Layout) :
    targetAddress? l.base labels l.address? target = l.relocated? r := by
  cases target with
  | fixed address => cases h
  | symbol s addend =>
    cases h
    rfl
  | label name =>
    simp only [relocation?, Option.map_eq_some_iff] at h
    obtain ⟨offset, hoffset, rfl⟩ := h
    simp only [targetAddress?, hoffset, Layout.relocated?, Layout.address?, Option.map_some]

theorem offset_of_relocation {position : Nat} {target : Target} {r : Relocation}
    (h : relocation? labels position target = some r) : r.offset = UInt16.ofNat position := by
  cases target with
  | fixed address => cases h
  | symbol s addend =>
    cases h
    rfl
  | label name =>
    simp only [relocation?, Option.map_eq_some_iff] at h
    obtain ⟨offset, -, rfl⟩ := h
    rfl

/-- An operand with a relocation holds its address. -/
theorem itemBytes_of_relocation {offset : Nat} {item : Item} {r : Relocation}
    (h : itemRelocation? labels offset item = some r) :
    r.offset = UInt16.ofNat (offset + 1) ∧ ∃ op, ∀ l : Layout,
      targetFault? l.base labels l.address? item = none → ∃ address, l.relocated? r = some address ∧
        itemBytes l.base labels l.address? offset item = op :: Word.toBytes address := by
  cases item with
  | label name => cases h
  | data bytes => cases h
  | instruction m a =>
    simp only [itemRelocation?] at h
    split at h
    next op target hop htarget =>
      refine ⟨offset_of_relocation h, op, fun l hfault => ?_⟩
      simp only [targetFault?, hop, htarget, targetAddress?_of_relocation h] at hfault
      simp only [itemBytes, hop, operandBytes_of_target htarget, targetAddress?_of_relocation h]
      cases hr : l.relocated? r with
      | some address => exact ⟨address, rfl, rfl⟩
      | none => simp only [hr, reduceCtorEq] at hfault
    next => cases h

end Assembly

end Chiptune.Player
