/-
Assembled code reads as the listing it was assembled from.

`Spelled` reads code along a listing, item by item: an instruction is decoded
to what the listing says, a branch leads to its label, and an address is that
of its target. What is read off that way is all there is to the code, to its
labels and to its relocations (`spelled_assemble`), and no two relocations
share a byte (`Spelled.relocations`).
-/
import Chiptune.Proofs.Player.Fetch
import Chiptune.Proofs.Player.Relocation

namespace Chiptune.Player

open Machine

variable {base : UInt16} {resolve : Symbol → Option UInt16} {labels : List (String × UInt16)}

/-! ## Operands -/

/-- The target of the operand at `position` stands for an address; the relocations that this takes. -/
inductive Target.Stands (base : UInt16) (resolve : Symbol → Option UInt16) (labels : List (String × UInt16))
    (position : Nat) : Target → UInt16 → List Relocation → Prop
  | fixed (address : UInt16) : Stands base resolve labels position (.fixed address) address []
  | label {name : String} {n offset : UInt16} (hlabel : (name, n) ∈ labels) (hoffset : offset.toNat = position) :
      Stands base resolve labels position (.label name) (base + n) [⟨offset, .code, n⟩]
  | symbol {s : Symbol} {addend address offset : UInt16} (hsymbol : resolve s = some address)
      (hoffset : offset.toNat = position) :
      Stands base resolve labels position (.symbol s addend) (address + addend) [⟨offset, s, addend⟩]

/-- The byte that is given as an argument. -/
def Argument.byte? : Argument → Option UInt8
  | .immediate v | .zeroPage v | .zeroPageX v | .zeroPageY v | .indexedIndirect v | .indirectIndexed v => some v
  | _ => none

/-- The operand bytes at `position` say what the argument does; their relocations. -/
inductive Argument.Spelled (base : UInt16) (resolve : Symbol → Option UInt16) (labels : List (String × UInt16))
    (position : Nat) : Argument → Bytes → List Relocation → Prop
  | bare {a : Argument} (hnone : a.mode.operandLength = 0) : Spelled base resolve labels position a [] []
  | byte {a : Argument} {v : UInt8} (hbyte : a.byte? = some v) : Spelled base resolve labels position a [v] []
  | branch {name : String} {n : UInt16} {displacement : UInt8} (hlabel : (name, n) ∈ labels)
      (hreaches : (position + 1 : Int) + displacement.toInt8.toInt = n.toNat) :
      Spelled base resolve labels position (.branch name) [displacement] []
  | word {a : Argument} {target : Target} {address : UInt16} {relocations : List Relocation}
      (htarget : a.target? = some target) (hstands : target.Stands base resolve labels position address relocations) :
      Spelled base resolve labels position a (Word.toBytes address) relocations

/-- An operand has a relocation at most, and then it is as long as an address. -/
theorem Argument.Spelled.relocations {position : Nat} {a : Argument} {operand : Bytes} {relocations : List Relocation}
    (h : a.Spelled base resolve labels position operand relocations) :
    relocations = [] ∨ ∃ r, relocations = [r] ∧ r.offset.toNat = position ∧ operand.length = 2 := by
  cases h with
  | bare | byte | branch => exact .inl rfl
  | word htarget hstands =>
    cases hstands with
    | fixed => exact .inl rfl
    | label hlabel hoffset | symbol hsymbol hoffset => exact .inr ⟨_, rfl, hoffset, rfl⟩

namespace Assembly

/-! ## Listings -/

/-- Code from an offset on says what the items do: it is made of their bytes, and it has their labels and the
relocations of their operands. -/
inductive Spelled (base : UInt16) (resolve : Symbol → Option UInt16) (labels : List (String × UInt16)) :
    Nat → List Item → Assembly → Prop
  | nil {offset : Nat} : Spelled base resolve labels offset [] {}
  | label {offset : Nat} {name : String} {n : UInt16} {items : List Item} {a : Assembly} (hoffset : n.toNat = offset)
      (hrest : Spelled base resolve labels offset items a) :
      Spelled base resolve labels offset (.label name :: items) { a with labels := (name, n) :: a.labels }
  | data {offset : Nat} {bytes : Bytes} {items : List Item} {a : Assembly}
      (hrest : Spelled base resolve labels (offset + bytes.length) items a) :
      Spelled base resolve labels offset (.data bytes :: items) { a with code := bytes ++ a.code }
  | instruction {offset : Nat} {m : Mnemonic} {argument : Argument} {byte : UInt8} {op : Opcode} {operand : Bytes}
      {relocations : List Relocation} {items : List Item} {a : Assembly} (hdecode : Opcode.decode byte = some op)
      (hmnemonic : op.mnemonic = m) (hmode : op.mode = argument.mode) (hlength : (byte :: operand).length = op.length)
      (hoperand : argument.Spelled base resolve labels (offset + 1) operand relocations)
      (hrest : Spelled base resolve labels (offset + op.length) items a) :
      Spelled base resolve labels offset (.instruction m argument :: items)
        { code := byte :: operand ++ a.code, relocations := relocations ++ a.relocations, labels := a.labels }

/-- The relocations are of operands within the code, one after another. -/
theorem Spelled.relocations {offset : Nat} {items : List Item} {a : Assembly}
    (h : Spelled base resolve labels offset items a) :
    (∀ r ∈ a.relocations, offset ≤ r.offset.toNat ∧ r.offset.toNat + 2 ≤ offset + a.code.length) ∧
      a.relocations.Pairwise fun r r' => r.offset.toNat + 2 ≤ r'.offset.toNat := by
  induction h with
  | nil => exact ⟨fun r hr => absurd hr List.not_mem_nil, .nil⟩
  | label _ _ ih => exact ih
  | data _ ih =>
    refine ⟨fun r hr => ?_, ih.2⟩
    obtain ⟨hlow, hhigh⟩ := ih.1 r hr
    rw [List.length_append]
    omega
  | @instruction offset m argument byte op operand relocations items a _ _ _ hlength hoperand _ ih =>
    obtain ⟨hwithin, hapart⟩ := ih
    rw [← hlength, List.length_cons] at hwithin
    have hlater (r : Relocation) (hr : r ∈ a.relocations) : offset ≤ r.offset.toNat ∧
        r.offset.toNat + 2 ≤ offset + (byte :: operand ++ a.code).length := by
      obtain ⟨hlow, hhigh⟩ := hwithin r hr
      rw [List.length_append, List.length_cons]
      omega
    rcases hoperand.relocations with rfl | ⟨r, rfl, hoffset, htwo⟩
    · exact ⟨hlater, hapart⟩
    · refine ⟨List.forall_mem_cons.mpr ⟨?_, hlater⟩, List.pairwise_cons.mpr ⟨fun r' hr' => ?_, hapart⟩⟩
      · rw [List.length_append, List.length_cons]
        omega
      · have hlow := (hwithin r' hr').1
        omega

/-! ## Assembled code -/

/-- The byte of a distance within reach is that distance as a signed number. -/
theorem signed_of_reachable {d : Int} (h : reachable d = true) : (UInt8.ofNat (d % 256).toNat).toInt8.toInt = d := by
  obtain ⟨hlow, hhigh⟩ : -128 ≤ d ∧ d ≤ 127 := by simpa [reachable] using h
  have hsize : Int8.size = 256 := rfl
  rw [UInt8.toInt8_ofNat', Int8.toInt_ofNat', Int.bmod_def, hsize]
  omega

theorem stands_target {position : Nat} {target : Target} {address : UInt16} (hnodup : (labels.map (·.1)).Nodup)
    (hposition : position < addressSpace) (h : targetAddress? base labels resolve target = some address) :
    target.Stands base resolve labels position address (relocation? labels position target).toList := by
  have hoffset : (UInt16.ofNat position).toNat = position := UInt16.toNat_ofNat_of_lt' hposition
  cases target with
  | fixed address' =>
    cases h
    exact .fixed address
  | label name =>
    obtain ⟨n, hn, rfl⟩ := Option.map_eq_some_iff.mp h
    rw [relocation?, hn]
    exact .label ((offset?_eq_some hnodup).mp hn) hoffset
  | symbol s addend =>
    obtain ⟨start, hstart, rfl⟩ := Option.map_eq_some_iff.mp h
    exact .symbol hstart hoffset

/-- The operand of an instruction without a fault says what its argument does. -/
theorem spelled_operand {offset : Nat} {m : Mnemonic} {argument : Argument} {byte : UInt8}
    (hnodup : (labels.map (·.1)).Nodup) (hposition : offset + 1 < addressSpace)
    (hencode : Opcode.encode m argument.mode = some byte)
    (hbranch : branchFault? labels offset (.instruction m argument) = none)
    (htarget : targetFault? base labels resolve (.instruction m argument) = none) :
    argument.Spelled base resolve labels (offset + 1) (operandBytes base labels resolve (offset + 1) argument)
      (itemRelocation? labels offset (.instruction m argument)).toList := by
  simp only [itemRelocation?, hencode]
  cases argument with
  | implied | accumulator => exact .bare rfl
  | immediate v | zeroPage v | zeroPageX v | zeroPageY v | indexedIndirect v | indirectIndexed v => exact .byte rfl
  | branch name =>
    obtain ⟨n, hn, hreachable⟩ := reachable_of_branchFault? hencode hbranch
    simp only [operandBytes, hn]
    refine .branch ((offset?_eq_some hnodup).mp hn) ?_
    rw [signed_of_reachable hreachable, distance]
    omega
  | absolute t | absoluteX t | absoluteY t | indirect t =>
    simp only [targetFault?, hencode, Argument.target?] at htarget
    cases haddress : targetAddress? base labels resolve t with
    | none => simp [haddress] at htarget
    | some address =>
      simp only [operandBytes, haddress, Option.getD_some]
      exact .word rfl (stands_target hnodup hposition haddress)

theorem codeFrom_cons (offset : Nat) (item : Item) (items : List Item) :
    codeFrom base labels resolve offset (item :: items) =
      itemBytes base labels resolve offset item ++ codeFrom base labels resolve (offset + sizeOf item) items := rfl

theorem relocationsFrom_cons (offset : Nat) (item : Item) (items : List Item) :
    relocationsFrom labels offset (item :: items) =
      (itemRelocation? labels offset item).toList ++ relocationsFrom labels (offset + sizeOf item) items := by
  cases hitem : itemRelocation? labels offset item <;> simp [relocationsFrom, place_cons, hitem]

/-- Labels that are not defined twice, and not before either. -/
theorem nodup_labelsOf : ∀ {items : List Item} {offset : Nat} {seen : List String}, listingFaults seen items = [] →
    ((labelsOf (place offset items)).map (·.1)).Nodup ∧ ∀ name ∈ (labelsOf (place offset items)).map (·.1), name ∉ seen
  | [], _, _, _ => ⟨.nil, nofun⟩
  | .data bytes :: items, offset, _, h => @nodup_labelsOf items (offset + bytes.length) _ h
  | .instruction m argument :: items, offset, _, h => by
    rw [listingFaults, List.append_eq_nil_iff] at h
    exact @nodup_labelsOf items (offset + sizeOf (.instruction m argument)) _ h.2
  | .label name :: items, offset, seen, h => by
    rw [listingFaults, List.append_eq_nil_iff] at h
    obtain ⟨hnodup, hfresh⟩ := @nodup_labelsOf items offset _ h.2
    have hname : name ∉ seen := by simpa using h.1
    have hlabels : (labelsOf (place offset (.label name :: items))).map (·.1) =
        name :: (labelsOf (place offset items)).map (·.1) := rfl
    rw [hlabels, List.nodup_cons]
    refine ⟨⟨fun hmem => hfresh name hmem (by simp), hnodup⟩, ?_⟩
    intro other hother
    rcases List.mem_cons.mp hother with rfl | hother
    · exact hname
    · exact fun hmem => hfresh other hother (by simp [hmem])

/-- **Items without a fault are spelled** by the code that is made of them. -/
theorem spelled_codeFrom (hnodup : (labels.map (·.1)).Nodup) : ∀ (items : List Item) (offset : Nat),
    offset + length items < addressSpace →
    (∀ m argument, .instruction m argument ∈ items → ∃ byte, Opcode.encode m argument.mode = some byte) →
    (∀ p ∈ place offset items, branchFault? labels p.1 p.2 = none) →
    (∀ item ∈ items, targetFault? base labels resolve item = none) →
      Spelled base resolve labels offset items
        ⟨codeFrom base labels resolve offset items, relocationsFrom labels offset items, labelsOf (place offset items)⟩
  | [], _, _, _, _, _ => .nil
  | item :: items, offset, hlength, hencode, hbranch, htarget => by
    have hsize : length (item :: items) = sizeOf item + length items := rfl
    rw [hsize] at hlength
    rw [place_cons] at hbranch
    have hrest := spelled_codeFrom hnodup items (offset + sizeOf item) (by omega)
      (fun m argument h => hencode m argument (by simp [h])) (fun p hp => hbranch p (by simp [hp]))
      fun item h => htarget item (by simp [h])
    rw [codeFrom_cons, relocationsFrom_cons]
    cases item with
    | label name =>
      have hposition : offset < UInt16.size := by
        have hspace : addressSpace = UInt16.size := rfl
        omega
      exact .label (UInt16.toNat_ofNat_of_lt' hposition) hrest
    | data bytes => exact .data hrest
    | instruction m argument =>
      obtain ⟨byte, hbyte⟩ := hencode m argument (by simp)
      obtain ⟨op, hdecode, hmnemonic, hmode⟩ := Opcode.decode_of_encode hbyte
      have hitem : sizeOf (.instruction m argument) = op.length := by
        simp only [sizeOf, hbyte, Opcode.length, hmode]
      have hposition : offset + 1 < addressSpace := by
        rw [hitem, Opcode.length] at hlength
        omega
      have hoperand := spelled_operand hnodup hposition hbyte (hbranch (offset, .instruction m argument) (by simp))
        (htarget (.instruction m argument) (by simp))
      have hlabels : labelsOf (place offset (.instruction m argument :: items)) =
          labelsOf (place (offset + sizeOf (.instruction m argument)) items) := rfl
      rw [hitem] at hrest
      rw [hlabels, hitem]
      simp only [itemBytes, hbyte]
      refine .instruction hdecode hmnemonic hmode ?_ hoperand hrest
      rw [List.length_cons, length_operandBytes, Opcode.length, hmode, Nat.add_comm]

/-- **Assembled code reads as its listing**: instructions, operands and labels are where and what the listing says,
and the relocations are those of the labels' and the symbols' operands, each for two bytes of its own. -/
theorem spelled_assemble {items : List Item} {a : Assembly} (h : assemble base resolve items = .ok a)
    (hlength : a.code.length ≤ 65535) :
    Spelled base resolve a.labels 0 items a ∧ (a.labels.map (·.1)).Nodup ∧
      (∀ r ∈ a.relocations, r.offset.toNat + 2 ≤ a.code.length) ∧
      a.relocations.Pairwise fun r r' => r.offset.toNat + 2 ≤ r'.offset.toNat := by
  rw [length_code h] at hlength
  obtain ⟨hfaults, rfl⟩ := assemble_eq_ok.mp h
  have htarget := targetFault?_eq_none hfaults
  simp only [faults, List.append_eq_nil_iff] at hfaults
  obtain ⟨⟨hlisting, hbranch⟩, -⟩ := hfaults
  have hnodup := (@nodup_labelsOf items 0 [] hlisting).1
  have hspelled := spelled_codeFrom hnodup items 0 (by unfold addressSpace; omega)
    (fun m argument hmem => encode_of_listingFaults hlisting hmem) (List.filterMap_eq_nil_iff.mp hbranch) htarget
  obtain ⟨hwithin, hapart⟩ := hspelled.relocations
  refine ⟨hspelled, hnodup, fun r hr => ?_, hapart⟩
  have hhigh := (hwithin r hr).2
  rwa [Nat.zero_add] at hhigh

/-- Addresses for the symbols of `glimpse`. -/
def glimpsed (s : Symbol) : Option UInt16 := if s = .table .wave then some 0x20FF else none

theorem spelled_assemble_glimpse :
    ∃ a, assemble 0x1000 glimpsed glimpse = .ok a ∧ a.code.length = 17 ∧ a.relocations.length = 3 ∧
      Spelled 0x1000 glimpsed a.labels 0 glimpse a ∧ (a.labels.map (·.1)).Nodup ∧
        (∀ r ∈ a.relocations, r.offset.toNat + 2 ≤ a.code.length) ∧
        a.relocations.Pairwise fun r r' => r.offset.toNat + 2 ≤ r'.offset.toNat := by
  have hfaults : faults 0x1000 glimpsed glimpse = [] := by decide +kernel
  have ha := assemble_eq_ok.mpr ⟨hfaults, rfl⟩
  exact ⟨_, ha, by decide +kernel, by decide +kernel, spelled_assemble ha (by decide +kernel)⟩

end Assembly

end Chiptune.Player
