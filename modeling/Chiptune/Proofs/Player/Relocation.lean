/-
A player that is moved is the player assembled where it is moved to.

The patches follow the listing: those of its first item rewrite that item's
operand, and those of the rest find their operands as they were assembled,
since no two operands share a byte.
-/
import Chiptune.Player.Minimal.Template
import Chiptune.Player.Patch
import Chiptune.Proofs.Outcome
import Chiptune.Proofs.Player.Assembly

namespace Chiptune.Player

namespace Patch

/-! ## One operand -/

variable {before after : Bytes}

theorem operand?_append (v : UInt16) : operand? (before ++ (Word.toBytes v ++ after)) before.length = some v := by
  rw [operand?, List.drop_left]
  simp only [Word.toBytes, List.cons_append, Word.ofBytes_low_high]

theorem put_append (v w : UInt16) :
    put (before ++ (Word.toBytes v ++ after)) before.length w = before ++ (Word.toBytes w ++ after) := by
  simp [put, Word.toBytes]

/-- The patches turn one code into another. -/
def Moves (code : Bytes) (patches : List Patch) (moved : Bytes) : Prop := ∃ n, apply code patches = (.ok n, moved)

namespace Moves

theorem nil (code : Bytes) : Moves code [] code := ⟨0, rfl⟩

theorem operand (before after : Bytes) (v w : UInt16) {patches : List Patch} {moved : Bytes}
    (h : Moves (before ++ (Word.toBytes w ++ after)) patches moved) :
    Moves (before ++ (Word.toBytes v ++ after)) (⟨before.length, v, w⟩ :: patches) moved := by
  obtain ⟨n, hn⟩ := h
  unfold Moves apply
  rw [operand?_append]
  dsimp only
  by_cases hvw : v = w
  · subst hvw
    rw [if_pos rfl]
    exact ⟨n, hn⟩
  · rw [if_neg hvw, if_neg (by simp), put_append, hn]
    exact ⟨n + 1, rfl⟩

end Moves

/-- The patch of a relocation. -/
def moving (t : Template) (l l' : Layout) (r : Relocation) : Except Failure Patch := do
  return { offset := r.offset.toNat, assembled := ← resolve t l r, moved := ← resolve t l' r }

theorem resolve_eq_ok {l : Layout} {r : Relocation} {address : UInt16} (t : Template)
    (h : l.relocated? r = some address) : resolve t l r = .ok address := by
  obtain ⟨start, hstart, rfl⟩ := Option.map_eq_some_iff.mp h
  rw [resolve, hstart]

theorem moving_eq_ok {l l' : Layout} {r : Relocation} {v w : UInt16} (t : Template) (hv : l.relocated? r = some v)
    (hw : l'.relocated? r = some w) : moving t l l' r = .ok ⟨r.offset.toNat, v, w⟩ := by
  rw [moving, resolve_eq_ok t hv, resolve_eq_ok t hw]
  rfl

end Patch

namespace Assembly

open Patch

variable {labels : List (String × UInt16)}

/-! ## A listing -/

theorem place_cons (offset : Nat) (item : Item) (items : List Item) :
    place offset (item :: items) = (offset, item) :: place (offset + sizeOf item) items := rfl

/-- **Every operand is patched to what it is assembled to elsewhere.** The induction is on the items
behind code that is moved already. -/
theorem moves_codeFrom (t : Template) (l l' : Layout) : ∀ (items : List Item) (before : Bytes),
    before.length + length items < Machine.addressSpace →
    (∀ item ∈ items, targetFault? l.base labels l.address? item = none) →
    (∀ item ∈ items, targetFault? l'.base labels l'.address? item = none) →
      ∃ patches, (relocationsFrom labels before.length items).mapM (moving t l l') = .ok patches ∧
        Moves (before ++ codeFrom l.base labels l.address? before.length items) patches
          (before ++ codeFrom l'.base labels l'.address? before.length items)
  | [], before, _, _, _ => ⟨[], rfl, .nil _⟩
  | item :: items, before, hlength, hfault, hfault' => by
    have hsize : length (item :: items) = sizeOf item + length items := rfl
    rw [hsize] at hlength
    have hplaced (base : UInt16) (resolve : Symbol → Option UInt16) :
        codeFrom base labels resolve before.length (item :: items) =
          itemBytes base labels resolve before.length item ++
            codeFrom base labels resolve (before.length + sizeOf item) items := rfl
    have hbefore := @length_itemBytes l'.base labels l'.address? before.length item
    have hrest := moves_codeFrom t l l' items (before ++ itemBytes l'.base labels l'.address? before.length item)
      (by rw [List.length_append, hbefore]; omega) (fun i hi => hfault i (by simp [hi])) fun i hi => hfault' i (by simp [hi])
    rw [List.length_append, hbefore] at hrest
    obtain ⟨patches, hpatches, hmoves⟩ := hrest
    simp only [hplaced, relocationsFrom, place_cons, List.filterMap_cons, List.append_assoc] at hpatches hmoves ⊢
    cases hr : itemRelocation? labels before.length item with
    | none =>
      refine ⟨patches, hpatches, ?_⟩
      have hsame : itemBytes l.base labels l.address? before.length item =
          itemBytes l'.base labels l'.address? before.length item := itemBytes_congr hr
      rwa [hsame]
    | some r =>
      obtain ⟨hoffset, op, hbytes⟩ := itemBytes_of_relocation hr
      obtain ⟨v, hv, hcode⟩ := hbytes l (hfault item (by simp))
      obtain ⟨w, hw, hcode'⟩ := hbytes l' (hfault' item (by simp))
      have hposition : r.offset.toNat = (before ++ [op]).length := by
        have hsize : sizeOf item = 3 := by rw [← hbefore, hcode']; rfl
        rw [hoffset, UInt16.toNat_ofNat', List.length_append, List.length_singleton]
        have : Machine.addressSpace = 65536 := rfl
        omega
      refine ⟨⟨r.offset.toNat, v, w⟩ :: patches, ?_, ?_⟩
      · simp only [List.mapM_cons, moving_eq_ok t hv hw, hpatches]
        rfl
      · rw [hcode'] at hmoves ⊢
        rw [hcode, hposition]
        have hmove := Moves.operand (before ++ [op])
          (codeFrom l.base labels l.address? (before.length + sizeOf item) items) v w (by simpa using hmoves)
        simpa using hmove

/-! ## Templates -/

theorem targetFault?_eq_none {base : UInt16} {resolve : Symbol → Option UInt16} {items : List Item}
    (h : faults base resolve items = []) :
    ∀ item ∈ items, targetFault? base (labelsOf (place 0 items)) resolve item = none := by
  simp only [faults, List.append_eq_nil_iff] at h
  exact List.filterMap_eq_nil_iff.mp h.2

theorem length_code_lt {t : Template} {base : UInt16} (h : t.musicAt base ≤ Layout.limitOf base) :
    t.code.length < Machine.addressSpace := by
  have hlimit := Layout.limitOf_le base
  have : 0 < Sound.Pitch.count := by decide
  simp only [Template.musicAt, Template.sequencesAt, Template.ordersAt, Template.tempoAt, Template.frequenciesAt,
    Template.slotsAt] at h
  omega

/-- A template with the code of a listing is moved to where its layout is. -/
theorem moves_template {t : Template} {items : List Item} {base : UInt16} {l l' : Layout} {a : Assembly}
    (hl : Layout.of t t.base = .ok l) (hl' : Layout.of t base = .ok l')
    (ha : assemble t.base l.address? items = .ok a) (hcode : t.code = a.code) (hrelocations : t.relocations = a.relocations) :
    ∃ a', assemble base l'.address? items = .ok a' ∧ a'.relocations = a.relocations ∧ a'.labels = a.labels ∧
      ∃ patches, Patch.derive t l' = .ok patches ∧ Moves t.code patches a'.code := by
  have hlength := length_code ha
  obtain ⟨hfits, hplaced⟩ := Layout.of_eq_ok.mp hl
  obtain ⟨-, rfl⟩ := Layout.of_eq_ok.mp hl'
  have hbound := length_code_lt hfits
  subst hplaced
  obtain ⟨hfaults, rfl⟩ := assemble_eq_ok.mp ha
  have hfaults' : faults base (Layout.placed t base).address? items = [] := by
    rw [← hfaults]
    exact faults_congr (Layout.isSome_address? t base t.base) items
  refine ⟨_, assemble_eq_ok.mpr ⟨hfaults', rfl⟩, rfl, rfl, ?_⟩
  obtain ⟨patches, hpatches, hmoves⟩ := moves_codeFrom t (Layout.placed t t.base) (Layout.placed t base) items []
    (by rw [List.length_nil, Nat.zero_add, ← hlength, ← hcode]; exact hbound)
    (targetFault?_eq_none hfaults) (targetFault?_eq_none hfaults')
  refine ⟨patches, ?_, hcode ▸ hmoves⟩
  rw [Patch.derive, hl, hrelocations]
  exact hpatches

/-- **Moving an assembled player is assembling it elsewhere.** -/
theorem move_assembled {t : Template} {items : List Item} {base base' : UInt16} {l l' : Layout} {a : Assembly}
    (hl : Layout.make t base (length items) = .ok l) (hl' : Layout.make t base' (length items) = .ok l')
    (ha : assemble base l.address? items = .ok a) :
    ∃ a', assemble base' l'.address? items = .ok a' ∧ a'.relocations = a.relocations ∧ a'.labels = a.labels ∧
      ∃ patches, Patch.derive { t with base, code := a.code, relocations := a.relocations } l' = .ok patches ∧
        ∃ n, Patch.apply a.code patches = (.ok n, a'.code) := by
  rw [← length_code ha] at hl hl'
  exact moves_template (t := { t with base, code := a.code, relocations := a.relocations }) hl hl' ha rfl rfl

/-- A jump to its second instruction, which reads a slot through a label behind it and stores to the chip. -/
def glimpse : List Item :=
  [.instruction .jmp (.absolute (.label "start")), .data [0xEA], .label "start",
    .instruction .ldy (.absolute (.label "row")), .instruction .lda (.absoluteY (.symbol (.table .wave) 1)),
    .instruction .sta (.absolute (.fixed 0xD418)), .instruction .bne (.branch "start"), .instruction .rts .implied,
    .label "row", .data [2]]

theorem move_assembled_glimpse :
    ∃ l l' a, Layout.make Minimal.frame 0x1000 (length glimpse) = .ok l ∧
      Layout.make Minimal.frame 0x40F0 (length glimpse) = .ok l' ∧ assemble 0x1000 l.address? glimpse = .ok a ∧
      ∃ a', assemble 0x40F0 l'.address? glimpse = .ok a' ∧ a'.relocations = a.relocations ∧ a'.labels = a.labels ∧
        ∃ patches, Patch.derive { Minimal.frame with base := 0x1000, code := a.code, relocations := a.relocations } l' =
            .ok patches ∧
          ∃ n, Patch.apply a.code patches = (.ok n, a'.code) := by
  let player : Template := { Minimal.frame with code := List.replicate (length glimpse) 0 }
  have hl : Layout.make Minimal.frame 0x1000 (length glimpse) = .ok (Layout.placed player 0x1000) := by decide +kernel
  have hl' : Layout.make Minimal.frame 0x40F0 (length glimpse) = .ok (Layout.placed player 0x40F0) := by decide +kernel
  have hfaults : faults 0x1000 (Layout.placed player 0x1000).address? glimpse = [] := by decide +kernel
  have ha := assemble_eq_ok.mpr ⟨hfaults, rfl⟩
  exact ⟨_, _, _, hl, hl', ha, move_assembled hl hl' ha⟩

end Assembly

end Chiptune.Player
