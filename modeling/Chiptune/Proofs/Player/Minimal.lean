/-
A player that is assembled for its own base, and the minimal one of them.

Such a player has a layout, and moving it to its own base succeeds. Its layout
depends on its listing only through the length of its code, which is known
before it is assembled.
-/
import Chiptune.Proofs.Player.Relocation

namespace Chiptune.Player

open Assembly

/-! ## Assembled players -/

/-- The template's code is that of a listing at the template's own base. -/
def Template.Assembled (t : Template) (items : List Item) : Prop :=
  ∃ l a, Layout.of t t.base = .ok l ∧ assemble t.base l.address? items = .ok a ∧
    t.code = a.code ∧ t.relocations = a.relocations

namespace Template

variable {t : Template} {items : List Item}

theorem Assembled.length_code (h : t.Assembled items) : t.code.length = length items := by
  obtain ⟨l, a, -, ha, hcode, -⟩ := h
  rw [hcode]
  exact Assembly.length_code ha

theorem Assembled.layout_eq_ok (h : t.Assembled items) : Layout.of t t.base = .ok (Layout.placed t t.base) := by
  obtain ⟨l, a, hl, -⟩ := h
  rw [hl, (Layout.of_eq_ok.mp hl).2]

/-- Moving the player to its own base succeeds. -/
def Movable (t : Template) : Prop :=
  ∃ patches code, Patch.derive t (Layout.placed t t.base) = .ok patches ∧ Patch.applied t.code patches = .ok code

/-- **Wherever there is room for the player**, it is moved there, and its code is that of its listing there. -/
theorem Assembled.moved (h : t.Assembled items) {base : UInt16} (hfits : t.musicAt base ≤ Layout.limitOf base) :
    ∃ patches, Patch.derive t (Layout.placed t base) = .ok patches ∧
      Patch.applied t.code patches =
        .ok (codeFrom base (labelsOf (place 0 items)) (Layout.placed t base).address? 0 items) := by
  obtain ⟨l, a, hl, ha, hcode, hrelocations⟩ := h
  have hlayout : Layout.of t base = .ok (Layout.placed t base) := Layout.of_eq_ok.mpr ⟨hfits, rfl⟩
  obtain ⟨a', ha', -, -, patches, hpatches, n, hn⟩ := moves_template hl hlayout ha hcode hrelocations
  obtain ⟨-, rfl⟩ := assemble_eq_ok.mp ha'
  exact ⟨patches, hpatches, by rw [Patch.applied, hn]⟩

theorem Assembled.movable (h : t.Assembled items) : t.Movable := by
  obtain ⟨patches, hpatches, happlied⟩ := h.moved (Layout.of_eq_ok.mp h.layout_eq_ok).1
  exact ⟨patches, _, hpatches, happlied⟩

/-- The template with code. -/
abbrev withCode (t : Template) (code : Bytes) (relocations : List Relocation) : Template :=
  { t with code, relocations }

theorem code_withCode (t : Template) (code : Bytes) (relocations : List Relocation) :
    (t.withCode code relocations).code = code := rfl

theorem musicAt_withCode (hcode : t.code = []) (base : UInt16) (code : Bytes) (relocations : List Relocation) :
    (t.withCode code relocations).musicAt base = t.musicAt base + code.length := by
  simp only [musicAt, sequencesAt, ordersAt, tempoAt, frequenciesAt, slotsAt, slotBytes, hcode, List.length_nil]
  omega

/-- The layout depends on the code through its length only. -/
theorem placed_withCode {base : UInt16} {code code' : Bytes} {relocations relocations' : List Relocation}
    (hlength : code.length = code'.length) :
    Layout.placed (t.withCode code relocations) base = Layout.placed (t.withCode code' relocations') base := by
  simp only [Layout.placed, musicAt, sequencesAt, ordersAt, tempoAt, frequenciesAt, slotsAt, slotBytes, hlength]

/-- **A listing without faults is assembled** for the layout with room for its code. -/
theorem exists_assembled (hcode : t.code = []) (hfits : t.musicAt t.base + length items ≤ Layout.limitOf t.base)
    (hfaults : faults t.base (Layout.placed t t.base).address? items = []) :
    ∃ l a, Layout.make t t.base (length items) = .ok l ∧ assemble t.base l.address? items = .ok a ∧
      (t.withCode a.code a.relocations).Assembled items := by
  have hmake (code : Bytes) (relocations : List Relocation) (hlength : code.length = length items) :
      Layout.of (t.withCode code relocations) t.base = Layout.make t t.base (length items) := by
    rw [← hlength]
    rfl
  let blank := t.withCode (List.replicate (length items) 0) []
  have hblank : blank.musicAt t.base ≤ Layout.limitOf t.base := by
    rw [musicAt_withCode hcode, List.length_replicate]
    exact hfits
  have hl : Layout.make t t.base (length items) = .ok (Layout.placed blank t.base) := by
    rw [← hmake _ [] List.length_replicate]
    exact Layout.of_eq_ok.mpr ⟨hblank, rfl⟩
  have hsome (s : Symbol) :
      ((Layout.placed blank t.base).address? s).isSome = ((Layout.placed t t.base).address? s).isSome := by
    cases s with
    | table slot => simp only [Layout.address?, Option.isSome_map, Layout.isSome_slot?, blank]
    | _ => rfl
  have ha : assemble t.base (Layout.placed blank t.base).address? items = .ok _ :=
    assemble_eq_ok.mpr ⟨(faults_congr hsome items).trans hfaults, rfl⟩
  exact ⟨_, _, hl, ha, _, _, (hmake _ _ (Assembly.length_code ha)).trans hl, ha, rfl, rfl⟩

end Template

/-! ## The minimal player -/

namespace Minimal

theorem listing_assembles :
    length listing = 771 ∧ faults frame.base (Layout.placed frame frame.base).address? listing = [] := by
  decide +kernel

theorem assembly_eq {l : Layout} {a : Assembly} (hl : Layout.make frame base (length listing) = .ok l)
    (ha : assemble base l.address? listing = .ok a) : assembly = a := by
  unfold assembly
  rw [hl]
  dsimp only
  rw [ha]

theorem template_eq : template = frame.withCode assembly.code assembly.relocations := rfl

/-- **The minimal player is assembled** from its listing. -/
theorem template_assembled : template.Assembled listing := by
  obtain ⟨hlength, hfaults⟩ := listing_assembles
  have hfits : frame.musicAt frame.base + length listing ≤ Layout.limitOf frame.base := by
    rw [hlength]
    decide
  obtain ⟨l, a, hl, ha, h⟩ := Template.exists_assembled (t := frame) rfl hfits hfaults
  rw [template_eq, assembly_eq hl ha]
  exact h

theorem length_assembly : assembly.code.length = 771 := by
  have hlength := template_assembled.length_code
  rwa [listing_assembles.1, template_eq, Template.code_withCode] at hlength

/-- Before its music the player takes 2736 bytes. -/
theorem musicAt_template (base : UInt16) : template.musicAt base = base.toNat + 2736 := by
  have hframe : frame.musicAt base = base.toNat + 1965 := rfl
  rw [template_eq, Template.musicAt_withCode rfl, hframe, length_assembly]

/-- Music goes below the chip, to an address after the player's base. -/
theorem base_le_music : base ≤ (Layout.placed template base).music := by
  have hmusic : (Layout.placed template base).music = UInt16.ofNat (template.musicAt base) := rfl
  rw [hmusic, musicAt_template]
  decide

end Minimal

end Chiptune.Player
