/-
What is put into a player, whatever had to be cut.

Whether songs are cut or refused, one that is encoded is put into the player
within every limit of it (`ends_cut`). Nothing of that depends on where the
player stands (`slotBlocks_congr`).
-/
import Chiptune.Proofs.Player.Memory
import Chiptune.Proofs.Player.Refusal

namespace Chiptune.Player

open File Song

/-! ## Cutting under any policy -/

namespace Fit

variable {t : Template} {s : Song} {policy : Policy}

theorem ends_apply (s : Song) (c : Cut) : Job.Ends (apply policy s c) (· = within s c) fun _ => True := by
  cases policy with
  | fail =>
    unfold apply within
    split
    · exact .pure rfl
    · exact .throw trivial
  | truncate => exact (ends_apply_truncate s c).mono (fun _ h => h.1) fun _ _ => trivial

theorem ends_foldlM : ∀ (cuts : List Cut) (s : Song),
    Job.Ends (cuts.foldlM (apply policy) s) (· = cuts.foldl within s) fun _ => True
  | [], s => by
    rw [List.foldlM_nil]
    exact .pure rfl
  | c :: cuts, s => by
    rw [List.foldlM_cons]
    refine (ends_apply s c).bind fun s' he => ?_
    rw [he]
    exact ends_foldlM cuts _

/-- The commands that a player has room for, once tables and instruments are cut. -/
def keptCommands (t : Template) (s : Song) : List Command :=
  (commandsOf ((tableCuts t ++ instrumentCuts t).foldl within s)).take (commandCapacity t)

/-- **A song that is cut or need not be** keeps within every limit. -/
theorem ends_cut (t : Template) (s : Song) :
    Job.Ends (cut t policy s) (· = (truncated t s, keptCommands t s)) fun _ => True := by
  unfold cut
  refine (ends_foldlM _ s).bind fun s₁ he₁ => ?_
  refine (ends_apply s₁ _).bind fun s₂ he₂ => ?_
  refine (ends_foldlM _ s₂).bind fun s₃ he₃ => .pure ?_
  simp only [he₃, he₂, he₁, keptCommands, truncated, limits, List.foldl_append, List.foldl_cons]

end Fit

namespace Encode

variable {t : Template} {s : Song} {commands : List Command}

/-! ## Rows -/

/-- What is in the slots is the same wherever they are. -/
theorem slotBlocks_congr : ∀ {specs : List SlotSpec} {m n : Nat} {slots slots' : List (SlotPlace × List Bytes)},
    slots.map (·.1) = Layout.placeSlots m specs → slots'.map (·.1) = Layout.placeSlots n specs →
      (∀ p ∈ slots, rowsOf s commands p.1.slot p.1.columns = .ok p.2) →
      (∀ p ∈ slots', rowsOf s commands p.1.slot p.1.columns = .ok p.2) →
      (slots.flatMap fun (place, rows) => slotBlock place rows) =
        slots'.flatMap fun (place, rows) => slotBlock place rows
  | [], _, _, slots, slots', h, h', _, _ => by rw [List.map_eq_nil_iff.mp h, List.map_eq_nil_iff.mp h']
  | spec :: specs, m, n, slots, slots', h, h', hrows, hrows' => by
    obtain ⟨⟨place, rows⟩, rest, rfl, hplace, hrest⟩ := List.map_eq_cons_iff.mp h
    obtain ⟨⟨place', rows'⟩, rest', rfl, hplace', hrest'⟩ := List.map_eq_cons_iff.mp h'
    dsimp only at hplace hplace'
    have hfirst := hrows (place, rows) (by simp)
    have hfirst' := hrows' (place', rows') (by simp)
    subst hplace hplace'
    cases hfirst.symm.trans hfirst'
    have hlater := slotBlocks_congr hrest hrest' (fun p hp => hrows p (by simp [hp])) fun p hp => hrows' p (by simp [hp])
    rw [List.flatMap_cons, List.flatMap_cons, hlater]
    rfl

/-! ## Players -/

theorem Packed.toNat_music (p : Packed t s commands) : (Layout.placed t p.base).music.toNat = t.musicAt p.base :=
  UInt16.toNat_ofNat_of_lt' (Layout.musicAt_lt p.limit p.ascending)

/-- The image ends at the limit of the music at the latest. -/
theorem Packed.image_le_limit (p : Packed t s commands) :
    p.base.toNat + p.container.image.length ≤ Layout.limitOf p.base := by
  have hlength : p.base.toNat + p.container.image.length = t.musicAt p.base + (MusicData.of s commands).bytes.length :=
    length_image_placed _ (Patch.length_applied p.applied) p.places
  have hroom : (MusicData.of s commands).bytes.length ≤ Layout.limitOf p.base - t.musicAt p.base :=
    p.toNat_music ▸ p.musicLength
  have hlimit := p.limit
  omega

/-- **What is built**, whatever had to be cut. -/
theorem ends_build (s : Song) (t : Template) (options : EncodeOptions) :
    Job.Ends (build s t options) (fun built => s.WellFormed ∧
      ∃ p : Packed t (Fit.truncated t (Fit.playable t s)) (Fit.keptCommands t (Fit.playable t s)),
        built.1 = p.container ∧ p.base = options.base.getD t.base ∧ built.2.2 = p.base) fun _ => True := by
  refine (ends_build_of (Fit.ends_cut t _)).mono (fun built hbuilt => ?_) fun _ _ => trivial
  obtain ⟨hsong, s', commands, he, p, hbase, rfl⟩ := hbuilt
  cases he
  exact ⟨hsong, p, rfl, hbase, rfl⟩

end Encode

theorem packed_of_encode {s : Song} {t : Template} {options : EncodeOptions} {j j' : Journal} {e : Encoded}
    (h : encode s t options j = .ok e j') : s.WellFormed ∧
      ∃ p : Encode.Packed t (Fit.truncated t (Fit.playable t s)) (Fit.keptCommands t (Fit.playable t s)),
        e.container = p.container ∧ e.base = p.base := by
  obtain ⟨⟨j₁, hbuild⟩, -⟩ := collecting_of_encode h
  obtain ⟨hsong, p, hcontainer, -, hbase⟩ := (Encode.ends_build s t options).collecting.of_eq_ok hbuild
  exact ⟨hsong, p, hcontainer, hbase⟩

end Chiptune.Player
