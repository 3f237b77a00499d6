/-
**A song that was decoded is encoded as it was.**

Under a policy that refuses cuts, whatever is built is a player filled with the
song as the player has it: without what the player does not play, and with
steps that read back. That player is also filled with the song that is decoded
from it, and encoding a song that fills a player builds this player again.
-/
import Chiptune.Proofs.Player.Legible
import Chiptune.Proofs.Player.Lossless

namespace Chiptune

namespace File

namespace Text

theorem cstring_clipped (length : Nat) (text : String) :
    cstring ((clipped length text).toList.take length) = cstring (text.toList.take length) := by
  rw [clipped, String.toList_ofList, ← List.map_take, List.take_take, Nat.min_self, cstring_readBack]

end Text

theorem SongInfo.toBytes_written (i : SongInfo) : i.written.toBytes = i.toBytes := by
  simp only [SongInfo.toBytes, SongInfo.written, List.flatMap_cons, List.flatMap_nil, Text.cstring_clipped]

theorem Container.toBytes_written_info (c : Container) : { c with info := c.info.written }.toBytes = c.toBytes := by
  have hblocks : { c with info := c.info.written }.blocks = c.blocks := by
    simp only [blocks, SongInfo.toBytes_written]
  simp only [Container.toBytes, hblocks]

end File

namespace Player

open File Song

/-! ## What a player has of a song -/

namespace Fit

variable {t : Template} {s : Song}

theorem ends_apply_fail (s : Song) (c : Cut) :
    Job.Ends (apply .fail s c) (fun s' => s' = s ∧ c.required s ≤ c.capacity) fun _ => True := by
  unfold apply
  split
  next hholds => exact .pure ⟨rfl, of_decide_eq_true hholds⟩
  · exact .throw trivial

theorem ends_foldlM_fail (s : Song) : ∀ cuts : List Cut,
    Job.Ends (cuts.foldlM (apply .fail) s) (fun s' => s' = s ∧ ∀ c ∈ cuts, c.required s ≤ c.capacity) fun _ => True
  | [] => by
    rw [List.foldlM_nil]
    exact .pure (by simp)
  | c :: cuts => by
    rw [List.foldlM_cons]
    refine (ends_apply_fail s c).bind fun s' ⟨he, hc⟩ => ?_
    rw [he]
    exact (ends_foldlM_fail s cuts).mono (fun s' h => ⟨h.1, by simpa using ⟨hc, h.2⟩⟩) fun _ h => h

/-- A song that is not cut keeps within every limit. -/
theorem ends_cut_fail (t : Template) (s : Song) :
    Job.Ends (cut t .fail s) (fun result => result = (s, commandsOf s) ∧ Fits t s) fun _ => True := by
  unfold cut
  refine (ends_foldlM_fail s _).bind fun s₁ ⟨he, hearlier⟩ => ?_
  rw [he]
  refine (ends_apply_fail s _).bind fun s₂ ⟨he, hcommands⟩ => ?_
  rw [he]
  refine (ends_foldlM_fail s _).bind fun s₃ ⟨he, hlater⟩ => .pure ?_
  rw [he]
  have htake : (commandsOf s).take (commandCapacity t) = commandsOf s := List.take_of_length_le hcommands
  rw [htake]
  refine ⟨rfl, fun c hc => ?_⟩
  · simp only [limits, List.mem_append, List.mem_cons] at hc hlater hearlier
    rcases hc with hc | rfl | hc
    · exact hearlier c hc
    · exact hcommands
    · exact hlater c hc

end Fit

namespace Encode

variable {t : Template} {s : Song} {commands : List Command} {base : UInt16} {patches : List Patch}

/-- What a slot has of a song is what it gets of it with steps that read back. -/
theorem SlotRows.of_rowsOf {place : SlotPlace} {rows : List Bytes}
    (h : rowsOf s commands place.slot place.columns = .ok rows) : SlotRows (legible s) commands place rows := by
  unfold rowsOf at h
  cases hslot : place.slot with
  | instruments =>
    rw [hslot] at h
    cases h
    exact .instruments hslot
  | commands =>
    rw [hslot] at h
    cases h
    exact .commands hslot
  | _ =>
    rw [hslot] at h
    simp only [Slot.table?, Option.bind_some] at h
    split at h
    next htable =>
      cases h
      exact .noTable (by rw [hslot]; rfl) (by rw [table?_legible, htable]; rfl)
    next table htable =>
      rw [← Rows.encodeTable_legible] at h
      exact .table (by rw [hslot]; rfl) (by rw [table?_legible, htable]; rfl) (Rows.tableLoss?_legible table) h

/-- **What is packed** is filled with the song with steps that read back, if it keeps within every limit. -/
def Packed.filled (p : Packed t s commands) (hfits : Fit.Fits t s) (hsupported : Fit.Supported t s)
    (hfew : commands.length ≤ Fit.commandCapacity t)
    (hknown : ∀ q ∈ s.sequences, ∀ c, .setCommand c ∈ q.events → c ∈ commands) : Filled t (legible s) commands where
  base := p.base
  code := p.code
  slots := p.slots
  codeLength := Patch.length_applied p.applied
  wellFormed := wellFormed_legible p.wellFormed
  fits := hfits.alike (alike_legible s)
  supported := hsupported.legible
  few := hfew
  known := hknown
  places := p.places
  rows q hq := .of_rowsOf (p.rows q hq)
  limit := p.limit
  ascending := p.ascending
  musicLength := p.musicLength

/-- The player stands at a base, moved there by patches. -/
structure Filled.StandsAt (f : Filled t s commands) (address : UInt16) (patches : List Patch) : Prop where
  base : f.base = address
  derive : Patch.derive t (Layout.placed t address) = .ok patches
  applied : Patch.applied t.code patches = .ok f.code

/-- **What is built without cuts** is filled with the song as the player has it. -/
theorem ends_build_fail (s : Song) (t : Template) (base : Option UInt16) :
    Job.Ends (build s t { base, policy := .fail }) (fun built =>
      ∃ f : Filled t (legible (Fit.playable t s)) (Fit.commandsOf (legible (Fit.playable t s))),
        built.1 = f.container ∧ f.StandsAt (base.getD t.base) built.2.1) fun _ => True := by
  refine (ends_build_of (Fit.ends_cut_fail t _)).mono (fun built hbuilt => ?_) fun _ _ => trivial
  obtain ⟨-, s', commands, ⟨he, hfits⟩, p, hbase, rfl⟩ := hbuilt
  cases he
  exact ⟨p.filled hfits (Fit.supported_playable t s) hfits.commands_le fun _ hq _ => Fit.mem_commandsOf hq, rfl, hbase,
    hbase ▸ p.derive, p.applied⟩

/-! ## The song that is read from it -/

theorem SlotRows.normal (h : s.WellFormed) {commands : List Command} {place : SlotPlace} {rows : List Bytes}
    (hrows : SlotRows s commands place rows) : SlotRows s.normal commands place rows := by
  cases hrows with
  | instruments hslot => exact .instruments hslot
  | commands hslot => exact .commands hslot
  | @table kind table _ hslot htable hloss hencode =>
    by_cases hempty : table.rows = []
    · have hnone : s.normal.table? kind = none := by
        rw [Option.eq_none_iff_forall_ne_some]
        intro u hu
        obtain ⟨u, hu, hne, -⟩ := (table?_normal h).mp hu
        rw [htable] at hu
        cases hu
        exact hne hempty
      have hrows : rows = [] := by
        have hlength := (Rows.length_of_encodeTable hencode).1
        rw [hempty] at hlength
        exact List.length_eq_zero_iff.mp hlength
      rw [hrows]
      exact .noTable hslot hnone
    · exact .table hslot ((table?_normal h).mpr ⟨table, htable, hempty, rfl⟩) hloss hencode
  | @noTable kind hslot htable =>
    refine .noTable hslot (Option.eq_none_iff_forall_ne_some.mpr fun u hu => ?_)
    obtain ⟨table, htable', -⟩ := (table?_normal h).mp hu
    rw [htable] at htable'
    cases htable'

theorem music_normal (s : Song) (commands : List Command) : MusicData.of s.normal commands = MusicData.of s commands := by
  simp only [MusicData.of, Song.normal, List.map_map]
  rfl

/-- The player is filled with the song that is read from it as well. -/
def Filled.normal (f : Filled t s (Fit.commandsOf s)) : Filled t s.normal (Fit.commandsOf s.normal) where
  base := f.base
  code := f.code
  slots := f.slots
  codeLength := f.codeLength
  wellFormed := f.wellFormed.normal
  fits := f.fits.alike (alike_normal f.wellFormed)
  supported := f.supported.normal
  few := (f.fits.alike (alike_normal f.wellFormed)).commands_le
  known _ hq _ := Fit.mem_commandsOf hq
  places := f.places
  rows p hp := by
    rw [Fit.commandsOf_alike (alike_normal f.wellFormed)]
    exact (f.rows p hp).normal f.wellFormed
  limit := f.limit
  ascending := f.ascending
  musicLength := by
    rw [Fit.commandsOf_alike (alike_normal f.wellFormed), music_normal]
    exact f.musicLength

theorem Filled.container_normal (f : Filled t s (Fit.commandsOf s)) :
    f.normal.container = { f.container with info := f.container.info.written } := by
  have hmusic : f.normal.music = f.music := by
    rw [Filled.music, Filled.music, Fit.commandsOf_alike (alike_normal f.wellFormed), music_normal]
  have hcount : s.normal.sequences.length = s.sequences.length := List.length_map ..
  unfold Filled.container Encode.container
  rw [hmusic, hcount]
  rfl

theorem Filled.StandsAt.normal {f : Filled t s (Fit.commandsOf s)} (h : f.StandsAt base patches) :
    f.normal.StandsAt base patches :=
  ⟨h.base, h.derive, h.applied⟩

end Encode

/-! ## Building it again -/

namespace Fit

variable {t : Template} {s : Song}

theorem droppedCommands_eq_nil (h : Supported t s) : droppedCommands t s = [] := by
  refine List.filterMap_eq_nil_iff.mpr fun kind _ => ?_
  have hcount : s.events.countP (fun e => isUnsupported t e && e.command?.any (·.kind == kind)) = 0 := by
    rw [List.countP_eq_zero]
    intro e he
    obtain ⟨q, hq, he⟩ := List.mem_flatMap.mp he
    simp [h.commands q hq e he]
  exact if_pos hcount

theorem Supported.drop_eq (h : Supported t s) : drop t s = pure s := by
  have htables : s.tables.all (hasSlot t) = true := List.all_eq_true.mpr h.tables
  unfold drop
  rw [droppedCommands_eq_nil h, List.forIn_nil, pure_bind, htables, h.dropCommands_eq, h.dropTables_eq]
  rfl

theorem apply_eq (policy : Policy) {c : Cut} (h : c.required s ≤ c.capacity) : apply policy s c = pure s :=
  if_pos (decide_eq_true h)

theorem foldlM_apply_eq (policy : Policy) : ∀ {cuts : List Cut}, (∀ c ∈ cuts, c.required s ≤ c.capacity) →
    cuts.foldlM (apply policy) s = pure s
  | [], _ => rfl
  | c :: cuts, h => by
    rw [List.foldlM_cons, apply_eq policy (h c (by simp)), pure_bind]
    exact foldlM_apply_eq policy fun c hc => h c (by simp [hc])

theorem Fits.cut_eq (h : Fits t s) (policy : Policy) : cut t policy s = pure (s, commandsOf s) := by
  have hearlier : ∀ c ∈ tableCuts t ++ instrumentCuts t, c.required s ≤ c.capacity := fun c hc =>
    h c (List.mem_append_left _ hc)
  have hlater : ∀ c ∈ sequenceCut t :: (List.range voiceCount).map (orderCut t), c.required s ≤ c.capacity :=
    fun c hc => h c (List.mem_append_right _ (List.mem_cons_of_mem _ hc))
  unfold cut
  rw [foldlM_apply_eq policy hearlier, pure_bind, apply_eq policy h.commands_le, pure_bind,
    foldlM_apply_eq policy hlater, pure_bind, List.take_of_length_le h.commands_le]

end Fit

namespace Encode

variable {t : Template} {s : Song} {base : UInt16} {patches : List Patch}

theorem SlotRows.slotRows_eq {commands : List Command} {place : SlotPlace} {rows : List Bytes}
    (h : SlotRows s commands place rows) : slotRows s commands place = pure rows := by
  obtain ⟨slot, address, columns, capacity⟩ := place
  cases h with
  | instruments hslot =>
    cases hslot
    rfl
  | commands hslot =>
    cases hslot
    rfl
  | table hslot htable hloss hrows =>
    cases slot <;> cases hslot <;>
      simp only [slotRows, Slot.table?, Option.bind_some, htable, hloss, hrows, Job.ofExcept] <;> rfl
  | noTable hslot htable =>
    cases slot <;> cases hslot <;> simp only [slotRows, Slot.table?, Option.bind_some, htable]

theorem mapM_slotRows_eq {commands : List Command} : ∀ {slots : List (SlotPlace × List Bytes)},
    (∀ p ∈ slots, SlotRows s commands p.1 p.2) →
      (slots.map (·.1)).mapM (fun place => do return (place, ← slotRows s commands place) : SlotPlace → Job _) = pure slots
  | [], _ => by
    rw [List.map_nil, List.mapM_nil]
  | p :: slots, h => by
    rw [List.map_cons, List.mapM_cons, (h p (by simp)).slotRows_eq, pure_bind, pure_bind,
      mapM_slotRows_eq fun p hp => h p (by simp [hp]), pure_bind]

/-- **A song that fills a player** is built into it, without giving anything up. -/
theorem Filled.StandsAt.build_eq {f : Filled t s (Fit.commandsOf s)} {options : EncodeOptions}
    (h : f.StandsAt (options.base.getD t.base) patches) :
    build s t options = pure (f.container, patches, options.base.getD t.base) := by
  obtain ⟨hbase, hderive, happlied⟩ := h
  have hwell : requireWellFormed s = pure () := by
    rw [requireWellFormed, show s.faults = [] from f.wellFormed]
  have hlayout : Layout.of t (options.base.getD t.base) = .ok (Layout.placed t f.base) := by
    rw [← hbase]
    exact Layout.of_eq_ok.mpr ⟨f.limit, rfl⟩
  have hslots := mapM_slotRows_eq f.rows
  rw [f.places] at hslots
  rw [← hbase] at hderive
  unfold build
  simp only [hwell, hlayout, hderive, happlied, f.supported.drop_eq, f.fits.cut_eq, Job.ofExcept, pure_bind,
    if_neg (Nat.not_lt.mpr f.musicLength), hslots]
  exact if_neg (UInt16.not_lt.mpr f.ascending)

end Encode

/-! ## Encoding -/

theorem collecting_pure {α : Type} (a : α) : Job.collecting (pure a) = pure (a, []) := rfl

theorem filled_of_encode {s : Song} {t : Template} {base : Option UInt16} {j j' : Journal} {e : Encoded}
    (h : encode s t { base, policy := .fail } j = .ok e j') :
    ∃ (f : Encode.Filled t (legible (Fit.playable t s)) (Fit.commandsOf (legible (Fit.playable t s))))
      (patches : List Patch),
      f.StandsAt (base.getD t.base) patches ∧ f.container.toBytes = .ok e.bytes := by
  obtain ⟨⟨j₁, hbuild⟩, hbytes⟩ := collecting_of_encode h
  obtain ⟨f, hf, hstands⟩ := (Encode.ends_build_fail s t base).collecting.of_eq_ok hbuild
  exact ⟨f, e.patches, hstands, hf ▸ hbytes⟩

theorem encode_filled {s : Song} {t : Template} {options : EncodeOptions} {patches : List Patch} {bytes : Bytes}
    {f : Encode.Filled t s (Fit.commandsOf s)} (h : f.StandsAt (options.base.getD t.base) patches)
    (hbytes : f.container.toBytes = .ok bytes) :
    encode s t options =
      pure { base := options.base.getD t.base, bytes, container := f.container, patches, degradations := [] } := by
  unfold encode
  rw [h.build_eq, collecting_pure, pure_bind]
  dsimp only
  rw [hbytes]
  rfl

/-- **Encoding again what was decoded** gives the same file, and nothing more is given up. -/
theorem encode_decoded {s : Song} {t : Template} {base : Option UInt16} {j j' : Journal} {e : Encoded}
    (ht : t.Schematic) (h : encode s t { base, policy := .fail } j = .ok e j') :
    ∃ c s', Container.parse e.bytes = .ok c ∧ decode c = .ok s' ∧ s'.WellFormed ∧
      ∀ j, ∃ e', encode s' t { base, policy := .fail } j = .ok e' j ∧ e'.bytes = e.bytes ∧ e'.degradations = [] := by
  obtain ⟨f, patches, hstands, hbytes⟩ := filled_of_encode h
  have hextra : ∀ b ∈ f.container.extraBlocks, b.id ≠ Container.endId ∧ ∀ name, b.id ≠ Container.blockId name := by
    intro b hb
    cases hb
  have hagain : f.normal.container.toBytes = .ok e.bytes := by
    rw [f.container_normal, Container.toBytes_written_info]
    exact hbytes
  have hencode : encode (legible (Fit.playable t s)).normal t { base, policy := .fail } = _ :=
    encode_filled hstands.normal hagain
  exact ⟨f.written, _, Container.parse_toBytes hextra f.length_image_le hbytes, f.decode_written ht,
    f.wellFormed.normal, fun j => ⟨_, congrFun hencode j, rfl, rfl⟩⟩

/-- A song with a command that `mute` does not run, a step that looks like a marker, a table that it
has no slot for and one without rows. -/
def trip : Song where
  title := "Fahrt ins Grüne, und weiter als ein Titel reicht"
  tempo := 6
  instruments := [{ attackDecay := 0x09, sustainRelease := 0xF0, wave := 0, pulse := some 0 }]
  tables :=
    [⟨.wave, [.step [0x7F, 0x0C], .step [0x41, 0x00], .loop 1], .dynamic⟩, ⟨.arpeggio, [.step [0x07], .stop], .static⟩,
      ⟨.filter, [], .static⟩, ⟨.pulse, [.step [0x08, 0x00, 0x01], .stop], .static⟩]
  sequences :=
    [{ events := [.setCommand ⟨.vibrato, 3, 1⟩, .setCommand ⟨.setTempo, 5, 0⟩, .setInstrument 0, .noteOn 40, .rest 3] }]
  orderLists := [{ entries := [⟨12, 0⟩, ⟨-5, 0⟩], finish := .loop 1 }, {}, {}]

theorem encode_trip :
    (match encode trip mute { base := some 0x2000, policy := .fail } {} with
      | .ok e _ => e.isLossy
      | .error .. => false) = true := by
  simp only [encode, Encode.build, Fit.drop, Fit.droppedCommands, Fit.kindsByName_eq]
  decide +kernel

theorem encode_decoded_trip :
    ∃ e j, encode trip mute { base := some 0x2000, policy := .fail } {} = .ok e j ∧ e.isLossy = true ∧
      ∃ c s', Container.parse e.bytes = .ok c ∧ decode c = .ok s' ∧ s'.WellFormed ∧
        ∀ j, ∃ e', encode s' mute { base := some 0x2000, policy := .fail } j = .ok e' j ∧ e'.bytes = e.bytes ∧
          e'.degradations = [] := by
  have h := encode_trip
  split at h
  next e j hencode => exact ⟨e, j, hencode, h, encode_decoded mute_schematic hencode⟩
  · cases h

end Player

end Chiptune
