/-
What a player that a song was put into without loss is made of.

`Filled` has the parts of the container with what holds of them: the rows of
each slot are the song's (`SlotRows`), the music fits, and the addresses go up.
A build that gives nothing up makes a container of such parts
(`lossless_build`); reading the song back starts from them alone.

Whatever is given up, a build ends with the parts that it has put together
(`Packed`) or fails in one of its steps (`ends_build_of`). What is said of builds
under one policy or for one kind of player comes from what cutting ends with.
-/
import Chiptune.Player.Encode
import Chiptune.Proofs.Lists
import Chiptune.Proofs.Player.Fit
import Chiptune.Proofs.Player.Layout

namespace Chiptune.Player

open File Song

namespace Patch

theorem length_put (code : Bytes) (offset : Nat) (value : UInt16) :
    (put code offset value).length = code.length := by
  simp [put]

theorem length_apply : ∀ (patches : List Patch) (code : Bytes), (apply code patches).2.length = code.length
  | [], code => rfl
  | p :: patches, code => by
    unfold apply
    split
    · rfl
    split
    · exact length_apply patches code
    split
    · rfl
    · have h := length_apply patches (put code p.offset p.moved)
      rw [length_put] at h
      split <;> simp_all

theorem length_applied {code code' : Bytes} {patches : List Patch} (h : applied code patches = .ok code') :
    code'.length = code.length := by
  have hlength := length_apply patches code
  unfold applied at h
  split at h
  next happly =>
    rw [happly] at hlength
    cases h
    exact hlength
  · cases h

end Patch

namespace Encode

variable {t : Template} {s : Song} {commands : List Command}

/-! ## Slots -/

/-- The rows a slot gets of a song with its commands when none is given up. -/
inductive SlotRows (s : Song) (commands : List Command) (place : SlotPlace) : List Bytes → Prop
  | instruments (hslot : place.slot = .instruments) :
      SlotRows s commands place (s.instruments.map Rows.encodeInstrument)
  | commands (hslot : place.slot = .commands) :
      SlotRows s commands place (commands.map Rows.encodeCommand)
  | table {kind : TableKind} {table : Table} {rows : List Bytes}
      (hslot : place.slot.table? = some kind) (htable : s.table? kind = some table)
      (hloss : Rows.tableLoss? table = none)
      (hrows : Rows.encodeTable table place.columns.toNat = .ok rows) :
      SlotRows s commands place rows
  | noTable {kind : TableKind} (hslot : place.slot.table? = some kind)
      (htable : s.table? kind = none) : SlotRows s commands place []

namespace SlotRows

variable {place : SlotPlace} {rows : List Bytes}

theorem eq_of_instruments (h : SlotRows s commands place rows) (hslot : place.slot = .instruments) :
    rows = s.instruments.map Rows.encodeInstrument := by
  cases h with
  | instruments => rfl
  | commands hslot' => cases hslot.symm.trans hslot'
  | table hslot' | noTable hslot' =>
    rw [hslot] at hslot'
    cases hslot'

theorem eq_of_commands (h : SlotRows s commands place rows) (hslot : place.slot = .commands) :
    rows = commands.map Rows.encodeCommand := by
  cases h with
  | commands => rfl
  | instruments hslot' => cases hslot.symm.trans hslot'
  | table hslot' | noTable hslot' =>
    rw [hslot] at hslot'
    cases hslot'

end SlotRows

theorem tableLoss?_isLossy {table : Table} {d : Degradation} (h : Rows.tableLoss? table = some d) :
    d.isLossy = true := by
  simp only [Rows.tableLoss?] at h
  split at h
  · cases h
  · cases h
    rfl

theorem lossless_tableRows (place : SlotPlace) (table : Table) :
    Job.Lossless (do
      let rows ← Job.ofExcept (Rows.encodeTable table place.columns.toNat)
      match Rows.tableLoss? table with
      | some loss => Job.degrade loss
      | none => pure ()
      return rows : Job (List Bytes)) fun rows =>
        Rows.encodeTable table place.columns.toNat = .ok rows ∧ Rows.tableLoss? table = none := by
  refine .bind .ofExcept fun rows => ?_
  cases hloss : Rows.tableLoss? table with
  | some loss => exact .bind (P := fun _ => False) (.degrade (tableLoss?_isLossy hloss)) fun _ => .pure False.elim
  | none => exact .pure fun hrows => ⟨hrows, rfl⟩

theorem lossless_slotRows (s : Song) (commands : List Command) (place : SlotPlace) :
    Job.Lossless (slotRows s commands place) (SlotRows s commands place) := by
  unfold slotRows
  cases hslot : place.slot with
  | instruments => exact .pure (.instruments hslot)
  | commands => exact .pure (.commands hslot)
  | _ =>
    simp only [Slot.table?, Option.bind_some]
    split
    next htable => exact .pure (.noTable (by rw [hslot]; rfl) htable)
    next table htable =>
      exact (lossless_tableRows place table).mono fun rows h =>
        .table (by rw [hslot]; rfl) htable h.2 h.1

/-! ## Players -/

/-- The parts of a player that holds a song with its commands without loss. -/
structure Filled (t : Template) (s : Song) (commands : List Command) where
  base : UInt16
  code : Bytes
  slots : List (SlotPlace × List Bytes)
  codeLength : code.length = t.code.length
  wellFormed : s.WellFormed
  fits : Fit.Fits t s
  supported : Fit.Supported t s
  few : commands.length ≤ Fit.commandCapacity t
  known : ∀ q ∈ s.sequences, ∀ c, .setCommand c ∈ q.events → c ∈ commands
  places : slots.map (·.1) = (Layout.placed t base).slots
  rows : ∀ p ∈ slots, SlotRows s commands p.1 p.2
  limit : t.musicAt base ≤ Layout.limitOf base
  ascending : base ≤ (Layout.placed t base).music
  musicLength : (MusicData.of s commands).bytes.length ≤ (Layout.placed t base).musicCapacity

/-- The order lists and sequences in the player. -/
def Filled.music (_ : Filled t s commands) : MusicData := .of s commands

/-- The player as a container. -/
def Filled.container (f : Filled t s commands) : Container :=
  Encode.container t (Layout.placed t f.base) f.code s f.slots f.music

theorem lossless_requireWellFormed (s : Song) :
    Job.Lossless (requireWellFormed s) fun _ => s.WellFormed := by
  unfold requireWellFormed
  split
  next h => exact .pure h
  · exact .throw

theorem ends_requireWellFormed {E : Failure → Prop} (h : ¬ s.WellFormed → E (.malformedSong s.faults)) :
    Job.Ends (requireWellFormed s) (fun _ => s.WellFormed) E := by
  unfold requireWellFormed
  split
  next hfaults => exact .pure hfaults
  next hfaults => exact .throw (h hfaults)

/-- **What is built without loss is a filled player.** -/
theorem lossless_build (s : Song) (t : Template) (options : EncodeOptions) :
    Job.Lossless (build s t options) fun built => ∃ f : Filled t s (Fit.commandsOf s), built.1 = f.container := by
  unfold build
  refine (lossless_requireWellFormed s).bind fun _ => ?_
  refine Job.Lossless.ofExcept.bind fun l => ?_
  refine Job.Lossless.ofExcept.bind fun patches => ?_
  refine Job.Lossless.ofExcept.bind fun code => ?_
  refine (Fit.lossless_drop t s).bind fun s₁ => ?_
  refine (Fit.lossless_cut t options.policy s₁).bind fun r => ?_
  obtain ⟨s₂, commands⟩ := r
  refine (lossless_requireWellFormed s₂).bind fun _ => ?_
  have hslots : Job.Lossless (l.slots.mapM fun place => do return (place, ← slotRows s₂ commands place))
      (List.Forall₂ (fun place p => place = p.1 ∧ SlotRows s₂ commands p.1 p.2) l.slots) :=
    .mapM (fun place => (lossless_slotRows s₂ commands place).bind fun rows => .pure fun h => ⟨rfl, h⟩) _
  dsimp only
  split
  · exact .throw_bind
  split
  · exact .throw_bind
  next hlength hascending =>
    refine hslots.bind fun slots => .pure ?_
    rintro hslots hwell ⟨he, hfits⟩ ⟨rfl, hsupported⟩ hcode - hl -
    cases he
    obtain ⟨hlimit, rfl⟩ := Layout.of_eq_ok.mp hl
    have hplaces := map_eq_of_forall₂ (hslots.imp fun _ _ h => h.1.symm)
    exact ⟨{ base := options.base.getD t.base
             code
             slots
             codeLength := Patch.length_applied hcode
             wellFormed := hwell
             fits := hfits
             supported := hsupported
             few := hfits.commands_le
             known := fun _ hq _ => Fit.mem_commandsOf hq
             places := hplaces
             rows := fun p hp => by
              obtain ⟨_, -, -, hrows⟩ := exists_of_mem_right hslots hp
              exact hrows
             limit := hlimit
             ascending := UInt16.not_lt.mp hascending
             musicLength := Nat.not_lt.mp hlength }, rfl⟩

/-! ## Building with or without loss -/

/-- The rows of a slot, apart from what is reported of them. -/
def rowsOf (s : Song) (commands : List Command) (slot : Slot) (columns : UInt8) : Except Failure (List Bytes) :=
  match slot with
  | .instruments => .ok (s.instruments.map Rows.encodeInstrument)
  | .commands => .ok (commands.map Rows.encodeCommand)
  | .wave | .pulse | .filter | .arpeggio =>
    match slot.table?.bind s.table? with
    | none => .ok []
    | some table => Rows.encodeTable table columns.toNat

theorem ends_slotRows {place : SlotPlace} {E : Failure → Prop}
    (h : ∀ e, rowsOf s commands place.slot place.columns = .error e → E e) :
    Job.Ends (slotRows s commands place) (fun rows => rowsOf s commands place.slot place.columns = .ok rows) E := by
  unfold rowsOf at h
  unfold slotRows rowsOf
  cases hslot : place.slot with
  | instruments | commands => exact .pure rfl
  | _ =>
    rw [hslot] at h
    simp only [Slot.table?, Option.bind_some] at h ⊢
    generalize s.table? _ = found at h ⊢
    cases found with
    | none => exact .pure rfl
    | some table =>
      refine .bind (.ofExcept h) fun rows hrows => ?_
      cases Rows.tableLoss? table with
      | some loss => exact .bind .degrade fun _ _ => .pure hrows
      | none => exact .pure hrows

/-- The parts of a player with a song in it, moved to its base. -/
structure Packed (t : Template) (s : Song) (commands : List Command) where
  base : UInt16
  patches : List Patch
  code : Bytes
  slots : List (SlotPlace × List Bytes)
  derive : Patch.derive t (Layout.placed t base) = .ok patches
  applied : Patch.applied t.code patches = .ok code
  wellFormed : s.WellFormed
  places : slots.map (·.1) = (Layout.placed t base).slots
  rows : ∀ p ∈ slots, rowsOf s commands p.1.slot p.1.columns = .ok p.2
  limit : t.musicAt base ≤ Layout.limitOf base
  ascending : base ≤ (Layout.placed t base).music
  musicLength : (MusicData.of s commands).bytes.length ≤ (Layout.placed t base).musicCapacity

/-- The player as a container. -/
def Packed.container (p : Packed t s commands) : Container :=
  Encode.container t (Layout.placed t p.base) p.code s p.slots (.of s commands)

theorem ends_build_faulty (h : ¬ s.WellFormed) (options : EncodeOptions) :
    Job.Ends (build s t options) (fun _ => False) (· = .malformedSong s.faults) := by
  unfold build
  exact (ends_requireWellFormed (E := (· = .malformedSong s.faults)) fun _ => rfl).bind fun _ hwell => absurd hwell h

/-- Why a song is not built into a player at a base, where cutting comes to what `C` holds of or fails for a reason in
`X`. -/
inductive Unbuilt (t : Template) (base : UInt16) (s : Song) (C : Song × List Command → Prop) (X : Failure → Prop) :
    Failure → Prop
  | song (h : ¬ s.WellFormed) : Unbuilt t base s C X (.malformedSong s.faults)
  | layout {e : Failure} (h : Layout.of t base = .error e) : Unbuilt t base s C X e
  | derive {e : Failure} (h : Patch.derive t (Layout.placed t base) = .error e) : Unbuilt t base s C X e
  | applied {patches : List Patch} {e : Failure} (hpatches : Patch.derive t (Layout.placed t base) = .ok patches)
      (h : Patch.applied t.code patches = .error e) : Unbuilt t base s C X e
  | cut {e : Failure} (h : X e) : Unbuilt t base s C X e
  | faults {s' : Song} {commands : List Command} (hcut : C (s', commands)) (h : ¬ s'.WellFormed) :
      Unbuilt t base s C X (.malformedSong s'.faults)
  | music {s' : Song} {commands : List Command} (hcut : C (s', commands)) (hwell : s'.WellFormed)
      (h : (Layout.placed t base).musicCapacity < (MusicData.of s' commands).bytes.length) :
      Unbuilt t base s C X (.capacityExceeded .musicData (MusicData.of s' commands).bytes.length
        (Layout.placed t base).musicCapacity)
  | address (h : (Layout.placed t base).music < base) :
      Unbuilt t base s C X (.invalidTemplate t.name (.noMusicAddress base))
  | slot {s' : Song} {commands : List Command} {place : SlotPlace} {e : Failure} (hcut : C (s', commands))
      (hplace : place ∈ (Layout.placed t base).slots) (h : rowsOf s' commands place.slot place.columns = .error e) :
      Unbuilt t base s C X e

/-- **How a build ends**, from how cutting does. -/
theorem ends_build_of {options : EncodeOptions} {C : Song × List Command → Prop} {X : Failure → Prop}
    (hcut : Job.Ends (Fit.cut t options.policy (Fit.playable t s)) C X) :
    Job.Ends (build s t options)
      (fun built => s.WellFormed ∧ ∃ s' commands, C (s', commands) ∧ ∃ p : Packed t s' commands,
        p.base = options.base.getD t.base ∧ built = (p.container, p.patches, p.base))
      (Unbuilt t (options.base.getD t.base) s C X) := by
  unfold build
  generalize options.base.getD t.base = base
  refine (ends_requireWellFormed .song).bind fun _ hsong => ?_
  refine (Job.Ends.ofExcept fun _ => .layout).bind fun l hl => ?_
  obtain ⟨hlimit, rfl⟩ := Layout.of_eq_ok.mp hl
  refine (Job.Ends.ofExcept fun _ => .derive).bind fun patches hpatches => ?_
  refine (Job.Ends.ofExcept fun _ => .applied hpatches).bind fun code hcode => ?_
  refine (Fit.ends_drop t s).bind fun s₁ he => ?_
  subst he
  refine (hcut.mono (fun _ h => h) fun _ => .cut).bind fun ⟨s', commands⟩ hresult => ?_
  refine (ends_requireWellFormed (.faults hresult)).bind fun _ hwell => ?_
  have hslots : Job.Ends ((Layout.placed t base).slots.mapM fun place => do
        return (place, ← slotRows s' commands place))
      (List.Forall₂ (fun place p => p.1 = place ∧ rowsOf s' commands p.1.slot p.1.columns = .ok p.2)
        (Layout.placed t base).slots) (Unbuilt t base s C X) :=
    .mapM _ fun place hplace => (ends_slotRows fun _ => .slot hresult hplace).bind fun rows hrows => .pure ⟨rfl, hrows⟩
  dsimp only
  split
  next hlength => exact .throw_bind (.music hresult hwell hlength)
  split
  next hascending => exact .throw_bind (.address hascending)
  next hlength hascending =>
    refine hslots.bind fun slots hslots => .pure ⟨hsong, s', commands, hresult, ?_⟩
    exact ⟨{ base
             patches
             code
             slots
             derive := hpatches
             applied := hcode
             wellFormed := hwell
             places := map_eq_of_forall₂ (hslots.imp fun _ _ h => h.1)
             rows := fun p hp => by
              obtain ⟨_, -, -, hrows⟩ := exists_of_mem_right hslots hp
              exact hrows
             limit := hlimit
             ascending := UInt16.not_lt.mp hascending
             musicLength := Nat.not_lt.mp hlength }, rfl, rfl⟩

end Encode

/-! ## Encoding -/

variable {s : Song} {t : Template} {options : EncodeOptions}

/-- What is encoded is what was built, as bytes, with what was given up for it. -/
theorem collecting_of_encode {j j' : Journal} {e : Encoded} (h : encode s t options j = .ok e j') :
    (∃ j₁, Job.collecting (Encode.build s t options) j = .ok ((e.container, e.patches, e.base), e.degradations) j₁) ∧
      e.container.toBytes = .ok e.bytes := by
  obtain ⟨⟨⟨container, patches, base⟩, degradations⟩, j₁, hbuild, h⟩ := run_bind_eq_ok.mp h
  obtain ⟨bytes, j₂, hbytes, h⟩ := run_bind_eq_ok.mp h
  have he : e = { base, bytes, container, patches, degradations } := by
    split at h <;> (cases h; rfl)
  rw [he]
  exact ⟨⟨j₁, hbuild⟩, Job.ofExcept_eq_ok hbytes⟩

/-- If what is built can be written, encoding ends as building does. -/
theorem ends_encode_of {P : Prop} {E : Failure → Prop}
    (h : Job.Ends (Encode.build s t options) (fun built => P ∧ ∃ bytes, built.1.toBytes = .ok bytes) E) :
    Job.Ends (encode s t options) (fun _ => P) E := by
  unfold encode
  refine h.collecting.bind fun built ⟨hP, bytes, hbytes⟩ => ?_
  obtain ⟨⟨container, patches, base⟩, degradations⟩ := built
  dsimp only at hbytes ⊢
  rw [hbytes]
  refine Job.Ends.ofOk.bind fun _ _ => ?_
  split
  · exact .bind .notice fun _ _ => .pure hP
  · exact .pure hP

end Chiptune.Player
