/-
What is kept of a song that is cut.

No cut adds to a song (`Smaller`), and each one brings it below its limit. So a
song that was cut down to every limit keeps within all of them (`fits_truncated`),
the player still supports it, and it runs no command that was not kept.
-/
import Mathlib.Data.List.Perm.Subperm
import Chiptune.Proofs.Player.Packed

namespace Chiptune.Player.Fit

open Song

variable {t : Template} {s s' s'' : Song} {c : Cut}

/-! ## Commands -/

theorem command?_eq_some {e : Event} {c : Command} : e.command? = some c ↔ e = .setCommand c := by
  cases e <;> simp [Event.command?]

theorem mem_commandsOf_iff {c : Command} : c ∈ commandsOf s ↔ ∃ q ∈ s.sequences, .setCommand c ∈ q.events := by
  rw [commandsOf, List.mem_eraseDups, List.mem_filterMap]
  simp only [command?_eq_some, exists_eq_right, events, List.mem_flatMap]

theorem length_commandsOf_le {commands : List Command} (h : commandsOf s ⊆ commands) :
    (commandsOf s).length ≤ commands.length :=
  (List.subperm_of_subset (nodup_eraseDups _) h).length_le

/-! ## Cuts -/

/-- The other song has no more of anything that is limited. -/
structure Smaller (t : Template) (s s' : Song) : Prop where
  tables : ∀ kind, s'.tableLength kind ≤ s.tableLength kind
  instruments : s'.instruments.length ≤ s.instruments.length
  commands : commandsOf s' ⊆ commandsOf s
  sequences : s'.sequences.length ≤ s.sequences.length
  orders : ∀ voice, (orderCut t voice).required s' ≤ (orderCut t voice).required s

namespace Smaller

theorem refl (s : Song) : Smaller t s s :=
  ⟨fun _ => Nat.le_refl _, Nat.le_refl _, List.Subset.refl _, Nat.le_refl _, fun _ => Nat.le_refl _⟩

theorem trans (h : Smaller t s s') (h' : Smaller t s' s'') : Smaller t s s'' :=
  ⟨fun kind => Nat.le_trans (h'.tables kind) (h.tables kind), Nat.le_trans h'.instruments h.instruments,
    List.Subset.trans h'.commands h.commands, Nat.le_trans h'.sequences h.sequences,
    fun voice => Nat.le_trans (h'.orders voice) (h.orders voice)⟩

/-- It needs no more of any resource. -/
theorem required_le (h : Smaller t s s') (hc : c ∈ limits t) : c.required s' ≤ c.required s := by
  simp only [limits, List.mem_append, List.mem_cons] at hc
  rcases hc with (hc | hc) | rfl | rfl | hc
  · obtain ⟨kind, -, hc⟩ := List.mem_filterMap.mp hc
    obtain ⟨spec, -, rfl⟩ := Option.map_eq_some_iff.mp hc
    exact h.tables kind
  · obtain ⟨spec, -, rfl⟩ := List.mem_map.mp hc
    exact h.instruments
  · exact length_commandsOf_le h.commands
  · exact h.sequences
  · obtain ⟨voice, -, rfl⟩ := List.mem_map.mp hc
    exact h.orders voice

/-- Events are left out. -/
theorem filter (s : Song) (keep : Event → Bool) : Smaller t s (s.mapSequences (·.filter keep)) := by
  refine ⟨fun _ => Nat.le_refl _, Nat.le_refl _, fun c hc => ?_, ?_, fun _ => Nat.le_refl _⟩
  · obtain ⟨q', hq', hmem⟩ := mem_commandsOf_iff.mp hc
    obtain ⟨q, hq, rfl⟩ := List.mem_map.mp hq'
    exact mem_commandsOf_iff.mpr ⟨q, hq, (List.mem_filter.mp hmem).1⟩
  · exact Nat.le_of_eq (List.length_map ..)

theorem cutTable (s : Song) (kind : TableKind) (capacity : Nat) :
    Smaller t s { s.updateTable kind (cutRows capacity) with
      instruments := s.instruments.map (cutProgram kind capacity) } := by
  refine ⟨fun k => ?_, Nat.le_of_eq (List.length_map ..), List.Subset.refl _, Nat.le_refl _, fun _ => Nat.le_refl _⟩
  show (s.updateTable kind (cutRows capacity)).tableLength k ≤ _
  rw [tableLength_updateTable]
  split
  · exact Nat.min_le_right ..
  · exact Nat.le_refl _

theorem cutInstruments (s : Song) (capacity : Nat) :
    Smaller t s ({ s with instruments := s.instruments.take capacity }.mapSequences
      (·.mapEvents (cutInstrument capacity))) := by
  refine ⟨fun _ => Nat.le_refl _, ?_, fun c hc => ?_, Nat.le_of_eq (List.length_map ..), fun _ => Nat.le_refl _⟩
  · exact List.length_take_le' ..
  · obtain ⟨q', hq', hmem⟩ := mem_commandsOf_iff.mp hc
    obtain ⟨q, hq, rfl⟩ := List.mem_map.mp hq'
    obtain ⟨e, he, hcut⟩ := List.mem_map.mp hmem
    refine mem_commandsOf_iff.mpr ⟨q, hq, ?_⟩
    cases e with
    | setInstrument id =>
      simp only [cutInstrument] at hcut
      split at hcut <;> cases hcut
    | _ =>
      rw [← hcut]
      exact he

theorem cutSequences (s : Song) : Smaller t s ((sequenceCut t).cut s) := by
  refine ⟨fun _ => Nat.le_refl _, Nat.le_refl _, fun c hc => ?_, List.length_take_le' .., fun voice => ?_⟩
  · obtain ⟨q, hq, hmem⟩ := mem_commandsOf_iff.mp hc
    exact mem_commandsOf_iff.mpr ⟨q, List.mem_of_mem_take hq, hmem⟩
  · simp only [orderCut, sequenceCut, List.getElem?_map]
    cases s.orderLists[voice]? with
    | none => exact Nat.le_refl _
    | some l => exact List.length_filter_le ..

theorem cutOrders (s : Song) (voice : Nat) : Smaller t s ((orderCut t voice).cut s) := by
  refine ⟨fun _ => Nat.le_refl _, Nat.le_refl _, List.Subset.refl _, Nat.le_refl _, fun v => ?_⟩
  simp only [orderCut, List.getElem?_modify]
  cases s.orderLists[v]? with
  | none => exact Nat.le_refl _
  | some l =>
    by_cases hv : voice = v
    · simp only [hv, if_true, Option.map_eq_map, Option.map_some]
      exact List.length_take_le' ..
    · simp only [hv, if_false, Option.map_eq_map, Option.map_some]
      exact Nat.le_refl _

end Smaller

/-- **No cut adds to a song.** -/
theorem smaller_cut (hc : c ∈ limits t) (s : Song) : Smaller t s (c.cut s) := by
  simp only [limits, List.mem_append, List.mem_cons] at hc
  rcases hc with (hc | hc) | rfl | rfl | hc
  · obtain ⟨kind, -, hc⟩ := List.mem_filterMap.mp hc
    obtain ⟨spec, -, rfl⟩ := Option.map_eq_some_iff.mp hc
    have hcut := Smaller.cutTable (t := t) s kind (tableCapacity kind spec)
    dsimp only
    split
    · exact hcut.trans (.filter ..)
    · exact hcut
  · obtain ⟨spec, -, rfl⟩ := List.mem_map.mp hc
    exact .cutInstruments ..
  · exact .filter ..
  · exact .cutSequences s
  · obtain ⟨voice, -, rfl⟩ := List.mem_map.mp hc
    exact .cutOrders s voice

/-- **Each cut brings a song below its limit.** -/
theorem required_cut_le (hc : c ∈ limits t) (s : Song) : c.required (c.cut s) ≤ c.capacity := by
  simp only [limits, List.mem_append, List.mem_cons] at hc
  rcases hc with (hc | hc) | rfl | rfl | hc
  · obtain ⟨kind, -, hc⟩ := List.mem_filterMap.mp hc
    obtain ⟨spec, -, rfl⟩ := Option.map_eq_some_iff.mp hc
    have hlength : (s.updateTable kind (cutRows (tableCapacity kind spec))).tableLength kind ≤ tableCapacity kind spec := by
      rw [tableLength_updateTable, if_pos rfl]
      exact Nat.min_le_left ..
    dsimp only
    split <;> exact hlength
  · obtain ⟨spec, -, rfl⟩ := List.mem_map.mp hc
    exact List.length_take_le ..
  · refine Nat.le_trans (length_commandsOf_le (fun c hc => ?_ : _ ⊆ (commandsOf s).take (commandCapacity t)))
      (List.length_take_le ..)
    obtain ⟨q', hq', hmem⟩ := mem_commandsOf_iff.mp hc
    obtain ⟨q, -, rfl⟩ := List.mem_map.mp hq'
    simpa [Event.command?] using (List.mem_filter.mp hmem).2
  · exact List.length_take_le ..
  · obtain ⟨voice, -, rfl⟩ := List.mem_map.mp hc
    simp only [orderCut, List.getElem?_modify]
    cases s.orderLists[voice]? with
    | none => exact Nat.zero_le _
    | some l =>
      simp only [if_true, Option.map_eq_map, Option.map_some]
      exact List.length_take_le ..

theorem smaller_foldl {cuts : List Cut} (hcuts : ∀ c ∈ cuts, c ∈ limits t) (s : Song) :
    Smaller t s (cuts.foldl within s) :=
  foldl_within .refl .trans (fun c hc => smaller_cut (hcuts c hc)) s

theorem required_within_le (hc : c ∈ limits t) (s : Song) : c.required (within s c) ≤ c.capacity := by
  unfold within
  split
  next hholds => exact of_decide_eq_true hholds
  next => exact required_cut_le hc s

theorem required_foldl_le : ∀ {cuts : List Cut}, (∀ c ∈ cuts, c ∈ limits t) → ∀ (s : Song), ∀ c ∈ cuts,
    c.required (cuts.foldl within s) ≤ c.capacity
  | d :: cuts, hcuts, s, c, hc => by
    have hrest : ∀ c ∈ cuts, c ∈ limits t := fun c hc => hcuts c (List.mem_cons_of_mem _ hc)
    rw [List.foldl_cons]
    rcases List.mem_cons.mp hc with rfl | hc
    · have hlimit := hcuts c List.mem_cons_self
      exact Nat.le_trans ((smaller_foldl hrest _).required_le hlimit) (required_within_le hlimit s)
    · exact required_foldl_le hrest _ c hc

/-- **A song that was cut down to every limit** keeps within all of them. -/
theorem fits_truncated (t : Template) (s : Song) : Fits t (truncated t s) :=
  required_foldl_le (fun _ hc => hc) s

/-! ## What the player supports -/

theorem hasSlot_cutRows {table : Table} (capacity : Nat) (h : hasSlot t table = true) :
    hasSlot t (cutRows capacity table) = true := by
  simp only [hasSlot, Bool.or_eq_true, List.isEmpty_iff] at h ⊢
  rcases h with hslot | hrows
  · exact .inl hslot
  · refine .inr (List.eq_nil_of_length_eq_zero ?_)
    rw [length_cutRows, hrows]
    exact Nat.min_zero _

theorem Supported.filter (h : Supported t s) (keep : Event → Bool) : Supported t (s.mapSequences (·.filter keep)) := by
  refine ⟨fun q' hq' e he => ?_, h.tables⟩
  obtain ⟨q, hq, rfl⟩ := List.mem_map.mp hq'
  exact h.commands q hq e (List.mem_filter.mp he).1

/-- A song that is cut is still supported. -/
theorem Supported.cut (h : Supported t s) (hc : c ∈ limits t) : Supported t (c.cut s) := by
  simp only [limits, List.mem_append, List.mem_cons] at hc
  rcases hc with (hc | hc) | rfl | rfl | hc
  · obtain ⟨kind, -, hc⟩ := List.mem_filterMap.mp hc
    obtain ⟨spec, -, rfl⟩ := Option.map_eq_some_iff.mp hc
    have hcut : Supported t { s.updateTable kind (cutRows (tableCapacity kind spec)) with
        instruments := s.instruments.map (cutProgram kind (tableCapacity kind spec)) } := by
      refine ⟨h.commands, fun table htable => ?_⟩
      rcases mem_replaceFirst htable with hsame | ⟨u, hu, rfl⟩
      · exact h.tables table hsame
      · exact hasSlot_cutRows _ (h.tables u hu)
    dsimp only
    split
    · exact hcut.filter _
    · exact hcut
  · obtain ⟨spec, -, rfl⟩ := List.mem_map.mp hc
    refine ⟨fun q' hq' e' he' => ?_, h.tables⟩
    obtain ⟨q, hq, rfl⟩ := List.mem_map.mp hq'
    obtain ⟨e, he, rfl⟩ := List.mem_map.mp he'
    have hcommand : (cutInstrument spec.capacity.toNat e).command? = e.command? := by
      cases e with
      | setInstrument id =>
        simp only [cutInstrument]
        split <;> rfl
      | _ => rfl
    rw [isUnsupported, hcommand]
    exact h.commands q hq e he
  · exact h.filter _
  · exact ⟨fun q hq => h.commands q (List.mem_of_mem_take hq), h.tables⟩
  · obtain ⟨voice, -, rfl⟩ := List.mem_map.mp hc
    exact ⟨h.commands, h.tables⟩

theorem Supported.truncated (h : Supported t s) : Supported t (truncated t s) :=
  foldl_within (R := fun s s' => Supported t s → Supported t s') (fun _ h => h) (fun hab hbc ha => hbc (hab ha))
    (fun _ hc _ h => h.cut hc) s h

/-! ## Commands that are kept -/

theorem length_keptCommands (t : Template) (s : Song) : (keptCommands t s).length ≤ commandCapacity t :=
  List.length_take_le ..

/-- The cuts after the commands leave no sequence in that was not there. -/
theorem sequences_lateCut (hc : c ∈ sequenceCut t :: (List.range voiceCount).map (orderCut t)) (s : Song) :
    (c.cut s).sequences ⊆ s.sequences := by
  rcases List.mem_cons.mp hc with rfl | hc
  · exact fun _ => List.mem_of_mem_take
  · obtain ⟨voice, -, rfl⟩ := List.mem_map.mp hc
    exact List.Subset.refl _

/-- **What is left of a song** runs no command but those that are kept. -/
theorem known_truncated (t : Template) (s : Song) : ∀ q ∈ (truncated t s).sequences, ∀ c, .setCommand c ∈ q.events →
    c ∈ keptCommands t s := by
  intro q hq c hc
  rw [truncated, limits, List.foldl_append, List.foldl_cons] at hq
  have hmem := foldl_within (R := fun s s' => s'.sequences ⊆ s.sequences) (fun s => List.Subset.refl _)
    (fun hab hbc => List.Subset.trans hbc hab) (fun _ hc => sequences_lateCut hc) _ hq
  rw [keptCommands]
  generalize (tableCuts t ++ instrumentCuts t).foldl within s = s₁ at hmem
  unfold within at hmem
  split at hmem
  next hholds =>
    have hfew : (commandsOf s₁).length ≤ commandCapacity t := of_decide_eq_true hholds
    rw [List.take_of_length_le hfew]
    exact mem_commandsOf hmem hc
  next =>
    obtain ⟨q₁, -, rfl⟩ := List.mem_map.mp hmem
    simpa [Event.command?] using (List.mem_filter.mp hc).2

end Chiptune.Player.Fit
