/-
A song that loses nothing on its way into a player is not changed on it.

Whatever is dropped or cut is listed as given up, so a song for which nothing
is listed is played in full and keeps within every limit of the player
(`Fits`).
-/
import Chiptune.Player.Fit
import Chiptune.Proofs.Outcome

namespace Chiptune.Player.Fit

open Song

variable {t : Template} {s : Song}

/-! ## Dropping -/

/-- The player runs every command of the song and has a slot for every table with rows. -/
structure Supported (t : Template) (s : Song) : Prop where
  commands : ∀ q ∈ s.sequences, ∀ e ∈ q.events, isUnsupported t e = false
  tables : ∀ table ∈ s.tables, hasSlot t table = true

theorem Supported.dropCommands_eq (h : Supported t s) : dropCommands t s = s := by
  have hsequence : ∀ q ∈ s.sequences, (q.filter fun e => !isUnsupported t e) = q := by
    intro q hq
    have hevents : q.events.filter (fun e => !isUnsupported t e) = q.events := by
      rw [List.filter_eq_self]
      intro e he
      simp [h.commands q hq e he]
    rw [Sequence.filter, hevents]
  rw [dropCommands, mapSequences, List.map_congr_left hsequence, List.map_id']

theorem Supported.dropTables_eq (h : Supported t s) : dropTables t s = s := by
  rw [dropTables, List.filter_eq_self.mpr h.tables]

theorem kindsByName_eq :
    kindsByName = [.filterProgram, .portamento, .setAdsr, .setTempo, .setVolume, .slideDown, .slideUp,
      .vibrato] := by
  simp [kindsByName, CommandKind.all, List.mergeSort, CommandKind.name, List.MergeSort.Internal.splitInTwo]

theorem mem_kindsByName (kind : CommandKind) : kind ∈ kindsByName := by
  rw [kindsByName_eq]
  cases kind <;> decide

theorem isUnsupported_eq_false (h : droppedCommands t s = []) {q : Sequence} (hq : q ∈ s.sequences)
    {e : Event} (he : e ∈ q.events) : isUnsupported t e = false := by
  cases hc : e.command? with
  | none => simp [isUnsupported, hc]
  | some c =>
    have hkind := List.filterMap_eq_nil_iff.mp h c.kind (mem_kindsByName c.kind)
    simp only [ite_eq_left_iff, reduceCtorEq, imp_false, not_not, List.countP_eq_zero] at hkind
    have hmem : e ∈ s.events := List.mem_flatMap.mpr ⟨q, hq, he⟩
    simpa [hc] using hkind e hmem

theorem hasSlot_eq_true (h : missingSlots t = []) (table : Table) : hasSlot t table = true := by
  have hkind := List.filter_eq_nil_iff.mp h table.kind (by cases table.kind <;> decide)
  simp only [Option.isNone_iff_eq_none, ← Option.not_isSome_iff_eq_none, not_not] at hkind
  simp [hasSlot, hkind]

theorem lossless_drop (t : Template) (s : Song) :
    Job.Lossless (drop t s) fun s' => s' = s ∧ Supported t s := by
  have htables : Job.Lossless (forIn (missingSlots t) PUnit.unit fun kind _ => do
      Job.degrade (.tableUnsupported t.name kind)
      pure (ForInStep.yield PUnit.unit)) fun _ => missingSlots t = [] :=
    .forIn (fun _ _ => .bind (.degrade rfl) fun _ => .pure fun h => h) _
  have hsong : ∀ h : Supported t s, dropTables t (dropCommands t s) = s := fun h => by
    rw [h.dropCommands_eq, h.dropTables_eq]
  unfold drop
  -- Both loops give something up in each round, so neither has one.
  refine .bind (.forIn (fun _ _ => .bind .notice fun _ => .bind (.degrade rfl) fun _ => .pure fun h _ => h) _)
    fun _ => ?_
  split
  · refine htables.bind fun _ => .pure fun hslots hdropped => ?_
    have h : Supported t s := ⟨fun _ hq _ => isUnsupported_eq_false hdropped hq,
      fun table _ => hasSlot_eq_true hslots table⟩
    exact ⟨hsong h, h⟩
  next hall =>
    refine .pure fun hdropped => ?_
    have h : Supported t s := ⟨fun _ hq _ => isUnsupported_eq_false hdropped hq, by simpa using hall⟩
    exact ⟨hsong h, h⟩

/-- The song without what the player does not play. -/
def playable (t : Template) (s : Song) : Song := dropTables t (dropCommands t s)

theorem supported_playable (t : Template) (s : Song) : Supported t (playable t s) := by
  refine ⟨fun q' hq' e he => ?_, fun u hu => (List.mem_filter.mp hu).2⟩
  obtain ⟨q, -, rfl⟩ := List.mem_map.mp hq'
  simpa using (List.mem_filter.mp he).2

theorem ends_drop {E : Failure → Prop} (t : Template) (s : Song) :
    Job.Ends (drop t s) (· = playable t s) E := by
  unfold drop
  refine .bind (.forIn (fun _ _ => .bind .notice fun _ _ => .bind .degrade fun _ _ => .pure trivial) _) fun _ _ => ?_
  split
  · exact .bind (.forIn (fun _ _ => .bind .degrade fun _ _ => .pure trivial) _) fun _ _ => .pure rfl
  · exact .pure rfl

/-! ## Cutting -/

/-- Every limit of a player. -/
def limits (t : Template) : List Cut :=
  tableCuts t ++ instrumentCuts t ++ commandCut t :: sequenceCut t ::
    (List.range voiceCount).map (orderCut t)

/-- The song keeps within every limit of the player. -/
def Fits (t : Template) (s : Song) : Prop := ∀ c ∈ limits t, c.required s ≤ c.capacity

theorem lossless_apply (policy : Policy) (s : Song) (c : Cut) :
    Job.Lossless (apply policy s c) fun s' => s' = s ∧ c.required s ≤ c.capacity := by
  unfold apply
  split
  next hholds => exact .pure ⟨rfl, of_decide_eq_true hholds⟩
  · cases policy with
    | fail => exact .throw
    | truncate =>
      refine .bind (P := fun _ => False) (.bind .notice fun _ => .degrade rfl) fun _ => ?_
      cases c.obstacle? s with
      | some failure => exact .throw
      | none => exact .pure False.elim

theorem lossless_cut (t : Template) (policy : Policy) (s : Song) :
    Job.Lossless (cut t policy s) fun result => result = (s, commandsOf s) ∧ Fits t s := by
  unfold cut
  refine (Job.Lossless.foldlM (lossless_apply policy) _ s).bind fun s₁ => ?_
  refine (lossless_apply policy s₁ (commandCut t)).bind fun s₂ => ?_
  refine (Job.Lossless.foldlM (lossless_apply policy) _ s₂).bind fun s₃ => .pure ?_
  rintro ⟨rfl, hlater⟩ ⟨rfl, hcommands⟩ ⟨rfl, hearlier⟩
  refine ⟨?_, ?_⟩
  · have htake : (commandsOf s₃).take (commandCapacity t) = commandsOf s₃ :=
      List.take_of_length_le hcommands
    rw [htake]
  · intro c hc
    simp only [limits, List.mem_append, List.mem_cons] at hc hlater hearlier
    rcases hc with hc | rfl | hc
    · exact hearlier c hc
    · exact hcommands
    · exact hlater c hc

namespace Fits

theorem tableLength_le (h : Fits t s) {kind : TableKind} {spec : SlotSpec}
    (hspec : t.spec? (.ofTable kind) = some spec) : s.tableLength kind ≤ spec.capacity.toNat := by
  have hkind : kind ∈ TableKind.all := by cases kind <;> decide
  have hle : s.tableLength kind ≤ tableCapacity kind spec :=
    h _ (List.mem_append_left _ (List.mem_append_left _
      (List.mem_filterMap.mpr ⟨kind, hkind, Option.map_eq_some_iff.mpr ⟨spec, hspec, rfl⟩⟩)))
  have hcapacity : tableCapacity kind spec ≤ spec.capacity.toNat := by
    cases kind with
    | arpeggio => exact Nat.min_le_left ..
    | _ => exact Nat.le_refl _
  omega

theorem instruments_le (h : Fits t s) {spec : SlotSpec} (hspec : t.spec? .instruments = some spec) :
    s.instruments.length ≤ spec.capacity.toNat :=
  h _ (List.mem_append_left _ (List.mem_append_right _
    (List.mem_map.mpr ⟨spec, Option.mem_toList.mpr hspec, rfl⟩)))

theorem commands_le (h : Fits t s) : (commandsOf s).length ≤ commandCapacity t :=
  h (commandCut t) (by simp [limits])

theorem sequences_le (h : Fits t s) : s.sequences.length ≤ t.maxSequences.toNat :=
  h (sequenceCut t) (by simp [limits])

end Fits

theorem mem_commandsOf {q : Sequence} (hq : q ∈ s.sequences) {c : Command} (hc : .setCommand c ∈ q.events) :
    c ∈ commandsOf s := by
  rw [commandsOf, List.mem_eraseDups, List.mem_filterMap]
  exact ⟨.setCommand c, List.mem_flatMap.mpr ⟨q, hq, hc⟩, rfl⟩

end Chiptune.Player.Fit
