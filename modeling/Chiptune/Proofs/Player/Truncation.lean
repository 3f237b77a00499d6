/-
A song that is cut down to the limits of a player.

What is left of it is consistent, and each voice plays a part of what it played
(`shortened`). The song is without faults if what the shortened order lists
repeat still takes rows (`wellFormed_truncated`), which no cut sees to.
-/
import Chiptune.Proofs.Player.Cuts

namespace Chiptune.Player.Fit

open Song

variable {t : Template} {s : Song} {capacity : Nat}

/-! ## Songs within limits -/

/-- The song within a limit. -/
def within (s : Song) (c : Cut) : Song := if c.holds s then s else c.cut s

/-- The song within every limit of a player. -/
def truncated (t : Template) (s : Song) : Song := (limits t).foldl within s

/-- An order list within the limits of a player. -/
def shortened (t : Template) (l : OrderList) : OrderList :=
  cutOrderList t.maxOrderEntries.toNat (cutEntries t.maxSequences.toNat l)

/-- What relates a song to each cut of it relates it to itself within the limits. -/
theorem foldl_within {R : Song → Song → Prop} (hrefl : ∀ s, R s s)
    (htrans : ∀ {a b c : Song}, R a b → R b c → R a c) {cuts : List Cut} (h : ∀ c ∈ cuts, ∀ s, R s (c.cut s))
    (s : Song) : R s (cuts.foldl within s) := by
  induction cuts generalizing s with
  | nil => exact hrefl s
  | cons c cuts ih =>
    have hwithin : R s (within s c) := by
      unfold within
      split
      · exact hrefl s
      · exact h c (by simp) s
    exact htrans hwithin (ih (fun d hd => h d (by simp [hd])) (within s c))

theorem keepsRows_foldl {cuts : List Cut} (h : ∀ c ∈ cuts, KeepsRows c.cut) :
    KeepsRows (fun s => cuts.foldl within s) := by
  refine foldl_within (R := fun s s' => s.Consistent → s'.Consistent ∧ SameRows s s') (fun s hs => ⟨hs, rfl, rfl⟩)
    (fun hab hbc ha => ?_) h
  obtain ⟨hb, horders, hrows⟩ := hab ha
  obtain ⟨hc, horders', hrows'⟩ := hbc hb
  exact ⟨hc, horders'.trans horders, hrows'.trans hrows⟩

theorem within_sequenceCut (h : s.Consistent) :
    (within s (sequenceCut t)).Consistent ∧
      (within s (sequenceCut t)).orderLists = s.orderLists.map (cutEntries t.maxSequences.toNat) ∧
      (within s (sequenceCut t)).rowCounts = s.rowCounts.take t.maxSequences.toNat := by
  unfold within
  split
  next hholds =>
    have hlength : s.sequences.length ≤ t.maxSequences.toNat := of_decide_eq_true hholds
    refine ⟨h, ?_, ?_⟩
    · rw [List.map_congr_left (g := id), List.map_id]
      intro l hl
      refine cutEntries_eq (h.loops l hl) fun e he => ?_
      obtain ⟨-, q, hq, -⟩ := h.entries l hl e he
      have := (List.getElem?_eq_some_iff.mp hq).1
      omega
    · rw [List.take_of_length_le]
      rwa [rowCounts, List.length_map]
  next => exact ⟨consistent_sequenceCut h, rfl, List.map_take ..⟩

theorem orderLists_within_orderCut (h : ∀ l ∈ s.orderLists, l.LoopsInside) (voice : Nat) :
    (within s (orderCut t voice)).orderLists = s.orderLists.modify voice (cutOrderList t.maxOrderEntries.toNat) := by
  unfold within
  split
  next hholds =>
    have hlength : (orderCut t voice).required s ≤ t.maxOrderEntries.toNat := of_decide_eq_true hholds
    refine List.ext_getElem? fun i => ?_
    rw [List.getElem?_modify]
    cases hl : s.orderLists[i]? with
    | none => rfl
    | some l =>
      refine congrArg some ?_
      dsimp only
      by_cases hi : voice = i
      · subst hi
        simp only [orderCut, hl] at hlength
        rw [if_pos rfl, cutOrderList_eq (h l (List.mem_of_getElem? hl)) hlength]
      · rw [if_neg hi]
  next => rfl

theorem mem_modify_cutOrderList {lists : List OrderList} {voice : Nat} {l' : OrderList}
    (h : l' ∈ lists.modify voice (cutOrderList capacity)) :
    l' ∈ lists ∨ ∃ l ∈ lists, l' = cutOrderList capacity l := by
  obtain ⟨i, hi⟩ := List.getElem?_of_mem h
  rw [List.getElem?_modify] at hi
  obtain ⟨l, hl, rfl⟩ := Option.map_eq_some_iff.mp hi
  split
  · exact .inr ⟨l, List.mem_of_getElem? hl, rfl⟩
  · exact .inl (List.mem_of_getElem? hl)

theorem loopsInside_modify {lists : List OrderList} (h : ∀ l ∈ lists, l.LoopsInside) (voice : Nat) :
    ∀ l' ∈ lists.modify voice (cutOrderList capacity), l'.LoopsInside := by
  intro l' hl'
  rcases mem_modify_cutOrderList hl' with hl | ⟨l, hl, rfl⟩
  · exact h l' hl
  · exact loopsInside_cutOrderList (h l hl)

theorem within_orderCut (h : s.Consistent) (voice : Nat) :
    (within s (orderCut t voice)).Consistent ∧ (within s (orderCut t voice)).rowCounts = s.rowCounts := by
  constructor
  · unfold within
    split
    next => exact h
    next =>
      refine ⟨h.tempo, (List.length_modify ..).trans h.voices, h.distinct, h.tables, h.starts, h.events,
        fun l' hl' e he => ?_, loopsInside_modify h.loops voice⟩
      rcases mem_modify_cutOrderList hl' with hl | ⟨l, hl, rfl⟩
      · exact h.entries l' hl e he
      · exact h.entries l hl e (List.mem_of_mem_take he)
  · unfold within
    split <;> rfl

theorem orderLists_within_orderCuts (h : ∀ l ∈ s.orderLists, l.LoopsInside) : ∀ voices : List Nat,
    ((voices.map (orderCut t)).foldl within s).orderLists =
      voices.foldl (fun lists voice => lists.modify voice (cutOrderList t.maxOrderEntries.toNat)) s.orderLists := by
  intro voices
  induction voices generalizing s with
  | nil => rfl
  | cons voice voices ih =>
    have horders := orderLists_within_orderCut (t := t) h voice
    rw [List.map_cons, List.foldl_cons, List.foldl_cons, ← horders]
    refine ih ?_
    rw [horders]
    exact loopsInside_modify h voice

/-- Three voices' order lists are shortened one after the other. -/
theorem foldl_modify_range {lists : List OrderList} (h : lists.length = voiceCount) (f : OrderList → OrderList) :
    (List.range voiceCount).foldl (fun lists voice => lists.modify voice f) lists = lists.map f := by
  obtain ⟨a, b, c, rfl⟩ := List.length_eq_three.mp h
  rfl

theorem within_orderCuts (h : s.Consistent) : ∀ voices : List Nat,
    let cut := (voices.map (orderCut t)).foldl within s
    cut.Consistent ∧ cut.rowCounts = s.rowCounts := by
  intro voices
  induction voices generalizing s with
  | nil => exact ⟨h, rfl⟩
  | cons voice voices ih =>
    obtain ⟨hwithin, hrows⟩ := within_orderCut (t := t) h voice
    obtain ⟨hfinal, hrows'⟩ := ih hwithin
    exact ⟨hfinal, hrows'.trans hrows⟩

/-- The limits of what leaves the order lists as they are. -/
def earlyCuts (t : Template) : List Cut := tableCuts t ++ instrumentCuts t ++ [commandCut t]

theorem keepsRows_earlyCut (ht : Roomy t) {c : Cut} (hc : c ∈ earlyCuts t) : KeepsRows c.cut := by
  simp only [earlyCuts, List.mem_append, List.mem_singleton] at hc
  rcases hc with (hc | hc) | rfl
  · exact keepsRows_tableCut ht hc
  · exact keepsRows_instrumentCut ht hc
  · exact keepsRows_commandCut

/-- The order lists stay as they are, and there are as many sequences as before. -/
structure SameLists (s s' : Song) : Prop where
  orderLists : s'.orderLists = s.orderLists
  length : s'.sequences.length = s.sequences.length

theorem sameLists_earlyCut {c : Cut} (hc : c ∈ earlyCuts t) (s : Song) : SameLists s (c.cut s) := by
  simp only [earlyCuts, tableCuts, instrumentCuts, List.mem_append, List.mem_singleton, List.mem_filterMap,
    Option.map_eq_some_iff, List.mem_map] at hc
  rcases hc with (⟨kind, -, spec, -, rfl⟩ | ⟨spec, -, rfl⟩) | rfl
  · dsimp only
    split
    · exact ⟨rfl, List.length_map ..⟩
    · exact ⟨rfl, rfl⟩
  · exact ⟨rfl, List.length_map ..⟩
  · exact ⟨rfl, List.length_map ..⟩

theorem sameLists_earlyCuts (t : Template) (s : Song) : SameLists s ((earlyCuts t).foldl within s) :=
  foldl_within (fun _ => ⟨rfl, rfl⟩)
    (fun hab hbc => ⟨hbc.orderLists.trans hab.orderLists, hbc.length.trans hab.length⟩)
    (fun _ hc => sameLists_earlyCut hc) s

theorem truncated_eq (t : Template) (s : Song) :
    truncated t s = ((List.range voiceCount).map (orderCut t)).foldl within
      (within ((earlyCuts t).foldl within s) (sequenceCut t)) := by
  have hlimits : limits t = earlyCuts t ++ (sequenceCut t :: (List.range voiceCount).map (orderCut t)) := by
    simp [limits, earlyCuts]
  rw [truncated, hlimits, List.foldl_append, List.foldl_cons]

/-- **A song within every limit** is consistent, and its voices play what is left of their order lists. -/
theorem truncated_spec (ht : Roomy t) (h : s.Consistent) :
    (truncated t s).Consistent ∧ (truncated t s).orderLists = s.orderLists.map (shortened t) ∧
      (truncated t s).rowCounts = s.rowCounts.take t.maxSequences.toNat := by
  obtain ⟨hs₁, horders₁, hrows₁⟩ := keepsRows_foldl (fun _ hc => keepsRows_earlyCut ht hc) s h
  obtain ⟨hs₂, horders₂, hrows₂⟩ := within_sequenceCut (t := t) hs₁
  obtain ⟨hs₃, hrows₃⟩ := within_orderCuts (t := t) hs₂ (List.range voiceCount)
  rw [truncated_eq]
  refine ⟨hs₃, ?_, hrows₃.trans (hrows₂.trans (by rw [hrows₁]))⟩
  rw [orderLists_within_orderCuts hs₂.loops, foldl_modify_range hs₂.voices, horders₂, horders₁, List.map_map]
  rfl

/-! ## Dropping -/

theorem rows_of_isUnsupported {e : Event} (h : isUnsupported t e = true) : e.rows = 0 := by
  cases e <;> first | rfl | cases h

/-- A player with slots for waves, pulses and filters. -/
def Voiced (t : Template) : Prop := ∀ kind : TableKind, kind ≠ .arpeggio → (t.spec? (.ofTable kind)).isSome

theorem tableLength_dropTables (ht : Voiced t) (s : Song) {kind : TableKind} (hkind : kind ≠ .arpeggio) :
    (dropTables t s).tableLength kind = s.tableLength kind := by
  have hfind : (dropTables t s).table? kind = s.table? kind := by
    unfold Song.table? dropTables
    rw [List.find?_filter]
    congr 1
    funext table
    by_cases h : table.kind = kind
    · simp [hasSlot, h, ht kind hkind]
    · have hne : (table.kind == kind) = false := by simpa using h
      simp [hne]
  unfold Song.tableLength
  rw [hfind]

theorem consistent_dropTables (ht : Voiced t) (h : s.Consistent) : (dropTables t s).Consistent := by
  refine ⟨h.tempo, h.voices, h.distinct.filter _, fun table htable => h.tables table (List.mem_filter.mp htable).1,
    fun x hx kind row hrow => ?_, fun q hq e he => ?_, h.entries, h.loops⟩
  · rw [tableLength_dropTables ht s (by rintro rfl; cases hrow)]
    exact h.starts x hx kind row hrow
  · have hkind : TableKind.filter ≠ .arpeggio := by decide
    rw [tableLength_dropTables ht s hkind]
    exact h.events q hq e he

theorem keepsRows_playable (ht : Voiced t) : KeepsRows (playable t) := by
  intro s h
  have hkeep : ∀ e, (!isUnsupported t e) = false → e.rows = 0 := fun e he =>
    rows_of_isUnsupported (t := t) (by simpa using he)
  obtain ⟨hs, horders, hrows⟩ := keepsRows_filter hkeep s h
  exact ⟨consistent_dropTables ht hs, horders, hrows⟩

/-- **A song within every limit** has no more sequences and entries than the player has room for. -/
theorem lengths_truncated (hroom : Roomy t) (ht : Voiced t) (h : s.Consistent) :
    (truncated t (playable t s)).sequences.length ≤ t.maxSequences.toNat ∧
      ∀ l ∈ (truncated t (playable t s)).orderLists, l.entries.length ≤ t.maxOrderEntries.toNat := by
  obtain ⟨hplayable, -, -⟩ := keepsRows_playable ht s h
  obtain ⟨-, horders, hrows⟩ := truncated_spec hroom hplayable
  constructor
  · have hcount := congrArg List.length hrows
    simp only [rowCounts, List.length_map, List.length_take] at hcount
    omega
  · rw [horders]
    exact List.forall_mem_map.mpr fun l _ => List.length_take_le ..

/-! ## Loops -/

/-- Whatever a voice repeats still takes rows when its order list is shortened. -/
def LoopsLast (t : Template) (s : Song) : Prop := ∀ l ∈ s.orderLists, LoopPlays s (shortened t l)

theorem sequence_lt_of_mem_shortened {l : OrderList} {e : OrderEntry} (h : e ∈ (shortened t l).entries) :
    e.sequence.toNat < t.maxSequences.toNat :=
  of_decide_eq_true (List.mem_filter.mp (List.mem_of_mem_take h)).2

/-- **What is left of a song has no faults** if its loops still take rows. -/
theorem wellFormed_truncated (hroom : Roomy t) (ht : Voiced t) (h : s.Consistent) :
    (truncated t (playable t s)).WellFormed ↔ LoopsLast t s := by
  obtain ⟨hplayable, horders, hrows⟩ := keepsRows_playable ht s h
  obtain ⟨htruncated, horders', hrows'⟩ := truncated_spec hroom hplayable
  rw [horders] at horders'
  rw [hrows] at hrows'
  have hplays : ∀ l, LoopPlays (truncated t (playable t s)) (shortened t l) ↔ LoopPlays s (shortened t l) := by
    intro l
    have hnothing : ∀ e ∈ (shortened t l).entries, playsNothing (truncated t (playable t s)) e = playsNothing s e := by
      intro e he
      rw [playsNothing_eq, playsNothing_eq, hrows', List.getElem?_take, if_pos (sequence_lt_of_mem_shortened he)]
    refine forall_congr' fun target => imp_congr_right fun _ => exists_congr fun e => and_congr_right fun he => ?_
    rw [hnothing e (List.mem_of_mem_drop he)]
  rw [wellFormed_iff_consistent, horders']
  simp only [htruncated, true_and, List.forall_mem_map, hplays]
  rfl

/-! ## Jobs -/

variable {E : Failure → Prop}

/-- What is left of the order lists can be counted, if sequences are cut. -/
def Countable (t : Template) (s : Song) : Prop :=
  s.sequences.length ≤ t.maxSequences.toNat ∨
    ∀ l ∈ s.orderLists, (cutEntries t.maxSequences.toNat l).entries.length ≤ 255

theorem SameLists.countable {s' : Song} (h : SameLists s s') : Countable t s' ↔ Countable t s := by
  rw [Countable, Countable, h.length, h.orderLists]

theorem SameRows.countable {s' : Song} (h : SameRows s s') : Countable t s' ↔ Countable t s := by
  refine SameLists.countable ⟨h.orderLists, ?_⟩
  simpa only [Song.rowCounts, List.length_map] using congrArg List.length h.rowCounts

/-- An order list of which more is left than can be counted keeps the sequences from being cut. -/
def Uncountable (t : Template) (s : Song) (e : Failure) : Prop :=
  t.maxSequences.toNat < s.sequences.length ∧ s.orderLists.findSome? (countFault? t.maxSequences.toNat) = some e

theorem SameLists.uncountable {s' : Song} (h : SameLists s s') {e : Failure} :
    Uncountable t s' e ↔ Uncountable t s e := by
  rw [Uncountable, Uncountable, h.length, h.orderLists]

theorem countFault?_eq_none {l : OrderList} :
    countFault? capacity l = none ↔ (cutEntries capacity l).entries.length ≤ 255 := by
  simp only [countFault?, ite_eq_right_iff, reduceCtorEq, imp_false, Nat.not_lt]

theorem countFault?_eq_some {l : OrderList} {e : Failure} :
    countFault? capacity l = some e ↔ 255 < (cutEntries capacity l).entries.length ∧
      e = .invalidData (.uncountableEntries (cutEntries capacity l).entries.length) := by
  simp only [countFault?, Option.ite_none_right_eq_some, Option.some.injEq, @eq_comm _ e]

theorem Uncountable.not_countable {e : Failure} (h : Uncountable t s e) :
    (∃ n, e = .invalidData (.uncountableEntries n)) ∧ ¬ Countable t s := by
  obtain ⟨hmany, hfault⟩ := h
  obtain ⟨l, hl, hfault⟩ := List.exists_of_findSome?_eq_some hfault
  obtain ⟨hleft, rfl⟩ := countFault?_eq_some.mp hfault
  refine ⟨⟨_, rfl⟩, ?_⟩
  rintro (hlength | hcountable)
  · omega
  · have := hcountable l hl
    omega

theorem ends_apply_truncate (s : Song) (c : Cut) :
    Job.Ends (apply .truncate s c) (fun s' => s' = within s c ∧ (c.holds s = true ∨ c.obstacle? s = none))
      fun e => c.holds s = false ∧ c.obstacle? s = some e := by
  unfold apply within
  by_cases hholds : c.holds s = true
  · rw [if_pos hholds, if_pos hholds]
    exact .pure ⟨rfl, .inl hholds⟩
  · rw [if_neg hholds, if_neg hholds]
    refine .bind (.bind .notice fun _ _ => .degrade) fun _ _ => ?_
    cases hobstacle : c.obstacle? s with
    | some failure => exact .throw ⟨by simpa using hholds, rfl⟩
    | none => exact .pure ⟨rfl, .inr rfl⟩

/-- The cut can be made of every song. -/
def Cut.Free (c : Cut) : Prop := ∀ s, c.obstacle? s = none

theorem free_earlyCut {c : Cut} (hc : c ∈ earlyCuts t) : c.Free := by
  simp only [earlyCuts, tableCuts, instrumentCuts, List.mem_append, List.mem_singleton, List.mem_filterMap,
    Option.map_eq_some_iff, List.mem_map] at hc
  rcases hc with (⟨kind, -, spec, -, rfl⟩ | ⟨spec, -, rfl⟩) | rfl
  · exact fun _ => rfl
  · exact fun _ => rfl
  · exact fun _ => rfl

theorem Cut.Free.ends_apply {c : Cut} (h : c.Free) (s : Song) : Job.Ends (apply .truncate s c) (· = within s c) E := by
  refine (ends_apply_truncate s c).mono (fun _ hs => hs.1) fun e he => ?_
  rw [h s] at he
  cases he.2

theorem ends_foldlM_truncate : ∀ (cuts : List Cut) (s : Song), (∀ c ∈ cuts, c.Free) →
    Job.Ends (cuts.foldlM (apply .truncate) s) (· = cuts.foldl within s) E
  | [], s, _ => by
    rw [List.foldlM_nil]
    exact .pure rfl
  | c :: cuts, s, hfree => by
    rw [List.foldlM_cons]
    refine ((hfree c (by simp)).ends_apply s).bind fun s' he => ?_
    rw [he]
    exact ends_foldlM_truncate cuts _ fun d hd => hfree d (by simp [hd])

theorem ends_sequenceCut (s : Song) : Job.Ends (apply .truncate s (sequenceCut t))
    (fun s' => s' = within s (sequenceCut t) ∧ Countable t s) (Uncountable t s) := by
  refine (ends_apply_truncate s (sequenceCut t)).mono (fun s' => ?_) fun e => ?_
  · rintro ⟨rfl, hholds | hobstacle⟩
    · exact ⟨rfl, .inl (of_decide_eq_true hholds)⟩
    · exact ⟨rfl, .inr fun l hl => countFault?_eq_none.mp (List.findSome?_eq_none_iff.mp hobstacle l hl)⟩
  · rintro ⟨hholds, hobstacle⟩
    exact ⟨Nat.lt_of_not_le (of_decide_eq_false hholds), hobstacle⟩

/-- **What cutting a song ends with**: the song within every limit, or entries that cannot be counted. -/
theorem ends_cut_truncate (t : Template) (s : Song) :
    Job.Ends (cut t .truncate s) (fun result => result.1 = truncated t s ∧ Countable t s) (Uncountable t s) := by
  have hsame := sameLists_earlyCuts t s
  unfold cut
  refine (ends_foldlM_truncate _ s fun c hc => free_earlyCut (List.mem_append_left _ hc)).bind fun s₁ he₁ => ?_
  refine ((free_earlyCut (t := t) (c := commandCut t) (by simp [earlyCuts])).ends_apply s₁).bind fun s₂ he₂ => ?_
  have hearly : s₂ = (earlyCuts t).foldl within s := by
    rw [he₂, he₁]
    show [commandCut t].foldl within ((tableCuts t ++ instrumentCuts t).foldl within s) = _
    rw [← List.foldl_append]
    rfl
  rw [← hearly] at hsame
  refine Job.Ends.bind (P := fun s₃ => s₃ = truncated t s ∧ Countable t s) ?_ fun s₃ hs₃ => .pure hs₃
  rw [List.foldlM_cons, truncated_eq, ← hearly, ← hsame.countable]
  refine ((ends_sequenceCut (t := t) s₂).mono (fun _ h => h) fun _ => hsame.uncountable.mp).bind
    fun s₃ ⟨he₃, hcountable⟩ => ?_
  rw [← he₃]
  refine (ends_foldlM_truncate _ s₃ fun c hc => ?_).mono (fun _ he => ⟨he, hcountable⟩) fun _ he => he
  obtain ⟨voice, -, rfl⟩ := List.mem_map.mp hc
  exact fun _ => rfl

end Chiptune.Player.Fit
