/-
Order lists when sequences are cut.

An entry survives if its sequence does (`survivors`). A loop goes on to the first
survivor at or after its target, or becomes a stop if there is none (`Remapped`),
and then the order list is cut to its length. Survivors are counted in a byte,
so a song with more than 255 of them in an order list is not cut at all
(`cut_remapped`).
-/
import Chiptune.Player.Minimal.Template
import Chiptune.Proofs.Lists
import Chiptune.Proofs.Player.Truncation

namespace Chiptune.Player.Fit

open Song

variable {t : Template} {s : Song} {limit : Nat} {l l' : OrderList}

/-! ## Survivors -/

/-- The entries that play one of the first `limit` sequences, and where they are in the order list. -/
def survivors (limit : Nat) (l : OrderList) : List (OrderEntry × Nat) :=
  l.entries.zipIdx.filter fun entry => decide (entry.1.sequence.toNat < limit)

/-- Where a loop to an entry goes among the survivors: to the first one at or after its target. -/
def Lands (survivors : List (OrderEntry × Nat)) (target : Nat) : OrderEnd → Prop
  | .loop index =>
    (∃ survivor, survivors[index.toNat]? = some survivor ∧ target ≤ survivor.2) ∧
      ∀ earlier ∈ survivors.take index.toNat, earlier.2 < target
  | .stop => ∀ survivor ∈ survivors, survivor.2 < target

/-- What a cut to the first `limit` sequences makes of an order list. -/
structure Remapped (limit : Nat) (l l' : OrderList) : Prop where
  entries : l'.entries = l.entries.filter fun e => decide (e.sequence.toNat < limit)
  stop : l.finish = .stop → l'.finish = .stop
  loop : ∀ target, l.finish = .loop target → Lands (survivors limit l) target.toNat l'.finish

/-- There is one place for a loop to go to. -/
theorem Lands.unique {survivors : List (OrderEntry × Nat)} {target : Nat} {a b : OrderEnd}
    (ha : Lands survivors target a) (hb : Lands survivors target b) : a = b := by
  have hbefore {i j : UInt8} (hi : Lands survivors target (.loop i)) (hj : Lands survivors target (.loop j)) :
      j.toNat ≤ i.toNat := by
    obtain ⟨⟨survivor, hsurvivor, htarget⟩, -⟩ := hi
    by_contra hlt
    have hmem : survivor ∈ survivors.take j.toNat := by
      refine List.mem_of_getElem? (i := i.toNat) ?_
      rw [List.getElem?_take, if_pos (by omega), hsurvivor]
    have := hj.2 survivor hmem
    omega
  have hnever {i : UInt8} (hi : Lands survivors target (.loop i)) : ¬ Lands survivors target .stop := by
    intro hstop
    obtain ⟨⟨survivor, hsurvivor, htarget⟩, -⟩ := hi
    have := hstop survivor (List.mem_of_getElem? hsurvivor)
    omega
  cases a with
  | stop =>
    cases b with
    | stop => rfl
    | loop j => exact absurd ha (hnever hb)
  | loop i =>
    cases b with
    | stop => exact absurd hb (hnever ha)
    | loop j => rw [UInt8.toNat_inj.mp (Nat.le_antisymm (hbefore hb ha) (hbefore ha hb))]

/-- An order list is remapped in one way. -/
theorem Remapped.unique {l₁ l₂ : OrderList} (h₁ : Remapped limit l l₁) (h₂ : Remapped limit l l₂) : l₁ = l₂ := by
  have hentries : l₁.entries = l₂.entries := h₁.entries.trans h₂.entries.symm
  have hfinish : l₁.finish = l₂.finish := by
    cases hl : l.finish with
    | stop => rw [h₁.stop hl, h₂.stop hl]
    | loop target => exact (h₁.loop target hl).unique (h₂.loop target hl)
  obtain ⟨entries, finish⟩ := l₁
  cases hentries
  cases hfinish
  rfl

/-- Survivors keep their order. -/
theorem map_survivors (limit : Nat) (l : OrderList) :
    (survivors limit l).map (·.1) = l.entries.filter fun e => decide (e.sequence.toNat < limit) := by
  conv => rhs; rw [← List.zipIdx_map_fst 0 l.entries, List.filter_map]
  rfl

theorem length_survivors (limit : Nat) (l : OrderList) :
    (survivors limit l).length = (cutEntries limit l).entries.length := by
  rw [← List.length_map (·.1), map_survivors]
  rfl

section Split

variable (limit : Nat) (l : OrderList) (target : Nat)

/-- The survivors before an entry, as many as the entries before it that are kept, and those from it on. -/
theorem exists_survivors_split (h : target ≤ l.entries.length) : ∃ before after,
    survivors limit l = before ++ after ∧
      before.length = (l.entries.take target).countP (fun e => decide (e.sequence.toNat < limit)) ∧
      (∀ survivor ∈ before, survivor.2 < target) ∧ ∀ survivor ∈ after, target ≤ survivor.2 := by
  let keeps (entry : OrderEntry × Nat) : Bool := decide (entry.1.sequence.toNat < limit)
  have hlength : (l.entries.take target).length = target := List.length_take_of_le h
  refine ⟨(l.entries.take target).zipIdx.filter keeps, ((l.entries.drop target).zipIdx target).filter keeps, ?_, ?_,
    fun survivor hbefore => ?_, fun survivor hafter => ?_⟩
  · rw [← List.filter_append, survivors]
    conv => lhs; rw [← List.take_append_drop target l.entries, List.zipIdx_append, hlength, Nat.zero_add]
  · rw [← List.countP_eq_length_filter]
    conv => rhs; rw [← List.zipIdx_map_fst 0 (l.entries.take target), List.countP_map]
    rfl
  · obtain ⟨hmem, -⟩ := List.mem_filter.mp hbefore
    have := (List.mem_zipIdx hmem).2.1
    omega
  · obtain ⟨hmem, -⟩ := List.mem_filter.mp hafter
    exact (List.mem_zipIdx hmem).1

end Split

/-- **An order list is remapped** when entries are taken out of it. -/
theorem remapped_cutEntries (limit : Nat) (l : OrderList) : Remapped limit l (cutEntries limit l) := by
  refine ⟨rfl, fun hstop => by simp only [cutEntries, hstop], fun target hloop => ?_⟩
  have hfinish : (cutEntries limit l).finish =
      if target.toNat < l.entries.length ∧
          (l.entries.take target.toNat).countP (fun e => decide (e.sequence.toNat < limit)) <
            (cutEntries limit l).entries.length then
        .loop (UInt8.ofNat ((l.entries.take target.toNat).countP fun e => decide (e.sequence.toNat < limit)))
      else .stop := by
    simp only [cutEntries, hloop]
  rw [hfinish, ← length_survivors]
  by_cases htarget : target.toNat < l.entries.length
  · obtain ⟨before, after, hsplit, hcount, hbefore, hafter⟩ :=
      exists_survivors_split limit l target.toNat (Nat.le_of_lt htarget)
    rw [← hcount, hsplit, List.length_append]
    split
    next hinside =>
      -- The count is at most the target, which is a byte.
      have hbyte : before.length ≤ target.toNat := by
        rw [hcount]
        exact Nat.le_trans List.countP_le_length (List.length_take_le ..)
      have hindex : (UInt8.ofNat before.length).toNat = before.length := by
        have := target.toNat_lt
        rw [UInt8.toNat_ofNat', Nat.mod_eq_of_lt (by omega)]
      rw [Lands, hindex, List.take_left]
      refine ⟨?_, hbefore⟩
      cases after with
      | nil => simp at hinside
      | cons survivor after => exact ⟨survivor, by simp, hafter survivor (by simp)⟩
    next houtside =>
      have hafter : after = [] := by
        rw [← List.length_eq_zero_iff]
        omega
      rw [hafter, List.append_nil]
      exact hbefore
  · rw [if_neg (fun h => htarget h.1)]
    intro survivor hsurvivor
    have := (List.mem_zipIdx (List.mem_filter.mp hsurvivor).1).2.1
    omega

/-! ## Songs -/

theorem Remapped.loopsInside (h : Remapped limit l l') : l'.LoopsInside := by
  intro target hfinish
  cases hbefore : l.finish with
  | stop =>
    rw [h.stop hbefore] at hfinish
    cases hfinish
  | loop first =>
    have hlands := h.loop first hbefore
    rw [hfinish] at hlands
    obtain ⟨⟨survivor, hsurvivor, -⟩, -⟩ := hlands
    have := (List.getElem?_eq_some_iff.mp hsurvivor).1
    rw [h.entries, ← map_survivors, List.length_map]
    exact this

/-- The order lists of a song with too many sequences, when it is within every limit. -/
theorem orderLists_truncated (h : s.WellFormed) (hmany : t.maxSequences.toNat < s.sequences.length) :
    (truncated t s).orderLists = s.orderLists.map (shortened t) := by
  have hconsistent := (wellFormed_iff_consistent.mp h).1
  have hsame := sameLists_earlyCuts t s
  have hcut : (within ((earlyCuts t).foldl within s) (sequenceCut t)).orderLists =
      s.orderLists.map (cutEntries t.maxSequences.toNat) := by
    have hholds : (sequenceCut t).holds ((earlyCuts t).foldl within s) = false :=
      decide_eq_false (by rw [← hsame.length] at hmany; exact Nat.not_le_of_lt hmany)
    rw [within, hholds, ← hsame.orderLists]
    rfl
  rw [truncated_eq, orderLists_within_orderCuts, foldl_modify_range, hcut, List.map_map]
  · rfl
  · rw [hcut, List.length_map]
    exact hconsistent.voices
  · rw [hcut]
    intro l' hl'
    obtain ⟨l, hl, rfl⟩ := List.mem_map.mp hl'
    exact (remapped_cutEntries _ l).loopsInside

/-- **Cutting the sequences of a song remaps its order lists**, each of which is then cut to its length. That fails
only for an order list with more survivors than a byte counts. -/
theorem cut_remapped (h : s.WellFormed) (hmany : t.maxSequences.toNat < s.sequences.length) :
    Job.Ends (cut t .truncate s)
      (fun result => (∀ l ∈ s.orderLists, (survivors t.maxSequences.toNat l).length ≤ 255) ∧
        List.Forall₂
          (fun l final => ∃ l', Remapped t.maxSequences.toNat l l' ∧ final = cutOrderList t.maxOrderEntries.toNat l')
          s.orderLists result.1.orderLists)
      fun e => ∃ l ∈ s.orderLists, 255 < (survivors t.maxSequences.toNat l).length ∧
        e = .invalidData (.uncountableEntries (survivors t.maxSequences.toNat l).length) := by
  refine (ends_cut_truncate t s).mono (fun result => ?_) fun e => ?_
  · rintro ⟨hresult, hlength | hcountable⟩
    · omega
    refine ⟨fun l hl => by rw [length_survivors]; exact hcountable l hl, ?_⟩
    rw [hresult, orderLists_truncated h hmany, List.forall₂_map_right_iff, List.forall₂_same]
    exact fun l _ => ⟨_, remapped_cutEntries _ l, rfl⟩
  · rintro ⟨-, hfault⟩
    obtain ⟨l, hl, hfault⟩ := List.exists_of_findSome?_eq_some hfault
    rw [countFault?_eq_some, ← length_survivors] at hfault
    exact ⟨l, hl, hfault⟩

end Chiptune.Player.Fit

/-! ## The minimal player -/

namespace Chiptune.Player.Minimal

open Song Fit

/-- A song of rests with one sequence more than the player has room for, and what its first voice plays of them. -/
def rests (order : OrderList) : Song where
  title := "rests"
  author := ""
  released := ""
  tempo := 6
  instruments := []
  tables := []
  sequences := List.replicate 129 { events := [.rest 1] }
  orderLists := [order, ⟨[], .stop⟩, ⟨[], .stop⟩]

/-- The last sequence is played twice, the second time as the first entry of the loop. -/
def skipping : OrderList := ⟨[⟨0, 128⟩, ⟨0, 0⟩, ⟨0, 128⟩, ⟨0, 1⟩], .loop 2⟩

theorem cut_remapped_skipping : (rests skipping).WellFormed ∧
    template.maxSequences.toNat < (rests skipping).sequences.length ∧
      ∀ j, ∃ result j', cut template .truncate (rests skipping) j = .ok result j' ∧
        result.1.orderLists.head? = some ⟨[⟨0, 0⟩, ⟨0, 1⟩], .loop 1⟩ := by
  have hwell : (rests skipping).WellFormed := by decide +kernel
  have hmany : template.maxSequences.toNat < (rests skipping).sequences.length := by decide +kernel
  have hfew : ∀ l ∈ (rests skipping).orderLists, (survivors template.maxSequences.toNat l).length ≤ 255 := by
    decide +kernel
  have hvoice : (rests skipping).orderLists[0]? = some skipping := rfl
  -- Of the song itself, the statement would be evaluated and the song cut.
  generalize rests skipping = s at hwell hmany hfew hvoice ⊢
  refine ⟨hwell, hmany, fun j => ?_⟩
  obtain ⟨result, j', hcut, -, hlists⟩ := (cut_remapped hwell hmany).exists_ok
    (fun e ⟨l, hl, hcount, _⟩ => Nat.not_lt_of_le (hfew l hl) hcount) j
  obtain ⟨final, hfinal, l', hl', rfl⟩ := exists_getElem?_right hlists hvoice
  refine ⟨result, j', hcut, ?_⟩
  rw [List.head?_eq_getElem?, hfinal, hl'.unique (remapped_cutEntries _ _)]
  decide +kernel

/-- One sequence, played 256 times. -/
def droning : OrderList := ⟨List.replicate 256 ⟨0, 0⟩, .stop⟩

/-- A song without faults whose survivors are too many to be counted. -/
theorem droning_uncountable : (rests droning).WellFormed ∧
    template.maxSequences.toNat < (rests droning).sequences.length ∧
      ∀ j, ∃ j', cut template .truncate (rests droning) j = .error (.invalidData (.uncountableEntries 256)) j' := by
  have hfault : (rests droning).orderLists.findSome? (countFault? template.maxSequences.toNat) =
      some (.invalidData (.uncountableEntries 256)) := by
    decide +kernel
  have hcountable : ¬ Fit.Countable template (rests droning) := by
    unfold Fit.Countable
    decide +kernel
  have hwell : (rests droning).WellFormed := by decide +kernel
  have hmany : template.maxSequences.toNat < (rests droning).sequences.length := by decide +kernel
  generalize rests droning = s at hwell hmany hfault hcountable ⊢
  refine ⟨hwell, hmany, fun j => ?_⟩
  obtain ⟨e, j', hcut, -, he⟩ := (ends_cut_truncate template s).exists_error (fun _ h => hcountable h.2) j
  rw [hfault, Option.some.injEq] at he
  exact ⟨j', by rw [hcut, he]⟩

end Chiptune.Player.Minimal
