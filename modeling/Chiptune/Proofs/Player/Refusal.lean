/-
What still keeps a song out of a player when it may be cut.

Of a player like the minimal one (`Template.Accepting`) nothing is left to fail
but three things: the entries left of an order list may be too many to count, a
loop may be left without rows, and the music data may be too long. The loops
are what cutting does not repair: an order list that is shortened loops to where
it did, even if none of the entries left there takes rows.
-/
import Chiptune.Proofs.Player.Encode
import Chiptune.Proofs.Player.Header
import Chiptune.Proofs.Player.Minimal
import Chiptune.Proofs.Player.Truncation

namespace Chiptune.Player

open Song

/-! ## Slots -/

theorem Rows.exists_encodeTable {table : Table} (h : table.kind ≠ .arpeggio) (columns : Nat) :
    ∃ rows, encodeTable table columns = .ok rows := by
  obtain ⟨kind, rows, provenance⟩ := table
  have hrow (row : Row) : ∃ bytes, encodeRow kind columns row = .ok bytes := by
    cases kind with
    | arpeggio => exact absurd rfl h
    | _ => cases row <;> exact ⟨_, rfl⟩
  choose bytes hbytes using hrow
  refine ⟨rows.map bytes, mapM_eq_ok.mpr (List.forall₂_map_right_iff.mpr ?_)⟩
  exact List.forall₂_same.mpr fun row _ => hbytes row

/-- Only the rows of an arpeggio may fail to be written. -/
theorem Encode.exists_rowsOf {slot : Slot} (h : slot ≠ .arpeggio) (s : Song) (commands : List Command) (columns : UInt8) :
    ∃ rows, rowsOf s commands slot columns = .ok rows := by
  unfold rowsOf
  cases slot with
  | instruments | commands => exact ⟨_, rfl⟩
  | arpeggio => exact absurd rfl h
  | _ =>
    simp only [Slot.table?, Option.bind_some]
    split
    · exact ⟨_, rfl⟩
    next table htable =>
      refine Rows.exists_encodeTable (fun he => ?_) _
      have hfound := List.find?_some htable
      simp [he] at hfound

/-! ## Players -/

/-- A player that whatever is cut down to its limits can be put into. -/
structure Template.Accepting (t : Template) : Prop where
  roomy : Fit.Roomy t
  voiced : Fit.Voiced t
  /-- An arpeggio may loop too far to be written. -/
  plain : ∀ spec ∈ t.tables, spec.slot ≠ .arpeggio
  header : t.HeaderFits
  layout : Layout.of t t.base = .ok (Layout.placed t t.base)
  movable : t.Movable
  ascending : t.base ≤ (Layout.placed t t.base).music

/-- Why a song without faults does not go into a player that it may be cut down for. -/
inductive Refusal (t : Template) (s : Song) : Failure → Prop
  | entries (h : ¬ Fit.Countable t s) (n : Nat) : Refusal t s (.invalidData (.uncountableEntries n))
  | loops (hcountable : Fit.Countable t s) (h : ¬ Fit.LoopsLast t s) {faults : List Fault}
      (hfaults : (Fit.truncated t (Fit.playable t s)).faults = faults)
      (hloops : ∀ f ∈ faults, ∃ voice target, f = .emptyOrderLoop voice target) : Refusal t s (.malformedSong faults)
  | music (hcountable : Fit.Countable t s) (hloops : Fit.LoopsLast t s) {required capacity : Nat}
      (h : capacity < required) : Refusal t s (.capacityExceeded .musicData required capacity)

namespace Encode

variable {t : Template} {s : Song}

/-- **How a build ends at such a player's own base**: only cutting, the faults of what is left and the room for its
music may stop it. -/
theorem ends_build_accepting (ht : t.Accepting) (h : s.WellFormed) {policy : Policy}
    {C : Song × List Command → Prop} {E : Failure → Prop}
    (hcut : Job.Ends (Fit.cut t policy (Fit.playable t s)) C E)
    (hfaults : ∀ s' commands, C (s', commands) → ¬ s'.WellFormed → E (.malformedSong s'.faults))
    (hmusic : ∀ s' commands, C (s', commands) → s'.WellFormed →
      (Layout.placed t t.base).musicCapacity < (MusicData.of s' commands).bytes.length →
        E (.capacityExceeded .musicData (MusicData.of s' commands).bytes.length (Layout.placed t t.base).musicCapacity)) :
    Job.Ends (build s t { policy })
      (fun built => ∃ s' commands, C (s', commands) ∧ s'.WellFormed ∧
        (MusicData.of s' commands).bytes.length ≤ (Layout.placed t t.base).musicCapacity ∧
          ∃ bytes, built.1.toBytes = .ok bytes) E := by
  refine (ends_build_of hcut).mono (fun built hbuilt => ?_) fun e he => ?_
  · obtain ⟨-, s', commands, hresult, p, hbase, rfl⟩ := hbuilt
    have hbase : p.base = t.base := hbase
    exact ⟨s', commands, hresult, p.wellFormed, hbase ▸ p.musicLength, exists_toBytes ht.header _ _ _ p.places⟩
  · obtain ⟨patches, code, hpatches, hcode⟩ := ht.movable
    cases he with
    | song hfaulty => exact absurd h hfaulty
    | layout h => cases ht.layout.symm.trans h
    | derive h => cases hpatches.symm.trans h
    | applied hpatches' h =>
      cases hpatches.symm.trans hpatches'
      cases hcode.symm.trans h
    | cut h => exact h
    | faults hresult h => exact hfaults _ _ hresult h
    | music hresult hwell h => exact hmusic _ _ hresult hwell h
    | address h => exact absurd h (UInt16.not_lt.mpr ht.ascending)
    | slot _ hplace h =>
      obtain ⟨spec, hspec, hslot, -⟩ := Layout.exists_spec_of_mem_placeSlots hplace
      obtain ⟨rows, hrows⟩ := exists_rowsOf (hslot ▸ ht.plain spec hspec) _ _ _
      cases hrows.symm.trans h

theorem ends_build_truncate (ht : t.Accepting) (h : s.WellFormed) :
    Job.Ends (build s t { policy := .truncate })
      (fun built => (Fit.Countable t s ∧ Fit.LoopsLast t s) ∧ ∃ bytes, built.1.toBytes = .ok bytes) (Refusal t s) := by
  obtain ⟨hplayable, hsame⟩ := Fit.keepsRows_playable ht.voiced s (wellFormed_iff_consistent.mp h).1
  have hwell := Fit.wellFormed_truncated ht.roomy ht.voiced (wellFormed_iff_consistent.mp h).1
  have hcut : Job.Ends (Fit.cut t .truncate (Fit.playable t s))
      (fun result => result.1 = Fit.truncated t (Fit.playable t s) ∧ Fit.Countable t s) (Refusal t s) := by
    refine (Fit.ends_cut_truncate t _).mono (fun _ ⟨he, hcountable⟩ => ⟨he, hsame.countable.mp hcountable⟩) fun e he => ?_
    obtain ⟨⟨n, rfl⟩, hcountable⟩ := he.not_countable
    exact .entries (by rwa [← hsame.countable]) n
  refine (ends_build_accepting ht h hcut ?faults ?music).mono ?built fun _ h => h
  case faults =>
    rintro _ _ ⟨rfl, hcountable⟩ hfaulty
    have hconsistent := (Fit.truncated_spec ht.roomy hplayable).1
    exact .loops hcountable (mt hwell.mpr hfaulty) rfl fun f hf => hconsistent.faults hf
  case music =>
    rintro _ _ ⟨rfl, hcountable⟩ hloops hlength
    exact .music hcountable (hwell.mp hloops) hlength
  case built =>
    rintro built ⟨_, _, ⟨rfl, hcountable⟩, hloops, -, hbytes⟩
    exact ⟨⟨hcountable, hwell.mp hloops⟩, hbytes⟩

end Encode

/-- **A song that may be cut** goes into a player, or is refused for one of three reasons. -/
theorem ends_encode_truncate {t : Template} {s : Song} (ht : t.Accepting) (h : s.WellFormed) :
    Job.Ends (encode s t { policy := .truncate }) (fun _ => Fit.Countable t s ∧ Fit.LoopsLast t s) (Refusal t s) :=
  ends_encode_of (Encode.ends_build_truncate ht h)

/-- Nothing but a loop without rows is wrong with a song that is refused for its loops. -/
theorem encode_eq_malformedSong {t : Template} {s : Song} (ht : t.Accepting) (h : s.WellFormed)
    (hcountable : Fit.Countable t s) (hloops : ¬ Fit.LoopsLast t s) (j : Journal) :
    ∃ j', encode s t { policy := .truncate } j =
      .error (.malformedSong (Fit.truncated t (Fit.playable t s)).faults) j' := by
  obtain ⟨e, j', hj, he⟩ := (ends_encode_truncate ht h).exists_error (fun _ hlast => hloops hlast.2) j
  cases he with
  | entries h => exact absurd hcountable h
  | loops _ _ hfaults =>
    rw [hfaults]
    exact ⟨j', hj⟩
  | music _ h => exact absurd h hloops

/-! ## The minimal player -/

namespace Minimal

theorem template_accepting : template.Accepting where
  roomy := by
    show ∀ spec ∈ slots, 0 < spec.capacity.toNat
    decide
  voiced := by
    intro kind hkind
    cases kind with
    | arpeggio => exact absurd rfl hkind
    | _ => rfl
  plain := by
    show ∀ spec ∈ slots, spec.slot ≠ .arpeggio
    decide
  header :=
    { descriptor := by decide +kernel
      common := by decide +kernel
      tables := by decide +kernel }
  layout := template_assembled.layout_eq_ok
  movable := template_assembled.movable
  ascending := base_le_music

/-- **A song cut down for the minimal player** is refused only for entries that cannot be counted, loops without
rows, or music data that is too long. -/
theorem encode_truncated {s : Song} (h : s.WellFormed) :
    Job.Ends (encode s template { policy := .truncate })
      (fun _ => Fit.Countable template s ∧ Fit.LoopsLast template s) (Refusal template s) :=
  ends_encode_truncate template_accepting h

/-- A song of a rest and of nothing, with a voice that plays them in some order for ever. -/
def ring (order : List UInt8) : Song where
  title := "ring"
  author := ""
  released := ""
  tempo := 6
  instruments := []
  tables := []
  sequences := [{ events := [] }, { events := [.rest 1] }]
  orderLists := [⟨order.map fun sequence => ⟨0, sequence⟩, .loop 0⟩, ⟨[], .stop⟩, ⟨[], .stop⟩]

/-- The order is too long by one entry, which plays what those before it play. -/
def steady : Song := ring (List.replicate 128 1)

theorem encode_truncated_steady : steady.WellFormed ∧
    Job.Ends (encode steady template { policy := .truncate })
      (fun _ => Fit.Countable template steady ∧ Fit.LoopsLast template steady) (Refusal template steady) := by
  have h : steady.WellFormed := by decide +kernel
  -- Applied to the song itself, the statement would be evaluated and the song encoded.
  generalize steady = s at h ⊢
  exact ⟨h, encode_truncated h⟩

/-- Only the entry that the order is too long by takes rows. -/
def fading : Song := ring (List.replicate 127 0 ++ [1])

theorem fading_refused : fading.WellFormed ∧ ∀ j, ∃ j', encode fading template { policy := .truncate } j =
    .error (.malformedSong [.emptyOrderLoop 0 0]) j' := by
  have hwell : fading.WellFormed := by decide +kernel
  have hcountable : Fit.Countable template fading := .inl (by decide +kernel)
  have hfaults : (Fit.truncated template (Fit.playable template fading)).faults = [.emptyOrderLoop 0 0] := by
    decide +kernel
  have hloops : ¬ Fit.LoopsLast template fading := by
    rw [← Fit.wellFormed_truncated template_accepting.roomy template_accepting.voiced
      (wellFormed_iff_consistent.mp hwell).1, WellFormed, hfaults]
    exact List.cons_ne_nil _ _
  refine ⟨hwell, fun j => ?_⟩
  obtain ⟨j', hj⟩ := encode_eq_malformedSong template_accepting hwell hcountable hloops j
  rw [hfaults] at hj
  exact ⟨j', hj⟩

end Minimal

end Chiptune.Player
