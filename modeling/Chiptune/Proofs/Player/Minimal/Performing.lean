/-
**The minimal player plays the song** that is in it.

A session in which the player was loaded tracks the start of the decoded song,
and each frame that is played takes it to the next rendition (`sids_rendered`).
So what is recorded of a song that was encoded is what it is rendered to
(`snapshots_rendered`).
-/
import Chiptune.Proofs.Player.Minimal.Encoded
import Chiptune.Proofs.Player.Minimal.Opening
import Chiptune.Proofs.Player.Minimal.Stock

namespace Chiptune.Player.Minimal

open File Machine Sound Song Encode Playback Playback.Session

/-! ## Sessions -/

section Sessions

variable {here : Site} {song : Song} {commands : List Command} {st st' : State} {r r' : Rendition} {s s' : Session}
  {depth fuel : Nat} {items : List Item} {Q : State → Prop}

/-- A routine that comes to a state whatever the fuel runs, and returns in such a state if it does. -/
theorem Comes.done (h : ∀ fuel, Comes here depth fuel items st Q) :
    Runs here depth items st ∧ ∀ fuel st', exec here depth fuel items st = .done st' → Q st' :=
  ⟨(Both.runs h).1, fun _ _ hdone => (Both.done h hdone hdone).2⟩

/-- A session in which the player shows a rendition. -/
def Renders (song : Song) (commands : List Command) (here : Site) (r : Rendition) (s : Session) : Prop :=
  ∃ st, Tracks song commands here r st ∧ Shows here [] st s.core

/-- **The song starts** when the player is loaded. -/
theorem renders_load {p : Program} (hready : here.Ready song commands) (hhere : here.Stands) (hp : IsProgram here p)
    (h : loadProgram p s = .ok () s') : Renders song commands here (Rendition.start song) s' := by
  have hcomes (fuel : Nat) : Comes here 2 fuel (itemsFrom "init") (called (freshState here) 0)
      (Tracks song commands here (Rendition.start song)) :=
    comes_init hready (by decide) rfl rfl rfl fun m hm => if_neg (Nat.not_lt.mpr hm)
  obtain ⟨hruns, hdone⟩ := Comes.done hcomes
  obtain ⟨fuel, st', hexec, -, hs'⟩ := loadProgram_shows hhere hp h hruns
  exact ⟨st', hdone fuel st' hexec, hs'⟩

/-- **A frame is rendered** when it is played. -/
theorem Renders.playFrame {cycles : Nat} (hready : here.Ready song commands) (hhere : here.Stands)
    (hrenders : Renders song commands here r s) (hvalid : r.Valid song) (hframe : r.frame song = some r')
    (htune : r'.InTune) (h : playFrame (.subroutine (here.address 3)) s = .ok cycles s') :
    Renders song commands here r' s' := by
  obtain ⟨st, htracks, hs⟩ := hrenders
  have hcalled := htracks.compute (plain { st.regs with a := 0 }) st.page rfl
  have hcomes (fuel : Nat) : Comes here 2 fuel (itemsFrom "play") (called st 0) (Tracks song commands here r') :=
    comes_play hready (by decide) hcalled hvalid hframe htune
  obtain ⟨hruns, hdone⟩ := Comes.done hcomes
  obtain ⟨fuel, st', hexec, -, hs'⟩ := playFrame_shows hhere hs htracks.saved h hruns
  exact ⟨st', hdone fuel st' hexec, hs'⟩

/-- **Every frame that is played** sounds as it is rendered, as long as the voices are in tune. -/
theorem sids_rendered (hready : here.Ready song commands) (hhere : here.Stands) : ∀ (n : Nat) {r : Rendition}
    {rs : List Rendition} {s s' : Session} {count longest : Nat} {counts : Nat × Nat},
    Renders song commands here r s → r.Valid song → r.frames song n = some rs → (∀ r ∈ rs, r.InTune) →
      playFrames (.subroutine (here.address 3)) n count longest s = .ok counts s' →
      (frameSessions (.subroutine (here.address 3)) n s).map (·.sid) = rs.map (·.bank)
  | 0, _, _, _, _, _, _, _, _, _, hframes, _, _ => by
    cases hframes
    rfl
  | n + 1, r, rs, s, s', count, longest, counts, hrenders, hvalid, hframes, htune, h => by
    obtain ⟨r₁, hframe, hmapped⟩ := Option.bind_eq_some_iff.mp hframes
    obtain ⟨rest, hrest, rfl⟩ := Option.map_eq_some_iff.mp hmapped
    obtain ⟨cycles, s₁, count', longest', hplay, hplays, hsessions⟩ := playFrames_succ_eq_ok h
    have hrendered := hrenders.playFrame hready hhere hvalid hframe (htune r₁ List.mem_cons_self) hplay
    have hvalid₁ := (Rendition.Valid.invariant hready.wellFormed).frame hvalid hframe
    have hlater := sids_rendered hready hhere n hrendered hvalid₁ hrest
      (fun r hr => htune r (List.mem_cons_of_mem _ hr)) hplays
    obtain ⟨st, htracks, hs⟩ := hrendered
    have hsid : s₁.sid = r₁.bank := hs.sid.trans htracks.common.sid
    rw [hsessions, List.map_cons, List.map_cons, hlater, hsid]

end Sessions

/-! ## Recordings -/

variable {song : Song} {options : EncodeOptions} {e : Encoded} {j j' : Journal} {n : Nat} {limits : Limits}
  {cancelled : Bool} {r : Recording}

/-- **What is recorded of a song that was encoded** is what the song is rendered to that it decodes to, if that has
an instrument and its voices keep to the table of frequencies. -/
theorem snapshots_rendered (h : encode song template options j = .ok e j') (hlow : 0x200 ≤ e.base.toNat)
    (hhigh : e.container.program.endAddress ≤ 0xD400) (hrecord : record e.container.program n limits cancelled = .ok r) :
    ∃ c d, Container.parse e.bytes = .ok c ∧ decode c = .ok d ∧
      (d.instruments ≠ [] → ∃ rs, rendered d n = some rs ∧
        ((∀ r ∈ rs, r.InTune) → r.trace.snapshots = rs.map (·.bank))) := by
  obtain ⟨c, hparse, hdecode⟩ := decode_kept minimal_schematic h
  refine ⟨c, _, hparse, hdecode, fun hinstruments => ?_⟩
  obtain ⟨hsong, p, hcontainer, hbase⟩ := packed_of_encode h
  obtain ⟨f, -, hslots, -⟩ := filled_of_packed p
  rw [hcontainer] at hhigh hrecord
  rw [hbase] at hlow
  have hwithin : Within p := ⟨hlow, hhigh⟩
  obtain ⟨s, counts, s', hload, hplay, hsnapshots⟩ := snapshots_record hrecord
  obtain ⟨image, himage⟩ := image_of_loadProgram hload
  have hfits := fits_truncated hsong
  have hready := ready hslots hfits.sequences hfits.entries hwithin himage
  have hstands := stands_of_image hwithin himage
  obtain ⟨rs, hrs⟩ := Option.isSome_iff_exists.mp (rendered_isSome hready.wellFormed hinstruments n)
  refine ⟨rs, hrs, fun htune => ?_⟩
  rw [hsnapshots]
  exact sids_rendered hready hstands n (renders_load hready hstands (isProgram himage) hload)
    (.start hready.wellFormed hinstruments) hrs htune hplay

/-- What is kept of a song that leaves the table, for the frame that it stays there. -/
theorem rendered_overreach :
    (kept template overreach).normal.instruments.length = 1 ∧
      (rendered (kept template overreach).normal 1).map (·.all fun r => decide r.InTune) = some true := by
  decide +kernel

/-- The highest pitch is heard as it is rendered. -/
theorem snapshots_rendered_overreach : ∃ e j c d r rs,
    encode overreach template { base := some 0x1000 } {} = .ok e j ∧
      (0x200 ≤ e.base.toNat ∧ e.container.program.endAddress ≤ 0xD400) ∧
      record e.container.program 1 {} false = .ok r ∧ Container.parse e.bytes = .ok c ∧ decode c = .ok d ∧
      d.instruments ≠ [] ∧ rendered d 1 = some rs ∧ (∀ r ∈ rs, r.InTune) ∧
      r.trace.snapshots.map (·.get (.voice 0 .freqHi)) = [255] ∧ r.trace.snapshots = rs.map (·.bank) := by
  obtain ⟨e, j, hencode, hbase, hend, ⟨r, hr, hsnapshots, -⟩, -⟩ := played_of_seen seen_overreach.1
  have hwithin : 0x200 ≤ e.base.toNat ∧ e.container.program.endAddress ≤ 0xD400 := by
    rw [hbase, hend]
    decide
  obtain ⟨c, d, hparse, hdecode, hrendered⟩ := snapshots_rendered hencode hwithin.1 hwithin.2 hr
  obtain ⟨c', hparse', hdecode'⟩ := decode_kept minimal_schematic hencode
  cases hparse.symm.trans hparse'
  cases hdecode.symm.trans hdecode'
  obtain ⟨hinstruments, hkept⟩ := rendered_overreach
  have hnonempty : (kept template overreach).normal.instruments ≠ [] :=
    List.ne_nil_of_length_pos (hinstruments ▸ Nat.one_pos)
  obtain ⟨rs, hrs, hheard⟩ := hrendered hnonempty
  rw [hrs] at hkept
  have htune : ∀ r ∈ rs, r.InTune := fun r hr =>
    of_decide_eq_true (List.all_eq_true.mp (Option.some.inj hkept) r hr)
  exact ⟨e, j, c, _, r, rs, hencode, hwithin, hr, hparse, hdecode, hnonempty, hrs, htune, hsnapshots, hheard htune⟩

end Chiptune.Player.Minimal
