/-
The minimal player with a song that was encoded for it.

What is encoded is the player at a site, with a score that it can play. So it
stores to nothing but its variables, its pointers and the stack
(`memory_of_playFrames`).

The tables of frequencies are followed by pointers, which depend on where the
player stands, and nothing keeps a voice from looking its frequency up there.
As long as none does, a song sounds the same from every address
(`snapshots_moved`).
-/
import Chiptune.Proofs.Playback.Tape
import Chiptune.Proofs.Player.Minimal.Image
import Chiptune.Proofs.Player.Minimal.Session

namespace Chiptune.Player.Minimal

open Machine Sound Song Encode Playback Playback.Session

/-! ## Players in memory -/

variable {s : Song} {commands : List Command} {p p' : Packed template s commands} {image image' : Memory}

/-- A song that the player has room for. -/
structure Fits (s : Song) : Prop where
  sequences : s.sequences.length ≤ 128
  entries : ∀ l ∈ s.orderLists, l.entries.length ≤ 127

theorem fits_truncated (h : s.WellFormed) : Fits (Fit.truncated template (Fit.playable template s)) := by
  obtain ⟨hsequences, hentries⟩ :=
    Fit.lengths_truncated template_accepting.roomy template_accepting.voiced (wellFormed_iff_consistent.mp h).1
  exact ⟨hsequences, hentries⟩

/-- The program is the player. -/
theorem isProgram (h : p.container.program.image = .ok image) : IsProgram (siteOf p image) p.container.program :=
  ⟨h, rfl, rfl, rfl⟩

theorem stands_of_clear (hclear : Clear p) (h : p.container.program.image = .ok image) : (siteOf p image).Stands :=
  stands hclear (holds_parts (reads_image h))

/-- **Players of one song** have the same score at their sites. -/
theorem shared_of_clear (hfits : Fits s) (hclear : Clear p) (hclear' : Clear p')
    (h : p.container.program.image = .ok image) (h' : p'.container.program.image = .ok image') :
    Shared (scoreOf s commands) (siteOf p image) (siteOf p' image') := by
  have hholds := holds_parts (reads_image h)
  have hholds' := holds_parts (reads_image h')
  exact ⟨playable_scoreOf p.wellFormed hfits.sequences hfits.entries commands,
    twin (stands hclear hholds) (stands hclear' hholds') hholds hholds', stored hholds hfits.sequences,
    stored hholds' hfits.sequences⟩

theorem shared (hfits : Fits s) (hwithin : Within p) (hwithin' : Within p') (h : p.container.program.image = .ok image)
    (h' : p'.container.program.image = .ok image') : Shared (scoreOf s commands) (siteOf p image) (siteOf p' image') :=
  shared_of_clear hfits hwithin.clear hwithin'.clear h h'

theorem stands_of_image (hwithin : Within p) (h : p.container.program.image = .ok image) : (siteOf p image).Stands :=
  stands_of_clear hwithin.clear h

/-! ## Frequencies -/

/-- A variable of a voice of the player at `base`. -/
def voiceByte (base : UInt16) (memory : UInt16 → UInt8) (x : Variable) (v : Nat) : UInt8 :=
  memory (base + UInt16.ofNat (variablesAt + x.offset.toNat + v))

/-- Every voice that has played a note and not stopped looks its frequency up before the pointers. -/
def InTable (base : UInt16) (memory : UInt16 → UInt8) : Prop :=
  ∀ v < voiceCount, voiceByte base memory .active v ≠ 0 → voiceByte base memory .stopped v = 0 →
    (voiceByte base memory .note v + voiceByte base memory .waveOffset v).toNat ≤ lastLookup

instance (base : UInt16) (memory : UInt16 → UInt8) : Decidable (InTable base memory) :=
  inferInstanceAs (Decidable (∀ v < voiceCount, _ → _ → _))

variable {here there : Site} {stack : Bytes} {st : State} {c : Core}

theorem voiceByte_eq (hs : Shows here stack st c) (x : Variable) {v : Nat} (hv : x.offset.toNat + v < 70) :
    voiceByte here.base c.memory.read x v = st.cells (x.offset.toNat + v) := by
  rw [voiceByte, Nat.add_assoc]
  exact hs.cells _ hv

theorem lookup_le (hs : Shows here stack st c) (h : InTable here.base c.memory.read) {v : Nat} (hv : v < voiceCount)
    (hsounds : Sounds st v) : lookup st v ≤ lastLookup := by
  have hvoices : voiceCount = 3 := rfl
  have hoffset := h v hv
  rw [voiceByte_eq hs .active (show 33 + v < 70 by omega), voiceByte_eq hs .stopped (show 36 + v < 70 by omega),
    voiceByte_eq hs .note (show 21 + v < 70 by omega), voiceByte_eq hs .waveOffset (show 45 + v < 70 by omega)] at hoffset
  have hindex := hoffset hsounds.1 hsounds.2
  rwa [UInt8.toNat_add] at hindex

/-! ## The player at a base -/

/-- The layout of the player at a base, which does not ask for its code. -/
def layoutAt (base : UInt16) : Layout := Layout.placed (frame.withCode (List.replicate 771 0) []) base

/-- The player's code at a base. -/
def codeAt (base : UInt16) : Bytes := Assembly.codeFrom base labels (Site.resolve ⟨base, Memory.zeroed⟩) 0 listing

/-- The patches that move the player to a base. -/
def patchesAt (base : UInt16) : List Patch := (Patch.derive template (layoutAt base)).toOption.getD []

theorem placed_template (base : UInt16) : Layout.placed template base = layoutAt base := by
  rw [template_eq, layoutAt]
  exact Template.placed_withCode (length_assembly.trans List.length_replicate.symm)

/-- How the player is moved to a base, without looking into the code it is moved from. -/
theorem moved_at {base : UInt16} (hfits : template.musicAt base ≤ Layout.limitOf base) :
    Layout.of template base = .ok (layoutAt base) ∧ Patch.derive template (layoutAt base) = .ok (patchesAt base) ∧
      Patch.applied template.code (patchesAt base) = .ok (codeAt base) := by
  obtain ⟨patches, hpatches, hcode⟩ := moved_template ⟨base, Memory.zeroed⟩ hfits
  rw [placed_template] at hpatches
  have hat : patchesAt base = patches := by
    rw [patchesAt, hpatches]
    rfl
  rw [hat]
  exact ⟨Layout.of_eq_ok.mpr ⟨hfits, placed_template base⟩, hpatches, hcode⟩

/-! ## A song that leaves the table -/

/-- A voice that plays the highest pitch, and a frame later five higher. -/
def overreach : Song where
  tempo := 6
  instruments := [{ attackDecay := 0x09, sustainRelease := 0xF0, wave := 0 }]
  tables := [⟨.wave, [.step [0x41, 0], .step [0x41, 5], .stop], .static⟩]
  sequences := [{ events := [.setInstrument 0, .noteOn 95, .rest 3] }]
  orderLists := [{ entries := [⟨0, 0⟩] }, {}, {}]

/-- Whether a frame was played in the table, and the high byte of the first voice's frequency. -/
def frameSeen (base : UInt16) (t : Tape) : Bool × UInt8 :=
  (decide (InTable base t.byte), t.sid.values[1])

/-- What is seen of a song that is encoded: where its player stands and ends, and each frame of one, and of two. -/
structure Seen where
  base : UInt16
  stop : Nat
  one : List (Bool × UInt8)
  two : List (Bool × UInt8)
deriving DecidableEq

def seen : EStateM.Result Failure Journal Encoded → Option Seen
  | .ok e _ => do
    let one ← Tape.record e.container.program 1 {}
    let two ← Tape.record e.container.program 2 {}
    return ⟨e.base, e.container.program.endAddress, one.map (frameSeen e.base), two.map (frameSeen e.base)⟩
  | .error .. => none

theorem bytes_of_renders {s : Session} {tape : Tape} (h : tape.Renders s.core) : s.memory.read = tape.byte :=
  funext h.memory

/-- What is seen of a song is what is played. -/
theorem played_of_seen {encoded : EStateM.Result Failure Journal Encoded} {o : Seen} (h : seen encoded = some o) :
    ∃ e j, encoded = .ok e j ∧ e.base = o.base ∧ e.container.program.endAddress = o.stop ∧
      (∃ r, record e.container.program 1 {} false = .ok r ∧ r.trace.snapshots.map (·.values[1]) = o.one.map (·.2) ∧
        (o.one.all (·.1) = true →
          ∀ s ∈ recordedSessions e.container.program 1 {} false, InTable e.base s.memory.read)) ∧
      ∃ r, record e.container.program 2 {} false = .ok r ∧ r.trace.snapshots.map (·.values[1]) = o.two.map (·.2) := by
  cases encoded with
  | error => cases h
  | ok e j =>
    obtain ⟨tapes, htapes, h⟩ := Option.bind_eq_some_iff.mp h
    obtain ⟨tapes', htapes', h⟩ := Option.bind_eq_some_iff.mp h
    cases h
    obtain ⟨r, hr, hsnapshots, hrenders⟩ := record_of_tape htapes
    obtain ⟨r', hr', hsnapshots', -⟩ := record_of_tape htapes'
    refine ⟨e, j, rfl, rfl, rfl, ⟨r, hr, ?_, fun hall s hs => ?_⟩, r', hr', ?_⟩
    · rw [hsnapshots, List.map_map, List.map_map]
      rfl
    · obtain ⟨tape, htape, hrender⟩ := exists_of_mem_right (List.Forall₂.flip hrenders) hs
      rw [bytes_of_renders hrender]
      rw [List.all_map, List.all_eq_true] at hall
      exact of_decide_eq_true (hall tape htape)
    · rw [hsnapshots', List.map_map, List.map_map]
      rfl

set_option maxRecDepth 100000 in
theorem seen_overreach :
    seen (encode overreach template { base := some 0x1000 } {}) =
        some ⟨0x1000, 6848, [(true, 255)], [(true, 255), (false, 26)]⟩ ∧
      seen (encode overreach template { base := some 0x2000 } {}) =
        some ⟨0x2000, 10944, [(true, 255)], [(true, 255), (false, 42)]⟩ := by
  have hlow : template.musicAt 0x1000 ≤ Layout.limitOf 0x1000 := by
    rw [musicAt_template]
    decide
  have hhigh : template.musicAt 0x2000 ≤ Layout.limitOf 0x2000 := by
    rw [musicAt_template]
    decide
  -- The code comes from its listing here: the kernel need not assemble the player elsewhere and patch it.
  obtain ⟨hlayout, hpatches, hcode⟩ := moved_at hlow
  obtain ⟨hlayout', hpatches', hcode'⟩ := moved_at hhigh
  simp only [encode, Encode.build, Option.getD_some, hlayout, hpatches, hcode, hlayout', hpatches', hcode',
    Job.ofExcept_ok_bind, Fit.drop, Fit.droppedCommands, Fit.kindsByName_eq]
  decide +kernel

/-! ## Memory -/

/-- Where the player may store: to its variables, its pointers and the stack. -/
def isScratch (base address : UInt16) : Bool :=
  let start := base.toNat + template.code.length
  (start ≤ address.toNat && address.toNat < start + template.variableBytes.toNat) ||
    (0xFB ≤ address.toNat && address.toNat ≤ 0xFE) || (0x100 ≤ address.toNat && address.toNat ≤ 0x1FF)

theorem kept_of_isScratch {address : UInt16} (h : isScratch p.base address = false) :
    (siteOf p image).Kept address := by
  have hvariables : template.variableBytes.toNat = 70 := rfl
  have hwork : variablesAt = 771 := rfl
  have hslots : slotsAt = 841 := rfl
  simp only [isScratch, length_code, hvariables, Bool.or_eq_false_iff, Bool.and_eq_false_iff, decide_eq_false_iff_not]
    at h
  have hbase : (siteOf p image).base = p.base := rfl
  simp only [Site.Kept, hbase]
  omega

variable {options : EncodeOptions} {e : Encoded} {j j' : Journal} {t t₀ t' : Session} {n count longest : Nat}
  {counts : Nat × Nat}

/-- **The player leaves its code and its song alone.** Whatever was encoded, however many frames are played,
memory reads as when it was loaded, but for variables, pointers and the stack. -/
theorem memory_of_playFrames {song : Song} (h : encode song template options j = .ok e j')
    (hlow : 0x200 ≤ e.base.toNat) (hhigh : e.container.program.endAddress ≤ 0xD400)
    (himage : e.container.program.image = .ok image) (hload : loadProgram e.container.program t = .ok () t₀)
    (hplay : playFrames e.container.program.play n count longest t₀ = .ok counts t') {address : UInt16}
    (haddress : isScratch e.base address = false) : t'.memory.read address = image.read address := by
  obtain ⟨hsong, p, hcontainer, hbase⟩ := packed_of_encode h
  rw [hcontainer] at hhigh himage hload hplay
  rw [hbase] at hlow haddress
  have hwithin : Within p := ⟨hlow, hhigh⟩
  have hstands := stands_of_image hwithin himage
  have hshared := shared (fits_truncated hsong) hwithin hwithin himage himage
  have hloaded := plays_load hshared hstands (isProgram himage) hload
  obtain ⟨st, spots, -, hshows⟩ := hloaded.playFrames hshared hstands n hplay
  exact hshows.kept address (kept_of_isScratch haddress)

/-- The player and its song are left alone when it plays the highest pitch and more. -/
theorem memory_of_playFrames_overreach : ∃ e j image t₀ counts t',
    encode overreach template { base := some 0x2000 } {} = .ok e j ∧ 0x200 ≤ e.base.toNat ∧
      e.container.program.endAddress ≤ 0xD400 ∧ e.container.program.image = .ok image ∧
      loadProgram e.container.program { limits := {} } = .ok () t₀ ∧
      playFrames e.container.program.play 2 0 0 t₀ = .ok counts t' ∧
      ∀ address, isScratch e.base address = false → t'.memory.read address = image.read address := by
  obtain ⟨e, j, hencode, hbase, hend, -, r, hr, -⟩ := played_of_seen seen_overreach.2
  obtain ⟨t₀, counts, t', hload, hplay, -⟩ := snapshots_record hr
  obtain ⟨image, himage⟩ := image_of_loadProgram hload
  have hlow : 0x200 ≤ e.base.toNat := by
    rw [hbase]
    decide
  have hhigh : e.container.program.endAddress ≤ 0xD400 := by
    rw [hend]
    decide
  exact ⟨e, j, image, t₀, counts, t', hencode, hlow, hhigh, himage, hload, hplay,
    fun address => memory_of_playFrames hencode hlow hhigh himage hload hplay⟩

/-! ## Frames -/

section Frames

variable {score : Score}

/-- **Two players sound the same** in every frame, if the first one stays in the table. -/
theorem sids_moved (hshared : Shared score here there) (hhere : here.Stands) (hthere : there.Stands) : ∀ (n : Nat)
    {s s' t t' : Session} {count longest count' longest' : Nat} {counts counts' : Nat × Nat},
    Together score here there s t → playFrames (.subroutine (here.address 3)) n count longest s = .ok counts s' →
      playFrames (.subroutine (there.address 3)) n count' longest' t = .ok counts' t' →
      (∀ u ∈ frameSessions (.subroutine (here.address 3)) n s, InTable here.base u.memory.read) →
      (frameSessions (.subroutine (here.address 3)) n s).map (·.sid) =
        (frameSessions (.subroutine (there.address 3)) n t).map (·.sid)
  | 0, _, _, _, _, _, _, _, _, _, _, _, _, _, _ => rfl
  | n + 1, _, _, _, _, _, _, _, _, _, _, htogether, h, h', htable => by
    obtain ⟨cycles, s₁, count₁, longest₁, hframe, hrest, hsessions⟩ := playFrames_succ_eq_ok h
    obtain ⟨cycles', t₁, count₁', longest₁', hframe', hrest', hsessions'⟩ := playFrames_succ_eq_ok h'
    rw [hsessions] at htable ⊢
    rw [hsessions']
    obtain ⟨st, tt, ⟨spots, haligned⟩, hs, ht⟩ := together_playFrame hshared hhere hthere htogether hframe hframe'
    -- what is left of the frame is the same, since the voices stayed in the table
    have halike : Alike st tt := haligned.alike fun v _ hv hsounds => lookup_le hs (htable s₁ (by simp)) hv hsounds
    have hpaired : Paired score here there spots st tt := ⟨haligned.here, haligned.there, halike⟩
    have hsid : s₁.sid = t₁.sid := hs.sid.trans (halike.sid.trans ht.sid.symm)
    have hlater := sids_moved hshared hhere hthere n ⟨st, tt, spots, hpaired, hs, ht⟩ hrest hrest' fun u hu =>
      htable u (by simp [hu])
    rw [List.map_cons, List.map_cons, hsid, hlater]

end Frames

/-! ## Recordings -/

/-- **A song sounds the same** from wherever its player stands, as long as no voice leaves the table of frequencies. -/
theorem snapshots_moved {song : Song} {options options' : EncodeOptions} {e e' : Encoded} {j j₁ j' j₁' : Journal}
    {n : Nat} {limits limits' : Limits} {cancelled cancelled' : Bool} {r r' : Recording}
    (h : encode song template options j = .ok e j₁) (h' : encode song template options' j' = .ok e' j₁')
    (hlow : 0x200 ≤ e.base.toNat) (hhigh : e.container.program.endAddress ≤ 0xD400)
    (hlow' : 0x200 ≤ e'.base.toNat) (hhigh' : e'.container.program.endAddress ≤ 0xD400)
    (hrecord : record e.container.program n limits cancelled = .ok r)
    (hrecord' : record e'.container.program n limits' cancelled' = .ok r')
    (htable : ∀ s ∈ recordedSessions e.container.program n limits cancelled, InTable e.base s.memory.read) :
    r.trace.snapshots = r'.trace.snapshots := by
  obtain ⟨hsong, p, hcontainer, hbase⟩ := packed_of_encode h
  obtain ⟨-, p', hcontainer', hbase'⟩ := packed_of_encode h'
  rw [hcontainer] at hhigh hrecord htable
  rw [hcontainer'] at hhigh' hrecord'
  rw [hbase] at hlow htable
  rw [hbase'] at hlow'
  have hwithin : Within p := ⟨hlow, hhigh⟩
  have hwithin' : Within p' := ⟨hlow', hhigh'⟩
  obtain ⟨s, counts, s', hload, hplay, hsnapshots⟩ := snapshots_record hrecord
  obtain ⟨t, counts', t', hload', hplay', hsnapshots'⟩ := snapshots_record hrecord'
  obtain ⟨image, himage⟩ := image_of_loadProgram hload
  obtain ⟨image', himage'⟩ := image_of_loadProgram hload'
  have hshared := shared (fits_truncated hsong) hwithin hwithin' himage himage'
  have hstands := stands_of_image hwithin himage
  have hstands' := stands_of_image hwithin' himage'
  rw [recordedSessions, hload] at htable
  rw [hsnapshots, hsnapshots']
  exact sids_moved hshared hstands hstands' n
    (together_load hshared hstands hstands' (isProgram himage) (isProgram himage') hload hload') hplay hplay' htable

/-- The song sounds the same from two addresses for a frame. -/
theorem snapshots_moved_overreach : ∃ e j e' j' r r',
    encode overreach template { base := some 0x1000 } {} = .ok e j ∧
      encode overreach template { base := some 0x2000 } {} = .ok e' j' ∧
      (0x200 ≤ e.base.toNat ∧ e.container.program.endAddress ≤ 0xD400) ∧
      (0x200 ≤ e'.base.toNat ∧ e'.container.program.endAddress ≤ 0xD400) ∧
      record e.container.program 1 {} false = .ok r ∧ record e'.container.program 1 {} false = .ok r' ∧
      (∀ s ∈ recordedSessions e.container.program 1 {} false, InTable e.base s.memory.read) ∧
      r.trace.snapshots.map (·.values[1]) = [255] ∧ r.trace.snapshots = r'.trace.snapshots := by
  obtain ⟨e, j, hencode, hbase, hend, ⟨r, hr, hsnapshots, htable⟩, -⟩ := played_of_seen seen_overreach.1
  obtain ⟨e', j', hencode', hbase', hend', ⟨r', hr', -⟩, -⟩ := played_of_seen seen_overreach.2
  have hwithin : 0x200 ≤ e.base.toNat ∧ e.container.program.endAddress ≤ 0xD400 := by
    rw [hbase, hend]
    decide
  have hwithin' : 0x200 ≤ e'.base.toNat ∧ e'.container.program.endAddress ≤ 0xD400 := by
    rw [hbase', hend']
    decide
  exact ⟨e, j, e', j', r, r', hencode, hencode', hwithin, hwithin', hr, hr', htable rfl, hsnapshots,
    snapshots_moved hencode hencode' hwithin.1 hwithin.2 hwithin'.1 hwithin'.2 hr hr' (htable rfl)⟩

/-- In the second frame the voice has left the table, and hears where the music is. -/
theorem overreach_moved : ∃ e j e' j' r r',
    encode overreach template { base := some 0x1000 } {} = .ok e j ∧
      encode overreach template { base := some 0x2000 } {} = .ok e' j' ∧
      (0x200 ≤ e.base.toNat ∧ e.container.program.endAddress ≤ 0xD400) ∧
      (0x200 ≤ e'.base.toNat ∧ e'.container.program.endAddress ≤ 0xD400) ∧
      record e.container.program 2 {} false = .ok r ∧ record e'.container.program 2 {} false = .ok r' ∧
      r.trace.snapshots.map (·.values[1]) = [255, 26] ∧ r'.trace.snapshots.map (·.values[1]) = [255, 42] ∧
      r.trace.snapshots ≠ r'.trace.snapshots := by
  obtain ⟨e, j, hencode, hbase, hend, -, r, hr, hsnapshots⟩ := played_of_seen seen_overreach.1
  obtain ⟨e', j', hencode', hbase', hend', -, r', hr', hsnapshots'⟩ := played_of_seen seen_overreach.2
  have hwithin : 0x200 ≤ e.base.toNat ∧ e.container.program.endAddress ≤ 0xD400 := by
    rw [hbase, hend]
    decide
  have hwithin' : 0x200 ≤ e'.base.toNat ∧ e'.container.program.endAddress ≤ 0xD400 := by
    rw [hbase', hend']
    decide
  refine ⟨e, j, e', j', r, r', hencode, hencode', hwithin, hwithin', hr, hr', hsnapshots, hsnapshots', fun heq => ?_⟩
  have hheard := hsnapshots.symm.trans ((congrArg (List.map (·.values[1])) heq).trans hsnapshots')
  exact absurd hheard (by decide)

end Chiptune.Player.Minimal
