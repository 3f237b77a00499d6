/-
What a song must keep within to be put into a player as it is.

When nothing may be cut, the first limit that a song exceeds is what it is
refused for, and a song without faults that keeps within all of them goes in:
nothing else is left to fail (`ends_encode_fail`). For the minimal player the
limits are plain numbers (`Minimal.demands`), and what its music data takes is
two bytes for each entry, event and end.
-/
import Chiptune.Proofs.Player.Refusal
import Mathlib.Algebra.BigOperators.Group.List.Basic

namespace Chiptune.Player

open Song

/-! ## The first limit exceeded -/

/-- Something of a player that a song takes. -/
structure Demand where
  resource : Resource
  required : Nat
  capacity : Nat

/-- The failure for the first demand that exceeds what there is, if one does. -/
def excess? (demands : List Demand) : Option Failure :=
  (demands.find? fun d => d.capacity < d.required).map fun d => .capacityExceeded d.resource d.required d.capacity

theorem excess?_singleton (d : Demand) :
    excess? [d] = if d.capacity < d.required then some (.capacityExceeded d.resource d.required d.capacity)
      else none := by
  rw [excess?, List.find?_singleton]
  split <;> simp_all

theorem excess?_append (earlier later : List Demand) :
    excess? (earlier ++ later) = (excess? earlier).or (excess? later) := by
  rw [excess?, List.find?_append]
  cases h : earlier.find? fun d => d.capacity < d.required <;> simp [excess?, h]

namespace Fit

variable {t : Template} {s : Song}

/-- What a song takes of the resource that a cut limits. -/
def Cut.demand (s : Song) (c : Cut) : Demand := ⟨c.resource, c.required s, c.capacity⟩

theorem excess?_eq_none {cuts : List Cut} :
    excess? (cuts.map (Cut.demand s)) = none ↔ ∀ c ∈ cuts, c.required s ≤ c.capacity := by
  rw [excess?, Option.map_eq_none_iff, List.find?_eq_none, List.forall_mem_map]
  simp only [decide_eq_true_eq, Nat.not_lt]
  rfl

theorem ends_apply_refusing (s : Song) (c : Cut) :
    Job.Ends (apply .fail s c) (fun s' => s' = s ∧ excess? [c.demand s] = none) (excess? [c.demand s] = some ·) := by
  unfold apply
  split
  next hholds =>
    have hle : c.required s ≤ c.capacity := of_decide_eq_true hholds
    exact .pure ⟨rfl, by rw [excess?_singleton]; exact if_neg (Nat.not_lt.mpr hle)⟩
  next hholds =>
    have hlt : c.capacity < c.required s := by simpa [Cut.holds] using hholds
    exact .throw (by rw [excess?_singleton]; exact if_pos hlt)

theorem ends_foldlM_refusing (s : Song) : ∀ cuts : List Cut,
    Job.Ends (cuts.foldlM (apply .fail) s) (fun s' => s' = s ∧ excess? (cuts.map (Cut.demand s)) = none)
      (excess? (cuts.map (Cut.demand s)) = some ·)
  | [] => by
    rw [List.foldlM_nil]
    exact .pure ⟨rfl, rfl⟩
  | c :: cuts => by
    have happend : excess? ((c :: cuts).map (Cut.demand s)) =
        (excess? [c.demand s]).or (excess? (cuts.map (Cut.demand s))) := excess?_append [c.demand s] _
    rw [List.foldlM_cons, happend]
    refine ((ends_apply_refusing s c).mono (fun _ h => h) fun e he => by rw [he]; rfl).bind fun s' ⟨he, hc⟩ => ?_
    rw [he, hc]
    exact ends_foldlM_refusing s cuts

/-- A song that may not be cut is refused for the first limit it exceeds. -/
theorem ends_cut_refusing (t : Template) (s : Song) :
    Job.Ends (cut t .fail s)
      (fun result => result = (s, commandsOf s) ∧ excess? ((limits t).map (Cut.demand s)) = none)
      (excess? ((limits t).map (Cut.demand s)) = some ·) := by
  have hdemands : (limits t).map (Cut.demand s) = (tableCuts t ++ instrumentCuts t).map (Cut.demand s) ++
      ([(commandCut t).demand s] ++
        (sequenceCut t :: (List.range voiceCount).map (orderCut t)).map (Cut.demand s)) := by
    simp [limits]
  rw [hdemands, excess?_append, excess?_append]
  unfold cut
  refine ((ends_foldlM_refusing s _).mono (fun _ h => h) fun e he => by rw [he]; rfl).bind fun s₁ hearlier => ?_
  obtain ⟨rfl, hearlier⟩ := hearlier
  rw [hearlier]
  refine ((ends_apply_refusing s₁ _).mono (fun _ h => h) fun e he => by rw [he]; rfl).bind fun s₂ hcommands => ?_
  obtain ⟨rfl, hcommands⟩ := hcommands
  rw [hcommands]
  refine (ends_foldlM_refusing s₂ _).bind fun s₃ hlater => .pure ?_
  obtain ⟨rfl, hlater⟩ := hlater
  have hone : excess? ([commandCut t].map (Cut.demand s₃)) = none := hcommands
  have hcapacity := excess?_eq_none.mp hone _ (List.mem_singleton_self _)
  rw [hlater, show (commandsOf s₃).take (commandCapacity t) = commandsOf s₃ from List.take_of_length_le hcapacity]
  exact ⟨rfl, rfl⟩

theorem wellFormed_playable (ht : Voiced t) (h : s.WellFormed) : (playable t s).WellFormed := by
  obtain ⟨hconsistent, hplays⟩ := wellFormed_iff_consistent.mp h
  obtain ⟨hplayable, horders, hrows⟩ := keepsRows_playable ht s hconsistent
  refine wellFormed_iff_consistent.mpr ⟨hplayable, fun l hl target hfinish => ?_⟩
  rw [horders] at hl
  obtain ⟨e, he, hrow⟩ := hplays l hl target hfinish
  exact ⟨e, he, by rw [playsNothing_eq, hrows, ← playsNothing_eq, hrow]⟩

/-! ## What the music data takes -/

theorem command?_of_isUnsupported {e : Event} {c : Command} (h : e.command? = some c) :
    isUnsupported t e = !t.supports c.kind := by
  rw [isUnsupported, h]

/-- The commands of what a player plays of a song are those it runs. -/
theorem commandsOf_playable (t : Template) (s : Song) :
    commandsOf (playable t s) = ((s.events.filterMap Event.command?).filter (t.supports ·.kind)).eraseDups := by
  have hevents : (playable t s).events = s.events.filter fun e => !isUnsupported t e := by
    show (s.sequences.map (·.filter fun e => !isUnsupported t e)).flatMap (·.events) = _
    rw [Song.events, List.filter_flatMap, List.flatMap_map]
    rfl
  have hfilter (events : List Event) : (events.filter fun e => !isUnsupported t e).filterMap Event.command? =
      (events.filterMap Event.command?).filter (t.supports ·.kind) := by
    rw [List.filterMap_filter, List.filter_filterMap]
    refine List.filterMap_congr fun e _ => ?_
    cases hc : e.command? with
    | none => simp
    | some c =>
      rw [command?_of_isUnsupported hc, Option.filter_some]
      cases t.supports c.kind <;> rfl
  rw [commandsOf, hevents, hfilter]

end Fit

namespace Music

theorem length_encodeOrderList (l : OrderList) : (encodeOrderList l).length = 2 * (l.entries.length + 1) := by
  have hentries : (l.entries.flatMap fun e => [transposeBias + e.transpose.toUInt8, e.sequence]).length =
      2 * l.entries.length := by
    rw [List.length_flatMap]
    simp [Nat.mul_comm]
  rw [encodeOrderList, List.length_append, hentries]
  cases l.finish <;> simp only [List.length_cons, List.length_nil] <;> omega

/-- Every event whose command is numbered takes a pair of bytes. -/
theorem length_encodeEvents {commands : List Command} : ∀ {events : List Event},
    (∀ c, .setCommand c ∈ events → c ∈ commands) → (events.flatMap (encodeEvent commands)).length = 2 * events.length
  | [], _ => rfl
  | e :: events, h => by
    have hrest := length_encodeEvents fun c hc => h c (List.mem_cons_of_mem e hc)
    have hevent : (encodeEvent commands e).length = 2 := by
      cases e with
      | setCommand c =>
        obtain ⟨i, hi⟩ : ∃ i, commands.idxOf? c = some i := by
          rw [← Option.isSome_iff_exists, List.isSome_idxOf?]
          exact h c (by simp)
        rw [encodeEvent, hi]
        rfl
      | _ => rfl
    rw [List.flatMap_cons, List.length_append, hevent, hrest, List.length_cons]
    omega

theorem length_encodeSequence {commands : List Command} {q : Sequence}
    (h : ∀ c, .setCommand c ∈ q.events → c ∈ commands) :
    (encodeSequence commands q).length = 2 * (q.events.length + 1) := by
  rw [encodeSequence, List.length_append, length_encodeEvents h]
  simp only [List.length_cons, List.length_nil]
  omega

end Music

namespace Encode

variable {t : Template} {s : Song}

/-- Bytes of the order lists and sequences of a song in a player that leaves out what it does not run. -/
def musicSize (t : Template) (s : Song) : Nat :=
  (s.orderLists.map fun l => 2 * (l.entries.length + 1)).sum +
    (s.sequences.map fun q => 2 * (q.events.countP (!Fit.isUnsupported t ·) + 1)).sum

theorem length_music (t : Template) (s : Song) :
    (MusicData.of (Fit.playable t s) (Fit.commandsOf (Fit.playable t s))).bytes.length = musicSize t s := by
  have hsequence : ∀ q ∈ s.sequences,
      (Music.encodeSequence (Fit.commandsOf (Fit.playable t s)) (q.filter fun e => !Fit.isUnsupported t e)).length =
        2 * (q.events.countP (!Fit.isUnsupported t ·) + 1) := by
    intro q hq
    rw [Music.length_encodeSequence, Sequence.filter, List.countP_eq_length_filter]
    intro c hc
    exact Fit.mem_commandsOf (List.mem_map_of_mem hq) hc
  have horders : (Fit.playable t s).orderLists = s.orderLists := rfl
  have hsequences : (Fit.playable t s).sequences = s.sequences.map (·.filter fun e => !Fit.isUnsupported t e) := rfl
  rw [MusicData.bytes, MusicData.of, List.length_append, List.length_flatten, List.length_flatten, horders, hsequences,
    List.map_map, List.map_map, List.map_map, musicSize]
  congr 1
  · simp only [Function.comp_def, Music.length_encodeOrderList]
  · exact congrArg List.sum (List.map_congr_left hsequence)

/-! ## Refusals -/

/-- What a song takes of a player at the player's own base, in the order in which it is looked at. -/
def demands (t : Template) (s : Song) : List Demand :=
  (Fit.limits t).map (Fit.Cut.demand (Fit.playable t s)) ++
    [⟨.musicData, musicSize t s, (Layout.placed t t.base).musicCapacity⟩]

/-- Why a song is not put into a player at the player's own base as it is, if it is not. -/
def refusal? (t : Template) (s : Song) : Option Failure :=
  if s.faults = [] then excess? (demands t s) else some (.malformedSong s.faults)

theorem ends_build_refusing (ht : t.Accepting) (s : Song) :
    Job.Ends (build s t {}) (fun built => refusal? t s = none ∧ ∃ bytes, built.1.toBytes = .ok bytes)
      (refusal? t s = some ·) := by
  by_cases hwell : s.WellFormed
  · have hrefusal : refusal? t s = excess? (demands t s) := if_pos hwell
    rw [hrefusal, demands, excess?_append, excess?_singleton]
    refine (ends_build_accepting ht hwell ((Fit.ends_cut_refusing t _).mono (fun _ h => h) fun e he => by rw [he]; rfl)
      ?faults ?music).mono ?built fun _ h => h
    case faults =>
      rintro _ _ ⟨he, -⟩ hfaulty
      cases he
      exact absurd (Fit.wellFormed_playable ht.voiced hwell) hfaulty
    case music =>
      rintro _ _ ⟨he, hfits⟩ - hlength
      cases he
      rw [length_music] at hlength ⊢
      rw [hfits, Option.none_or, if_pos hlength]
    case built =>
      rintro built ⟨_, _, ⟨he, hfits⟩, -, hlength, hbytes⟩
      cases he
      rw [length_music] at hlength
      rw [hfits, Option.none_or, if_neg (Nat.not_lt.mpr hlength)]
      exact ⟨rfl, hbytes⟩
  · refine (ends_build_faulty hwell {}).mono (fun _ => False.elim) fun _ he => ?_
    rw [he]
    exact if_neg hwell

end Encode

/-- **A song goes into a player as it is**, or is refused for its faults or for the first limit that it exceeds. -/
theorem ends_encode_fail {t : Template} (ht : t.Accepting) (s : Song) :
    Job.Ends (encode s t {}) (fun _ => Encode.refusal? t s = none) (Encode.refusal? t s = some ·) :=
  ends_encode_of (Encode.ends_build_refusing ht s)

/-! ## The minimal player -/

namespace Minimal

/-- The commands of a song that the player runs, each of them once. -/
def commandsRun (s : Song) : List Command :=
  ((s.events.filterMap Event.command?).filter (template.supports ·.kind)).eraseDups

/-- What a song takes of the player at its own base, in the order in which it is looked at. -/
def demands (s : Song) : List Demand :=
  [⟨.table .wave, s.tableLength .wave, 128⟩, ⟨.table .pulse, s.tableLength .pulse, 128⟩,
    ⟨.table .filter, s.tableLength .filter, 128⟩, ⟨.instruments, s.instruments.length, 32⟩,
    ⟨.commands, (commandsRun s).length, 32⟩, ⟨.sequences, s.sequences.length, 128⟩] ++
  ((List.range voiceCount).map fun voice =>
    ⟨.orderList voice, ((s.orderLists[voice]?).map (·.entries.length)).getD 0, 127⟩) ++
  [⟨.musicData, Encode.musicSize template s, 0xD400 - template.musicAt base⟩]

theorem musicAt_base : template.musicAt base = 6832 := by
  rw [musicAt_template]
  decide

theorem demands_eq (s : Song) : Encode.demands template s = demands s := by
  have hlength (kind : TableKind) (hkind : kind ≠ .arpeggio) :
      (Fit.playable template s).tableLength kind = s.tableLength kind :=
    Fit.tableLength_dropTables template_accepting.voiced (Fit.dropCommands template s) hkind
  have hcommands : (Fit.commandsOf (Fit.playable template s)).length = (commandsRun s).length :=
    congrArg List.length (Fit.commandsOf_playable template s)
  have htables :
      (Fit.tableCuts template ++ Fit.instrumentCuts template).map (Fit.Cut.demand (Fit.playable template s)) =
        [⟨.table .wave, s.tableLength .wave, 128⟩, ⟨.table .pulse, s.tableLength .pulse, 128⟩,
          ⟨.table .filter, s.tableLength .filter, 128⟩, ⟨.instruments, s.instruments.length, 32⟩] := by
    rw [← hlength .wave (by decide), ← hlength .pulse (by decide), ← hlength .filter (by decide)]
    rfl
  have hcommand :
      (Fit.commandCut template).demand (Fit.playable template s) = ⟨.commands, (commandsRun s).length, 32⟩ :=
    congrArg (fun required => (⟨.commands, required, 32⟩ : Demand)) hcommands
  have hsequence :
      (Fit.sequenceCut template).demand (Fit.playable template s) = ⟨.sequences, s.sequences.length, 128⟩ :=
    congrArg (fun required => (⟨.sequences, required, 128⟩ : Demand)) (List.length_map _)
  have horder (voice : Nat) : (Fit.orderCut template voice).demand (Fit.playable template s) =
      ⟨.orderList voice, ((s.orderLists[voice]?).map (·.entries.length)).getD 0, 127⟩ := by
    have horders : (Fit.playable template s).orderLists = s.orderLists := rfl
    simp only [Fit.orderCut, Fit.Cut.demand, horders]
    cases s.orderLists[voice]? <;> rfl
  have hmusic : (Layout.placed template template.base).musicCapacity = 0xD400 - template.musicAt base := by
    have hat : (Layout.placed template base).music.toNat = template.musicAt base := by
      show (UInt16.ofNat (template.musicAt base)).toNat = _
      rw [musicAt_base]
      rfl
    have hlimit : (Layout.placed template template.base).limit = 0xD400 := rfl
    rw [Layout.musicCapacity, hlimit]
    exact congrArg (0xD400 - ·) hat
  rw [Encode.demands, Fit.limits, List.map_append, htables, List.map_cons, List.map_cons, hcommand, hsequence,
    List.map_map, hmusic]
  simp only [Function.comp_def, horder, demands, List.cons_append, List.nil_append]

/-- Why the player does not take a song as it is, if it does not. -/
def refusal? (s : Song) : Option Failure :=
  if s.faults = [] then excess? (demands s) else some (.malformedSong s.faults)

/-- **A song goes into the minimal player** at its own base exactly when it has no faults and keeps within every
limit, and otherwise is refused for its faults or for the first limit that it exceeds. -/
theorem encode_default (s : Song) (j : Journal) :
    match refusal? s with
    | none => ∃ e j', encode s template {} j = .ok e j'
    | some failure => ∃ j', encode s template {} j = .error failure j' := by
  have h := ends_encode_fail template_accepting s j
  rw [Encode.refusal?, demands_eq, ← refusal?] at h
  cases hencode : encode s template {} j with
  | ok e j' =>
    rw [hencode] at h
    rw [show refusal? s = none from h]
    exact ⟨e, j', rfl⟩
  | error failure j' =>
    rw [hencode] at h
    rw [show refusal? s = some failure from h]
    exact ⟨j', rfl⟩

end Minimal

end Chiptune.Player
