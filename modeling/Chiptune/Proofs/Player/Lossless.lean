/-
**A song that is encoded without loss is decoded again.**

The slots of a filled player read back, and each of its pointers points to an
order list or a sequence that reads back. The rest is that the header reads
back and that an encoding's journal lists nothing that is heard.
-/
import Chiptune.Proofs.Player.Music
import Chiptune.Proofs.Player.Slots

namespace Chiptune.Player

open File Song

namespace Encode.Filled

variable {t : Template} {s : Song} {commands : List Command} (f : Filled t s commands)

/-! ## Sequences and order lists -/

theorem length_encodeSequence_pos (commands : List Command) (q : Sequence) :
    0 < (Music.encodeSequence commands q).length := by
  simp [Music.encodeSequence]

theorem length_encodeOrderList_pos (l : OrderList) : 0 < (Music.encodeOrderList l).length := by
  unfold Music.encodeOrderList
  split <;> simp

include f in
theorem length_commands_le : commands.length ≤ 256 := by
  have hle := f.few
  unfold Fit.commandCapacity at hle
  split at hle
  next spec _ =>
    have := spec.capacity.toNat_lt
    omega
  · omega

theorem sequence_eq_ok {index : Nat} {q : Sequence} (hq : s.sequences[index]? = some q) :
    Decode.sequence f.written commands index = .ok q.static := by
  obtain ⟨-, -, -, hpointers, hmusic⟩ := f.holds
  have hend := f.musicAt_add_le
  rw [MusicData.bytes, List.length_append, ← Nat.add_assoc] at hend
  have hlength : f.music.sequences.length ≤ t.maxSequences.toNat := by
    rw [Filled.music, MusicData.of, List.length_map]
    exact f.fits.sequences_le
  have hpositive : ∀ b ∈ f.music.sequences, 0 < b.length := by
    intro b hb
    obtain ⟨q, -, rfl⟩ := List.mem_map.mp hb
    exact length_encodeSequence_pos _ q
  have hblock : f.music.sequences[index]? = some (Music.encodeSequence commands q) := by
    rw [Filled.music, MusicData.of, List.getElem?_map, hq]
    rfl
  obtain ⟨p, rest, hp, hrest⟩ := memoryFrom?_of_pointer hpointers hmusic.right
    (Nat.le_of_lt f.musicAt_lt) hend hlength hpositive hblock
  have hp : Decode.pointer f.written f.written.music.sequenceLo f.written.music.sequenceHi index = .ok p := hp
  have hsequence := Music.decodeSequence_encodeSequence f.length_commands_le (f.known q (List.mem_of_getElem? hq)) rest
  refine bind_eq_ok.mpr ⟨p, hp, bind_eq_ok.mpr ⟨_, ?_, hsequence⟩⟩
  rw [Decode.memoryFrom, hrest]

theorem orderList_eq_ok {voice : Nat} {l : OrderList} (hl : s.orderLists[voice]? = some l) :
    Decode.orderList f.written voice = .ok l := by
  obtain ⟨-, -, hpointers, -, hmusic⟩ := f.holds
  have hend := f.musicAt_add_le
  rw [MusicData.bytes, List.length_append] at hend
  have htop : t.ordersAt f.base + voiceCount + voiceCount ≤ Machine.addressSpace := by
    have := f.musicAt_lt
    rw [Template.musicAt, Template.sequencesAt] at this
    omega
  have hlength : f.music.orders.length ≤ voiceCount := by
    rw [Filled.music, MusicData.of, List.length_map]
    exact Nat.le_of_eq f.wellFormed.orderLists_length
  have hpositive : ∀ b ∈ f.music.orders, 0 < b.length := by
    intro b hb
    obtain ⟨l, -, rfl⟩ := List.mem_map.mp hb
    exact length_encodeOrderList_pos l
  have hblock : f.music.orders[voice]? = some (Music.encodeOrderList l) := by
    rw [Filled.music, MusicData.of, List.getElem?_map, hl]
    rfl
  obtain ⟨p, rest, hp, hrest⟩ := memoryFrom?_of_pointer hpointers hmusic.left htop
    (by omega) hlength hpositive hblock
  have hp : Decode.pointer f.written f.written.music.orderLo f.written.music.orderHi voice = .ok p := hp
  have horders := Music.decodeOrderList_encodeOrderList l.entries l.finish
    (fun e he => f.wellFormed.transpose_le (List.mem_of_getElem? hl) he) rest
  refine bind_eq_ok.mpr ⟨p, hp, bind_eq_ok.mpr ⟨_, ?_, horders⟩⟩
  rw [Decode.memoryFrom, hrest]

/-! ## Songs -/

theorem byte?_tempo : f.written.byte? f.written.music.tempo = some s.tempo := by
  obtain ⟨-, htempo, -⟩ := f.holds
  have htop : t.tempoAt f.base < Machine.addressSpace := by
    have := f.musicAt_lt
    rw [Template.musicAt, Template.sequencesAt, Template.ordersAt] at this
    omega
  obtain ⟨rest, hrest⟩ := htempo.memoryFrom? htop
  have hrest : f.written.memoryFrom? f.written.music.tempo = some ([s.tempo] ++ rest) := hrest
  rw [Container.byte?, hrest]
  rfl

/-- **The song of a filled player** is read from its container. -/
theorem decode_written (ht : t.Schematic) : decode f.written = .ok s.normal := by
  obtain ⟨found, hfound, hinstruments, hcommands, htables⟩ := f.foldlM_tables ht
  have hcount : f.written.music.sequenceCount.toNat = (s.sequences.map Sequence.static).length := by
    have hle := f.fits.sequences_le
    have := t.maxSequences.toNat_lt
    rw [List.length_map]
    show (UInt8.ofNat s.sequences.length).toNat = _
    rw [UInt8.toNat_ofNat']
    omega
  have hsequences : (List.range f.written.music.sequenceCount.toNat).mapM
      (Decode.sequence f.written found.commands) = .ok (s.sequences.map Sequence.static) := by
    rw [hcount, hcommands]
    refine mapM_range_eq_ok fun index q hq => ?_
    rw [List.getElem?_map, Option.map_eq_some_iff] at hq
    obtain ⟨q, hq, rfl⟩ := hq
    exact f.sequence_eq_ok hq
  have horders : (List.range voiceCount).mapM (Decode.orderList f.written) = .ok s.orderLists := by
    rw [← f.wellFormed.orderLists_length]
    exact mapM_range_eq_ok fun voice l hl => f.orderList_eq_ok hl
  have hvoices : f.written.music.voices.toNat = voiceCount := rfl
  unfold decode
  simp only [hvoices, ne_eq, not_true, if_false, f.byte?_tempo]
  refine bind_eq_ok.mpr ⟨found, hfound, bind_eq_ok.mpr ⟨_, hsequences, bind_eq_ok.mpr ⟨_, horders, ?_⟩⟩⟩
  rw [hinstruments, htables]
  rfl

end Encode.Filled

/-! ## Encoding -/

theorem build_of_encode {s : Song} {t : Template} {options : EncodeOptions} {j j' : Journal} {e : Encoded}
    (h : encode s t options j = .ok e j') (hloss : e.isLossy = false) :
    ∃ f : Encode.Filled t s (Fit.commandsOf s), f.container.toBytes = .ok e.bytes := by
  obtain ⟨⟨j₁, hbuild⟩, hbytes⟩ := collecting_of_encode h
  obtain ⟨f, hf⟩ := (Encode.lossless_build s t options).collecting hbuild hloss
  exact ⟨f, hf ▸ hbytes⟩

/-- **Encoding without loss can be undone.** What a song without faults becomes in a player of
any template that keeps to the schema, when nothing of it is lost, is a file that is read, and the
song in it is the one that was encoded, but for what no file keeps. -/
theorem decode_encode {s : Song} {t : Template} {options : EncodeOptions} {j j' : Journal} {e : Encoded}
    (ht : t.Schematic) (h : encode s t options j = .ok e j') (hloss : e.isLossy = false) :
    ∃ c, Container.parse e.bytes = .ok c ∧ decode c = .ok s.normal := by
  obtain ⟨f, hbytes⟩ := build_of_encode h hloss
  have hextra : ∀ b ∈ f.container.extraBlocks, b.id ≠ Container.endId ∧ ∀ name, b.id ≠ Container.blockId name := by
    intro b hb
    cases hb
  exact ⟨f.written, Container.parse_toBytes hextra f.length_image_le hbytes, f.decode_written ht⟩

/-- A song whose tables are out of order, one of them without rows, and whose title is no ASCII. -/
def tour : Song where
  title := "Grüße"
  tempo := 6
  instruments := [{ attackDecay := 0x09, sustainRelease := 0xF0, wave := 0, pulse := some 1 }]
  tables :=
    [⟨.pulse, [.step [0x08, 0x00, 0x01], .step [0x04, 0x00, 0x02], .loop 0], .dynamic⟩,
      ⟨.filter, [], .static⟩,
      ⟨.wave, [.step [0x41, 0x00], .step [0x41, 0x0C], .stop], .static⟩]
  sequences :=
    [{ events := [.setInstrument 0, .noteOn 40, .rest 3, .setCommand ⟨.setTempo, 5, 0⟩, .noteOff] }]
  orderLists := [{ entries := [⟨12, 0⟩, ⟨-5, 0⟩], finish := .loop 1 }, {}, {}]

/-- A player that returns at once, with its slots in an order of its own. -/
def mute : Template where
  name := "mute"
  driverType := 2
  major := 0
  minor := 1
  base := 0x1000
  code := [0xAD, 0x00, 0x10, 0x60]
  variableBytes := 1
  entry := { init := 3, play := 0, stop := 3 }
  tables :=
    [⟨.pulse, 3, 8, "pulse"⟩, ⟨.instruments, 6, 4, "instruments"⟩, ⟨.wave, 2, 8, "wave"⟩,
      ⟨.commands, 3, 4, "commands"⟩]
  maxSequences := 4
  maxOrderEntries := 4
  supportedCommands := [.setTempo]
  acceptedFamilies := []
  relocations := [⟨1, .code, 0⟩]
  statePointers := [⟨"tempo", .songSettings, 0⟩]

theorem mute_schematic : mute.Schematic where
  distinct := by decide
  columns := by decide
  instruments := by decide
  commands := by decide

theorem encode_tour :
    (match encode tour mute { base := some 0x2000 } {} with
      | .ok e _ => !e.isLossy
      | .error .. => false) = true := by
  simp only [encode, Encode.build, Fit.drop, Fit.droppedCommands, Fit.kindsByName_eq]
  decide +kernel

theorem decode_encode_tour :
    ∃ e j, encode tour mute { base := some 0x2000 } {} = .ok e j ∧ e.isLossy = false ∧
      ∃ c, Container.parse e.bytes = .ok c ∧ decode c = .ok tour.normal := by
  have h := encode_tour
  split at h
  next e j hencode =>
    have hloss : e.isLossy = false := by simpa using h
    exact ⟨e, j, hencode, hloss, decode_encode mute_schematic hencode hloss⟩
  · cases h

end Chiptune.Player
