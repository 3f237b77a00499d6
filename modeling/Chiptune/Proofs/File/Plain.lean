/-
Containers that a file can hold as they are.

A file loses three things: characters of its texts that are not ASCII, what a
title has past its 32 characters, and a block of unknown id that has the id of
a known one. A container without any of them is what its own file is read as.
-/
import Chiptune.Proofs.File.Container

namespace Chiptune.File

/-! ## Texts -/

namespace Text

/-- Every character is ASCII and none is the zero that ends a text. -/
def Plain (text : String) : Prop := ∀ c ∈ text.toList, c.toNat < 128 ∧ c ≠ '\x00'

instance (text : String) : Decidable (Plain text) :=
  List.decidableBAll (fun c : Char => c.toNat < 128 ∧ c ≠ '\x00') text.toList

theorem Plain.map_readBack {text : String} (h : Plain text) : text.toList.map readBack = text.toList := by
  conv => rhs; rw [← List.map_id text.toList]
  exact List.map_congr_left fun c hc => if_pos (h c hc)

theorem Plain.clean_eq {text : String} (h : Plain text) : clean text = text := by
  rw [clean, h.map_readBack, String.ofList_toList]

theorem Plain.clipped_eq {text : String} (h : Plain text) {length : Nat} (hlength : text.length ≤ length) :
    clipped length text = text := by
  rw [clipped, List.take_of_length_le (by rwa [String.length_toList]), h.map_readBack, String.ofList_toList]

end Text

/-- A text that the song info holds as it is. -/
def SongInfo.Holds (text : String) : Prop := Text.Plain text ∧ text.length ≤ Container.infoLength

instance (text : String) : Decidable (SongInfo.Holds text) :=
  inferInstanceAs (Decidable (Text.Plain text ∧ text.length ≤ Container.infoLength))

namespace Container

/-- A file holds every text of the container as it is. -/
structure Plain (c : Container) : Prop where
  name : Text.Plain c.descriptor.name
  states : ∀ s ∈ c.common.state, Text.Plain s.name
  tables : ∀ t ∈ c.tables, Text.Plain t.name
  title : SongInfo.Holds c.info.title
  author : SongInfo.Holds c.info.author
  released : SongInfo.Holds c.info.released

theorem Plain.written_eq {c : Container} (h : c.Plain) : c.written = c := by
  obtain ⟨loadAddress, descriptor, ⟨init, stop, play, state⟩, tables, music, info, extraBlocks, image⟩ := c
  have hstate : state.map StateAddress.written = state := by
    conv => rhs; rw [← List.map_id state]
    refine List.map_congr_left fun s hs => ?_
    rw [StateAddress.written, (h.states s hs).clean_eq]
    rfl
  have htables : tables.map TableDescriptor.written = tables := by
    conv => rhs; rw [← List.map_id tables]
    refine List.map_congr_left fun t ht => ?_
    rw [TableDescriptor.written, (h.tables t ht).clean_eq]
    rfl
  simp only [written, Descriptor.written, DriverCommon.written, SongInfo.written, hstate, htables,
    h.name.clean_eq, h.title.1.clipped_eq h.title.2, h.author.1.clipped_eq h.author.2,
    h.released.1.clipped_eq h.released.2]

/-! ## Reading what was written -/

/-- The ids that mean something in a header: those of the known blocks and of its end. -/
def reservedIds : List UInt8 := [0x01, 0x02, 0x03, 0x05, 0x06, 0xFF]

theorem ne_of_not_reserved {id : UInt8} (h : id ∉ reservedIds) : id ≠ endId ∧ ∀ name, id ≠ blockId name := by
  refine ⟨fun he => h (by rw [he]; decide), fun name hname => h ?_⟩
  rw [hname]
  cases name <;> decide

theorem detect_toBytes {c : Container} {bytes : Bytes} (h : c.toBytes = .ok bytes) : detect bytes = true := by
  obtain ⟨-, rfl⟩ := toBytes_eq_ok h
  -- Two bytes of load address, two of the magic word, and at least the mark at the end of the header.
  simp only [detect, Word.toBytes, List.length_append, List.length_cons, List.length_nil, magic, Bool.and_eq_true,
    decide_eq_true_eq]
  exact ⟨by omega, rfl⟩

/-- **Parsing undoes serialising.** The bytes of a container that a file can hold are detected as a container's,
and they are read as the one that was written. -/
theorem parse_toBytes_of_plain {c : Container} {bytes : Bytes} (hplain : c.Plain)
    (hextra : ∀ b ∈ c.extraBlocks, b.id ∉ reservedIds)
    (himage : c.loadAddress.toNat + c.image.length ≤ Machine.addressSpace) (h : c.toBytes = .ok bytes) :
    detect bytes = true ∧ parse bytes = .ok c := by
  have hparse := parse_toBytes (fun b hb => ne_of_not_reserved (hextra b hb)) himage h
  rw [hplain.written_eq] at hparse
  exact ⟨detect_toBytes h, hparse⟩

/-- A container whose image looks like more blocks and ends with the address space. -/
def lookalike : Container where
  loadAddress := 0xFFF8
  descriptor := { driverType := 1, codeSize := 2, name := "twin", major := 1, minor := 0 }
  common := { init := 0xFFF8, stop := 0xFFF9, play := 0xFFFA, state := [⟨"tempo", 0xFFFB⟩, ⟨"", 0⟩] }
  tables := [⟨1, 0, 0, 0xFFF8, 2, 1, 1, "wave"⟩, ⟨9, 1, 0, 0, 0, 0, 0, ""⟩]
  music := ⟨3, 0xFFF8, 0xFFFB, 0, 0, 0, 0xFFFE⟩
  info := { title := "A title of 32 characters in all!", author := "?", released := "" }
  extraBlocks := [⟨0x04, [0xFF, 0x01, 0x02]⟩, ⟨0x00, []⟩]
  image := [0xFF, 0x01, 0x02, 0x41, 0x42, 0xFF, 0x37, 0x13]

theorem parse_toBytes_lookalike : lookalike.Plain ∧ (∀ b ∈ lookalike.extraBlocks, b.id ∉ reservedIds) ∧
    lookalike.loadAddress.toNat + lookalike.image.length ≤ Machine.addressSpace ∧
      ∃ bytes, lookalike.toBytes = .ok bytes ∧ detect bytes = true ∧ parse bytes = .ok lookalike := by
  have hplain : lookalike.Plain := by constructor <;> decide
  have hextra : ∀ b ∈ lookalike.extraBlocks, b.id ∉ reservedIds := by decide
  have himage : lookalike.loadAddress.toNat + lookalike.image.length ≤ Machine.addressSpace := by decide
  have hlength : ∀ b ∈ lookalike.blocks, b.payload.length ≤ 255 := by decide
  obtain ⟨bytes, hbytes⟩ := exists_toBytes hlength
  exact ⟨hplain, hextra, himage, bytes, hbytes, parse_toBytes_of_plain hplain hextra himage hbytes⟩

end Container

end Chiptune.File
