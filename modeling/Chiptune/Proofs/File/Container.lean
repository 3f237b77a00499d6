/-
A written container reads back.

Every block of the header is a field of known length, so the header is read up
to its end mark and no further, whatever the image holds. What comes back is
the container itself but for its texts, in which a file has no way to write
every character (`Container.written`).
-/
import Chiptune.File.Container
import Chiptune.Proofs.File.Reading
import Chiptune.Proofs.Outcome
import Mathlib.Algebra.GroupWithZero.Nat

namespace Chiptune.File

/-! ## Texts of a file -/

/-- A descriptor as it reads back. -/
def Descriptor.written (d : Descriptor) : Descriptor := { d with name := Text.clean d.name }

/-- A named address as it reads back. -/
def StateAddress.written (s : StateAddress) : StateAddress := { s with name := Text.clean s.name }

/-- The entry points as they read back. -/
def DriverCommon.written (c : DriverCommon) : DriverCommon :=
  { c with state := c.state.map StateAddress.written }

/-- A table's descriptor as it reads back. -/
def TableDescriptor.written (t : TableDescriptor) : TableDescriptor :=
  { t with name := Text.clean t.name }

/-- The song info as it reads back. -/
def SongInfo.written (i : SongInfo) : SongInfo where
  title := Text.clipped Container.infoLength i.title
  author := Text.clipped Container.infoLength i.author
  released := Text.clipped Container.infoLength i.released

/-- A container as it reads back. -/
def Container.written (c : Container) : Container :=
  { c with
    descriptor := c.descriptor.written
    common := c.common.written
    tables := c.tables.map TableDescriptor.written
    info := c.info.written }

/-- The bytes of a block that has a length byte. -/
def Block.bytes (b : Block) : Bytes := b.id :: UInt8.ofNat b.payload.length :: b.payload

/-! ## Lengths of blocks -/

theorem Text.length_cstring (text : List Char) : (cstring text).length = text.length + 1 := by
  rw [cstring, List.length_append, List.length_map]
  rfl

theorem length_word (v : UInt16) : (Word.toBytes v).length = 2 := rfl

theorem Descriptor.length_toBytes (d : Descriptor) : d.toBytes.length = d.name.length + 6 := by
  simp only [toBytes, List.cons_append, List.length_cons, List.length_append, length_word, Text.length_cstring,
    String.length_toList, List.length_nil]
  omega

theorem DriverCommon.length_toBytes (c : DriverCommon) :
    c.toBytes.length = (c.state.map fun s => s.name.length + 3).sum + 6 := by
  have hstate (s : StateAddress) :
      (Text.cstring s.name.toList ++ Word.toBytes s.address).length = s.name.length + 3 := by
    rw [List.length_append, Text.length_cstring, String.length_toList, length_word]
  simp only [toBytes, List.length_append, List.length_flatMap, List.map_cons, List.map_nil, List.sum_cons, List.sum_nil,
    length_word, hstate]
  omega

theorem TableDescriptor.length_toBytes (t : TableDescriptor) : t.toBytes.length = t.name.length + 9 := by
  simp only [toBytes, List.length_append, List.length_cons, List.length_nil, length_word, Text.length_cstring,
    String.length_toList]
  omega

theorem SongInfo.length_toBytes_le (i : SongInfo) : i.toBytes.length ≤ 255 := by
  have htext (text : String) : (Text.cstring (text.toList.take Container.infoLength)).length ≤ 33 := by
    rw [Text.length_cstring, List.length_take]
    have : Container.infoLength = 32 := rfl
    omega
  simp only [toBytes, List.flatMap_cons, List.flatMap_nil, List.append_nil, List.length_append]
  have := htext i.title
  have := htext i.author
  have := htext i.released
  omega

namespace Container

open Reader

/-! ## Blocks -/

theorem reads_descriptor (d : Descriptor) : Reads readDescriptor d.toBytes d.written := by
  have hbytes : d.toBytes = [d.driverType] ++ (Word.toBytes d.codeSize ++
      (Text.cstring d.name.toList ++ ([d.major] ++ ([d.minor] ++ [])))) := by
    simp [Descriptor.toBytes]
  rw [hbytes]
  exact (Reads.byte _).bind ((Reads.word _).bind ((Reads.cstring _).bind
    ((Reads.byte _).bind ((Reads.byte _).bind (Reads.pure _)))))

theorem reads_state (s : StateAddress) :
    Reads readState (Text.cstring s.name.toList ++ Word.toBytes s.address) s.written := by
  rw [← List.append_nil (Word.toBytes s.address)]
  exact (Reads.cstring _).bind ((Reads.word _).bind (Reads.pure _))

theorem reads_table (t : TableDescriptor) : Reads readTable t.toBytes t.written := by
  have hbytes : t.toBytes = [t.kind] ++ ([t.id] ++ ([t.layout] ++ (Word.toBytes t.address ++
      ([t.columns] ++ ([t.capacity] ++ ([t.used] ++ (Text.cstring t.name.toList ++ []))))))) := by
    simp [TableDescriptor.toBytes]
  rw [hbytes]
  exact (Reads.byte _).bind ((Reads.byte _).bind ((Reads.byte _).bind ((Reads.word _).bind
    ((Reads.byte _).bind ((Reads.byte _).bind ((Reads.byte _).bind ((Reads.cstring _).bind
      (Reads.pure _))))))))

theorem reads_music (m : MusicPointers) : Reads readMusic m.toBytes m := by
  have hbytes : m.toBytes = [m.voices] ++ (Word.toBytes m.orderLo ++ (Word.toBytes m.orderHi ++
      (Word.toBytes m.sequenceLo ++ (Word.toBytes m.sequenceHi ++ ([m.sequenceCount] ++
        (Word.toBytes m.tempo ++ [])))))) := by
    simp [MusicPointers.toBytes]
  rw [hbytes]
  exact (Reads.byte _).bind ((Reads.word _).bind ((Reads.word _).bind ((Reads.word _).bind
    ((Reads.word _).bind ((Reads.byte _).bind ((Reads.word _).bind (Reads.pure _)))))))

theorem reads_info (i : SongInfo) : Reads readInfo i.toBytes i.written := by
  have hbytes : i.toBytes = Text.cstring (i.title.toList.take infoLength) ++
      (Text.cstring (i.author.toList.take infoLength) ++
        (Text.cstring (i.released.toList.take infoLength) ++ [])) := by
    simp [SongInfo.toBytes]
  rw [hbytes]
  exact (Reads.cstring _).bind ((Reads.cstring _).bind ((Reads.cstring _).bind (Reads.pure _)))

theorem reads_block {b : Block} (hid : b.id ≠ endId) (hlength : b.payload.length ≤ 255) :
    Reads readBlock b.bytes b := by
  have hsize : (UInt8.ofNat b.payload.length).toNat = b.payload.length := by
    rw [UInt8.toNat_ofNat']
    omega
  have hbytes : b.bytes =
      [b.id] ++ ([UInt8.ofNat b.payload.length] ++ (b.payload ++ [])) := by
    simp [Block.bytes]
  rw [hbytes]
  refine (Reads.byte _).bind ?_
  rw [if_neg hid]
  refine (Reads.byte _).bind ?_
  rw [hsize]
  exact (Reads.take _).bind (Reads.pure _)

/-- The header is over at its end mark. -/
theorem readBlock_end (image : Bytes) : readBlock (endId :: image) = none := rfl

theorem read_common (c : DriverCommon) : readCommon c.toBytes = some (c.written, []) := by
  have hmany := Reads.many _ _ c.state (fun s _ => reads_state s)
    (fun s _ => by simp [Text.cstring]) (show readState [] = none from rfl)
  have hbytes : c.toBytes = Word.toBytes c.init ++ (Word.toBytes c.stop ++ (Word.toBytes c.play ++
      ((c.state.flatMap fun s => Text.cstring s.name.toList ++ Word.toBytes s.address) ++ []))) := by
    simp [DriverCommon.toBytes]
  rw [hbytes]
  unfold readCommon
  rw [(Reads.word _).run_bind, (Reads.word _).run_bind, (Reads.word _).run_bind]
  rw [bind_eq_of_eq_some hmany]
  rfl

theorem read_tables (tables : List TableDescriptor) :
    Reader.many readTable (tables.flatMap TableDescriptor.toBytes) =
      some (tables.map TableDescriptor.written, []) := by
  have h := Reads.many _ _ tables (fun t _ => reads_table t)
    (fun t _ => by simp [TableDescriptor.toBytes]) (show readTable [] = none from rfl)
  rwa [List.append_nil] at h

/-! ## The header -/

theorem blockBytes_eq_ok {b : Block} {bytes : Bytes} :
    blockBytes b = .ok bytes ↔ b.payload.length ≤ 255 ∧ b.bytes = bytes := by
  unfold blockBytes
  split <;> simp [Block.bytes] <;> omega

theorem toBytes_eq_ok {c : Container} {bytes : Bytes} (h : c.toBytes = .ok bytes) :
    (∀ b ∈ c.blocks, b.payload.length ≤ 255) ∧
      bytes = Word.toBytes c.loadAddress ++ (magic ++ (c.blocks.flatMap Block.bytes ++
        endId :: c.image)) := by
  obtain ⟨header, hheader, hbytes⟩ := bind_eq_ok.mp h
  have hblocks := (mapM_eq_ok.mp hheader).imp fun _ _ => blockBytes_eq_ok.mp
  obtain ⟨hlength, hwritten⟩ := (List.forall₂_and_left c.blocks header).mp hblocks
  refine ⟨hlength, ?_⟩
  have hmap : c.blocks.map Block.bytes = header := by
    rw [← List.forall₂_eq_eq_eq]
    exact List.forall₂_map_left_iff.mpr hwritten
  cases hbytes
  simp [← hmap, List.flatMap]

/-- A container whose blocks are short enough can be written. -/
theorem exists_toBytes {c : Container} (h : ∀ b ∈ c.blocks, b.payload.length ≤ 255) :
    ∃ bytes, c.toBytes = .ok bytes := by
  have hheader : c.blocks.mapM blockBytes = .ok (c.blocks.map Block.bytes) := by
    refine mapM_eq_ok.mpr (List.forall₂_map_right_iff.mpr (List.forall₂_same.mpr fun b hb => ?_))
    exact blockBytes_eq_ok.mpr ⟨h b hb, rfl⟩
  exact ⟨_, bind_eq_ok.mpr ⟨_, hheader, rfl⟩⟩

theorem readHeader_toBytes {c : Container} (hextra : ∀ b ∈ c.extraBlocks, b.id ≠ endId)
    (hlength : ∀ b ∈ c.blocks, b.payload.length ≤ 255) :
    readHeader (Word.toBytes c.loadAddress ++ (magic ++ (c.blocks.flatMap Block.bytes ++
      endId :: c.image))) = some ((c.loadAddress, c.blocks), endId :: c.image) := by
  have hid : ∀ b ∈ c.blocks, b.id ≠ endId := by
    intro b hb
    rcases List.mem_append.mp hb with hb | hb
    · simp only [List.mem_cons, List.not_mem_nil, or_false] at hb
      rcases hb with rfl | rfl | rfl | rfl | rfl <;> simp [blockId, endId]
    · exact hextra b hb
  have hmany := Reads.many Block.bytes id c.blocks
    (fun b hb => reads_block (hid b hb) (hlength b hb)) (fun b _ => by simp [Block.bytes])
    (readBlock_end c.image)
  rw [List.map_id] at hmany
  unfold readHeader
  rw [(Reads.word _).run_bind, (Reads.tag _).run_bind, bind_eq_of_eq_some hmany]
  rfl

/-! ## The container -/

theorem contents_eq_ok {α : Type} {name : BlockName} {reader : Reader α} {payload rest : Bytes}
    {a : α} (h : reader payload = some (a, rest)) : contents name reader payload = .ok a := by
  simp [contents, h]

/-- Blocks of unknown ids are kept one after another. -/
theorem foldlM_add_extra : ∀ {extra : List Block} {found : Blocks},
    (∀ b ∈ extra, ∀ name, b.id ≠ blockId name) →
    extra.foldlM Blocks.add found = .ok { found with extra := found.extra ++ extra }
  | [], found, _ => by
    rw [List.append_nil]
    rfl
  | b :: extra, found, h => by
    have hb := h b (by simp)
    have hadd : found.add b = .ok { found with extra := found.extra ++ [b] } := by
      simp [Blocks.add, hb]
      rfl
    rw [List.foldlM_cons, hadd]
    show List.foldlM _ _ extra = _
    rw [foldlM_add_extra fun b' hb' => h b' (by simp [hb'])]
    simp

/-- The blocks of a container are read into its parts. -/
theorem foldlM_add_blocks {c : Container} (hextra : ∀ b ∈ c.extraBlocks, ∀ name, b.id ≠ blockId name) :
    c.blocks.foldlM Blocks.add {} = .ok
      { descriptor := some c.descriptor.written, common := some c.common.written,
        tables := some (c.tables.map TableDescriptor.written), music := some c.music,
        info := c.info.written, extra := c.extraBlocks } := by
  have hdescriptor := reads_descriptor c.descriptor []
  have hmusic := reads_music c.music []
  have hinfo := reads_info c.info []
  rw [List.append_nil] at hdescriptor hmusic hinfo
  simp only [blocks, List.cons_append, List.nil_append, List.foldlM_cons, Blocks.add, blockId,
    contents_eq_ok hdescriptor, contents_eq_ok (read_common c.common),
    contents_eq_ok (read_tables c.tables), contents_eq_ok hmusic, contents_eq_ok hinfo]
  exact foldlM_add_extra hextra

/-- **A written container reads back**, up to the characters a file cannot hold. -/
theorem parse_toBytes {c : Container} {bytes : Bytes}
    (hextra : ∀ b ∈ c.extraBlocks, b.id ≠ endId ∧ ∀ name, b.id ≠ blockId name)
    (himage : c.loadAddress.toNat + c.image.length ≤ Machine.addressSpace)
    (h : c.toBytes = .ok bytes) : parse bytes = .ok c.written := by
  obtain ⟨hlength, rfl⟩ := toBytes_eq_ok h
  unfold parse
  rw [readHeader_toBytes (fun b hb => (hextra b hb).1) hlength]
  simp only [ne_eq, not_true, if_false, foldlM_add_blocks fun b hb => (hextra b hb).2]
  show (if _ then _ else _) = _
  rw [if_neg (by omega)]
  rfl

/-- Every container that a file holds as it is, is read from some bytes. -/
theorem exists_parse_eq {c : Container} (hwritten : c.written = c)
    (hextra : ∀ b ∈ c.extraBlocks, b.id ≠ endId ∧ ∀ name, b.id ≠ blockId name)
    (himage : c.loadAddress.toNat + c.image.length ≤ Machine.addressSpace)
    (hlength : ∀ b ∈ c.blocks, b.payload.length ≤ 255) : ∃ bytes, parse bytes = .ok c := by
  obtain ⟨bytes, hbytes⟩ := exists_toBytes hlength
  have hparse := parse_toBytes hextra himage hbytes
  rw [hwritten] at hparse
  exact ⟨bytes, hparse⟩

/-- The image of a container that was read lies in the address space. -/
theorem length_image_le_of_parse {bytes : Bytes} {c : Container} (h : parse bytes = .ok c) :
    c.loadAddress.toNat + c.image.length ≤ Machine.addressSpace := by
  unfold parse at h
  split at h
  · cases h
  split at h
  · cases h
  split at h
  · cases h
  obtain ⟨found, -, h⟩ := bind_eq_ok.mp h
  obtain ⟨descriptor, -, h⟩ := bind_eq_ok.mp h
  obtain ⟨common, -, h⟩ := bind_eq_ok.mp h
  obtain ⟨tables, -, h⟩ := bind_eq_ok.mp h
  obtain ⟨music, -, h⟩ := bind_eq_ok.mp h
  split at h
  · cases h
  next himage =>
    cases h
    exact Nat.le_of_not_lt himage

end Container

end Chiptune.File
