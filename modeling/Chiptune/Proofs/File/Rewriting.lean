/-
A container that was read can be written, and is stable from then on.

What a reader finds takes no more bytes when it is written than when it was
read (`Reader.Takes`), so a block that was read is never too long to write. A
text that was read has no zero in it, so all that a file loses of it are the
characters that are not ASCII.
-/
import Chiptune.Proofs.File.Container

namespace Chiptune.File

/-! ## Texts -/

namespace Text

/-- A character, or a question mark if it is not ASCII. -/
def ascii (c : Char) : Char := if c.toNat < 128 then c else '?'

/-- A text with question marks for the characters that are not ASCII. -/
def inAscii (text : String) : String := String.ofList (text.toList.map ascii)

/-- No character is the zero that ends a text in a file. -/
def Whole (text : String) : Prop := '\x00' ∉ text.toList

theorem char_ne_zero {b : UInt8} (h : b ≠ 0) : char b ≠ '\x00' := by
  have hchars : ∀ n : Fin 256, char (UInt8.ofNat n) = '\x00' → n = 0 := by decide +kernel
  intro hchar
  have hzero := hchars ⟨b.toNat, b.toNat_lt⟩ (by rwa [UInt8.ofNat_toNat])
  exact h (UInt8.toNat_inj.mp (congrArg Fin.val hzero))

theorem whole_ofBytes {bytes : Bytes} (h : ∀ b ∈ bytes, b ≠ 0) : Whole (ofBytes bytes) := by
  rw [Whole, ofBytes, String.toList_ofList]
  intro hzero
  obtain ⟨b, hb, hchar⟩ := List.mem_map.mp hzero
  exact char_ne_zero (h b hb) hchar

theorem Whole.map_readBack {text : String} (h : Whole text) {chars : List Char} (hchars : chars ⊆ text.toList) :
    chars.map readBack = chars.map ascii := by
  refine List.map_congr_left fun c hc => ?_
  have hzero : c ≠ '\x00' := fun he => h (he ▸ hchars hc)
  simp only [readBack, ascii, hzero, ne_eq, not_false_eq_true, and_true]

theorem Whole.clean_eq {text : String} (h : Whole text) : clean text = inAscii text := by
  rw [clean, inAscii, h.map_readBack (List.Subset.refl _)]

end Text

/-! ## Writing what reads back -/

namespace Container

theorem toBytes_written (c : Container) : c.written.toBytes = c.toBytes := by
  have hstates : c.common.written.toBytes = c.common.toBytes := by
    simp only [DriverCommon.toBytes, DriverCommon.written, List.flatMap_map, StateAddress.written, Text.clean,
      String.toList_ofList, Text.cstring_readBack]
  have htables : (c.tables.map TableDescriptor.written).flatMap TableDescriptor.toBytes =
      c.tables.flatMap TableDescriptor.toBytes := by
    have htable (t : TableDescriptor) : t.written.toBytes = t.toBytes := by
      simp only [TableDescriptor.toBytes, TableDescriptor.written, Text.clean, String.toList_ofList, Text.cstring_readBack]
    rw [List.flatMap_map]
    exact congrArg (c.tables.flatMap ·) (funext htable)
  have hinfo : c.info.written.toBytes = c.info.toBytes := by
    simp only [SongInfo.toBytes, SongInfo.written, List.flatMap_cons, Text.clipped, String.toList_ofList, ← List.map_take,
      List.take_take, Nat.min_self, Text.cstring_readBack]
  have hdescriptor : c.descriptor.written.toBytes = c.descriptor.toBytes := by
    simp only [Descriptor.toBytes, Descriptor.written, Text.clean, String.toList_ofList, Text.cstring_readBack]
  have hblocks : c.written.blocks = c.blocks := by
    simp only [blocks, written, hdescriptor, hstates, htables, hinfo]
  simp only [toBytes, hblocks]
  rfl

end Container

/-! ## What a reader takes -/

namespace Reader

variable {α β : Type}

/-- Of what the reader finds, and how many bytes it takes for it, `Q` is true. -/
def Takes (r : Reader α) (Q : Nat → α → Prop) : Prop :=
  ∀ bytes a rest, r bytes = some (a, rest) → ∃ n, bytes.length = n + rest.length ∧ Q n a

namespace Takes

theorem pure {a : α} {Q : Nat → α → Prop} (h : Q 0 a) : Takes (Pure.pure a) Q := by
  intro bytes b rest hread
  cases hread
  exact ⟨0, (Nat.zero_add _).symm, h⟩

theorem failure {Q : Nat → α → Prop} : Takes (failure : Reader α) Q := by
  intro bytes a rest hread
  cases hread

theorem bind {r : Reader α} {f : α → Reader β} {Q : Nat → α → Prop} {R : Nat → β → Prop} (hr : Takes r Q)
    (hf : ∀ n a, Q n a → Takes (f a) fun m b => R (n + m) b) : Takes (r >>= f) R := by
  intro bytes b rest hread
  obtain ⟨⟨a, left⟩, ha, hb⟩ := Option.bind_eq_some_iff.mp (show (r bytes).bind (fun p => f p.1 p.2) = _ from hread)
  obtain ⟨n, hn, hQ⟩ := hr bytes a left ha
  obtain ⟨m, hm, hR⟩ := hf n a hQ left b rest hb
  exact ⟨n + m, by omega, hR⟩

theorem byte : Takes Reader.byte fun n _ => n = 1 := by
  intro bytes b rest hread
  cases bytes with
  | nil => cases hread
  | cons first bytes =>
    cases hread
    exact ⟨1, Nat.add_comm .., rfl⟩

theorem word : Takes Reader.word fun n _ => n = 2 :=
  .bind byte fun _ _ hlo => .bind byte fun _ _ hhi => .pure (by omega)

theorem take (count : Nat) : Takes (Reader.take count) fun n bytes => n = count ∧ bytes.length = count := by
  intro bytes taken rest hread
  unfold Reader.take at hread
  split at hread
  next hcount =>
    rw [List.splitAt_eq] at hread
    cases hread
    refine ⟨count, ?_, rfl, ?_⟩
    · rw [List.length_drop]
      omega
    · rw [List.length_take]
      omega
  · cases hread

theorem cstring : Takes Reader.cstring fun n text => n = text.length + 1 ∧ Text.Whole text := by
  intro bytes text rest hread
  unfold Reader.cstring at hread
  dsimp only at hread
  split at hread
  next zero left hleft =>
    cases hread
    have hlength := congrArg List.length hleft
    rw [List.length_drop, List.length_cons] at hlength
    refine ⟨(bytes.takeWhile (· != 0)).length + 1, by omega, ?_, Text.whole_ofBytes fun b hb => ?_⟩
    · rw [Text.ofBytes, String.length_ofList, List.length_map]
    · exact bne_iff_ne.mp (List.all_eq_true.mp List.all_takeWhile b hb)
  · cases hread

theorem many {item : Reader α} {size : α → Nat} {P : α → Prop} (hitem : Takes item fun n a => size a ≤ n ∧ P a) :
    Takes (Reader.many item) fun n as => (as.map size).sum ≤ n ∧ ∀ a ∈ as, P a := by
  have hmany : ∀ (fuel : Nat) (bytes : Bytes), ∃ n, bytes.length = n + (Reader.manyFor item fuel bytes).2.length ∧
      ((Reader.manyFor item fuel bytes).1.map size).sum ≤ n ∧ ∀ a ∈ (Reader.manyFor item fuel bytes).1, P a := by
    intro fuel
    induction fuel with
    | zero => exact fun bytes => ⟨0, (Nat.zero_add _).symm, Nat.le_refl 0, nofun⟩
    | succ fuel ih =>
      intro bytes
      unfold Reader.manyFor
      split
      · exact ⟨0, (Nat.zero_add _).symm, Nat.le_refl 0, nofun⟩
      next a rest hread =>
        obtain ⟨n, hn, hsize, hP⟩ := hitem bytes a rest hread
        obtain ⟨m, hm, hsum, hall⟩ := ih rest
        refine ⟨n + m, by dsimp only; omega, ?_, List.forall_mem_cons.mpr ⟨hP, hall⟩⟩
        simp only [List.map_cons, List.sum_cons]
        omega
  intro bytes as rest hread
  obtain ⟨n, hn, hsum, hall⟩ := hmany bytes.length bytes
  unfold Reader.many at hread
  rw [Option.some.injEq] at hread
  rw [hread] at hn hsum hall
  exact ⟨n, hn, hsum, hall⟩

end Takes

end Reader

namespace Container

open Reader

/-! ## Blocks that were read -/

theorem takes_descriptor : Takes readDescriptor fun n d => d.toBytes.length = n ∧ Text.Whole d.name :=
  .bind .byte fun _ _ h₁ => .bind .word fun _ _ h₂ => .bind .cstring fun _ _ h₃ => .bind .byte fun _ _ h₄ =>
    .bind .byte fun _ _ h₅ => .pure ⟨by rw [Descriptor.length_toBytes]; dsimp only; omega, h₃.2⟩

theorem takes_state : Takes readState fun n s => s.name.length + 3 ≤ n ∧ Text.Whole s.name :=
  .bind .cstring fun _ _ h₁ => .bind .word fun _ _ h₂ => .pure ⟨by dsimp only; omega, h₁.2⟩

theorem takes_common :
    Takes readCommon fun n c => c.toBytes.length ≤ n ∧ ∀ s ∈ c.state, Text.Whole s.name :=
  .bind .word fun _ _ h₁ => .bind .word fun _ _ h₂ => .bind .word fun _ _ h₃ => .bind (.many takes_state) fun _ _ h₄ =>
    .pure ⟨by rw [DriverCommon.length_toBytes]; dsimp only; omega, h₄.2⟩

theorem takes_table : Takes readTable fun n t => t.toBytes.length ≤ n ∧ Text.Whole t.name :=
  .bind .byte fun _ _ h₁ => .bind .byte fun _ _ h₂ => .bind .byte fun _ _ h₃ => .bind .word fun _ _ h₄ =>
    .bind .byte fun _ _ h₅ => .bind .byte fun _ _ h₆ => .bind .byte fun _ _ h₇ => .bind .cstring fun _ _ h₈ =>
    .pure ⟨by rw [TableDescriptor.length_toBytes]; dsimp only; omega, h₈.2⟩

theorem takes_info :
    Takes readInfo fun _ i => Text.Whole i.title ∧ Text.Whole i.author ∧ Text.Whole i.released :=
  .bind .cstring fun _ _ h₁ => .bind .cstring fun _ _ h₂ => .bind .cstring fun _ _ h₃ => .pure ⟨h₁.2, h₂.2, h₃.2⟩

theorem takes_block : Takes readBlock fun _ b => b.payload.length ≤ 255 ∧ b.id ≠ endId := by
  refine .bind .byte fun _ id _ => ?_
  split
  · exact .failure
  next hid =>
    refine .bind .byte fun _ size _ => .bind (.take size.toNat) fun _ payload h => .pure ⟨?_, hid⟩
    have := size.toNat_lt
    dsimp only
    omega

/-- What is found in blocks that were read can be written as blocks, and no text of it has a zero. -/
structure Blocks.Rewritable (found : Blocks) : Prop where
  descriptor : ∀ d, found.descriptor = some d → d.toBytes.length ≤ 255 ∧ Text.Whole d.name
  common : ∀ c, found.common = some c → c.toBytes.length ≤ 255 ∧ ∀ s ∈ c.state, Text.Whole s.name
  tables : ∀ ts, found.tables = some ts →
    (ts.flatMap TableDescriptor.toBytes).length ≤ 255 ∧ ∀ t ∈ ts, Text.Whole t.name
  info : Text.Whole found.info.title ∧ Text.Whole found.info.author ∧ Text.Whole found.info.released
  extra : ∀ b ∈ found.extra, b.payload.length ≤ 255 ∧ b.id ≠ endId ∧ ∀ name, b.id ≠ blockId name

theorem contents_takes {α : Type} {name : BlockName} {reader : Reader α} {Q : Nat → α → Prop} {payload : Bytes} {a : α}
    (hreader : Takes reader Q) (h : contents name reader payload = .ok a) : ∃ n ≤ payload.length, Q n a := by
  unfold contents at h
  split at h
  next value rest hread =>
    cases h
    obtain ⟨n, hn, hQ⟩ := hreader payload a rest hread
    exact ⟨n, by omega, hQ⟩
  · cases h

theorem Blocks.Rewritable.add {found found' : Blocks} (h : found.Rewritable) {b : Block} (hid : b.id ≠ endId)
    (hlength : b.payload.length ≤ 255) (hadd : found.add b = .ok found') : found'.Rewritable := by
  unfold Blocks.add at hadd
  split at hadd
  · obtain ⟨d, hd, hfound⟩ := bind_eq_ok.mp hadd
    cases hfound
    obtain ⟨n, hn, hsize, hwhole⟩ := contents_takes takes_descriptor hd
    exact { h with descriptor := fun d' hd' => by cases hd'; exact ⟨by omega, hwhole⟩ }
  split at hadd
  · obtain ⟨c, hc, hfound⟩ := bind_eq_ok.mp hadd
    cases hfound
    obtain ⟨n, hn, hsize, hwhole⟩ := contents_takes takes_common hc
    exact { h with common := fun c' hc' => by cases hc'; exact ⟨by omega, hwhole⟩ }
  split at hadd
  · obtain ⟨ts, hts, hfound⟩ := bind_eq_ok.mp hadd
    cases hfound
    obtain ⟨n, hn, hsize, hwhole⟩ := contents_takes (.many takes_table) hts
    rw [← List.length_flatMap] at hsize
    exact { h with tables := fun ts' hts' => by cases hts'; exact ⟨by omega, hwhole⟩ }
  split at hadd
  · obtain ⟨m, hm, hfound⟩ := bind_eq_ok.mp hadd
    cases hfound
    exact { h with }
  split at hadd
  · obtain ⟨i, hi, hfound⟩ := bind_eq_ok.mp hadd
    cases hfound
    obtain ⟨n, -, hwhole⟩ := contents_takes takes_info hi
    exact { h with info := hwhole }
  next hdescriptor hcommon htable hmusic hinfo =>
    cases hadd
    refine { h with extra := fun b' hb' => ?_ }
    rcases List.mem_append.mp hb' with hb' | hb'
    · exact h.extra b' hb'
    · rw [List.mem_singleton.mp hb']
      exact ⟨hlength, hid, fun name => by cases name <;> assumption⟩

theorem rewritable_blocks {blocks : List Block} {found : Blocks}
    (hblocks : ∀ b ∈ blocks, b.payload.length ≤ 255 ∧ b.id ≠ endId) (h : blocks.foldlM Blocks.add {} = .ok found) :
    found.Rewritable := by
  have hnew : Blocks.Rewritable {} := ⟨nofun, nofun, nofun, ⟨nofun, nofun, nofun⟩, nofun⟩
  refine Yields.of_eq_ok (E := fun _ => True) (Yields.foldlM blocks (fun b hb found' hfound' => ?_) hnew) h
  cases hadd : found'.add b with
  | error e => trivial
  | ok found'' => exact hfound'.add (hblocks b hb).2 (hblocks b hb).1 hadd

/-! ## Containers that were read -/

/-- The container as a file in ASCII holds it: question marks for all other characters, and the song info clipped. -/
def inAscii (c : Container) : Container :=
  { c with
    descriptor := { c.descriptor with name := Text.inAscii c.descriptor.name }
    common := { c.common with state := c.common.state.map fun s => { s with name := Text.inAscii s.name } }
    tables := c.tables.map fun t => { t with name := Text.inAscii t.name }
    info := {
      title := Text.inAscii (String.ofList (c.info.title.toList.take infoLength))
      author := Text.inAscii (String.ofList (c.info.author.toList.take infoLength))
      released := Text.inAscii (String.ofList (c.info.released.toList.take infoLength)) } }

theorem required_eq_ok {α : Type} {name : BlockName} {o : Option α} {a : α} (h : required name o = .ok a) : o = some a := by
  cases o with
  | none => cases h
  | some b =>
    cases h
    rfl

theorem takes_header : Takes readHeader fun _ header => ∀ b ∈ header.2, b.payload.length ≤ 255 ∧ b.id ≠ endId := by
  have htag : Takes (Reader.tag magic) fun n _ => n = 2 := by
    intro bytes u rest hread
    unfold Reader.tag at hread
    split at hread
    next hmagic =>
      cases hread
      have hlength := congrArg List.length hmagic
      rw [List.length_take] at hlength
      have htwo : magic.length = 2 := rfl
      exact ⟨2, by rw [List.length_drop]; omega, rfl⟩
    · cases hread
  have hblocks : Takes (Reader.many readBlock) fun n blocks =>
      (blocks.map fun _ => 0).sum ≤ n ∧ ∀ b ∈ blocks, b.payload.length ≤ 255 ∧ b.id ≠ endId :=
    .many fun bytes b rest hread => by
      obtain ⟨n, hn, hb⟩ := takes_block bytes b rest hread
      exact ⟨n, hn, Nat.zero_le n, hb⟩
  exact .bind .word fun _ _ _ => .bind htag fun _ _ _ => .bind hblocks fun _ _ h => .pure h.2

/-- What a container has from the blocks of its header. -/
theorem exists_blocks_of_parse {bytes : Bytes} {c : Container} (h : parse bytes = .ok c) :
    ∃ found : Blocks, found.Rewritable ∧ found.descriptor = some c.descriptor ∧ found.common = some c.common ∧
      found.tables = some c.tables ∧ found.info = c.info ∧ found.extra = c.extraBlocks := by
  unfold parse at h
  split at h
  · cases h
  next loadAddress blocks rest hheader =>
    obtain ⟨-, -, hblocks⟩ := takes_header _ _ _ hheader
    split at h
    · cases h
    split at h
    · cases h
    obtain ⟨found, hfound, h⟩ := bind_eq_ok.mp h
    obtain ⟨descriptor, hdescriptor, h⟩ := bind_eq_ok.mp h
    obtain ⟨common, hcommon, h⟩ := bind_eq_ok.mp h
    obtain ⟨tables, htables, h⟩ := bind_eq_ok.mp h
    obtain ⟨music, -, h⟩ := bind_eq_ok.mp h
    split at h
    · cases h
    cases h
    exact ⟨found, rewritable_blocks hblocks hfound, required_eq_ok hdescriptor, required_eq_ok hcommon,
      required_eq_ok htables, rfl, rfl⟩

/-- What a file loses of a container that was read are the characters that are not ASCII, and what is past the
32nd character in the song info. -/
theorem written_eq_inAscii {c : Container} (hdescriptor : Text.Whole c.descriptor.name)
    (hstates : ∀ s ∈ c.common.state, Text.Whole s.name) (htables : ∀ t ∈ c.tables, Text.Whole t.name)
    (hinfo : Text.Whole c.info.title ∧ Text.Whole c.info.author ∧ Text.Whole c.info.released) :
    c.written = c.inAscii := by
  have hstate : c.common.state.map StateAddress.written =
      c.common.state.map fun s => { s with name := Text.inAscii s.name } :=
    List.map_congr_left fun s hs => by rw [StateAddress.written, (hstates s hs).clean_eq]
  have htable : c.tables.map TableDescriptor.written = c.tables.map fun t => { t with name := Text.inAscii t.name } :=
    List.map_congr_left fun t ht => by rw [TableDescriptor.written, (htables t ht).clean_eq]
  have hclipped {text : String} (h : Text.Whole text) :
      Text.clipped infoLength text = Text.inAscii (String.ofList (text.toList.take infoLength)) := by
    rw [Text.clipped, Text.inAscii, String.toList_ofList, h.map_readBack (List.take_subset ..)]
  simp only [written, inAscii, Descriptor.written, DriverCommon.written, SongInfo.written, hdescriptor.clean_eq, hstate,
    htable, hclipped hinfo.1, hclipped hinfo.2.1, hclipped hinfo.2.2]

/-- **A container that was read can be written**; what that reads as is the same container in ASCII, and it is
written with the same bytes again. -/
theorem rewrite_stable {bytes : Bytes} {c : Container} (h : parse bytes = .ok c) :
    ∃ rewritten, c.toBytes = .ok rewritten ∧ parse rewritten = .ok c.inAscii ∧ c.inAscii.toBytes = .ok rewritten := by
  obtain ⟨found, hfound, hdescriptor, hcommon, htables, hinfo, hextra⟩ := exists_blocks_of_parse h
  obtain ⟨hlength₁, hname⟩ := hfound.descriptor _ hdescriptor
  obtain ⟨hlength₂, hstates⟩ := hfound.common _ hcommon
  obtain ⟨hlength₃, hnames⟩ := hfound.tables _ htables
  have hblocks := hfound.extra
  rw [hextra] at hblocks
  have hlength : ∀ b ∈ c.blocks, b.payload.length ≤ 255 := by
    intro b hb
    rcases List.mem_append.mp hb with hb | hb
    · simp only [List.mem_cons, List.not_mem_nil, or_false] at hb
      rcases hb with rfl | rfl | rfl | rfl | rfl
      · exact hlength₁
      · exact hlength₂
      · exact hlength₃
      · exact show 12 ≤ 255 by decide
      · exact c.info.length_toBytes_le
    · exact (hblocks b hb).1
  have hwritten := written_eq_inAscii hname hstates hnames (hinfo ▸ hfound.info)
  obtain ⟨rewritten, hrewritten⟩ := exists_toBytes hlength
  refine ⟨rewritten, hrewritten, ?_, ?_⟩
  · rw [← hwritten]
    exact parse_toBytes (fun b hb => (hblocks b hb).2) (length_image_le_of_parse h) hrewritten
  · rw [← hwritten, toBytes_written]
    exact hrewritten

/-- The bytes of a container with two descriptors, of which the second has a Latin-1 name and bytes to spare, two
blocks of unknown ids, a title that is too long and an image that begins like another block. -/
def patchwork : Bytes :=
  [0x00, 0x10, 0x37, 0x13] ++ [0x04, 1, 0xFF] ++ [0x01, 6, 1, 0, 0, 0, 1, 0] ++ [0x03, 0] ++
    [0x01, 9, 2, 0, 1, 0xE9, 0x41, 0, 1, 1, 0xAA] ++ [0x02, 10, 0, 0x10, 3, 0x10, 6, 0x10, 0xFC, 0, 0x34, 0x12] ++
    [0x05, 13, 3, 0, 0, 0, 0, 0, 0, 0, 0, 0, 0, 0, 0x77] ++ [0x80, 0] ++
    [0x06, 43] ++ List.replicate 40 0xC4 ++ [0, 0, 0] ++ [0xFF, 0x04, 0x01, 0xFF]

theorem rewrite_stable_patchwork : ∃ c, parse patchwork = .ok c ∧ c.descriptor.name = "éA" ∧ c.info.title.length = 40 ∧
    c.extraBlocks.length = 2 ∧ ∃ rewritten, c.toBytes = .ok rewritten ∧ parse rewritten = .ok c.inAscii ∧
      c.inAscii.toBytes = .ok rewritten := by
  have hread : (parse patchwork).toOption.map (fun c => (c.descriptor.name, c.info.title.length, c.extraBlocks.length)) =
      some ("éA", 40, 2) := by
    decide +kernel
  cases hc : parse patchwork with
  | error e =>
    rw [hc] at hread
    cases hread
  | ok c =>
    rw [hc] at hread
    obtain ⟨hname, hlength⟩ := Prod.mk.inj (Option.some.inj hread)
    obtain ⟨htitle, hextra⟩ := Prod.mk.inj hlength
    exact ⟨c, rfl, hname, htitle, hextra, rewrite_stable hc⟩

end Container

end Chiptune.File
