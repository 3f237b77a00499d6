/-
A tune file that was read can be written, and reads as what was read.

The writer puts the load address into the data, and the data right behind the
header, so these two fields of the header are new. A text has a field of 32
bytes, and of a text that fills it the writer leaves out the last character, so
that there is a zero after every text; the reader needs none. All else of the
file stays, in every version.
-/
import Chiptune.File.Tune
import Chiptune.Proofs.File.Rewriting

namespace Chiptune.File

/-! ## Fields -/

namespace Text

theorem length_field {length : Nat} (hlength : 0 < length) (text : String) : (field length text).length = length := by
  have htake := List.length_take_le (length - 1) text.toList
  simp only [field, List.length_append, List.length_map, List.length_replicate]
  omega

/-- In a text without zeros, a character has the byte that it has in a text that a zero ends. -/
theorem Whole.map_byte {text : String} (h : Whole text) {chars : List Char} (hchars : chars ⊆ text.toList) :
    chars.map byte = chars.map cstringByte := by
  refine List.map_congr_left fun c hc => ?_
  have hzero : c ≠ '\x00' := fun he => h (he ▸ hchars hc)
  rw [cstringByte, if_neg hzero]

/-- A text without what is past its first characters. -/
def upTo (length : Nat) (text : String) : String := String.ofList (text.toList.take length)

theorem inAscii_upTo {text : String} (h : ∀ c ∈ text.toList, c.toNat < 128) (length : Nat) :
    inAscii (upTo length text) = upTo length text := by
  have hascii : (text.toList.take length).map ascii = text.toList.take length := by
    conv => rhs; rw [← List.map_id (text.toList.take length)]
    exact List.map_congr_left fun c hc => if_pos (h c (List.mem_of_mem_take hc))
  rw [inAscii, upTo, String.toList_ofList, hascii]

end Text

namespace Reader

namespace Reads

theorem wordBE (w : UInt16) : Reads Reader.wordBE (Word.toBytesBE w) w := by
  intro rest
  show some (Word.ofBytes (Word.low w) (Word.high w), rest) = _
  rw [Word.ofBytes_low_high]

theorem longBE (n : UInt32) : Reads Reader.longBE
    (Word.toBytesBE (UInt16.ofNat (n.toNat / 0x10000)) ++ Word.toBytesBE (UInt16.ofNat n.toNat)) n := by
  have hn := n.toNat_lt
  have hvalue : UInt32.ofNat ((UInt16.ofNat (n.toNat / 0x10000)).toNat * 0x10000 + (UInt16.ofNat n.toNat).toNat) = n := by
    rw [UInt16.toNat_ofNat', UInt16.toNat_ofNat', Nat.mod_eq_of_lt (show n.toNat / 0x10000 < 2 ^ 16 by omega),
      Nat.div_add_mod', UInt32.ofNat_toNat]
  have hread := (wordBE (UInt16.ofNat (n.toNat / 0x10000))).bind
    (f := fun hi => do return UInt32.ofNat (hi.toNat * 0x10000 + (← Reader.wordBE).toNat))
    ((wordBE (UInt16.ofNat n.toNat)).bind (Reads.pure _))
  rwa [List.append_nil, hvalue] at hread

theorem field {text : String} (h : Text.Whole text) (length : Nat) :
    Reads (Reader.field (length + 1)) (Text.field (length + 1) text) (Text.inAscii (Text.upTo length text)) := by
  have hbytes : Text.field (length + 1) text = (text.toList.take length).map Text.cstringByte ++
      List.replicate (length + 1 - (text.toList.take length).length) 0 := by
    rw [← h.map_byte (List.take_subset ..), Text.field, Nat.add_sub_cancel, List.length_map]
  have hzero : 0 < length + 1 - (text.toList.take length).length := by
    have := List.length_take_le length text.toList
    omega
  have htext : (Text.field (length + 1) text).takeWhile (· != 0) = (text.toList.take length).map Text.cstringByte := by
    have hall : ∀ b ∈ (text.toList.take length).map Text.cstringByte, (b != 0) = true := by
      refine List.forall_mem_map.mpr fun c _ => ?_
      exact bne_iff_ne.mpr (Text.cstringByte_ne_zero c)
    obtain ⟨zeros, hzeros⟩ := Nat.exists_eq_succ_of_ne_zero (Nat.ne_of_gt hzero)
    rw [hbytes, List.takeWhile_append_of_pos hall, hzeros, List.replicate_succ, List.takeWhile_cons_of_neg (by decide),
      List.append_nil]
  have hfound : Text.ofBytes ((Text.field (length + 1) text).takeWhile (· != 0)) = Text.inAscii (Text.upTo length text) := by
    have hchars : ((text.toList.take length).map Text.cstringByte).map Text.char =
        (text.toList.take length).map Text.ascii := by
      rw [List.map_map, ← h.map_readBack (List.take_subset ..)]
      exact List.map_congr_left fun c _ => Text.char_cstringByte c
    rw [htext, Text.ofBytes, hchars, Text.inAscii, Text.upTo, String.toList_ofList]
  have hread := Reads.take (Text.field (length + 1) text)
  rw [Text.length_field (Nat.succ_pos length)] at hread
  rw [← List.append_nil (Text.field (length + 1) text), ← hfound]
  exact hread.bind (Reads.pure _)

end Reads

namespace Takes

theorem wordBE : Takes Reader.wordBE fun _ _ => True :=
  .bind .byte fun _ _ _ => .bind .byte fun _ _ _ => .pure trivial

theorem longBE : Takes Reader.longBE fun _ _ => True :=
  .bind .wordBE fun _ _ _ => .bind .wordBE fun _ _ _ => .pure trivial

theorem field (length : Nat) : Takes (Reader.field length) fun _ text => Text.Whole text := by
  refine .bind (.take length) fun _ bytes _ => .pure (Text.whole_ofBytes fun b hb => ?_)
  exact bne_iff_ne.mp (List.all_eq_true.mp List.all_takeWhile b hb)

end Takes

end Reader

/-! ## Headers -/

namespace TuneHeader

/-- The texts of a header. -/
def texts (h : TuneHeader) : List String := [h.name, h.author, h.released]

/-- No text of the header has a zero, and it has nothing that its version has no field for. -/
structure Proper (h : TuneHeader) : Prop where
  name : Text.Whole h.name
  author : Text.Whole h.author
  released : Text.Whole h.released
  extension : h.version < 2 →
    h.flags = 0 ∧ h.startPage = 0 ∧ h.pageLength = 0 ∧ h.secondSid = 0 ∧ h.thirdSid = 0

/-- The header as it is written, if `keep` is what is written of a text. -/
def rewritten (h : TuneHeader) (keep : String → String) : TuneHeader :=
  { h with
    dataOffset := UInt16.ofNat (Tune.headerLength h.version)
    loadAddress := 0
    name := keep h.name
    author := keep h.author
    released := keep h.released }

end TuneHeader

namespace Tune

open Reader

/-- The file as it is written, if `keep` is what is written of a text. -/
def rewritten (t : Tune) (keep : String → String) : Tune := { t with header := t.header.rewritten keep }

/-- What is written of a text: as many characters as leave room for a zero. -/
def written (text : String) : String := Text.inAscii (Text.upTo 31 text)

/-- The bytes of a header. -/
def headerBytes (h : TuneHeader) : Bytes :=
  h.kind.magic ++ (Word.toBytesBE h.version ++ (Word.toBytesBE (UInt16.ofNat (headerLength h.version)) ++
    (Word.toBytesBE 0 ++ (Word.toBytesBE h.initAddress ++ (Word.toBytesBE h.playAddress ++ (Word.toBytesBE h.songs ++
    (Word.toBytesBE h.startSong ++ ((Word.toBytesBE (UInt16.ofNat (h.speed.toNat / 0x10000)) ++
    Word.toBytesBE (UInt16.ofNat h.speed.toNat)) ++ (Text.field textLength h.name ++ (Text.field textLength h.author ++
    (Text.field textLength h.released ++
    if h.version < 2 then []
    else Word.toBytesBE h.flags ++ ([h.startPage] ++ ([h.pageLength] ++ ([h.secondSid] ++ ([h.thirdSid] ++ [])))))))))))))))

theorem toBytes_eq (t : Tune) : t.toBytes = headerBytes t.header ++ (Word.toBytes t.loadAddress ++ t.data) := by
  simp [toBytes, headerBytes]

theorem length_headerBytes (h : TuneHeader) : (headerBytes h).length = headerLength h.version := by
  have hmagic : h.kind.magic.length = 4 := by cases h.kind <;> rfl
  have hfield (text : String) : (Text.field textLength text).length = 32 := Text.length_field (by decide) text
  have hword (w : UInt16) : (Word.toBytesBE w).length = 2 := rfl
  simp only [headerBytes, headerLength, List.length_append, hmagic, hfield, hword]
  split <;> rfl

theorem reads_kind (kind : TuneKind) : Reads readKind kind.magic kind := by
  have hlength : kind.magic.length = 4 := by cases kind <;> rfl
  have hread : Reads (do
      let magic ← Reader.take kind.magic.length
      if magic = TuneKind.psid.magic then return .psid
      else if magic = TuneKind.rsid.magic then return .rsid
      else failure) (kind.magic ++ []) kind := by
    refine (Reads.take kind.magic).bind ?_
    cases kind with
    | psid => exact Reads.pure _
    | rsid =>
      rw [if_neg (by decide), if_pos rfl]
      exact Reads.pure _
  rwa [List.append_nil, hlength] at hread

/-- **A header reads as it is written.** -/
theorem reads_header {h : TuneHeader} (hproper : h.Proper) : Reads readHeader (headerBytes h) (h.rewritten written) := by
  refine (reads_kind _).bind <| (Reads.wordBE _).bind <| (Reads.wordBE _).bind <| (Reads.wordBE _).bind <|
    (Reads.wordBE _).bind <| (Reads.wordBE _).bind <| (Reads.wordBE _).bind <| (Reads.wordBE _).bind <|
    (Reads.longBE _).bind <| (Reads.field hproper.name 31).bind <| (Reads.field hproper.author 31).bind <|
    (Reads.field hproper.released 31).bind ?_
  by_cases hversion : h.version < 2
  · obtain ⟨hflags, hstart, hlength, hsecond, hthird⟩ := hproper.extension hversion
    simp only [hversion, if_true, TuneHeader.rewritten, hflags, hstart, hlength, hsecond, hthird]
    exact Reads.pure _
  · simp only [hversion, if_false]
    exact (Reads.wordBE _).bind <| (Reads.byte _).bind <| (Reads.byte _).bind <| (Reads.byte _).bind <|
      (Reads.byte _).bind (Reads.pure _)

theorem takes_header : Takes readHeader fun _ h => h.Proper := by
  have hkind : Takes readKind fun _ _ => True := by
    refine .bind (.take 4) fun _ magic _ => ?_
    split
    · exact .pure trivial
    split
    · exact .pure trivial
    · exact .failure
  refine .bind hkind fun _ _ _ => .bind .wordBE fun _ version _ => .bind .wordBE fun _ _ _ => .bind .wordBE fun _ _ _ =>
    .bind .wordBE fun _ _ _ => .bind .wordBE fun _ _ _ => .bind .wordBE fun _ _ _ => .bind .wordBE fun _ _ _ =>
    .bind .longBE fun _ _ _ => .bind (.field textLength) fun _ _ hname => .bind (.field textLength) fun _ _ hauthor =>
    .bind (.field textLength) fun _ _ hreleased => ?_
  dsimp only
  split
  · exact .pure ⟨hname, hauthor, hreleased, fun _ => ⟨rfl, rfl, rfl, rfl, rfl⟩⟩
  next hversion =>
    exact .bind .wordBE fun _ _ _ => .bind .byte fun _ _ _ => .bind .byte fun _ _ _ => .bind .byte fun _ _ _ =>
      .bind .byte fun _ _ _ => .pure ⟨hname, hauthor, hreleased, fun h => absurd h hversion⟩

/-! ## Files -/

/-- What is true of a file that was read. -/
theorem proper_of_parse {bytes : Bytes} {t : Tune} (h : parse bytes = .ok t) :
    t.header.Proper ∧ ¬ (t.header.version < 1 ∨ 4 < t.header.version) ∧
      t.loadAddress.toNat + t.data.length ≤ Machine.addressSpace := by
  unfold parse at h
  split at h
  · cases h
  next header rest hheader =>
    obtain ⟨-, -, hproper⟩ := takes_header _ _ _ hheader
    by_cases hversion : header.version < 1 ∨ 4 < header.version
    · rw [if_pos hversion] at h
      cases h
    rw [if_neg hversion] at h
    by_cases hoffset : bytes.length < header.dataOffset.toNat
    · rw [if_pos hoffset] at h
      cases h
    rw [if_neg hoffset] at h
    obtain ⟨⟨loadAddress, data⟩, -, h⟩ := bind_eq_ok.mp h
    dsimp only at h
    split at h
    · cases h
    next hroom =>
      cases h
      exact ⟨hproper, hversion, Nat.not_lt.mp hroom⟩

/-- **A file reads as it is written.** -/
theorem parse_toBytes {t : Tune} (hproper : t.header.Proper) (hversion : ¬ (t.header.version < 1 ∨ 4 < t.header.version))
    (hroom : t.loadAddress.toNat + t.data.length ≤ Machine.addressSpace) : parse t.toBytes = .ok (t.rewritten written) := by
  have hread := reads_header hproper (Word.toBytes t.loadAddress ++ t.data)
  have hoffset : (t.header.rewritten written).dataOffset.toNat = (headerBytes t.header).length := by
    rw [length_headerBytes]
    show (UInt16.ofNat (headerLength t.header.version)).toNat = headerLength t.header.version
    unfold headerLength
    split <;> rfl
  have hlocate : locate (t.header.rewritten written) (Word.toBytes t.loadAddress ++ t.data) = .ok (t.loadAddress, t.data) := by
    show Except.ok (Word.ofBytes (Word.low t.loadAddress) (Word.high t.loadAddress), t.data) = _
    rw [Word.ofBytes_low_high]
  have hlength : ¬ (headerBytes t.header ++ (Word.toBytes t.loadAddress ++ t.data)).length < (headerBytes t.header).length := by
    rw [List.length_append]
    omega
  rw [toBytes_eq, parse, hread]
  simp only [show (t.header.rewritten written).version = t.header.version from rfl, hversion, if_false, hoffset, hlength,
    List.drop_left, hlocate]
  exact if_neg (Nat.not_lt.mpr hroom)

/-- **A file that was read with texts in ASCII is written as one that reads the same**, but for where the header says
that load address and data are, and but for the last character of a text that fills its field. -/
theorem rewriting_preserves {bytes : Bytes} {t : Tune} (h : parse bytes = .ok t)
    (hascii : ∀ text ∈ t.header.texts, ∀ c ∈ text.toList, c.toNat < 128) :
    parse t.toBytes = .ok (t.rewritten (Text.upTo 31)) ∧ (t.rewritten (Text.upTo 31)).program = t.program := by
  obtain ⟨hproper, hversion, hroom⟩ := proper_of_parse h
  have hwritten : ∀ text ∈ t.header.texts, written text = Text.upTo 31 text :=
    fun text htext => Text.inAscii_upTo (hascii text htext) 31
  simp only [TuneHeader.texts, List.forall_mem_cons] at hwritten
  obtain ⟨hname, hauthor, hreleased, -⟩ := hwritten
  have hrewritten : t.rewritten written = t.rewritten (Text.upTo 31) := by
    simp only [rewritten, TuneHeader.rewritten, hname, hauthor, hreleased]
  refine ⟨?_, rfl⟩
  rw [parse_toBytes hproper hversion hroom, hrewritten]

/-- A file of version 1 whose load address is in the header, with two bytes between header and data, and with a title
that fills its field. -/
def crowded : Bytes :=
  TuneKind.psid.magic ++ [0, 1, 0, 0x78, 0x10, 0, 0x10, 0, 0x10, 1, 0, 1, 0, 1, 0, 0, 0, 0] ++
    List.replicate 32 0x41 ++ List.replicate 64 0 ++ [0xEE, 0xEE] ++ [0x60, 0x60]

/-- What the file is read as. -/
def crowdedTune : Tune where
  header :=
    { version := 1, dataOffset := 0x78, loadAddress := 0x1000, initAddress := 0x1000, playAddress := 0x1001
      name := String.ofList (List.replicate 32 'A') }
  loadAddress := 0x1000
  data := [0x60, 0x60]

theorem parse_crowded : parse crowded = .ok crowdedTune := by decide +kernel

theorem ascii_crowdedTune : ∀ text ∈ crowdedTune.header.texts, ∀ c ∈ text.toList, c.toNat < 128 := by
  simp [TuneHeader.texts, crowdedTune]

theorem rewriting_preserves_crowded : parse crowded = .ok crowdedTune ∧
    (∀ text ∈ crowdedTune.header.texts, ∀ c ∈ text.toList, c.toNat < 128) ∧
      parse crowdedTune.toBytes = .ok (crowdedTune.rewritten (Text.upTo 31)) ∧
        (crowdedTune.rewritten (Text.upTo 31)).program = crowdedTune.program :=
  ⟨parse_crowded, ascii_crowdedTune, rewriting_preserves parse_crowded ascii_crowdedTune⟩

/-- The title does not come back whole. -/
theorem crowded_shortened : parse crowded = .ok crowdedTune ∧
    (∀ text ∈ crowdedTune.header.texts, ∀ c ∈ text.toList, c.toNat < 128) ∧
      parse crowdedTune.toBytes ≠ .ok (crowdedTune.rewritten id) := by
  refine ⟨parse_crowded, ascii_crowdedTune, ?_⟩
  decide +kernel

end Tune

end Chiptune.File
