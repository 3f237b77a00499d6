/-
PSID and RSID files: a player with its song, behind a header that says where
to load it and how to call it.

Header words have their high byte first. Version 1 ends after the texts,
versions 2 to 4 add flags, relocation hints and the addresses of a second and
a third chip. A load address of zero means that the first two bytes of the
data hold it, low byte first; files are always written that way.
-/
import Chiptune.File.Reader
import Chiptune.Failure

namespace Chiptune.File

open Playback

/-- The two kinds of file. RSID programs need an interrupt. -/
inductive TuneKind where
  | psid | rsid
deriving DecidableEq, Repr

namespace TuneKind

def name : TuneKind → String
  | .psid => "PSID"
  | .rsid => "RSID"

/-- What a file of the kind starts with. -/
def magic (k : TuneKind) : Bytes := k.name.toList.map Text.byte

end TuneKind

/-- The header of a file. -/
structure TuneHeader where
  kind : TuneKind := .psid
  version : UInt16 := 2
  dataOffset : UInt16 := 0x7C
  loadAddress : UInt16 := 0
  initAddress : UInt16
  playAddress : UInt16
  songs : UInt16 := 1
  startSong : UInt16 := 1
  speed : UInt32 := 0
  name : String := ""
  author : String := ""
  released : String := ""
  flags : UInt16 := 0
  startPage : UInt8 := 0
  pageLength : UInt8 := 0
  secondSid : UInt8 := 0
  thirdSid : UInt8 := 0
deriving DecidableEq, Repr

/-- A file. -/
structure Tune where
  header : TuneHeader
  /-- Where the data goes, whether the header says so or the data. -/
  loadAddress : UInt16
  data : Bytes
deriving DecidableEq, Repr

namespace Tune

/-- Bytes of a text in the header. -/
def textLength : Nat := 32

/-- Whether bytes start like a file of either kind. -/
def detect (bytes : Bytes) : Bool :=
  bytes.take 4 == TuneKind.psid.magic || bytes.take 4 == TuneKind.rsid.magic

/-- The kind a file starts with. -/
def readKind : Reader TuneKind := do
  let magic ← Reader.take 4
  if magic = TuneKind.psid.magic then return .psid
  else if magic = TuneKind.rsid.magic then return .rsid
  else failure

/-- The header of a file. -/
def readHeader : Reader TuneHeader := do
  let kind ← readKind
  let version ← Reader.wordBE
  let dataOffset ← Reader.wordBE
  let loadAddress ← Reader.wordBE
  let initAddress ← Reader.wordBE
  let playAddress ← Reader.wordBE
  let songs ← Reader.wordBE
  let startSong ← Reader.wordBE
  let speed ← Reader.longBE
  let name ← Reader.field textLength
  let author ← Reader.field textLength
  let released ← Reader.field textLength
  let header : TuneHeader :=
    { kind, version, dataOffset, loadAddress, initAddress, playAddress, songs, startSong, speed,
      name, author, released }
  if version < 2 then return header
  let flags ← Reader.wordBE
  let startPage ← Reader.byte
  let pageLength ← Reader.byte
  let secondSid ← Reader.byte
  let thirdSid ← Reader.byte
  return { header with flags, startPage, pageLength, secondSid, thirdSid }

/-- The load address and the data behind a header. -/
def locate (header : TuneHeader) (data : Bytes) : Except Failure (UInt16 × Bytes) :=
  if header.loadAddress ≠ 0 then .ok (header.loadAddress, data)
  else
    match data with
    | lo :: hi :: rest => .ok (Word.ofBytes lo hi, rest)
    | _ => .error (.invalidSource .missingLoadAddress)

def parse (bytes : Bytes) : Except Failure Tune := do
  match readHeader bytes with
  | none => throw (.invalidSource .tuneHeader)
  | some (header, _) =>
    if header.version < 1 ∨ 4 < header.version then
      throw (.invalidSource (.tuneVersion header.version))
    if bytes.length < header.dataOffset.toNat then
      throw (.invalidSource (.dataOffset header.dataOffset))
    let (loadAddress, data) ← locate header (bytes.drop header.dataOffset.toNat)
    if Machine.addressSpace < loadAddress.toNat + data.length then
      throw (.invalidSource (.dataTooLong data.length loadAddress))
    return { header, loadAddress, data }

/-- Chips the program drives. -/
def chipCount (t : Tune) : Nat :=
  1 + (t.header.secondSid != 0).toNat + (t.header.thirdSid != 0).toNat

/-- The program in the file. Without an init address it starts where it is loaded, without a
play address it plays from an interrupt. -/
def program (t : Tune) : Program where
  loadAddress := t.loadAddress
  data := t.data
  init := if t.header.initAddress = 0 then t.loadAddress else t.header.initAddress
  play :=
    if t.header.kind = .rsid ∨ t.header.playAddress = 0 then .interrupt
    else .subroutine t.header.playAddress
  song := UInt8.ofNat (min (t.header.startSong.toNat - 1) 255)

/-- Bytes of the header a file of a version is written with. -/
def headerLength (version : UInt16) : Nat := if version < 2 then 0x76 else 0x7C

/-- Write a file. The load address goes into the data. -/
def toBytes (t : Tune) : Bytes :=
  let h := t.header
  let words : List UInt16 :=
    [h.version, UInt16.ofNat (headerLength h.version), 0, h.initAddress, h.playAddress, h.songs,
      h.startSong, UInt16.ofNat (h.speed.toNat / 0x10000), UInt16.ofNat h.speed.toNat]
  let fields := [h.name, h.author, h.released].flatMap (Text.field textLength)
  let extension : Bytes :=
    if h.version < 2 then []
    else Word.toBytesBE h.flags ++ [h.startPage, h.pageLength, h.secondSid, h.thirdSid]
  h.kind.magic ++ words.flatMap Word.toBytesBE ++ fields ++ extension ++
    Word.toBytes t.loadAddress ++ t.data

end Tune

end Chiptune.File
