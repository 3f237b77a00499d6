/-
Containers: a player with its song in a file that says what is where.

A container starts with its load address and a magic word. Blocks follow, each
an id, a length and that many bytes, up to the id `$FF`; what comes after it is
the memory image. Blocks of unknown ids are kept as they are.
-/
import Chiptune.File.Reader
import Chiptune.Failure

namespace Chiptune.File

open Playback

/-- What drives the song. -/
structure Descriptor where
  driverType : UInt8
  codeSize : UInt16
  name : String
  major : UInt8
  minor : UInt8
deriving DecidableEq, Repr

/-- An address with a name. -/
structure StateAddress where
  name : String
  address : UInt16
deriving DecidableEq, Repr

/-- The ways into the player. -/
structure DriverCommon where
  init : UInt16
  stop : UInt16
  play : UInt16
  state : List StateAddress
deriving DecidableEq, Repr

/-- A table of rows in the image, stored column by column. -/
structure TableDescriptor where
  /-- Number of the slot it fills. -/
  kind : UInt8
  id : UInt8
  layout : UInt8
  address : UInt16
  columns : UInt8
  /-- Rows there is room for. -/
  capacity : UInt8
  /-- Rows in use. -/
  used : UInt8
  name : String
deriving DecidableEq, Repr

/-- Where the order lists and sequences are. -/
structure MusicPointers where
  voices : UInt8
  orderLo : UInt16
  orderHi : UInt16
  sequenceLo : UInt16
  sequenceHi : UInt16
  sequenceCount : UInt8
  /-- Address of the initial tempo. -/
  tempo : UInt16
deriving DecidableEq, Repr

/-- Whose song it is. -/
structure SongInfo where
  title : String := ""
  author : String := ""
  released : String := ""
deriving DecidableEq, Repr

/-- A block of the header. -/
structure Block where
  id : UInt8
  payload : Bytes
deriving DecidableEq, Repr

structure Container where
  loadAddress : UInt16
  descriptor : Descriptor
  common : DriverCommon
  tables : List TableDescriptor
  music : MusicPointers
  info : SongInfo
  /-- Blocks of unknown ids. -/
  extraBlocks : List Block
  /-- Memory from the load address on. -/
  image : Bytes
deriving DecidableEq, Repr

namespace Container

/-- The magic word as stored. -/
def magic : Bytes := [0x37, 0x13]

/-- Longest text of the song info. -/
def infoLength : Nat := 32

/-- The id that ends the header. -/
def endId : UInt8 := 0xFF

/-- The id of a known block. -/
def blockId : BlockName → UInt8
  | .descriptor => 1
  | .driverCommon => 2
  | .table => 3
  | .musicData => 5
  | .songInfo => 6

/-- Whether bytes look like a container. -/
def detect (bytes : Bytes) : Bool :=
  decide (4 < bytes.length) && (bytes.drop 2).take 2 == magic

/-! ## Reading -/

/-- A block that is not the end of the header. -/
def readBlock : Reader Block := do
  let id ← Reader.byte
  if id = endId then failure
  let size ← Reader.byte
  let payload ← Reader.take size.toNat
  return { id, payload }

/-- The descriptor block. -/
def readDescriptor : Reader Descriptor := do
  let driverType ← Reader.byte
  let codeSize ← Reader.word
  let name ← Reader.cstring
  let major ← Reader.byte
  let minor ← Reader.byte
  return { driverType, codeSize, name, major, minor }

/-- A named address. -/
def readState : Reader StateAddress := do
  let name ← Reader.cstring
  let address ← Reader.word
  return { name, address }

/-- The block of entry points. -/
def readCommon : Reader DriverCommon := do
  let init ← Reader.word
  let stop ← Reader.word
  let play ← Reader.word
  let state ← Reader.many readState
  return { init, stop, play, state }

/-- A table's descriptor. -/
def readTable : Reader TableDescriptor := do
  let kind ← Reader.byte
  let id ← Reader.byte
  let layout ← Reader.byte
  let address ← Reader.word
  let columns ← Reader.byte
  let capacity ← Reader.byte
  let used ← Reader.byte
  let name ← Reader.cstring
  return { kind, id, layout, address, columns, capacity, used, name }

/-- The block of music pointers. -/
def readMusic : Reader MusicPointers := do
  let voices ← Reader.byte
  let orderLo ← Reader.word
  let orderHi ← Reader.word
  let sequenceLo ← Reader.word
  let sequenceHi ← Reader.word
  let sequenceCount ← Reader.byte
  let tempo ← Reader.word
  return { voices, orderLo, orderHi, sequenceLo, sequenceHi, sequenceCount, tempo }

/-- The song info block. -/
def readInfo : Reader SongInfo := do
  let title ← Reader.cstring
  let author ← Reader.cstring
  let released ← Reader.cstring
  return { title, author, released }

/-- The blocks of a header, as far as they are read. -/
structure Blocks where
  descriptor : Option Descriptor := none
  common : Option DriverCommon := none
  tables : Option (List TableDescriptor) := none
  music : Option MusicPointers := none
  info : SongInfo := {}
  extra : List Block := []

/-- A block's contents; bytes past them are ignored. -/
def contents {α : Type} (name : BlockName) (reader : Reader α) (payload : Bytes) :
    Except Failure α :=
  match reader payload with
  | some (a, _) => .ok a
  | none => .error (.invalidSource (.malformedBlock name))

/-- The blocks with one more; of blocks with the same known id the last one counts. -/
def Blocks.add (bs : Blocks) (b : Block) : Except Failure Blocks :=
  if b.id = blockId .descriptor then
    return { bs with descriptor := some (← contents .descriptor readDescriptor b.payload) }
  else if b.id = blockId .driverCommon then
    return { bs with common := some (← contents .driverCommon readCommon b.payload) }
  else if b.id = blockId .table then
    return { bs with tables := some (← contents .table (Reader.many readTable) b.payload) }
  else if b.id = blockId .musicData then
    return { bs with music := some (← contents .musicData readMusic b.payload) }
  else if b.id = blockId .songInfo then
    return { bs with info := ← contents .songInfo readInfo b.payload }
  else return { bs with extra := bs.extra ++ [b] }

/-- A block that a container cannot be without. -/
def required {α : Type} (name : BlockName) : Option α → Except Failure α
  | some a => .ok a
  | none => .error (.invalidSource (.missingBlock name))

/-- The load address and the blocks of a header. -/
def readHeader : Reader (UInt16 × List Block) := do
  let loadAddress ← Reader.word
  Reader.tag magic
  return (loadAddress, ← Reader.many readBlock)

def parse (bytes : Bytes) : Except Failure Container :=
  match readHeader bytes with
  | none => .error (.invalidSource .containerHeader)
  | some ((loadAddress, blocks), rest) =>
    match rest with
    | [] => .error (.invalidSource .unterminatedHeader)
    | terminator :: image =>
      if terminator ≠ endId then .error (.invalidSource .unterminatedHeader)
      else do
        let found ← blocks.foldlM Blocks.add {}
        let descriptor ← required .descriptor found.descriptor
        let common ← required .driverCommon found.common
        let tables ← required .table found.tables
        let music ← required .musicData found.music
        if Machine.addressSpace < loadAddress.toNat + image.length then
          throw (.invalidSource .imageTooLong)
        return { loadAddress, descriptor, common, tables, music, info := found.info,
                 extraBlocks := found.extra, image }

end Container

/-! ## Writing -/

/-- The contents of the descriptor block. -/
def Descriptor.toBytes (d : Descriptor) : Bytes :=
  d.driverType :: Word.toBytes d.codeSize ++ Text.cstring d.name.toList ++ [d.major, d.minor]

/-- The contents of the block of entry points. -/
def DriverCommon.toBytes (c : DriverCommon) : Bytes :=
  [c.init, c.stop, c.play].flatMap Word.toBytes ++
    c.state.flatMap fun s => Text.cstring s.name.toList ++ Word.toBytes s.address

/-- One table of the table block. -/
def TableDescriptor.toBytes (t : TableDescriptor) : Bytes :=
  [t.kind, t.id, t.layout] ++ Word.toBytes t.address ++ [t.columns, t.capacity, t.used] ++
    Text.cstring t.name.toList

/-- The contents of the block of music pointers. -/
def MusicPointers.toBytes (m : MusicPointers) : Bytes :=
  m.voices :: [m.orderLo, m.orderHi, m.sequenceLo, m.sequenceHi].flatMap Word.toBytes ++
    m.sequenceCount :: Word.toBytes m.tempo

/-- The contents of the song info block. -/
def SongInfo.toBytes (i : SongInfo) : Bytes :=
  [i.title, i.author, i.released].flatMap fun text =>
    Text.cstring (text.toList.take Container.infoLength)

namespace Container

/-- The blocks a container is written with: the known ones in order, then the others. -/
def blocks (c : Container) : List Block :=
  [⟨blockId .descriptor, c.descriptor.toBytes⟩,
    ⟨blockId .driverCommon, c.common.toBytes⟩,
    ⟨blockId .table, c.tables.flatMap TableDescriptor.toBytes⟩,
    ⟨blockId .musicData, c.music.toBytes⟩,
    ⟨blockId .songInfo, c.info.toBytes⟩] ++ c.extraBlocks

/-- A block as written; its length has to fit in a byte. -/
def blockBytes (b : Block) : Except Failure Bytes :=
  if 255 < b.payload.length then .error (.invalidData (.blockTooLong b.id b.payload.length))
  else .ok (b.id :: UInt8.ofNat b.payload.length :: b.payload)

def toBytes (c : Container) : Except Failure Bytes := do
  let header ← c.blocks.mapM blockBytes
  return Word.toBytes c.loadAddress ++ magic ++ header.flatten ++ endId :: c.image

/-! ## Looking into the image -/

/-- The image from an address on. -/
def memoryFrom? (c : Container) (address : UInt16) : Option Bytes :=
  if c.loadAddress ≤ address ∧ address.toNat - c.loadAddress.toNat ≤ c.image.length then
    some (c.image.drop (address.toNat - c.loadAddress.toNat))
  else none

/-- `length` bytes of the image from an address on. -/
def memory? (c : Container) (address : UInt16) (length : Nat) : Option Bytes := do
  let bytes ← c.memoryFrom? address
  if length ≤ bytes.length then some (bytes.take length) else none

/-- The byte of the image at an address. -/
def byte? (c : Container) (address : UInt16) : Option UInt8 :=
  match c.memoryFrom? address with
  | some (b :: _) => some b
  | _ => none

/-- The program in the container. -/
def program (c : Container) : Program where
  loadAddress := c.loadAddress
  data := c.image
  init := c.common.init
  play := .subroutine c.common.play

end Container

end Chiptune.File
