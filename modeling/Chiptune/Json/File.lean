/-
Tunes and containers as JSON.
-/
import Chiptune.File.Container
import Chiptune.File.Tune
import Chiptune.Json.Playback

namespace Chiptune.File

open Json

/-! ## Tunes -/

def TuneHeader.toJson (h : TuneHeader) : Json :=
  ofMembers [("kind", text h.kind.name), ("version", word h.version),
    ("data_offset", word h.dataOffset), ("load_address", word h.loadAddress),
    ("init_address", word h.initAddress), ("play_address", word h.playAddress),
    ("songs", word h.songs), ("start_song", word h.startSong), ("speed", nat h.speed.toNat),
    ("name", text h.name), ("author", text h.author), ("released", text h.released),
    ("flags", word h.flags), ("start_page", byte h.startPage), ("page_length", byte h.pageLength),
    ("second_sid", byte h.secondSid), ("third_sid", byte h.thirdSid)]

/-- A tune in JSON, with its program. -/
def Tune.toJson (t : Tune) : Json :=
  ofMembers [("header", t.header.toJson), ("load_address", word t.loadAddress),
    ("data", hex t.data), ("sid_count", nat t.chipCount), ("program", t.program.toJson)]

/-! ## Containers -/

def Descriptor.toJson (d : Descriptor) : Json :=
  ofMembers [("driver_type", byte d.driverType), ("code_size", word d.codeSize),
    ("name", text d.name), ("version", .array [byte d.major, byte d.minor])]

def Descriptor.ofJson? : Decode Descriptor := fun j => do
  let fs ← j.fields? ["driver_type", "code_size", "name", "version"]
  let (major, minor) ← fs.required "version" (toPair? toByte? toByte?)
  return {
    driverType := ← fs.required "driver_type" toByte?
    codeSize := ← fs.required "code_size" toWord?
    name := ← fs.required "name" toText?
    major, minor }

def StateAddress.toJson (s : StateAddress) : Json := .array [text s.name, word s.address]

def StateAddress.ofJson? : Decode StateAddress := fun j =>
  (toPair? toText? toWord? j).map fun (name, address) => { name, address }

def DriverCommon.toJson (c : DriverCommon) : Json :=
  ofMembers [("init", word c.init), ("stop", word c.stop), ("play", word c.play),
    ("state", list StateAddress.toJson c.state)]

def DriverCommon.ofJson? : Decode DriverCommon := fun j => do
  let fs ← j.fields? ["init", "stop", "play", "state"]
  return {
    init := ← fs.required "init" toWord?
    stop := ← fs.required "stop" toWord?
    play := ← fs.required "play" toWord?
    state := ← fs.required "state" (toList? StateAddress.ofJson?) }

def TableDescriptor.toJson (t : TableDescriptor) : Json :=
  ofMembers [("kind", byte t.kind), ("id", byte t.id), ("layout", byte t.layout),
    ("address", word t.address), ("columns", byte t.columns), ("capacity", byte t.capacity),
    ("used", byte t.used), ("name", text t.name)]

def TableDescriptor.ofJson? : Decode TableDescriptor := fun j => do
  let fs ← j.fields? ["kind", "id", "layout", "address", "columns", "capacity", "used", "name"]
  return {
    kind := ← fs.required "kind" toByte?
    id := ← fs.required "id" toByte?
    layout := ← fs.required "layout" toByte?
    address := ← fs.required "address" toWord?
    columns := ← fs.required "columns" toByte?
    capacity := ← fs.required "capacity" toByte?
    used := ← fs.required "used" toByte?
    name := ← fs.required "name" toText? }

def MusicPointers.toJson (m : MusicPointers) : Json :=
  ofMembers [("voices", byte m.voices), ("order_lo", word m.orderLo), ("order_hi", word m.orderHi),
    ("sequence_lo", word m.sequenceLo), ("sequence_hi", word m.sequenceHi),
    ("sequence_count", byte m.sequenceCount), ("tempo", word m.tempo)]

def MusicPointers.ofJson? : Decode MusicPointers := fun j => do
  let fs ← j.fields? ["voices", "order_lo", "order_hi", "sequence_lo", "sequence_hi",
    "sequence_count", "tempo"]
  return {
    voices := ← fs.required "voices" toByte?
    orderLo := ← fs.required "order_lo" toWord?
    orderHi := ← fs.required "order_hi" toWord?
    sequenceLo := ← fs.required "sequence_lo" toWord?
    sequenceHi := ← fs.required "sequence_hi" toWord?
    sequenceCount := ← fs.required "sequence_count" toByte?
    tempo := ← fs.required "tempo" toWord? }

def SongInfo.toJson (i : SongInfo) : Json :=
  ofMembers [("title", text i.title), ("author", text i.author), ("released", text i.released)]

def SongInfo.ofJson? : Decode SongInfo := fun j => do
  let fs ← j.fields? ["title", "author", "released"]
  return {
    title := ← fs.required "title" toText?
    author := ← fs.required "author" toText?
    released := ← fs.required "released" toText? }

def Block.toJson (b : Block) : Json := .array [byte b.id, hex b.payload]

def Block.ofJson? : Decode Block := fun j =>
  (toPair? toByte? toHex? j).map fun (id, payload) => { id, payload }

def Container.toJson (c : Container) : Json :=
  ofMembers [("load_address", word c.loadAddress), ("descriptor", c.descriptor.toJson),
    ("common", c.common.toJson), ("tables", list TableDescriptor.toJson c.tables),
    ("music", c.music.toJson), ("info", c.info.toJson),
    ("extra_blocks", list Block.toJson c.extraBlocks), ("image", hex c.image)]

def Container.ofJson? : Decode Container := fun j => do
  let fs ← j.fields? ["load_address", "descriptor", "common", "tables", "music", "info",
    "extra_blocks", "image"]
  return {
    loadAddress := ← fs.required "load_address" toWord?
    descriptor := ← fs.required "descriptor" Descriptor.ofJson?
    common := ← fs.required "common" DriverCommon.ofJson?
    tables := ← fs.required "tables" (toList? TableDescriptor.ofJson?)
    music := ← fs.required "music" MusicPointers.ofJson?
    info := ← fs.required "info" SongInfo.ofJson?
    extraBlocks := ← fs.required "extra_blocks" (toList? Block.ofJson?)
    image := ← fs.required "image" toHex? }

end Chiptune.File
