/-
Putting a song into a player: a container that plays it.

The image holds, without gaps, what the layout places: the code with its
addresses moved, the variables, the slots with the song's rows, the frequency
table, the tempo, the pointers to order lists and sequences, and these.
-/
import Chiptune.File.Container
import Chiptune.Player.Columns
import Chiptune.Player.Fit
import Chiptune.Player.Music
import Chiptune.Player.Patch

namespace Chiptune.Player

open File Song

/-- How to encode a song. -/
structure EncodeOptions where
  /-- Where the player goes; the template says it if this does not. -/
  base : Option UInt16 := none
  policy : Policy := .fail
deriving DecidableEq, Repr

/-- An encoded song. -/
structure Encoded where
  base : UInt16
  /-- The container's bytes. -/
  bytes : Bytes
  container : Container
  /-- The patches that moved the code. -/
  patches : List Patch
  degradations : List Degradation
deriving DecidableEq, Repr

/-- Whether the encoded song differs audibly from the song. -/
def Encoded.isLossy (e : Encoded) : Bool := e.degradations.any (·.isLossy)

namespace Encode

/-! ## Music data -/

/-- Addresses of blocks that follow each other from `address` on. -/
def addresses (address : Nat) : List Bytes → List UInt16
  | [] => []
  | block :: rest => UInt16.ofNat address :: addresses (address + block.length) rest

/-- Low bytes and then high bytes of addresses, each half filled up to `capacity` bytes. -/
def pointerTable (capacity : Nat) (pointers : List UInt16) : Bytes :=
  Rows.fill capacity (pointers.map Word.low) ++ Rows.fill capacity (pointers.map Word.high)

/-- The order lists and sequences of a song. -/
structure MusicData where
  orders : List Bytes
  sequences : List Bytes

namespace MusicData

/-- The order lists and sequences of a song with its commands. -/
def of (s : Song) (commands : List Command) : MusicData where
  orders := s.orderLists.map Music.encodeOrderList
  sequences := s.sequences.map (Music.encodeSequence commands)

/-- The order lists and, after them, the sequences. -/
def bytes (m : MusicData) : Bytes := m.orders.flatten ++ m.sequences.flatten

/-- Addresses of the order lists. -/
def orderPointers (m : MusicData) (l : Layout) : List UInt16 := addresses l.music.toNat m.orders

/-- Addresses of the sequences. -/
def sequencePointers (m : MusicData) (l : Layout) : List UInt16 :=
  addresses (l.music.toNat + m.orders.flatten.length) m.sequences

end MusicData

/-! ## Slots -/

/-- The rows of a slot. -/
def slotRows (s : Song) (commands : List Command) (place : SlotPlace) : Job (List Bytes) :=
  match place.slot with
  | .instruments => pure (s.instruments.map Rows.encodeInstrument)
  | .commands => pure (commands.map Rows.encodeCommand)
  | .wave | .pulse | .filter | .arpeggio =>
    match place.slot.table?.bind s.table? with
    | none => pure []
    | some table => do
      let rows ← Job.ofExcept (Rows.encodeTable table place.columns.toNat)
      match Rows.tableLoss? table with
      | some loss => Job.degrade loss
      | none => pure ()
      return rows

/-- A slot filled with rows. A program table that is not full has an end after its last row. -/
def slotBlock (place : SlotPlace) (rows : List Bytes) : Bytes :=
  let capacity := place.capacity.toNat
  let block := Columns.write capacity (List.replicate place.size 0) rows
  match place.slot.table? with
  | some kind =>
    if rows.length < capacity then block.set rows.length (Rows.endOf kind) else block
  | none => block

/-- A slot's entry in the container. -/
def slotDescriptor (t : Template) (id : Nat) (place : SlotPlace) (used : Nat) :
    TableDescriptor where
  kind := place.slot.id
  id := UInt8.ofNat id
  layout := 0
  address := place.address
  columns := place.columns
  capacity := place.capacity
  used := UInt8.ofNat used
  name := ((t.spec? place.slot).map (·.name)).getD ""

/-! ## The container -/

/-- Frequency register values of the pitches a song can use. -/
def frequencies : List UInt16 := (List.range Sound.Pitch.count).map Sound.Pitch.frequency

/-- The image of a player with a song. -/
def image (t : Template) (l : Layout) (code : Bytes) (s : Song)
    (slots : List (SlotPlace × List Bytes)) (music : MusicData) : Bytes :=
  code ++ List.replicate t.variableBytes.toNat 0 ++
    (slots.flatMap fun (place, rows) => slotBlock place rows) ++
    pointerTable Sound.Pitch.count frequencies ++ [s.tempo] ++
    pointerTable voiceCount (music.orderPointers l) ++
    pointerTable t.maxSequences.toNat (music.sequencePointers l) ++ music.bytes

/-- The container of a player with a song. -/
def container (t : Template) (l : Layout) (code : Bytes) (s : Song)
    (slots : List (SlotPlace × List Bytes)) (music : MusicData) : Container where
  loadAddress := l.base
  descriptor :=
    { driverType := t.driverType, codeSize := UInt16.ofNat code.length, name := t.name,
      major := t.major, minor := t.minor }
  common :=
    { init := l.base + t.entry.init
      stop := l.base + t.entry.stop
      play := l.base + t.entry.play
      state := t.statePointers.filterMap fun p =>
        (l.address? p.symbol).map fun address => ⟨p.name, address + p.addend⟩ }
  tables := slots.zipIdx.map fun ((place, rows), id) => slotDescriptor t id place rows.length
  music :=
    { voices := UInt8.ofNat voiceCount
      orderLo := l.orderLo
      orderHi := l.orderHi
      sequenceLo := l.sequenceLo
      sequenceHi := l.sequenceHi
      sequenceCount := UInt8.ofNat s.sequences.length
      tempo := l.settings }
  info := { title := s.title, author := s.author, released := s.released }
  extraBlocks := []
  image := image t l code s slots music

/-- Refuse a song with faults. -/
def requireWellFormed (s : Song) : Job Unit :=
  match s.faults with
  | [] => pure ()
  | faults => throw (.malformedSong faults)

/-- Encode a song: the container, the patches of the code and where it goes. -/
def build (s : Song) (t : Template) (options : EncodeOptions) :
    Job (Container × List Patch × UInt16) := do
  requireWellFormed s
  let base := options.base.getD t.base
  let l ← Job.ofExcept (Layout.of t base)
  let patches ← Job.ofExcept (Patch.derive t l)
  let code ← Job.ofExcept (Patch.applied t.code patches)
  let s ← Fit.drop t s
  let (s, commands) ← Fit.cut t options.policy s
  requireWellFormed s
  let music := MusicData.of s commands
  if l.musicCapacity < music.bytes.length then
    throw (.capacityExceeded .musicData music.bytes.length l.musicCapacity)
  if l.music < l.base then throw (.invalidTemplate t.name (.noMusicAddress base))
  let slots ← l.slots.mapM fun place => do return (place, ← slotRows s commands place)
  return (container t l code s slots music, patches, base)

end Encode

/-- Encode a song with a template. -/
def encode (s : Song) (t : Template) (options : EncodeOptions) : Job Encoded := do
  let ((container, patches, base), degradations) ← Job.collecting (Encode.build s t options)
  let bytes ← Job.ofExcept container.toBytes
  let encoded := { base, bytes, container, patches, degradations }
  if encoded.isLossy then Job.notice (.lossy t.name degradations.length)
  return encoded

end Chiptune.Player
