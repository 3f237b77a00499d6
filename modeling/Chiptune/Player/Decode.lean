/-
Reading the song of a container whose player is of the kind that `encode`
writes.
-/
import Chiptune.File.Container
import Chiptune.Player.Columns
import Chiptune.Player.Music
import Chiptune.Player.Rows

namespace Chiptune.Player

open File Song

namespace Decode

/-- The rows in use of a container's table. -/
def tableRows (c : Container) (t : TableDescriptor) : Except Failure (List Bytes) :=
  let columns := t.columns.toNat
  let capacity := t.capacity.toNat
  match c.memory? t.address (columns * capacity) with
  | some block => .ok (Columns.read block columns capacity t.used.toNat)
  | none => .error (.invalidSource (.tableOutside t.name))

/-- The pointer number `index` of a table with its low bytes at `lo` and its high bytes at
`hi`. Addresses do not wrap at the top of memory. -/
def pointer (c : Container) (lo hi : UInt16) (index : Nat) : Except Failure UInt16 :=
  if Machine.addressSpace ≤ max lo.toNat hi.toNat + index then
    .error (.invalidSource (.pointerPastMemory index))
  else
    let offset := UInt16.ofNat index
    match c.byte? (lo + offset), c.byte? (hi + offset) with
    | some lo, some hi => .ok (Word.ofBytes lo hi)
    | _, _ => .error (.invalidSource (.pointerOutside index))

/-- The image from an address on. -/
def memoryFrom (c : Container) (address : UInt16) (fault : DataFault) : Except Failure Bytes :=
  match c.memoryFrom? address with
  | some bytes => .ok bytes
  | none => .error (.invalidData fault)

/-- The rows read so far. -/
structure Found where
  instruments : List Instrument := []
  commands : List Command := []
  /-- Program tables in the order of the container. -/
  tables : List Table := []

/-- What was found, with one more table. Tables of unknown kinds and tables without rows are
left out, and of several tables of instruments or commands the last one counts. -/
def Found.add (found : Found) (c : Container) (t : TableDescriptor) : Except Failure Found :=
  match Slot.ofId? t.kind with
  | none => .ok found
  | some slot =>
    if t.used = 0 then .ok found
    else do
      let rows ← tableRows c t
      match slot with
      | .instruments => return { found with instruments := rows.map Rows.decodeInstrument }
      | .commands => return { found with commands := ← rows.mapM Rows.decodeCommand }
      | .wave | .pulse | .filter | .arpeggio =>
        match slot.table? with
        | some kind =>
          return { found with tables := found.tables ++ [(Rows.decodeTable kind rows).closed] }
        | none => return found

/-- The sequence number `index`. -/
def sequence (c : Container) (commands : List Command) (index : Nat) :
    Except Failure Sequence := do
  let address ← pointer c c.music.sequenceLo c.music.sequenceHi index
  Music.decodeSequence commands (← memoryFrom c address (.sequenceOutside index))

/-- The order list of a voice. -/
def orderList (c : Container) (voice : Nat) : Except Failure OrderList := do
  let address ← pointer c c.music.orderLo c.music.orderHi voice
  Music.decodeOrderList (← memoryFrom c address (.orderListOutside voice))

end Decode

/-- The song in a container. -/
def decode (c : Container) : Except Failure Song := do
  if c.music.voices.toNat ≠ voiceCount then
    throw (.incompatible (.voices c.music.voices))
  match c.byte? c.music.tempo with
  | none => throw (.invalidData .tempoOutside)
  | some tempo =>
    let found ← c.tables.foldlM (fun found t => found.add c t) ({} : Decode.Found)
    let sequences ← (List.range c.music.sequenceCount.toNat).mapM (Decode.sequence c found.commands)
    let orderLists ← (List.range voiceCount).mapM (Decode.orderList c)
    return { title := c.info.title, author := c.info.author, released := c.info.released,
             tempo, instruments := found.instruments, tables := sortTables found.tables,
             sequences, orderLists }

end Chiptune.Player
