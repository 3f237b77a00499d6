/-
Songs, and what is wrong with them, as JSON.
-/
import Chiptune.Json.Decode
import Chiptune.Song.Fault

namespace Chiptune.Song

open Json

/-! ## Tables and instruments -/

def Provenance.name : Provenance → String
  | .static => "Static"
  | .dynamic => "Dynamic"
  | .merged => "Merged"

def Provenance.toJson (p : Provenance) : Json := text p.name

def Provenance.ofJson? : Decode Provenance :=
  toChoice? Provenance.name [.static, .dynamic, .merged]

def TableKind.toJson (k : TableKind) : Json := text k.name

def TableKind.ofJson? : Decode TableKind := toChoice? TableKind.name TableKind.all

def Row.toJson : Row → Json
  | .step bytes => tagged "Step" (list byte bytes)
  | .loop target => tagged "Loop" (byte target)
  | .stop => text "End"

def Row.ofJson? : Decode Row := fun j => do
  match ← j.variant? with
  | ("Step", some value) => return .step (← toList? toByte? value)
  | ("Loop", some value) => return .loop (← value.toByte?)
  | ("End", payload) => if isNothing payload then some .stop else none
  | _ => none

def Table.toJson (t : Table) : Json :=
  ofMembers [("kind", t.kind.toJson), ("rows", list Row.toJson t.rows),
    ("provenance", t.provenance.toJson)]

def Table.ofJson? : Decode Table := fun j => do
  let fs ← j.fields? ["kind", "rows", "provenance"]
  return {
    kind := ← fs.required "kind" TableKind.ofJson?
    rows := ← fs.required "rows" (toList? Row.ofJson?)
    provenance := ← fs.withDefault "provenance" Provenance.ofJson? .static }

def Instrument.toJson (i : Instrument) : Json :=
  ofMembers [("attack_decay", byte i.attackDecay), ("sustain_release", byte i.sustainRelease),
    ("wave", byte i.wave), ("pulse", nullable byte i.pulse), ("filter", nullable byte i.filter),
    ("hard_restart", .bool i.hardRestart)]

def Instrument.ofJson? : Decode Instrument := fun j => do
  let fs ← j.fields? ["attack_decay", "sustain_release", "wave", "pulse", "filter",
    "hard_restart"]
  return {
    attackDecay := ← fs.required "attack_decay" toByte?
    sustainRelease := ← fs.required "sustain_release" toByte?
    wave := ← fs.required "wave" toByte?
    pulse := ← fs.optional "pulse" toByte?
    filter := ← fs.optional "filter" toByte?
    hardRestart := ← fs.withDefault "hard_restart" toBool? false }

/-! ## Sequences and order lists -/

def Command.toJson (c : Command) : Json :=
  ofMembers [("kind", text c.kind.name), ("args", .array [byte c.first, byte c.second])]

def Command.ofJson? : Decode Command := fun j => do
  let fs ← j.fields? ["kind", "args"]
  let kind ← fs.required "kind" (toChoice? CommandKind.name CommandKind.all)
  match ← fs.required "args" (toList? toByte?) with
  | [first, second] => return { kind, first, second }
  | _ => none

def Event.toJson : Event → Json
  | .noteOn pitch => tagged "NoteOn" (byte pitch)
  | .noteOff => text "NoteOff"
  | .tie => text "Tie"
  | .setInstrument id => tagged "SetInstrument" (byte id)
  | .setCommand c => tagged "SetCommand" c.toJson
  | .rest rows => tagged "Rest" (byte rows)

def Event.ofJson? : Decode Event := fun j => do
  match ← j.variant? with
  | ("NoteOn", some value) => return .noteOn (← value.toByte?)
  | ("SetInstrument", some value) => return .setInstrument (← value.toByte?)
  | ("SetCommand", some value) => return .setCommand (← Command.ofJson? value)
  | ("Rest", some value) => return .rest (← value.toByte?)
  | ("NoteOff", payload) => if isNothing payload then some .noteOff else none
  | ("Tie", payload) => if isNothing payload then some .tie else none
  | _ => none

def Sequence.toJson (s : Sequence) : Json :=
  ofMembers [("events", list Event.toJson s.events), ("provenance", s.provenance.toJson)]

def Sequence.ofJson? : Decode Sequence := fun j => do
  let fs ← j.fields? ["events", "provenance"]
  return {
    events := ← fs.required "events" (toList? Event.ofJson?)
    provenance := ← fs.withDefault "provenance" Provenance.ofJson? .static }

def OrderEntry.toJson (e : OrderEntry) : Json :=
  ofMembers [("transpose", int e.transpose.toInt), ("sequence", byte e.sequence)]

def OrderEntry.ofJson? : Decode OrderEntry := fun j => do
  let fs ← j.fields? ["transpose", "sequence"]
  return {
    transpose := Int8.ofInt (← fs.required "transpose" (toIntBetween? (-128) 127))
    sequence := ← fs.required "sequence" toByte? }

def OrderEnd.toJson : OrderEnd → Json
  | .loop target => tagged "Loop" (byte target)
  | .stop => text "Stop"

def OrderEnd.ofJson? : Decode OrderEnd := fun j => do
  match ← j.variant? with
  | ("Loop", some value) => return .loop (← value.toByte?)
  | ("Stop", payload) => if isNothing payload then some .stop else none
  | _ => none

def OrderList.toJson (l : OrderList) : Json :=
  ofMembers [("entries", list OrderEntry.toJson l.entries), ("end", l.finish.toJson)]

def OrderList.ofJson? : Decode OrderList := fun j => do
  let fs ← j.fields? ["entries", "end"]
  return {
    entries := ← fs.required "entries" (toList? OrderEntry.ofJson?)
    finish := ← fs.required "end" OrderEnd.ofJson? }

/-! ## Songs -/

def toJson (s : Song) : Json :=
  ofMembers [("title", text s.title), ("author", text s.author), ("released", text s.released),
    ("tempo", byte s.tempo), ("instruments", list Instrument.toJson s.instruments),
    ("tables", list Table.toJson s.tables), ("sequences", list Sequence.toJson s.sequences),
    ("order_lists", list OrderList.toJson s.orderLists),
    ("instrument_provenance", s.instrumentProvenance.toJson)]

def ofJson? : Decode Song := fun j => do
  let fs ← j.fields? ["title", "author", "released", "tempo", "instruments", "tables",
    "sequences", "order_lists", "instrument_provenance"]
  return {
    title := ← fs.withDefault "title" toText? ""
    author := ← fs.withDefault "author" toText? ""
    released := ← fs.withDefault "released" toText? ""
    tempo := ← fs.required "tempo" toByte?
    instruments := ← fs.required "instruments" (toList? Instrument.ofJson?)
    tables := ← fs.required "tables" (toList? Table.ofJson?)
    sequences := ← fs.required "sequences" (toList? Sequence.ofJson?)
    orderLists := ← fs.required "order_lists" (toList? OrderList.ofJson?)
    instrumentProvenance :=
      ← fs.withDefault "instrument_provenance" Provenance.ofJson? .static }

def Origins.toJson (o : Origins) : Json :=
  ofMembers [("instruments", o.instruments.toJson),
    ("tables", list (fun (k, p) => .array [k.toJson, p.toJson]) o.tables),
    ("static_sequences", nat o.staticSequences), ("dynamic_sequences", nat o.dynamicSequences),
    ("merged_sequences", nat o.mergedSequences)]

def Fault.toJson : Fault → Json
  | .voiceCount found => tagged "VoiceCount" (ofMembers [("found", nat found)])
  | .zeroTempo => text "ZeroTempo"
  | .duplicateTable kind => tagged "DuplicateTable" (ofMembers [("kind", kind.toJson)])
  | .missingSequence voice entry sequence =>
    tagged "MissingSequence"
      (ofMembers [("voice", nat voice), ("entry", nat entry), ("sequence", byte sequence)])
  | .orderLoopOutOfBounds voice target length =>
    tagged "OrderLoopOutOfBounds"
      (ofMembers [("voice", nat voice), ("target", byte target), ("len", nat length)])
  | .transposeOutOfRange voice entry transpose =>
    tagged "TransposeOutOfRange" (ofMembers [("voice", nat voice), ("entry", nat entry),
      ("transpose", int transpose.toInt)])
  | .pitchOutOfRange voice entry pitch =>
    tagged "PitchOutOfRange"
      (ofMembers [("voice", nat voice), ("entry", nat entry), ("pitch", int pitch)])
  | .missingInstrument sequence event instrument =>
    tagged "MissingInstrument" (ofMembers [("sequence", nat sequence), ("event", nat event),
      ("instrument", byte instrument)])
  | .zeroRest sequence event =>
    tagged "ZeroRest" (ofMembers [("sequence", nat sequence), ("event", nat event)])
  | .invalidCommand sequence event fault =>
    tagged "InvalidCommand" (ofMembers [("sequence", nat sequence), ("event", nat event),
      ("reason", text fault.message)])
  | .tableIndexOutOfBounds instrument kind index length =>
    tagged "TableIndexOutOfBounds" (ofMembers [("instrument", nat instrument),
      ("kind", kind.toJson), ("index", byte index), ("len", nat length)])
  | .tableLoopOutOfBounds kind row target =>
    tagged "TableLoopOutOfBounds"
      (ofMembers [("kind", kind.toJson), ("row", nat row), ("target", byte target)])
  | .loopToLoop kind row target =>
    tagged "LoopToLoop"
      (ofMembers [("kind", kind.toJson), ("row", nat row), ("target", byte target)])
  | .tableOverflow kind rows =>
    tagged "TableOverflow" (ofMembers [("kind", kind.toJson), ("rows", nat rows)])
  | .unterminatedTable kind => tagged "UnterminatedTable" (ofMembers [("kind", kind.toJson)])
  | .emptyOrderLoop voice target =>
    tagged "EmptyOrderLoop" (ofMembers [("voice", nat voice), ("target", byte target)])
  | .stepWidth kind row expected found =>
    tagged "StepWidth" (ofMembers [("kind", kind.toJson), ("row", nat row),
      ("expected", nat expected), ("found", nat found)])

end Chiptune.Song
