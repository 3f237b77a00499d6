/-
Profiles as JSON.

The records of a table or of the instruments stand among the table's or the
instruments' own fields, so those two are written as objects only.
-/
import Chiptune.Analysis.Profile
import Chiptune.Failure
import Chiptune.Json.Decode
import Chiptune.Json.Reader

namespace Chiptune.Analysis

open Json Song

/-! ## Locations and records -/

def Location.toJson : Location → Json
  | .fixed address => tagged "fixed" (word address)
  | .relative offset => tagged "relative" (word offset)
  | .pointer address => tagged "pointer" (word address)
  | .signature pattern offset deref =>
    tagged "signature"
      (ofMembers [("pattern", text pattern), ("offset", int offset), ("deref", .bool deref)])

def Location.ofJson? : Decode Location := fun j => do
  match ← j.variant? with
  | ("fixed", some value) => return .fixed (← value.toWord?)
  | ("relative", some value) => return .relative (← value.toWord?)
  | ("pointer", some value) => return .pointer (← value.toWord?)
  | ("signature", some value) =>
    let fs ← value.fields? ["pattern", "offset", "deref"]
    return .signature (← fs.required "pattern" toText?)
      (← fs.withDefault "offset" (toIntBetween? (-0x80000000) 0x7FFFFFFF) 0)
      (← fs.withDefault "deref" toBool? false)
  | _ => none

def Arrangement.toJson : Arrangement → Json
  | .rowMajor => text "row_major"
  | .columnMajor stride => tagged "column_major" (ofMembers [("stride", word stride)])

def Arrangement.ofJson? : Decode Arrangement := fun j => do
  match ← j.variant? with
  | ("row_major", none) | ("row_major", some .null) | ("row_major", some (.object [])) =>
    return .rowMajor
  | ("column_major", some value) =>
    let fs ← value.fields? ["stride"]
    return .columnMajor (← fs.required "stride" toWord?)
  | _ => none

def BlockEnd.toJson : BlockEnd → Json
  | .terminator column value ambiguousZero =>
    tagged "terminator" (ofMembers [("column", byte column), ("value", byte value),
      ("ambiguous_zero", .bool ambiguousZero)])
  | .count n => tagged "fixed_count" (nat n)

def BlockEnd.ofJson? : Decode BlockEnd := fun j => do
  match ← j.variant? with
  | ("terminator", some value) =>
    let fs ← value.fields? ["column", "value", "ambiguous_zero"]
    return .terminator (← fs.required "column" toByte?) (← fs.required "value" toByte?)
      (← fs.withDefault "ambiguous_zero" toBool? false)
  | ("fixed_count", some value) => return .count (← value.toSize?)
  | _ => none

namespace RecordSource

/-- The members of a block of records. -/
def members (r : RecordSource) : List (String × Json) :=
  [("address", r.location.toJson), ("columns", byte r.columns),
    ("layout", r.arrangement.toJson), ("end", r.finish.toJson), ("max_rows", nat r.maxRows)]

/-- The names of the fields of a block of records. -/
def fieldNames : List String := ["address", "columns", "layout", "end", "max_rows"]

/-- The block of records among some fields. -/
def ofFields? (fs : Fields) : Option RecordSource := do
  return {
    location := ← fs.required "address" Location.ofJson?
    columns := ← fs.required "columns" toByte?
    arrangement := ← fs.withDefault "layout" Arrangement.ofJson? .rowMajor
    finish := ← fs.required "end" BlockEnd.ofJson?
    maxRows := ← fs.withDefault "max_rows" toSize? 256 }

def ofJson? : Decode RecordSource := fun j => (j.fields? fieldNames).bind ofFields?

end RecordSource

/-! ## Tables and instruments -/

/-- Levels that a profile's text may have in all. -/
def maxDepth : Nat := 127

/-- The level of a table in a profile. -/
def tableDepth : Nat := 5

/-- The level of the instruments in a profile. -/
def instrumentDepth : Nat := 4

def TableSource.toJson (t : TableSource) : Json :=
  ofMembers (("kind", text t.kind.name) :: t.records.members ++
    [("mapping", list byte t.mapping), ("loop_marker", nullable byte t.loopMarker),
      ("end_marker", nullable byte t.endMarker)])

def TableSource.ofJson? : Decode TableSource := fun j => do
  let fs ← j.mergedFields? (maxDepth - tableDepth)
    ["kind", "mapping", "loop_marker", "end_marker"] RecordSource.fieldNames
  return {
    kind := ← fs.required "kind" (toChoice? TableKind.name TableKind.all)
    records := ← RecordSource.ofFields? fs
    mapping := ← fs.withDefault "mapping" (toList? toByte?) []
    loopMarker := ← fs.optional "loop_marker" toByte?
    endMarker := ← fs.optional "end_marker" toByte? }

def InstrumentSource.toJson (i : InstrumentSource) : Json :=
  ofMembers (i.records.members ++
    [("attack_decay", byte i.attackDecay), ("sustain_release", byte i.sustainRelease),
      ("wave", byte i.wave), ("pulse", nullable byte i.pulse), ("filter", nullable byte i.filter),
      ("flags", nullable byte i.flags), ("none_value", byte i.noneValue),
      ("hard_restart_mask", byte i.hardRestartMask)])

/-- Where JSON says the instruments are. -/
def InstrumentSource.ofJson? : Decode InstrumentSource := fun j => do
  let fs ← j.mergedFields? (maxDepth - instrumentDepth)
    ["attack_decay", "sustain_release", "wave", "pulse", "filter", "flags", "none_value",
      "hard_restart_mask"] RecordSource.fieldNames
  return {
    records := ← RecordSource.ofFields? fs
    attackDecay := ← fs.required "attack_decay" toByte?
    sustainRelease := ← fs.required "sustain_release" toByte?
    wave := ← fs.required "wave" toByte?
    pulse := ← fs.optional "pulse" toByte?
    filter := ← fs.optional "filter" toByte?
    flags := ← fs.optional "flags" toByte?
    noneValue := ← fs.withDefault "none_value" toByte? 0xFF
    hardRestartMask := ← fs.withDefault "hard_restart_mask" toByte? 0x01 }

/-! ## Sequences and order lists -/

def SequenceSource.toJson (s : SequenceSource) : Json :=
  ofMembers [("lo", s.lo.toJson), ("hi", s.hi.toJson), ("count", nat s.count)]

/-- Where JSON says the pointers to the sequences are. -/
def SequenceSource.ofJson? : Decode SequenceSource := fun j => do
  let fs ← j.fields? ["lo", "hi", "count"]
  return {
    lo := ← fs.required "lo" Location.ofJson?
    hi := ← fs.required "hi" Location.ofJson?
    count := ← fs.required "count" toSize? }

def ByteRange.toJson (r : ByteRange) : Json :=
  ofMembers [("start", byte r.first), ("end", byte r.last)]

def ByteRange.ofJson? : Decode ByteRange := fun j => do
  let fs ← j.fields? ["start", "end"]
  return { first := ← fs.required "start" toByte?, last := ← fs.required "end" toByte? }

def SequenceCode.toJson (c : SequenceCode) : Json :=
  ofMembers [("note", c.note.toJson), ("note_base", byte c.noteBase),
    ("instrument", nullable ByteRange.toJson c.instrument),
    ("duration", nullable ByteRange.toJson c.duration),
    ("command", nullable ByteRange.toJson c.command), ("gate_off", nullable byte c.gateOff),
    ("tie", nullable byte c.tie), ("rest", nullable byte c.rest), ("end", byte c.finish)]

/-- What JSON says a sequence's bytes mean. -/
def SequenceCode.ofJson? : Decode SequenceCode := fun j => do
  let fs ← j.fields? ["note", "note_base", "instrument", "duration", "command", "gate_off", "tie",
    "rest", "end"]
  return {
    note := ← fs.required "note" ByteRange.ofJson?
    noteBase := ← fs.withDefault "note_base" toByte? 0
    instrument := ← fs.optional "instrument" ByteRange.ofJson?
    duration := ← fs.optional "duration" ByteRange.ofJson?
    command := ← fs.optional "command" ByteRange.ofJson?
    gateOff := ← fs.optional "gate_off" toByte?
    tie := ← fs.optional "tie" toByte?
    rest := ← fs.optional "rest" toByte?
    finish := ← fs.required "end" toByte? }

def OrderCode.toJson (c : OrderCode) : Json :=
  ofMembers [("transpose", c.transpose.toJson), ("center", byte c.center), ("stop", byte c.stop),
    ("loop_marker", byte c.loop)]

/-- What JSON says an order list's bytes mean. -/
def OrderCode.ofJson? : Decode OrderCode := fun j => do
  let fs ← j.fields? ["transpose", "center", "stop", "loop_marker"]
  return {
    transpose := ← fs.required "transpose" ByteRange.ofJson?
    center := ← fs.required "center" toByte?
    stop := ← fs.required "stop" toByte?
    loop := ← fs.required "loop_marker" toByte? }

def TempoSource.toJson : TempoSource → Json
  | .fixed tempo => tagged "fixed" (Json.byte tempo)
  | .byte location => tagged "at" location.toJson

/-- Where JSON says the tempo is. -/
def TempoSource.ofJson? : Decode TempoSource := fun j => do
  match ← j.variant? with
  | ("fixed", some value) => return .fixed (← value.toByte?)
  | ("at", some value) => return .byte (← Location.ofJson? value)
  | _ => none

/-! ## Profiles -/

def RangeCoded.toJson (l : RangeCoded) : Json :=
  ofMembers [("tables", list TableSource.toJson l.tables), ("instruments", l.instruments.toJson),
    ("sequences", l.sequences.toJson), ("order_lists", list Location.toJson l.orderLists),
    ("sequence_encoding", l.sequenceCode.toJson), ("order_encoding", l.orderCode.toJson),
    ("tempo", l.tempo.toJson)]

def RangeCoded.ofJson? : Decode RangeCoded := fun j => do
  let fs ← j.fields? ["tables", "instruments", "sequences", "order_lists", "sequence_encoding",
    "order_encoding", "tempo"]
  return {
    tables := ← fs.withDefault "tables" (toList? TableSource.ofJson?) []
    instruments := ← fs.required "instruments" InstrumentSource.ofJson?
    sequences := ← fs.required "sequences" SequenceSource.ofJson?
    orderLists := ← fs.required "order_lists" (toList? Location.ofJson?)
    sequenceCode := ← fs.required "sequence_encoding" SequenceCode.ofJson?
    orderCode := ← fs.required "order_encoding" OrderCode.ofJson?
    tempo := ← fs.required "tempo" TempoSource.ofJson? }

def Decoder.toJson : Decoder → Json
  | .native => text "native"
  | .rangeCoded layout => tagged "range_coded" layout.toJson
  | .none => text "none"

def Decoder.ofJson? : Decode Decoder := fun j => do
  match ← j.variant? with
  | ("native", payload) => if isNothing payload then return .native else failure
  | ("none", payload) => if isNothing payload then return .none else failure
  | ("range_coded", some value) => return .rangeCoded (← RangeCoded.ofJson? value)
  | _ => failure

namespace Profile

def toJson (p : Profile) : Json :=
  ofMembers [("name", text p.name), ("family", text p.family),
    ("signature", nullable text p.signature), ("dynamic", .bool p.emulated),
    ("decoder", p.decoder.toJson)]

def ofJson? : Decode Profile := fun j => do
  let fs ← j.fields? ["name", "family", "signature", "dynamic", "decoder"]
  return {
    name := ← fs.required "name" toText?
    family := ← fs.required "family" toText?
    signature := ← fs.optional "signature" toText?
    emulated := ← fs.withDefault "dynamic" toBool? false
    decoder := ← fs.withDefault "decoder" Decoder.ofJson? .none }

def parse (source : String) : Except Failure Profile :=
  match (parse? source).bind ofJson? with
  | some p => .ok p
  | .none => .error .malformedText

end Profile

end Chiptune.Analysis
