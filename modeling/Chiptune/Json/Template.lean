/-
The manifests of templates, as JSON. A template's code is kept apart.
-/
import Chiptune.Json.Decode
import Chiptune.Json.Reader
import Chiptune.Json.Writer
import Chiptune.Player.Template

namespace Chiptune.Player

open Json Song

def Slot.toJson (s : Slot) : Json := text s.name

def Slot.ofJson? : Decode Slot := toChoice? Slot.name Slot.all

def Symbol.toJson : Symbol → Json
  | .table slot => tagged "Table" slot.toJson
  | s => text s.name

def Symbol.ofJson? : Decode Symbol := fun j => do
  match ← j.variant? with
  | ("Table", some value) => return .table (← Slot.ofJson? value)
  | _ => toChoice? Symbol.name Symbol.fixed j

def SlotSpec.toJson (s : SlotSpec) : Json :=
  ofMembers [("slot", s.slot.toJson), ("columns", byte s.columns), ("capacity", byte s.capacity),
    ("name", text s.name)]

def SlotSpec.ofJson? : Decode SlotSpec := fun j => do
  let fs ← j.fields? ["slot", "columns", "capacity", "name"]
  return {
    slot := ← fs.required "slot" Slot.ofJson?
    columns := ← fs.required "columns" toByte?
    capacity := ← fs.required "capacity" toByte?
    name := ← fs.required "name" toText? }

def Relocation.toJson (r : Relocation) : Json :=
  ofMembers [("offset", word r.offset), ("symbol", r.symbol.toJson), ("addend", word r.addend)]

def Relocation.ofJson? : Decode Relocation := fun j => do
  let fs ← j.fields? ["offset", "symbol", "addend"]
  return {
    offset := ← fs.required "offset" toWord?
    symbol := ← fs.required "symbol" Symbol.ofJson?
    addend := ← fs.required "addend" toWord? }

def EntryPoints.toJson (e : EntryPoints) : Json :=
  ofMembers [("init", word e.init), ("play", word e.play), ("stop", word e.stop)]

def EntryPoints.ofJson? : Decode EntryPoints := fun j => do
  let fs ← j.fields? ["init", "play", "stop"]
  return {
    init := ← fs.required "init" toWord?
    play := ← fs.required "play" toWord?
    stop := ← fs.required "stop" toWord? }

def StatePointer.toJson (p : StatePointer) : Json :=
  ofMembers [("name", text p.name), ("symbol", p.symbol.toJson), ("addend", word p.addend)]

def StatePointer.ofJson? : Decode StatePointer := fun j => do
  let fs ← j.fields? ["name", "symbol", "addend"]
  return {
    name := ← fs.required "name" toText?
    symbol := ← fs.required "symbol" Symbol.ofJson?
    addend := ← fs.required "addend" toWord? }

namespace Template

/-- The names of a manifest's fields. -/
def fieldNames : List String :=
  ["name", "driver_type", "version", "base", "variables", "entry", "tables", "limits",
    "supported_commands", "accepted_families", "relocations", "state_pointers"]

def manifest (t : Template) : List (String × Json) :=
  [("name", text t.name), ("driver_type", byte t.driverType),
    ("version", .array [byte t.major, byte t.minor]), ("base", word t.base),
    ("variables", word t.variableBytes), ("entry", t.entry.toJson),
    ("tables", list SlotSpec.toJson t.tables),
    ("limits", ofMembers [("max_sequences", byte t.maxSequences),
      ("max_order_entries", byte t.maxOrderEntries)]),
    ("supported_commands", list (fun k => text k.name) t.supportedCommands),
    ("accepted_families", list text t.acceptedFamilies),
    ("relocations", list Relocation.toJson t.relocations),
    ("state_pointers", list StatePointer.toJson t.statePointers)]

/-- The template of a manifest, without code. -/
def ofFields? (fs : Fields) : Option Template := do
  let limits ← (← fs.find? "limits").fields? ["max_sequences", "max_order_entries"]
  let version ← fs.required "version" (toList? toByte?)
  match version with
  | [major, minor] =>
    return {
      name := ← fs.required "name" toText?
      driverType := ← fs.required "driver_type" toByte?
      major, minor
      base := ← fs.required "base" toWord?
      variableBytes := ← fs.required "variables" toWord?
      entry := ← fs.required "entry" EntryPoints.ofJson?
      tables := ← fs.required "tables" (toList? SlotSpec.ofJson?)
      maxSequences := ← limits.required "max_sequences" toByte?
      maxOrderEntries := ← limits.required "max_order_entries" toByte?
      supportedCommands :=
        ← fs.required "supported_commands" (toList? (toChoice? CommandKind.name CommandKind.all))
      acceptedFamilies := ← fs.required "accepted_families" (toList? toText?)
      relocations := ← fs.required "relocations" (toList? Relocation.ofJson?)
      statePointers := ← fs.required "state_pointers" (toList? StatePointer.ofJson?) }
  | _ => none

/-- Read a template's manifest. -/
def parse (source : String) : Except Failure Template :=
  match ((parse? source).bind (fields? fieldNames)).bind ofFields? with
  | some t => .ok t
  | none => .error .malformedText

/-- A template's manifest as text. -/
def print (t : Template) : String := (ofMembers t.manifest).pretty

end Template

end Chiptune.Player
