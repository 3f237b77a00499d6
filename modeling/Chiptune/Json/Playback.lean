/-
Programs and what they do, as JSON.
-/
import Chiptune.Json.Decode
import Chiptune.Playback.Session

namespace Chiptune

open Json Sound

namespace Playback

/-- A program in JSON, with its first address past the end. -/
def Program.toJson (p : Program) : Json :=
  let play : Option UInt16 :=
    match p.play with
    | .subroutine address => some address
    | .interrupt => none
  ofMembers [("load", word p.loadAddress), ("init", word p.init), ("play", nullable word play),
    ("song", byte p.song), ("end", nat p.endAddress), ("data", hex p.data)]

/-- The program in JSON. It starts where it is loaded and plays its first song from an interrupt
unless it says something else. -/
def Program.ofJson? : Decode Program := fun j => do
  let fs ← j.fields? ["load", "data", "init", "play", "song"]
  let loadAddress ← fs.required "load" toWord?
  let play ← fs.optional "play" toWord?
  return {
    loadAddress
    data := ← fs.required "data" toHex?
    init := (← fs.optional "init" toWord?).getD loadAddress
    play := (play.map PlayMode.subroutine).getD .interrupt
    song := (← fs.optional "song" toByte?).getD 0 }

end Playback

namespace Sound

/-- A register write in JSON: frame, cycle, the register's offset and the value. -/
def Entry.toJson (e : Entry) : Json :=
  .array [nat e.frame, nat e.cycle, nat e.register.offset, byte e.value]

def Entry.ofJson? : Decode Entry
  | .array [frame, cycle, offset, value] => do
    return {
      frame := ← frame.toSize?
      cycle := ← cycle.toSize?
      register := ← Register.ofOffset? (← offset.toByte?)
      value := ← value.toByte? }
  | _ => none

def Trace.toJson (t : Trace) : Json :=
  ofMembers [("frames", nat t.frames), ("initial", hex t.initial.toBytes),
    ("entries", list Entry.toJson t.entries.toList)]

/-- The trace in JSON. Registers start from zero unless it says something else. -/
def Trace.ofJson? : Decode Trace := fun j => do
  let fs ← j.fields? ["frames", "initial", "entries"]
  return {
    frames := ← fs.required "frames" toSize?
    initial := .ofBytes ((← fs.optional "initial" toHex?).getD [])
    entries := ((← fs.optional "entries" (toList? Entry.ofJson?)).getD []).toArray }

end Sound

end Chiptune
