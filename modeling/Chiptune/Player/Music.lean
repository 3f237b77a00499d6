/-
Sequences and order lists as the player reads them: pairs of bytes up to an
end mark.
-/
import Chiptune.Failure

namespace Chiptune.Player.Music

open Song

/-! ## Sequences -/

/-- First bytes of a sequence's pairs. -/
inductive EventClass where
  | noteOn | noteOff | tie | instrument | rest | command | finish
deriving DecidableEq, Repr

namespace EventClass

/-- The byte of a class. -/
def code : EventClass → UInt8
  | .noteOn => 0x00
  | .noteOff => 0x01
  | .tie => 0x02
  | .instrument => 0x03
  | .rest => 0x04
  | .command => 0x05
  | .finish => 0x7F

def all : List EventClass := [.noteOn, .noteOff, .tie, .instrument, .rest, .command, .finish]

/-- The class of a byte. -/
def ofCode? (byte : UInt8) : Option EventClass := all.find? (·.code == byte)

theorem ofCode?_code (c : EventClass) : ofCode? c.code = some c := by
  cases c <;> rfl

end EventClass

/-- An event's pair; a command is named by its place among `commands`, and one that is not
there has no pair. -/
def encodeEvent (commands : List Command) : Event → Bytes
  | .noteOn pitch => [EventClass.code .noteOn, pitch]
  | .noteOff => [EventClass.code .noteOff, 0]
  | .tie => [EventClass.code .tie, 0]
  | .setInstrument id => [EventClass.code .instrument, id]
  | .rest rows => [EventClass.code .rest, rows]
  | .setCommand c =>
    match commands.idxOf? c with
    | some index => [EventClass.code .command, UInt8.ofNat index]
    | none => []

/-- A sequence with its end mark. -/
def encodeSequence (commands : List Command) (s : Sequence) : Bytes :=
  s.events.flatMap (encodeEvent commands) ++ [EventClass.code .finish, 0]

/-- The events up to the end mark. -/
def decodeEvents (commands : List Command) : Bytes → Except Failure (List Event)
  | code :: param :: rest =>
    let go (e : Event) : Except Failure (List Event) := do
      return e :: (← decodeEvents commands rest)
    match EventClass.ofCode? code with
    | some .finish => .ok []
    | some .noteOn => go (.noteOn param)
    | some .noteOff => go .noteOff
    | some .tie => go .tie
    | some .instrument => go (.setInstrument param)
    | some .rest => go (.rest param)
    | some .command =>
      match commands[param.toNat]? with
      | some c => go (.setCommand c)
      | none => .error (.invalidData (.missingCommand param))
    | none => .error (.invalidData (.eventClass code))
  | _ => .error (.invalidData .sequenceCutOff)

/-- The sequence at the start of some bytes. -/
def decodeSequence (commands : List Command) (bytes : Bytes) : Except Failure Sequence := do
  return { events := ← decodeEvents commands bytes }

/-! ## Order lists -/

/-- What is added to a transposition. -/
def transposeBias : UInt8 := 0x80

/-- First byte of a loop; the entry's number follows. -/
def loopMark : UInt8 := 0xFF

/-- First byte of a stop. -/
def stopMark : UInt8 := 0xFE

/-- An order list with its end mark. -/
def encodeOrderList (l : OrderList) : Bytes :=
  (l.entries.flatMap fun e => [transposeBias + e.transpose.toUInt8, e.sequence]) ++
    match l.finish with
    | .loop target => [loopMark, target]
    | .stop => [stopMark, 0]

/-- The order list at the start of some bytes. -/
def decodeOrderList : Bytes → Except Failure OrderList
  | first :: second :: rest =>
    if first = loopMark then .ok { finish := .loop second }
    else if first = stopMark then .ok {}
    else do
      let list ← decodeOrderList rest
      return { list with entries := ⟨(first - transposeBias).toInt8, second⟩ :: list.entries }
  | _ => .error (.invalidData .orderListCutOff)

end Chiptune.Player.Music
