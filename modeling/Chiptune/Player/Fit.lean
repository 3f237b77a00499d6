/-
Fitting a song into a player.

What the player cannot play at all is dropped. What it has too little room for
is cut, one resource after another, and each cut repairs every reference to
what it removed (`Cut`); a policy that refuses cuts makes the first one a
failure.
-/
import Chiptune.Job
import Chiptune.Player.Rows
import Chiptune.Player.Template

namespace Chiptune.Player

open Song

/-- What to do with a song that is too large for its player. -/
inductive Policy where
  | fail | truncate
deriving DecidableEq, Repr

/-! ## Dropping -/

namespace Fit

/-- Whether an event is a command the player does not run. -/
def isUnsupported (t : Template) (e : Event) : Bool :=
  match e.command? with
  | some c => !t.supports c.kind
  | none => false

/-- The song without the commands the player does not run. -/
def dropCommands (t : Template) (s : Song) : Song :=
  s.mapSequences (·.filter fun e => !isUnsupported t e)

/-- The kinds of commands in the order of their names. -/
def kindsByName : List CommandKind := CommandKind.all.mergeSort fun a b => a.name ≤ b.name

/-- How many commands of each kind are dropped, for the kinds of which any are. -/
def droppedCommands (t : Template) (s : Song) : List (CommandKind × Nat) :=
  kindsByName.filterMap fun kind =>
    let count := s.events.countP fun e => isUnsupported t e && e.command?.any (·.kind == kind)
    if count = 0 then none else some (kind, count)

/-- Whether the player has a slot for a table, or the table needs none. -/
def hasSlot (t : Template) (table : Table) : Bool :=
  (t.spec? (Slot.ofTable table.kind)).isSome || table.rows.isEmpty

/-- The song without the tables the player has no slot for. -/
def dropTables (t : Template) (s : Song) : Song := { s with tables := s.tables.filter (hasSlot t) }

/-- The kinds of tables the player has no slot for. -/
def missingSlots (t : Template) : List TableKind :=
  TableKind.all.filter fun kind => (t.spec? (Slot.ofTable kind)).isNone

/-- Drop what the player cannot play. When a table is dropped, every kind of table the player
does not have is given up. -/
def drop (t : Template) (s : Song) : Job Song := do
  for (kind, count) in droppedCommands t s do
    Job.notice (.commandUnsupported t.name kind)
    Job.degrade (.commandsDropped kind count)
  if !s.tables.all (hasSlot t) then
    for kind in missingSlots t do
      Job.degrade (.tableUnsupported t.name kind)
  return dropTables t (dropCommands t s)

/-! ## Cutting -/

/-- A limit of the player and what is done to a song above it. -/
structure Cut where
  resource : Resource
  capacity : Nat
  /-- How much of the resource a song needs. -/
  required : Song → Nat
  /-- The song with only as much of the resource as there is. -/
  cut : Song → Song
  /-- What keeps a song from being cut, if anything. -/
  obstacle? : Song → Option Failure := fun _ => none

/-- Whether a song keeps within a limit. -/
def Cut.holds (c : Cut) (s : Song) : Bool := decide (c.required s ≤ c.capacity)

/-- A row that loops to none but the first `capacity` rows. -/
def cutRow (capacity : Nat) : Row → Row
  | .loop target => if target.toNat < capacity then .loop target else .stop
  | row => row

/-- A table with only its first `capacity` rows: loops out of them become ends, and a last row
that is a step becomes one as well. -/
def cutRows (capacity : Nat) (t : Table) : Table :=
  let rows := (t.rows.take capacity).map (cutRow capacity)
  let rows :=
    match rows.getLast? with
    | some (.step _) => rows.dropLast ++ [.stop]
    | _ => rows
  { t with rows }

/-- An instrument whose program of a kind starts in the first `capacity` rows. A wave program
past them is replaced by the first one, the others are left out. -/
def cutProgram (kind : TableKind) (capacity : Nat) (i : Instrument) : Instrument :=
  let fits (row : UInt8) : Bool := decide (row.toNat < capacity)
  match kind with
  | .wave => if fits i.wave then i else { i with wave := 0 }
  | .pulse => { i with pulse := i.pulse.filter fits }
  | .filter => { i with filter := i.filter.filter fits }
  | .arpeggio => i

/-- Whether an event starts no filter program past the first `capacity` rows. -/
def keepsFilter (capacity : Nat) (e : Event) : Bool :=
  e.filterRow?.all fun row => decide (row.toNat < capacity)

/-- Rows a slot has for programs of a kind; an arpeggio's loop reaches only so far. -/
def tableCapacity (kind : TableKind) (spec : SlotSpec) : Nat :=
  match kind with
  | .arpeggio => min spec.capacity.toNat Rows.arpeggioRows
  | .wave | .pulse | .filter => spec.capacity.toNat

/-- The limits of the program tables. -/
def tableCuts (t : Template) : List Cut :=
  TableKind.all.filterMap fun kind => (t.spec? (Slot.ofTable kind)).map fun spec =>
    let capacity := tableCapacity kind spec
    { resource := .table kind
      capacity
      required := fun s => s.tableLength kind
      cut := fun s =>
        let s := s.updateTable kind (cutRows capacity)
        let s := { s with instruments := s.instruments.map (cutProgram kind capacity) }
        if kind = .filter then s.mapSequences (·.filter (keepsFilter capacity)) else s }

/-- An event that selects one of the first `capacity` instruments, or the first one. -/
def cutInstrument (capacity : Nat) : Event → Event
  | .setInstrument id => if id.toNat < capacity then .setInstrument id else .setInstrument 0
  | e => e

/-- The limit of the instruments. -/
def instrumentCuts (t : Template) : List Cut :=
  (t.spec? .instruments).toList.map fun spec =>
    let capacity := spec.capacity.toNat
    { resource := .instruments
      capacity
      required := fun s => s.instruments.length
      cut := fun s =>
        { s with instruments := s.instruments.take capacity }.mapSequences
          (·.mapEvents (cutInstrument capacity)) }

/-- The distinct commands of a song in the order of their first uses. -/
def commandsOf (s : Song) : List Command := (s.events.filterMap Event.command?).eraseDups

/-- Commands the player has room for. -/
def commandCapacity (t : Template) : Nat :=
  match t.spec? .commands with
  | some spec => spec.capacity.toNat
  | none => 0

/-- The limit of the commands. -/
def commandCut (t : Template) : Cut :=
  let capacity := commandCapacity t
  { resource := .commands
    capacity
    required := fun s => (commandsOf s).length
    cut := fun s =>
      let kept := (commandsOf s).take capacity
      s.mapSequences (·.filter fun e => e.command?.all kept.contains) }

/-- An order list without the entries past the first `capacity` sequences. It loops to the
first entry left from its loop's target on, and stops if there is none. -/
def cutEntries (capacity : Nat) (l : OrderList) : OrderList :=
  let keeps (e : OrderEntry) : Bool := decide (e.sequence.toNat < capacity)
  let entries := l.entries.filter keeps
  let finish :=
    match l.finish with
    | .stop => .stop
    | .loop target =>
      let start := (l.entries.take target.toNat).countP keeps
      if target.toNat < l.entries.length ∧ start < entries.length then
        .loop (UInt8.ofNat start)
      else .stop
  { entries, finish }

/-- The entries left of an order list are counted in a byte. -/
def countFault? (capacity : Nat) (l : OrderList) : Option Failure :=
  let left := (cutEntries capacity l).entries.length
  if 255 < left then some (.invalidData (.uncountableEntries left)) else none

/-- The limit of the sequences. -/
def sequenceCut (t : Template) : Cut :=
  let capacity := t.maxSequences.toNat
  { resource := .sequences
    capacity
    required := fun s => s.sequences.length
    cut := fun s =>
      { s with
        sequences := s.sequences.take capacity
        orderLists := s.orderLists.map (cutEntries capacity) }
    obstacle? := fun s => s.orderLists.findSome? (countFault? capacity) }

/-- An order list with its first `capacity` entries; a loop out of them becomes a stop. -/
def cutOrderList (capacity : Nat) (l : OrderList) : OrderList :=
  let finish :=
    match l.finish with
    | .loop target => if target.toNat < capacity then .loop target else .stop
    | .stop => .stop
  { entries := l.entries.take capacity, finish }

/-- The limit of a voice's order list. -/
def orderCut (t : Template) (voice : Nat) : Cut :=
  let capacity := t.maxOrderEntries.toNat
  { resource := .orderList voice
    capacity
    required := fun s =>
      match s.orderLists[voice]? with
      | some l => l.entries.length
      | none => 0
    cut := fun s => { s with orderLists := s.orderLists.modify voice (cutOrderList capacity) } }

/-- Cut a song down to a limit. -/
def apply (policy : Policy) (s : Song) (c : Cut) : Job Song := do
  if c.holds s then return s
  match policy with
  | .fail => throw (.capacityExceeded c.resource (c.required s) c.capacity)
  | .truncate =>
    Job.report (.truncated c.resource (c.required s) c.capacity)
    match c.obstacle? s with
    | some failure => throw failure
    | none => return c.cut s

/-- Cut a song down to every limit of a player: the song and its commands. Sequences are cut
after the commands are collected, so a command may stay that no sequence runs. -/
def cut (t : Template) (policy : Policy) (s : Song) : Job (Song × List Command) := do
  let s ← (tableCuts t ++ instrumentCuts t).foldlM (apply policy) s
  let commands := (commandsOf s).take (commandCapacity t)
  let s ← apply policy s (commandCut t)
  let s ← (sequenceCut t :: (List.range voiceCount).map (orderCut t)).foldlM (apply policy) s
  return (s, commands)

end Fit

end Chiptune.Player
