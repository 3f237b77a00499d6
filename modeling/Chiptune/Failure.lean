/-
Why a job fails, what it gives up to succeed, and what it tells on the way.

A failure ends a job. A degradation does not: it says what the result lost or
where a missing part was taken from. A notice is only for the person who reads
the log. Each is a cause; the words for it are `message`.
-/
import Chiptune.Machine.RunError
import Chiptune.Player.Slot
import Chiptune.Playback.Session
import Chiptune.Song.Fault

namespace Chiptune

open Machine Playback Player

/-! ## Failures -/

/-- A block of a container's header. -/
inductive BlockName where
  | descriptor | driverCommon | table | musicData | songInfo
deriving DecidableEq, Repr

def BlockName.text : BlockName → String
  | .descriptor => "descriptor"
  | .driverCommon => "driver common"
  | .table => "table"
  | .musicData => "music data"
  | .songInfo => "song info"

/-- What is wrong with a file. -/
inductive SourceFault where
  | unknownFormat
  /-- The file ends before its header does. -/
  | tuneHeader
  | tuneVersion (version : UInt16)
  | dataOffset (offset : UInt16)
  | missingLoadAddress
  | dataTooLong (length : Nat) (address : UInt16)
  | containerHeader
  | unterminatedHeader
  | malformedBlock (block : BlockName)
  | missingBlock (block : BlockName)
  | imageTooLong
  | tableOutside (name : String)
  | pointerOutside (index : Nat)
  /-- The table of pointers runs past the top of memory. -/
  | pointerPastMemory (index : Nat)
deriving DecidableEq, Repr

def SourceFault.message : SourceFault → String
  | .unknownFormat => "neither a PSID/RSID file nor a container"
  | .tuneHeader => "PSID header"
  | .tuneVersion version =>
    let version := version.toNat
    s!"unsupported PSID version {version}"
  | .dataOffset offset => "data offset " ++ Hex.offset offset.toNat ++ " past end of file"
  | .missingLoadAddress => "missing embedded load address"
  | .dataTooLong length address =>
    s!"{length} data bytes at " ++ Hex.word address ++ " exceed the address space"
  | .containerHeader => "container header"
  | .unterminatedHeader => "container header is not terminated"
  | .malformedBlock block => "container " ++ block.text ++ " block"
  | .missingBlock block => "container has no " ++ block.text ++ " block"
  | .imageTooLong => "container image exceeds the address space"
  | .tableOutside name => "table '" ++ name ++ "' lies outside the image"
  | .pointerOutside index => s!"pointer {index} lies outside the image"
  | .pointerPastMemory index => s!"pointer {index} lies past the top of memory"

/-- What keeps a song from being recovered. -/
inductive ExtractionFault where
  | signatureNotFound (pattern : String)
  | sequenceByte (byte : UInt8) (sequence : UInt16)
  | sequenceUnending (address : UInt16)
  | orderListUnending (address : UInt16)
  | noNotes (frames : Nat)
  | tooManyInstruments (count : Nat)
  | tooManySequences (count : Nat)
  | tableWithoutData (kind : Song.TableKind) (row : Nat)
  /-- A table was to be read on in memory, and no row of it has been read yet. -/
  | nothingRead (kind : Song.TableKind)
deriving DecidableEq, Repr

def ExtractionFault.message : ExtractionFault → String
  | .signatureNotFound pattern => "signature '" ++ pattern ++ "' not found"
  | .sequenceByte byte sequence =>
    "unexpected sequence byte " ++ Hex.byte byte ++ " in sequence at " ++ Hex.word sequence
  | .sequenceUnending address => "sequence at " ++ Hex.word address ++ " has no end"
  | .orderListUnending address => "order list at " ++ Hex.word address ++ " has no end"
  | .noNotes frames => s!"no notes found in {frames} emulated frames"
  | .tooManyInstruments count => s!"{count} distinct instruments"
  | .tooManySequences count => s!"{count} distinct sequences"
  | .tableWithoutData kind row =>
    kind.name ++ s!" table row {row} referenced but the table has no data"
  | .nothingRead kind => kind.name ++ " table was read on in memory by no row"

/-- Data that means nothing. -/
inductive DataFault where
  | patternByte (token : String)
  | signatureOutside (pattern : String)
  | commandKindAt (id : UInt8) (sequence : UInt16)
  | commandKind (id : UInt8)
  | orderListCount (listed songs : Nat)
  | tempoOutside
  | sequenceOutside (index : Nat)
  | orderListOutside (voice : Nat)
  | missingCommand (index : UInt8)
  | eventClass (code : UInt8)
  | sequenceCutOff
  | orderListCutOff
  /-- A byte counts what is left of an order list while it is cut. -/
  | uncountableEntries (entries : Nat)
  | patchOutside (offset : Nat)
  | blockTooLong (id : UInt8) (length : Nat)
deriving DecidableEq, Repr

def DataFault.message : DataFault → String
  | .patternByte token => "bad pattern byte '" ++ token ++ "'"
  | .signatureOutside pattern => "signature '" ++ pattern ++ "' points outside memory"
  | .commandKindAt id sequence =>
    let id := id.toNat
    s!"unknown command kind {id} at " ++ Hex.word sequence
  | .commandKind id =>
    let id := id.toNat
    s!"unknown command kind {id}"
  | .orderListCount listed songs =>
    s!"profile lists {listed} order lists, songs have {songs}"
  | .tempoOutside => "tempo lies outside the image"
  | .sequenceOutside index => s!"sequence {index} lies outside the image"
  | .orderListOutside voice => s!"order list {voice} lies outside the image"
  | .missingCommand index =>
    let index := index.toNat
    s!"sequence references missing command {index}"
  | .eventClass code => "unknown sequence event class " ++ Hex.byte code
  | .sequenceCutOff => "sequence runs past the end of the data"
  | .orderListCutOff => "order list runs past the end of the data"
  | .uncountableEntries entries => s!"{entries} entries left of an order list are too many to count"
  | .patchOutside offset => "patch offset " ++ Hex.offset offset ++ " outside driver code"
  | .blockTooLong id length => "container block " ++ Hex.byte id ++ s!" is {length} bytes"

/-- Parts that do not go together. -/
inductive Mismatch where
  | chipCount (chips : Nat) (template : String)
  | family (template source : String)
  | noAnalysis (profile : String)
  | needsContainer (profile : String)
  | voices (count : UInt8)
deriving DecidableEq, Repr

def Mismatch.message : Mismatch → String
  | .chipCount chips template =>
    s!"source drives {chips} SID chips, '" ++ template ++ "' drives one"
  | .family template source =>
    "template '" ++ template ++ "' does not accept '" ++ source ++ "' sources"
  | .noAnalysis profile => "profile '" ++ profile ++ "' has neither a decoder nor emulation"
  | .needsContainer profile => "profile '" ++ profile ++ "' needs a container source"
  | .voices count =>
    let count := count.toNat
    s!"container has {count} voices"

/-- What is wrong with a player template. -/
inductive TemplateFault where
  | emptyCode
  | entryOutside (offset : UInt16)
  | relocationOutside (offset : UInt16)
  | emptySlot (name : String)
  /-- At this address the player does not fit below the limit. -/
  | noRoom (base : UInt16) (music limit : Nat)
  /-- At this address the music data would start past the last address. -/
  | noMusicAddress (base : UInt16)
  | missingSymbol (symbol : Symbol)
deriving DecidableEq, Repr

def TemplateFault.message : TemplateFault → String
  | .emptyCode => "empty driver code"
  | .entryOutside offset => "entry offset " ++ Hex.offset offset.toNat ++ " outside code"
  | .relocationOutside offset => "relocation at " ++ Hex.offset offset.toNat ++ " outside code"
  | .emptySlot name => name ++ " slot has no room"
  | .noRoom base music limit =>
    "driver at " ++ Hex.word base ++ " needs memory up to $" ++ Hex.upper 4 music ++
      ", limit is $" ++ Hex.upper 4 limit
  | .noMusicAddress base =>
    "driver at " ++ Hex.word base ++ " leaves no address for the music data"
  | .missingSymbol symbol => "relocation references missing " ++ symbol.name

/-- A thing of which a player holds only so much. -/
inductive Resource where
  | table (kind : Song.TableKind)
  | instruments
  | commands
  | sequences
  /-- Entries of a voice's order list; voices count from zero. -/
  | orderList (voice : Nat)
  | musicData
  | arpeggioLoop
deriving DecidableEq, Repr

def Resource.name : Resource → String
  | .table kind => kind.name
  | .instruments => "instrument"
  | .commands => "command"
  | .sequences => "sequence"
  | .orderList voice =>
    let number := voice + 1
    s!"voice {number} order list"
  | .musicData => "music data"
  | .arpeggioLoop => "arpeggio loop target"

/-- Why a job fails. -/
inductive Failure where
  | run (error : RunError)
  | invalidSource (fault : SourceFault)
  | incompleteExtraction (fault : ExtractionFault)
  /-- Neither the player's data nor what it does gave a song. -/
  | extractionAbandoned (cause : Failure)
  | malformedSong (faults : List Song.Fault)
  | capacityExceeded (resource : Resource) (required capacity : Nat)
  | incompatible (mismatch : Mismatch)
  | patchMismatch (offset : Nat) (expected found : UInt16)
  | unknownProfile (name : String)
  | unknownTemplate (name : String)
  | invalidTemplate (name : String) (fault : TemplateFault)
  /-- A file cannot be read. -/
  | unreadable
  /-- A text is not what its reader expects. -/
  | malformedText
  | invalidData (fault : DataFault)
deriving DecidableEq, Repr

def Failure.message : Failure → String
  | .run error => "emulation failed: " ++ error.message
  | .invalidSource fault => "invalid source file: " ++ fault.message
  | .incompleteExtraction fault => "incomplete extraction: " ++ fault.message
  | .extractionAbandoned cause =>
    "incomplete extraction: static extraction failed (" ++ cause.message ++
      ") and no emulation data"
  | .malformedSong faults =>
    "malformed model: " ++ String.intercalate "; " (faults.map Song.Fault.message)
  | .capacityExceeded resource required capacity =>
    resource.name ++ s!" table needs {required} rows but the template holds {capacity}"
  | .incompatible mismatch => "format incompatible: " ++ mismatch.message
  | .patchMismatch offset expected found =>
    "patch at offset " ++ Hex.offset offset ++ ": expected " ++ Hex.word expected ++
      ", found " ++ Hex.word found
  | .unknownProfile name => "unknown source profile '" ++ name ++ "'"
  | .unknownTemplate name => "unknown template '" ++ name ++ "'"
  | .invalidTemplate name fault => "invalid template '" ++ name ++ "': " ++ fault.message
  | .unreadable => "I/O error"
  | .malformedText => "JSON error"
  | .invalidData fault => fault.message

/-- Append a program to a table: its first row, and the table. -/
def Song.Table.append (t : Song.Table) (program : List Song.Row) :
    Except Failure (UInt8 × Song.Table) :=
  match t.append? program with
  | some result => .ok result
  | none => .error (.malformedSong [.tableOverflow t.kind (t.rows.length + program.length)])

/-! ## Degradations -/

/-- Where missing instruments were taken from. -/
inductive Substitute where
  | emulation | rawMemory
deriving DecidableEq, Repr

def Substitute.text : Substitute → String
  | .emulation => "emulation"
  | .rawMemory => "raw memory"

/-- What a result lost, or where a part of it had to come from. -/
inductive Degradation where
  /-- Step values that would read back as markers were replaced. -/
  | markerCollisions (kind : Song.TableKind) (count : Nat)
  | commandsDropped (kind : Song.CommandKind) (count : Nat)
  | tableUnsupported (template : String) (kind : Song.TableKind)
  | truncated (resource : Resource) (required capacity : Nat)
  | emulationFailed (error : RunError)
  | rebuiltFromEmulation (cause : Failure)
  | instrumentsCompleted (extracted needed : Nat) (origin : Substitute)
  /-- A table was referenced past its end and got programs from the emulated song. -/
  | programsImported (kind : Song.TableKind) (row extracted : Nat)
  /-- A table was referenced past its end and was read on in memory up to a row. -/
  | rowsReadOn (kind : Song.TableKind) (row extracted last : Nat)
  | validationFailed (cause : Failure)
deriving DecidableEq, Repr

/-- The classes of degradations. -/
inductive DegradationKind where
  | incompleteExtraction
  | emulationFallback
  | unsupportedFeature
  | capacityTruncated
  | validationSkipped
deriving DecidableEq, Repr

def DegradationKind.name : DegradationKind → String
  | .incompleteExtraction => "IncompleteExtraction"
  | .emulationFallback => "EmulationFallback"
  | .unsupportedFeature => "UnsupportedFeature"
  | .capacityTruncated => "CapacityTruncated"
  | .validationSkipped => "ValidationSkipped"

namespace Degradation

/-- The class of a degradation. -/
def kind : Degradation → DegradationKind
  | .markerCollisions .. | .commandsDropped .. | .tableUnsupported .. => .unsupportedFeature
  | .truncated .. => .capacityTruncated
  | .emulationFailed _ => .emulationFallback
  | .rebuiltFromEmulation _ | .instrumentsCompleted .. | .programsImported .. | .rowsReadOn .. =>
    .incompleteExtraction
  | .validationFailed _ => .validationSkipped

/-- Whether the result differs audibly from the song. -/
def isLossy (d : Degradation) : Bool :=
  d.kind == .unsupportedFeature || d.kind == .capacityTruncated

def message : Degradation → String
  | .markerCollisions kind count =>
    kind.name ++ s!" table: {count} step value(s) collide with markers, replaced by $7D"
  | .commandsDropped kind count => s!"{count} " ++ kind.name ++ " command(s) dropped"
  | .tableUnsupported template kind =>
    "template '" ++ template ++ "' has no " ++ kind.name ++ " table"
  | .truncated resource required capacity =>
    resource.name ++ s!" table truncated from {required} to {capacity} entries"
  | .emulationFailed error => "emulation failed: " ++ error.message
  | .rebuiltFromEmulation cause =>
    "static extraction failed (" ++ cause.message ++ "); song rebuilt from emulation"
  | .instrumentsCompleted extracted needed origin =>
    s!"instruments: {extracted} extracted, {needed} referenced; rest taken from " ++ origin.text
  | .programsImported kind row extracted =>
    kind.name ++ s!" table: row {row} referenced past {extracted} extracted rows; " ++
      "programs taken from emulation"
  | .rowsReadOn kind row extracted last =>
    kind.name ++ s!" table: row {row} referenced past {extracted} extracted rows; " ++
      s!"read raw memory up to row {last}"
  | .validationFailed cause => "validation failed: " ++ cause.message

/-- The degradation with its class in front. -/
def text (d : Degradation) : String := d.kind.name ++ ": " ++ d.message

end Degradation

/-! ## Notices -/

/-- What a job tells whoever reads its log. -/
inductive Notice where
  | overrun (calls : Overrun)
  | emulationFailed (error : RunError)
  | extractionFailed (profile : String) (cause : Failure)
  | ambiguousTerminator (what : String) (column row : Nat) (address : UInt16)
  | offGrid (voice frame tempo : Nat)
  | filterCut (rows : Nat)
  | degraded (degradation : Degradation)
  | commandUnsupported (template : String) (kind : Song.CommandKind)
  | lossy (template : String) (count : Nat)
  | validationSkipped (cause : Failure)
deriving DecidableEq, Repr

def Notice.message : Notice → String
  | .overrun calls => calls.message
  | .emulationFailed error =>
    "emulation failed, continuing with static data only: " ++ error.message
  | .extractionFailed profile cause =>
    "static extraction with '" ++ profile ++ "' failed: " ++ cause.message
  | .ambiguousTerminator what column row address =>
    what ++ s!": zero in column {column} of row {row} at " ++ Hex.word address ++
      " taken as terminator"
  | .offGrid voice frame tempo =>
    s!"voice {voice} note at frame {frame} is off the {tempo}-frame row grid"
  | .filterCut rows => s!"filter program cut to {rows} rows"
  | .degraded degradation => degradation.message
  | .commandUnsupported template kind =>
    "template '" ++ template ++ "' has no " ++ kind.name ++ " command"
  | .lossy template count =>
    "encoding with '" ++ template ++ s!"' is lossy: {count} degradation(s)"
  | .validationSkipped cause => "validation skipped: " ++ cause.message

end Chiptune
