/-
The minimal player as a template.
-/
import Chiptune.Player.Layout
import Chiptune.Player.Minimal.Listing

namespace Chiptune.Player.Minimal

open Song

def name : String := "minimal"

/-- The address the player is assembled for. -/
def base : UInt16 := 0x1000

/-- The template without its code. -/
def frame : Template where
  name
  driverType := 1
  major := 1
  minor := 0
  base
  variableBytes := variableBytes
  entry := { init := 0, play := 3, stop := 6 }
  tables := slots
  maxSequences := 128
  maxOrderEntries := 127
  supportedCommands := [.setAdsr, .setTempo, .setVolume, .filterProgram]
  acceptedFamilies := ["*"]
  relocations := []
  statePointers :=
    [⟨"tempo", .songSettings, 0⟩, ⟨"variables", .workArea, 0⟩,
      ⟨"filter_position", .workArea, Variable.offset .filterPosition⟩]

/-- The assembled code. -/
def assembly : Assembly :=
  let address (symbol : Symbol) : Option UInt16 :=
    match Layout.make frame base (Assembly.length listing) with
    | .ok layout => layout.address? symbol
    | .error _ => none
  match Assembly.assemble base address listing with
  | .ok a => a
  | .error _ => {}

/-- The minimal player. -/
def template : Template :=
  { frame with code := assembly.code, relocations := assembly.relocations }

end Chiptune.Player.Minimal
