/-
Why a run of machine code stops short, and the words for it.
-/
import Chiptune.Byte

namespace Chiptune.Machine

/-- What stops a run. -/
inductive RunError where
  /-- The byte fetched is no instruction the processor runs. -/
  | unsupportedOpcode (opcode : UInt8) (address : UInt16)
  /-- A routine was still running when its cycles were spent. -/
  | timeout (entry : UInt16) (frame cycles : Nat)
  /-- The job was asked to stop. -/
  | cancelled
  /-- The program plays from an interrupt and set neither vector. -/
  | noPlayRoutine
  /-- A block does not fit below the top of memory. -/
  | blockOverflow (address : UInt16) (length : Nat)
deriving DecidableEq, Repr

namespace RunError

/-- Whether work can go on without the run: a job that was stopped, or a program that
cannot even be loaded, ends here. -/
def isRecoverable : RunError → Bool
  | .cancelled | .blockOverflow .. => false
  | .unsupportedOpcode .. | .timeout .. | .noPlayRoutine => true

def message : RunError → String
  | .unsupportedOpcode opcode address =>
    "unsupported opcode " ++ Hex.byte opcode ++ " at " ++ Hex.word address
  | .timeout entry frame cycles =>
    "routine at " ++ Hex.word entry ++
      s!" did not return within {cycles} cycles (frame {frame})"
  | .cancelled => "emulation cancelled"
  | .noPlayRoutine => "no play routine: IRQ vectors at $0314 and $FFFE are unset"
  | .blockOverflow address length =>
    s!"block of {length} bytes at " ++ Hex.word address ++ " runs past $FFFF"

end RunError

end Chiptune.Machine
