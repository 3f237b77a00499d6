/-
Programs that play music, and the limits they are run under.
-/
import Chiptune.Machine.Memory

namespace Chiptune.Playback

open Machine

/-- How the play routine is reached each frame. -/
inductive PlayMode where
  /-- It is called as a subroutine. -/
  | subroutine (address : UInt16)
  /-- The init routine installs an interrupt handler, which returns with `RTI`. -/
  | interrupt
deriving DecidableEq, Repr

/-- A player and its data: one block of memory and the ways into it. -/
structure Program where
  loadAddress : UInt16
  data : Bytes
  /-- Entered once, with the song number in A. -/
  init : UInt16
  play : PlayMode
  /-- The song to play, counted from zero. -/
  song : UInt8 := 0
deriving DecidableEq, Repr

namespace Program

/-- Memory with the program loaded. -/
def image (p : Program) : Except RunError Memory := Memory.ofBlock p.loadAddress p.data

/-- First address past the program. -/
def endAddress (p : Program) : Nat := p.loadAddress.toNat + p.data.length

end Program

/-- The video standard, which says how long a frame is. -/
inductive Clock where
  | pal | ntsc
deriving DecidableEq, Repr

/-- Processor cycles in a frame. -/
def Clock.cyclesPerFrame : Clock → Nat
  | .pal => 19656
  | .ntsc => 17095

/-- How long a run may take. -/
structure Limits where
  clock : Clock := .pal
  /-- Frames the init routine may take. -/
  initFrames : Nat := 50
  /-- Cycles one play call may take. -/
  callCycles : Nat := 200000
deriving DecidableEq, Repr

/-- Cycles the init routine may take. -/
def Limits.initCycles (l : Limits) : Nat := l.initFrames * l.clock.cyclesPerFrame

end Chiptune.Playback
