/-
Playing a program: one processor, one memory, one sound chip and one trace.

A session runs the init routine of a program once and then calls its play
routine once per frame, recording every write to the chip. A routine is
entered with the halt address as its return address, so it has returned once
the program counter gets there.

Operations are state transformers that may fail, and a failed operation keeps
what it did: whoever looks at a session after an error sees where it stopped.
-/
import Chiptune.Machine.Computer
import Chiptune.Playback.Program
import Chiptune.Sound.Trace

namespace Chiptune.Playback

open Machine Sound

/-- A routine has returned when the program counter is here. -/
def haltAddress : UInt16 := 0x0000

/-- The operating system's interrupt vector in RAM. -/
def systemVector : UInt16 := 0x0314

/-- Where an interrupt handler jumps to when it is done. -/
def systemExit : UInt16 := 0xEA31

/-- Where an interrupt handler jumps to when only the registers are left to restore. -/
def systemRestore : UInt16 := 0xEA81

/-- Play calls that did not fit their frame, among the frames of one run. -/
structure Overrun where
  count : Nat
  frames : Nat
  /-- Cycles of the longest call. -/
  longest : Nat
  cyclesPerFrame : Nat
deriving DecidableEq, Repr

def Overrun.message (o : Overrun) : String :=
  s!"play routine overran the frame in {o.count} of {o.frames} frames " ++
    s!"(longest {o.longest} cycles, frame holds {o.cyclesPerFrame})"

/-- The stack is out of the chip's window. -/
theorem inWindow_stackAddress (sp : UInt8) : inWindow (Registers.stackAddress sp) = false := by
  have haddress := Registers.toNat_stackAddress sp
  have hsp := sp.toNat_lt
  have hwindow : windowStart = 0xD400 := rfl
  simp only [inWindow, Bool.and_eq_false_iff, decide_eq_false_iff_not]
  omega

/-- What the processor reads and stores to. -/
structure Bus where
  memory : Memory := .zeroed
  sid : Bank := .cleared
  /-- The chip's writes that are not recorded yet. -/
  pending : List (Register × UInt8) := []

namespace Bus

/-- What the processor reads: the chip in its window, memory everywhere else. -/
def read (b : Bus) (address : UInt16) : UInt8 :=
  if inWindow address then b.sid.read (Word.low address) else b.memory.read address

/-- The bus after a store. What goes to the chip's window does not reach memory. -/
def write (b : Bus) (s : Store) : Bus :=
  if inWindow s.address then
    match b.sid.write (Word.low s.address) s.value with
    | (some r, sid) => { b with sid, pending := b.pending ++ [(r, s.value)] }
    | (none, _) => b
  else { b with memory := b.memory.write s.address s.value }

/-- The bus after stores, in order. -/
def writeAll (b : Bus) (stores : List Store) : Bus := stores.foldl write b

end Bus

structure Session extends Bus where
  limits : Limits
  /-- The job was asked to stop. -/
  cancelled : Bool := false
  regs : Registers := {}
  play : Option PlayMode := none
  trace : Option Trace := none
  /-- Frames since the trace began. -/
  frame : Nat := 0
  /-- Cycles since the frame began. -/
  frameCycle : Nat := 0
  /-- Play calls since loading that took longer than a frame. -/
  overruns : Nat := 0

/-- A step of a session that may fail. -/
abbrev Action := EStateM RunError Session

namespace Session

/-- The trace entries of writes to the chip: one each cycle, the last of them in the cycle
before `stop`. -/
def entriesOf (frame stop : Nat) (writes : List (Register × UInt8)) : List Entry :=
  writes.zipIdx.map fun ((register, value), i) =>
    { frame, cycle := stop - writes.length + i, register, value }

/-- The session with the pending writes recorded, if there is a trace. -/
def recorded (s : Session) (stop : Nat) : Session :=
  { s with
    trace := s.trace.map fun t =>
      { t with entries := t.entries ++ entriesOf s.frame stop s.pending }
    pending := [] }

/-- The session after an instruction. -/
def after (s : Session) (o : Outcome) : Session :=
  let s := { s with toBus := s.toBus.writeAll o.stores, regs := o.regs }
  let stop := s.frameCycle + o.cycles
  let s := if s.pending.isEmpty then s else s.recorded stop
  { s with frameCycle := stop }

/-- Run one instruction: its cycles. An instruction that cannot run changes nothing. -/
def step : Action Nat := fun s =>
  match Machine.step s.toBus.read s.regs with
  | .error e => .error e s
  | .ok o => .ok o.cycles (s.after o)

/-- Record a new trace from the present registers of the chip on. -/
def restartTrace (s : Session) : Session :=
  { s with trace := some { initial := s.sid }, frame := 0, frameCycle := 0 }

/-- Record a new trace. -/
def beginTrace : Action Unit := modify restartTrace

/-- The session with an image loaded and the processor at `entry`, which is also the play
routine; a new trace begins. -/
def loaded (s : Session) (image : Memory) (entry : UInt16) : Session :=
  restartTrace { s with
    regs := { pc := entry }
    memory := image
    sid := .cleared
    pending := []
    play := some (.subroutine entry)
    overruns := 0 }

/-- Load an image and begin a trace. -/
def load (image : Memory) (entry : UInt16) : Action Unit := modify fun s => s.loaded image entry

/-- Fail if the job was asked to stop. -/
def checkCancelled : Action Unit := fun s =>
  if s.cancelled then .error .cancelled s else .ok () s

/-- The session with bytes pushed on the stack. -/
def push (s : Session) (bytes : Bytes) : Session :=
  let effect := s.regs.push bytes
  { s with toBus := s.toBus.writeAll effect.stores, regs := effect.regs }

/-- Run to the halt address, having spent `spent` of `budget` cycles: the cycles it took in
all. `fuel` bounds the instructions. -/
def runFor (entry : UInt16) (budget : Nat) : (fuel spent : Nat) → Action Nat
  | 0, spent => fun s =>
    if s.regs.pc = haltAddress then .ok spent s
    else .error (.timeout entry s.frame spent) s
  | fuel + 1, spent => fun s =>
    if s.regs.pc = haltAddress then .ok spent s
    else match step s with
      | .error e s => .error e s
      | .ok cycles s =>
        if budget < spent + cycles then .error (.timeout entry s.frame (spent + cycles)) s
        else runFor entry budget fuel (spent + cycles) s

/-- Run to the halt address within a budget of cycles. Every instruction takes at least two,
so half the budget is enough fuel. -/
def runToHalt (entry : UInt16) (budget : Nat) : Action Nat :=
  runFor entry budget (budget / 2 + 1) 0

/-- Call a routine with `a` in the accumulator and wait for its return. -/
def runRoutine (entry : UInt16) (a : UInt8) (budget : Nat) : Action Nat := do
  checkCancelled
  modify fun s =>
    let s := s.push [Word.high (haltAddress - 1), Word.low (haltAddress - 1)]
    { s with regs := { s.regs with a := a, pc := entry } }
  runToHalt entry budget

/-- Call a routine within the cycles of a play call. -/
def call (entry : UInt16) (a : UInt8) : Action Nat := do
  runRoutine entry a (← get).limits.callCycles

/-- The handler an interrupt reaches, and whether the operating system calls it. -/
def handler (m : Memory) : Option (UInt16 × Bool) :=
  if m.readWord systemVector ≠ 0 then some (m.readWord systemVector, true)
  else if m.readWord irqVector ≠ 0 then some (m.readWord irqVector, false)
  else none

/-- The session at the start of an interrupt handler. The operating system saves A, X and Y
before it calls one. -/
def interrupted (s : Session) (entry : UInt16) (bySystem : Bool) : Session :=
  let status := { s.regs.p with unused := true, brk := false }
  let s := s.push [Word.high haltAddress, Word.low haltAddress, status.toByte]
  let s := { s with regs := { s.regs with p := { s.regs.p with irqDisable := true } } }
  let s := if bySystem then s.push [s.regs.a, s.regs.x, s.regs.y] else s
  { s with regs := { s.regs with pc := entry } }

/-- Raise an interrupt and wait for the handler's return. -/
def interrupt : Action Nat := do
  let s ← get
  match handler s.memory with
  | none => throw .noPlayRoutine
  | some (entry, bySystem) =>
    modify fun s => s.interrupted entry bySystem
    runToHalt entry s.limits.callCycles

/-- One play call. -/
def playOnce : PlayMode → Action Nat
  | .subroutine address => call address 0
  | .interrupt => interrupt

/-- The session after a frame. -/
def endFrame (s : Session) : Session :=
  { s with
    trace := s.trace.map fun t => { t with frames := t.frames + 1 }
    frame := s.frame + 1 }

/-- Play one frame: the cycles of its play call. -/
def playFrame (mode : PlayMode) : Action Nat := do
  checkCancelled
  modify fun s => { s with frameCycle := 0 }
  let cycles ← playOnce mode
  modify endFrame
  return cycles

/-- Play `n` frames; `count` calls so far took longer than a frame and the longest of them
`longest` cycles. Both counts with this run's calls included. -/
def playFrames (mode : PlayMode) : (n count longest : Nat) → Action (Nat × Nat)
  | 0, count, longest => pure (count, longest)
  | n + 1, count, longest => do
    let cycles ← playFrame mode
    if (← get).limits.clock.cyclesPerFrame < cycles then
      playFrames mode n (count + 1) (max longest cycles)
    else playFrames mode n count longest

/-- Play `n` frames. Calls that took longer than a frame are counted and reported when all
frames were played. -/
def runFrames (n : Nat) : Action (Option Overrun) := do
  match (← get).play with
  | none => throw .noPlayRoutine
  | some mode =>
    if (← get).trace.isNone then beginTrace
    let (count, longest) ← playFrames mode n 0 0
    if count = 0 then return none
    modify fun s => { s with overruns := s.overruns + count }
    let cyclesPerFrame := (← get).limits.clock.cyclesPerFrame
    return some { count, frames := n, longest, cyclesPerFrame }

/-! ## Loading programs -/

/-- Whether the bytes at an address are all zero. -/
def isFree (m : Memory) (address : UInt16) (length : Nat) : Bool :=
  (m.slice address.toNat (address.toNat + length)).all (· == 0)

/-- Memory with code put where nothing else is. -/
def provide (m : Memory) (address : UInt16) (code : Bytes) : Memory :=
  if isFree m address code.length then m.writeAll address code else m

/-- Memory with the operating system's way out of an interrupt: `PLA TAY PLA TAX PLA RTI`,
and a jump to it. -/
def withSystemExit (m : Memory) : Memory :=
  provide (provide m systemRestore [0x68, 0xA8, 0x68, 0xAA, 0x68, 0x40])
    systemExit (0x4C :: Word.toBytes systemRestore)

/-- Load a program, run its init routine and begin a trace. A program that does not fit in
memory leaves the session as it was. -/
def loadProgram (p : Program) : Action Unit := do
  match p.image with
  | .error e => throw e
  | .ok image =>
    load image p.init
    if p.play = .interrupt then
      modify fun s => { s with memory := withSystemExit s.memory }
    let _ ← runRoutine p.init p.song (← get).limits.initCycles
    modify fun s => { s with play := some p.play }
    beginTrace

/-- Whether the trace's writes are in order. A session that recorded them out of order is broken:
nothing that is read off it counts. -/
def inOrder (s : Session) : Bool := s.trace.all (·.isOrdered)

/-- The trace recorded so far. -/
def finish (s : Session) : Trace := s.trace.getD { initial := s.sid }

end Session

/-- What a run recorded. -/
structure Recording where
  trace : Trace
  overrun : Option Overrun
deriving DecidableEq, Repr

/-- Play a program for some frames in a session of its own. -/
def record (program : Program) (frames : Nat) (limits : Limits) (cancelled : Bool) :
    Except RunError Recording :=
  let action : Action (Option Overrun) := do
    Session.loadProgram program
    Session.runFrames frames
  match action.run { limits, cancelled } with
  | .ok overrun s => .ok { trace := s.finish, overrun }
  | .error e _ => .error e

end Chiptune.Playback
