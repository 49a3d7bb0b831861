import ZxSpectrum.Interrupt
import ZxSpectrum.Machine.Board
import ZxSpectrum.Machine.Debugger
import ZxSpectrum.Processor.Basic

namespace ZxSpectrum

/-! The machine: a processor on its board, and the account of frames. Processor and devices
advance together, one instruction at a time. An operation without a result has met a value
that its register cannot hold. -/

structure Machine (Cpu κ ρ : Type) where
  cpu : Cpu
  board : Board κ ρ
  interrupt : Interrupt
  debugger : Debugger := {}
  /-- The latest frame is complete, and the next has not been started. -/
  frameFinished : Bool := true
  frameCount : Nat := 0
  /-- The tacts by which the last instruction of the latest frame ran past its end. -/
  overflow : Nat := 0
  /-- The first tact of the frame that has not been drawn. -/
  nextDrawn : Nat := 0
  completion : Completion := .notRun
  fault : Option ProcessorFault := none

namespace Machine

variable {Cpu κ ρ : Type} [Processor Cpu]

def pc (machine : Machine Cpu κ ρ) : UInt16 :=
  Processor.pc machine.cpu

def frameTacts (machine : Machine Cpu κ ρ) : Nat :=
  machine.board.timing.frameTacts

def frameTact (machine : Machine Cpu κ ρ) : Nat :=
  machine.board.frameTact (Processor.tacts machine.cpu)

/-- Draws the screen up to a frame tact, as far as it has not been drawn and is in the frame. -/
def drawTo (machine : Machine Cpu κ ρ) (tact : Nat) : Machine Cpu κ ρ :=
  let bound := min tact machine.frameTacts
  if machine.nextDrawn < bound then
    { machine with board := machine.board.draw machine.nextDrawn bound, nextDrawn := bound }
  else machine

def pollInterrupt (machine : Machine Cpu κ ρ) : Option (Machine Cpu κ ρ) := do
  let cpu := machine.cpu
  let (interrupt, change) ←
    machine.interrupt.poll (Processor.interruptBlocked cpu) machine.frameTact
  match change with
  | .keep => return { machine with interrupt }
  | _ =>
    return { machine with
      interrupt
      cpu := Processor.withSignals (change.apply (Processor.signals cpu)) cpu }

variable [Peripheral κ]

/-! The start and the completion of a frame. A frame began as many tacts ago as the one before it
overran, and these are drawn when it starts. -/

def startFrame (machine : Machine Cpu κ ρ) : Machine Cpu κ ρ :=
  let carried := machine.overflow * machine.board.multiplier
  let board := { machine.board with
    frameStart := Processor.tacts machine.cpu - carried
    beeper := machine.board.beeper.newFrame }
  let board := (board.tell .frameStarted).callCards .newFrame Peripheral.newFrame
  { machine with
    board := board.draw 0 machine.overflow
    interrupt := machine.interrupt.newFrame
    nextDrawn := machine.overflow
    frameFinished := false }

def tellPicture (board : Board κ ρ) (pixels : Option (Array UInt8)) : Board κ ρ :=
  match pixels with
  | some pixels => board.tell (.picture pixels)
  | none => board

def tellSound (board : Board κ ρ) (samples : Option (Array UInt32)) : Board κ ρ :=
  match samples with
  | some samples => board.tell (.sound samples)
  | none => board

def completeFrame (machine : Machine Cpu κ ρ) : Machine Cpu κ ρ :=
  let overflow := machine.frameTact % machine.frameTacts
  let (screen, pixels) := machine.board.screen.completeFrame
  let (beeper, samples) := machine.board.beeper.completeFrame
  let board := tellSound (tellPicture { machine.board with screen, beeper } pixels) samples
  { machine with
    board := board.callCards (.completeFrame overflow) (Peripheral.completeFrame overflow)
    frameCount := machine.frameCount + 1
    overflow }

variable [TapeProvider ρ]

/-- Lets the tape deck follow a completed instruction. While it plays, the beeper listens to
it. -/
def followTape (machine : Machine Cpu κ ρ) (fast : Bool) : Option (Machine Cpu κ ρ) := do
  let ⟨cpu, board, interrupt, debugger, frameFinished, frameCount, overflow, nextDrawn,
    completion, fault⟩ := machine
  let tact := board.machineTact (Processor.tacts cpu)
  let ⟨memory, port, screen, beeper, keyboard, deck, sound, floppy, frameStart, multiplier,
    contended, notices⟩ := board
  let (deck, registers, memory) ← deck.follow fast tact (Processor.registers cpu) memory
  let beeper := { beeper with fromTape := deck.loading }
  return ⟨Processor.withRegisters registers cpu,
    ⟨memory, port, screen, beeper, keyboard, deck, sound, floppy, frameStart, multiplier,
      contended, notices⟩,
    interrupt, debugger, frameFinished, frameCount, overflow, nextDrawn, completion, fault⟩

/-- The machine after power-on. Breakpoints, tape provider, observers and cards stay. -/
def reset (machine : Machine Cpu κ ρ) : Machine Cpu κ ρ :=
  let old := machine.board
  let board : Board κ ρ := { old with
    memory := old.memory.reset
    port := {}
    screen := old.screen.reset
    beeper := old.beeper.reset
    keyboard := {}
    deck := old.deck.reset
    frameStart := 0 }
  { cpu := Processor.reset machine.cpu
    board := board.callCards .reset Peripheral.reset
    interrupt := machine.interrupt.reset
    debugger := machine.debugger.reset }

end Machine

end ZxSpectrum
