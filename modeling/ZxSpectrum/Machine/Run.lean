import ZxSpectrum.Machine.Basic

namespace ZxSpectrum

/-! Running the machine. A run goes from one instruction to the next; before each it looks
whether it has to stop, and at the end of each frame it completes that frame. -/

/-- What a run is given: its options, the answers of its cancellation token to one poll after
another, and the processor tact at which it started. -/
structure RunRequest where
  options : RunOptions
  cancelled : Nat → Bool
  started : Nat

structure RunProgress where
  polls : Nat := 0
  executed : Nat := 0
  /-- The run stands at its beginning or between two frames. -/
  betweenFrames : Bool := true

inductive Turn (Cpu κ ρ : Type)
  | goOn (progress : RunProgress) (machine : Machine Cpu κ ρ)
  | stop (completion : Completion) (machine : Machine Cpu κ ρ)

namespace Machine

variable {Cpu κ ρ : Type} [Processor Cpu]

def timedOut (machine : Machine Cpu κ ρ) (request : RunRequest) : Bool :=
  0 < request.options.timeout
    && request.options.timeout < Processor.tacts machine.cpu - request.started

def atPoint (machine : Machine Cpu κ ρ) (mode : RunMode) : Bool :=
  match mode with
  | .untilPoint address rom =>
    machine.pc = address && (0x4000 ≤ machine.pc || machine.board.memory.selectedRom = rom)
  | _ => false

def askDebugger (machine : Machine Cpu κ ρ) (mode : RunMode) (executed : Nat) :
    Bool × Machine Cpu κ ρ :=
  match mode with
  | .debugger step =>
    let (stop, debugger) := machine.debugger.shouldStop step machine.pc executed fun _ =>
      Processor.callLength machine.cpu machine.board.memory.read
    (stop, { machine with debugger })
  | _ => (false, machine)

/-- The reason to stop before the next instruction, if there is one, in order of priority. -/
def stopReason (machine : Machine Cpu κ ρ) (request : RunRequest) (progress : RunProgress) :
    Option Completion × Machine Cpu κ ρ :=
  if request.cancelled progress.polls then (some .cancelled, machine)
  else if machine.timedOut request then (some .timeout, machine)
  else if machine.atPoint request.options.mode then (some .pointReached, machine)
  else
    let (stop, machine) := machine.askDebugger request.options.mode progress.executed
    (if stop then some .breakpointReached else none, machine)

variable [Peripheral κ] [TapeProvider ρ]

/-- Executes one instruction, with what comes before and after it: the poll of the interrupt
window, drawing, and the tape deck's look at the program counter. A reason to stop at once is a
fault or, in a run that waits for it, a halt. -/
def executeInstruction (machine : Machine Cpu κ ρ) (options : RunOptions) :
    Option (Option Completion × Machine Cpu κ ρ) := do
  let ⟨cpu, board, interrupt, debugger, frameFinished, frameCount, overflow, nextDrawn,
    completion, fault⟩ ← machine.pollInterrupt
  let ((cpu, newFault), board) ← board.perform (Processor.step cpu)
  match newFault with
  | some newFault =>
    return (some .faulted, ⟨cpu, board, interrupt, debugger, frameFinished, frameCount, overflow,
      nextDrawn, completion, some newFault⟩)
  | none =>
    let machine : Machine Cpu κ ρ := ⟨cpu, board, interrupt, debugger, frameFinished, frameCount,
      overflow, nextDrawn, completion, fault⟩
    let tact := machine.frameTact
    let machine := if options.withoutDrawing then machine else machine.drawTo tact
    if options.mode = .untilHalt ∧ Processor.halted machine.cpu then
      return (some .halted, machine)
    else
      let machine ← machine.followTape options.fastTape
      let finished := !Processor.midInstruction machine.cpu && machine.frameTacts ≤ tact
      return (none, { machine with frameFinished := finished })

def endTurn (machine : Machine Cpu κ ρ) (request : RunRequest) (progress : RunProgress) :
    Turn Cpu κ ρ :=
  if machine.frameFinished then
    let machine := machine.completeFrame
    if request.options.mode.endsWithFrame then .stop .frameCompleted machine
    else .goOn { progress with betweenFrames := true } machine
  else .goOn { progress with betweenFrames := false } machine

def advance (machine : Machine Cpu κ ρ) (request : RunRequest) (progress : RunProgress) :
    Option (Turn Cpu κ ρ) := do
  let (reason, machine) ← machine.executeInstruction request.options
  match reason with
  | some reason => return .stop reason machine
  | none =>
    return machine.endTurn request { progress with executed := progress.executed + 1 }

/-! Turns. Within an instruction nothing stops the run, and between frames it can be cancelled
before the next frame starts. -/

def turnAtBoundary (machine : Machine Cpu κ ρ) (request : RunRequest) (progress : RunProgress) :
    Option (Turn Cpu κ ρ) :=
  if Processor.midInstruction machine.cpu then machine.advance request progress
  else
    let (reason, machine) := machine.stopReason request progress
    match reason with
    | some reason => some (.stop reason machine)
    | none => machine.advance request { progress with polls := progress.polls + 1 }

def turn (machine : Machine Cpu κ ρ) (request : RunRequest) (progress : RunProgress) :
    Option (Turn Cpu κ ρ) :=
  if progress.betweenFrames then
    if request.cancelled progress.polls then some (.stop .cancelled machine)
    else
      let machine := if machine.frameFinished then machine.startFrame else machine
      machine.turnAtBoundary request { progress with polls := progress.polls + 1 }
  else machine.turnAtBoundary request progress

/-- Turn after turn, within a budget of turns. There is no reason to stop when the budget has
run out. -/
def turns (request : RunRequest) : (budget : Nat) → RunProgress → Machine Cpu κ ρ →
    Option (Option Completion × Machine Cpu κ ρ)
  | 0, _, machine => some (none, machine)
  | budget + 1, progress, machine => do
    match ← machine.turn request progress with
    | .stop completion machine => return (some completion, machine)
    | .goOn progress machine => turns request budget progress machine

/-- Prepares a run: whether pictures and sound are handed over, and, without the debugger, that
no call is being stepped over. -/
def prepare (machine : Machine Cpu κ ρ) (options : RunOptions) : Machine Cpu κ ρ :=
  let board := machine.board
  let board := { board with
    screen := { board.screen with suppressed := options.withoutDelivery }
    beeper := { board.beeper with muted := options.withoutDelivery } }
  let debugger :=
    match options.mode with
    | .debugger _ => machine.debugger
    | _ => machine.debugger.cancelStepOver
  { machine with board, debugger }

def run (machine : Machine Cpu κ ρ) (options : RunOptions) (cancelled : Nat → Bool)
    (budget : Nat) : Option (Option Completion × Machine Cpu κ ρ) := do
  let request := { options, cancelled, started := Processor.tacts machine.cpu }
  let (completion, machine) ← turns request budget {} (machine.prepare options)
  match completion with
  | some reason => return (completion, { machine with completion := reason })
  | none => return (none, machine)

end Machine

end ZxSpectrum
