import ZxSpectrum.Proofs.Machine.Instruction

namespace ZxSpectrum

/-! Sessions. A host runs the machine again and again, with whatever options, and changes the
breakpoints in between. What happens in a session is written down as a log of moments. -/

inductive Moment (Cpu κ ρ : Type)
  /-- A frame has been started; the tacts carried into it are drawn next. -/
  | frameStarted (machine : Machine Cpu κ ρ)
  /-- A tact of the frame is drawn, from the memory as it is then. -/
  | drawn (tact : Nat) (border : UInt8) (flash : Bool) (memory : UInt16 → UInt8)
  /-- The machine stands between two instructions of a frame, after some instructions of the
  present run. -/
  | boundary (executed : Nat) (machine : Machine Cpu κ ρ)
  /-- Nothing has stopped the run, and an instruction is about to be executed. -/
  | executing (machine : Machine Cpu κ ρ)
  | frameCompleted (machine : Machine Cpu κ ρ)

/-- A call of the host. A run that does not end of its own accord is looked at for a number of
turns. -/
structure RunCall where
  /-- What the host does to the debugger before the call. -/
  edit : Debugger → Debugger := id
  options : RunOptions := {}
  cancelled : Nat → Bool := fun _ => false
  budget : Nat

variable {Cpu κ ρ : Type}

def Board.drawnMoments (board : Board κ ρ) (first bound : Nat) : List (Moment Cpu κ ρ) :=
  (List.range' first (bound - first)).map fun tact =>
    .drawn tact board.screen.border board.screen.flash board.memory.read

theorem Board.drawn_of_mem_drawnMoments {board : Board κ ρ} {first bound : Nat}
    {moment : Moment Cpu κ ρ} (member : moment ∈ board.drawnMoments first bound) :
    ∃ tact border flash memory, moment = .drawn tact border flash memory := by
  rcases List.mem_map.mp member with ⟨tact, -, rfl⟩
  exact ⟨_, _, _, _, rfl⟩

namespace Machine

def withDebugger (machine : Machine Cpu κ ρ) (debugger : Debugger) : Machine Cpu κ ρ :=
  { machine with debugger }

def withCompletion (machine : Machine Cpu κ ρ) (completion : Completion) : Machine Cpu κ ρ :=
  { machine with completion }

variable [Processor Cpu] [Peripheral κ]

def called (machine : Machine Cpu κ ρ) (call : RunCall) : Machine Cpu κ ρ :=
  (machine.withDebugger (call.edit machine.debugger)).prepare call.options

def startFrameLog (machine : Machine Cpu κ ρ) : List (Moment Cpu κ ρ) :=
  .frameStarted machine.startFrame :: machine.board.drawnMoments 0 machine.overflow

variable [TapeProvider ρ]

/-! The log of a run, from one instruction to the next. -/

def executeLog (machine : Machine Cpu κ ρ) (options : RunOptions) : List (Moment Cpu κ ρ) :=
  match machine.cycle with
  | some (none, stepped) =>
    if options.withoutDrawing then []
    else stepped.board.drawnMoments stepped.nextDrawn (min stepped.frameTact stepped.frameTacts)
  | _ => []

def stopLog (machine : Machine Cpu κ ρ) (reason : Completion) (executed : Nat) :
    List (Moment Cpu κ ρ) :=
  if reason = .halted ∧ Processor.midInstruction machine.cpu = false then
    [.boundary executed machine]
  else []

def advanceLog (machine : Machine Cpu κ ρ) (request : RunRequest) (progress : RunProgress) :
    List (Moment Cpu κ ρ) :=
  .executing machine ::
    match machine.executeInstruction request.options with
    | none => []
    | some (some reason, after) =>
      machine.executeLog request.options ++ after.stopLog reason (progress.executed + 1)
    | some (none, after) =>
      machine.executeLog request.options ++
        if after.frameFinished then [.frameCompleted after.completeFrame] else []

def boundaryLog (machine : Machine Cpu κ ρ) (request : RunRequest) (progress : RunProgress) :
    List (Moment Cpu κ ρ) :=
  if Processor.midInstruction machine.cpu then machine.advanceLog request progress
  else
    .boundary progress.executed machine ::
      match machine.stopReason request progress with
      | (some _, _) => []
      | (none, machine) => machine.advanceLog request progress

def turnLog (machine : Machine Cpu κ ρ) (request : RunRequest) (progress : RunProgress) :
    List (Moment Cpu κ ρ) :=
  if progress.betweenFrames then
    if request.cancelled progress.polls then []
    else
      let progress := { progress with polls := progress.polls + 1 }
      if machine.frameFinished then
        machine.startFrameLog ++ machine.startFrame.boundaryLog request progress
      else machine.boundaryLog request progress
  else machine.boundaryLog request progress

def turnsLog (request : RunRequest) :
    (budget : Nat) → RunProgress → Machine Cpu κ ρ → List (Moment Cpu κ ρ)
  | 0, _, _ => []
  | budget + 1, progress, machine =>
    machine.turnLog request progress ++
      match machine.turn request progress with
      | some (.goOn progress machine) => turnsLog request budget progress machine
      | _ => []

def runLog (machine : Machine Cpu κ ρ) (options : RunOptions) (cancelled : Nat → Bool)
    (budget : Nat) : List (Moment Cpu κ ρ) :=
  turnsLog { options, cancelled, started := Processor.tacts machine.cpu } budget {}
    (machine.prepare options)

def call (machine : Machine Cpu κ ρ) (call : RunCall) :
    Option (Option Completion × Machine Cpu κ ρ) :=
  (machine.withDebugger (call.edit machine.debugger)).run call.options call.cancelled call.budget

/-! The machine and the log after some calls, up to a value out of range. -/

def session : List RunCall → Machine Cpu κ ρ → Option (Machine Cpu κ ρ)
  | [], machine => some machine
  | call :: calls, machine => do
    let (_, machine) ← machine.call call
    session calls machine

def sessionLog : List RunCall → Machine Cpu κ ρ → List (Moment Cpu κ ρ)
  | [], _ => []
  | call :: calls, machine =>
    (machine.withDebugger (call.edit machine.debugger)).runLog call.options call.cancelled
        call.budget ++
      match machine.call call with
      | some (_, machine) => sessionLog calls machine
      | none => []

end Machine

end ZxSpectrum
