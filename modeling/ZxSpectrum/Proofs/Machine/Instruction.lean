import ZxSpectrum.Machine.Run
import ZxSpectrum.Proofs.Machine.Backdrop
import ZxSpectrum.Proofs.Processor.Monotonic

namespace ZxSpectrum.Machine

/-! One instruction, taken apart: the poll of the interrupt window and the processor's step, then
drawing, then the tape deck. Only drawing and the last look at the clock touch the account of the
frame. -/

structure Account where
  backdrop : Backdrop
  frameFinished : Bool
  frameCount : Nat
  overflow : Nat
  nextDrawn : Nat

variable {Cpu κ ρ : Type}

def account (machine : Machine Cpu κ ρ) : Account where
  backdrop := machine.board.backdrop
  frameFinished := machine.frameFinished
  frameCount := machine.frameCount
  overflow := machine.overflow
  nextDrawn := machine.nextDrawn

variable [Processor Cpu]

/-! Drawing, as far as an instruction asks for it. -/

def drawnBy (machine : Machine Cpu κ ρ) (options : RunOptions) : Machine Cpu κ ρ :=
  if options.withoutDrawing then machine else machine.drawTo machine.frameTact

omit [Processor Cpu] in
theorem drawTo_eq (machine : Machine Cpu κ ρ) (tact : Nat) :
    let bound := min tact machine.frameTacts
    machine.drawTo tact =
      { machine with
        board := machine.board.draw machine.nextDrawn bound
        nextDrawn := max machine.nextDrawn bound } := by
  intro bound
  by_cases left : machine.nextDrawn < bound
  · rw [drawTo, if_pos left, max_eq_right (Nat.le_of_lt left)]
  · have nothing : bound - machine.nextDrawn = 0 := Nat.sub_eq_zero_of_le (Nat.not_lt.mp left)
    have same : machine.board.draw machine.nextDrawn bound = machine.board := by
      rw [Board.draw, Screen.drawRange, nothing]
      rfl
    rw [drawTo, if_neg left, max_eq_left (Nat.not_lt.mp left), same]

theorem frameFinished_drawnBy (machine : Machine Cpu κ ρ) (options : RunOptions) :
    (machine.drawnBy options).frameFinished = machine.frameFinished := by
  rw [drawnBy]
  split
  · rfl
  · rw [drawTo_eq]

theorem account_pollInterrupt {machine polled : Machine Cpu κ ρ}
    (poll : machine.pollInterrupt = some polled) : polled.account = machine.account := by
  rcases Option.bind_eq_some_iff.mp poll with ⟨⟨interrupt, change⟩, -, rest⟩
  cases change <;> (cases rest; rfl)

theorem tacts_pollInterrupt [LawfulProcessor Cpu] {machine polled : Machine Cpu κ ρ}
    (poll : machine.pollInterrupt = some polled) :
    Processor.tacts polled.cpu = Processor.tacts machine.cpu := by
  rcases Option.bind_eq_some_iff.mp poll with ⟨⟨interrupt, change⟩, -, rest⟩
  cases change <;> cases rest
  · rfl
  · exact LawfulProcessor.tacts_withSignals _ _
  · exact LawfulProcessor.tacts_withSignals _ _

variable [TapeProvider ρ]

/-! What comes before the step of the processor, and what follows it. -/

def settle (machine : Machine Cpu κ ρ) (options : RunOptions) :
    Option (Option Completion × Machine Cpu κ ρ) :=
  let drawn := machine.drawnBy options
  if options.mode = .untilHalt ∧ Processor.halted drawn.cpu then some (some .halted, drawn)
  else do
    let followed ← drawn.followTape options.fastTape
    let finished :=
      !Processor.midInstruction followed.cpu && followed.frameTacts ≤ machine.frameTact
    return (none, { followed with frameFinished := finished })

theorem account_followTape {machine followed : Machine Cpu κ ρ} {fast : Bool}
    (tape : machine.followTape fast = some followed) : followed.account = machine.account := by
  rcases Option.bind_eq_some_iff.mp tape with ⟨⟨deck, registers, memory⟩, -, rest⟩
  cases rest
  rfl

theorem tacts_followTape [LawfulProcessor Cpu] {machine followed : Machine Cpu κ ρ} {fast : Bool}
    (tape : machine.followTape fast = some followed) :
    Processor.tacts followed.cpu = Processor.tacts machine.cpu := by
  rcases Option.bind_eq_some_iff.mp tape with ⟨⟨deck, registers, memory⟩, -, rest⟩
  cases rest
  exact LawfulProcessor.tacts_withRegisters _ _

variable [Peripheral κ]

def cycle (machine : Machine Cpu κ ρ) : Option (Option ProcessorFault × Machine Cpu κ ρ) := do
  let polled ← machine.pollInterrupt
  let ((cpu, fault), board) ← polled.board.perform (Processor.step polled.cpu)
  return (fault, { polled with cpu, board })

theorem executeInstruction_eq (machine : Machine Cpu κ ρ) (options : RunOptions) :
    machine.executeInstruction options =
      machine.cycle.bind fun (fault, stepped) =>
        match fault with
        | some fault => some (some .faulted, { stepped with fault := some fault })
        | none => stepped.settle options := by
  rw [executeInstruction, cycle]
  cases machine.pollInterrupt with
  | none => rfl
  | some polled =>
      rcases polled with ⟨cpu, board, interrupt, debugger, finished, count, overflow, drawn,
        completion, fault⟩
      simp only [Option.bind_eq_bind, Option.bind_some]
      cases board.perform (Processor.step cpu) with
      | none => rfl
      | some result =>
          rcases result with ⟨⟨cpu, newFault⟩, board⟩
          cases newFault <;> rfl

/-- The three ways in which an instruction can come to a result. -/
inductive Executed (machine : Machine Cpu κ ρ) (options : RunOptions) :
    Option Completion → Machine Cpu κ ρ → Prop
  | faulted {stepped fault} (cycled : machine.cycle = some (some fault, stepped)) :
    Executed machine options (some .faulted) { stepped with fault := some fault }
  | halted {stepped} (cycled : machine.cycle = some (none, stepped))
    (waits : options.mode = .untilHalt) :
    Executed machine options (some .halted) (stepped.drawnBy options)
  | completed {stepped followed} (cycled : machine.cycle = some (none, stepped))
    (tape : (stepped.drawnBy options).followTape options.fastTape = some followed) :
    Executed machine options none
      { followed with
        frameFinished := !Processor.midInstruction followed.cpu &&
          followed.frameTacts ≤ stepped.frameTact }

theorem executed_of_executeInstruction {machine after : Machine Cpu κ ρ} {options : RunOptions}
    {reason : Option Completion}
    (result : machine.executeInstruction options = some (reason, after)) :
    Executed machine options reason after := by
  rw [executeInstruction_eq] at result
  rcases Option.bind_eq_some_iff.mp result with ⟨⟨fault, stepped⟩, cycled, rest⟩
  cases fault with
  | some fault =>
      cases rest
      exact .faulted cycled
  | none =>
      replace rest : stepped.settle options = some (reason, after) := rest
      rw [settle] at rest
      split at rest
      · next halted =>
          cases rest
          exact .halted cycled halted.1
      · rcases Option.bind_eq_some_iff.mp rest with ⟨followed, tape, rest⟩
        cases rest
        exact .completed cycled tape

theorem account_cycle {machine stepped : Machine Cpu κ ρ} {fault : Option ProcessorFault}
    (cycled : machine.cycle = some (fault, stepped)) : stepped.account = machine.account := by
  rcases Option.bind_eq_some_iff.mp cycled with ⟨polled, poll, rest⟩
  rcases Option.bind_eq_some_iff.mp rest with ⟨⟨⟨cpu, fault⟩, board⟩, performed, rest⟩
  cases rest
  rw [← account_pollInterrupt poll, account, account, Board.backdrop_perform performed]

theorem tacts_le_cycle [LawfulProcessor Cpu] [MonotonicProcessor Cpu]
    {machine stepped : Machine Cpu κ ρ} {fault : Option ProcessorFault}
    (cycled : machine.cycle = some (fault, stepped)) :
    Processor.tacts machine.cpu ≤ Processor.tacts stepped.cpu := by
  rcases Option.bind_eq_some_iff.mp cycled with ⟨polled, poll, rest⟩
  rcases Option.bind_eq_some_iff.mp rest with ⟨⟨⟨cpu, fault⟩, board⟩, performed, rest⟩
  cases rest
  rw [← tacts_pollInterrupt poll]
  exact Board.of_perform (MonotonicProcessor.tacts_le_step polled.cpu) performed

/-! Where frames start and end. -/

omit [TapeProvider ρ] in
theorem frameTacts_startFrame (machine : Machine Cpu κ ρ) :
    machine.startFrame.frameTacts = machine.frameTacts :=
  congrArg (fun backdrop => backdrop.sheet.1.frameTacts) (Board.backdrop_callCards _ _ _)

omit [TapeProvider ρ] in
theorem multiplier_startFrame (machine : Machine Cpu κ ρ) :
    machine.startFrame.board.multiplier = machine.board.multiplier :=
  congrArg Backdrop.multiplier (Board.backdrop_callCards _ _ _)

omit [TapeProvider ρ] in
theorem frameStart_startFrame (machine : Machine Cpu κ ρ) :
    machine.startFrame.board.frameStart =
      Processor.tacts machine.cpu - machine.overflow * machine.board.multiplier :=
  congrArg Backdrop.frameStart (Board.backdrop_callCards _ _ _)

omit [TapeProvider ρ] in
theorem backdrop_completeFrame (machine : Machine Cpu κ ρ) :
    machine.completeFrame.board.backdrop = machine.board.backdrop := by
  have picture (board : Board κ ρ) (pixels : Option (Array UInt8)) :
      (tellPicture board pixels).backdrop = board.backdrop := by
    cases pixels <;> rfl
  have sound (board : Board κ ρ) (samples : Option (Array UInt32)) :
      (tellSound board samples).backdrop = board.backdrop := by
    cases samples <;> rfl
  refine (Board.backdrop_callCards _ _ _).trans ((sound _ _).trans ((picture _ _).trans ?_))
  have counted (screen : Screen) : screen.countFrame.sheet = screen.sheet ∧
      screen.countFrame.suppressed = screen.suppressed := by
    rw [Screen.countFrame]
    split <;> exact ⟨rfl, rfl⟩
  exact congrArg₂ (Backdrop.mk · · _ _ _ _) (counted _).1 (counted _).2

omit [TapeProvider ρ] in
theorem frameTacts_completeFrame (machine : Machine Cpu κ ρ) :
    machine.completeFrame.frameTacts = machine.frameTacts :=
  congrArg (fun backdrop => backdrop.sheet.1.frameTacts) machine.backdrop_completeFrame

omit [TapeProvider ρ] in
theorem multiplier_completeFrame (machine : Machine Cpu κ ρ) :
    machine.completeFrame.board.multiplier = machine.board.multiplier :=
  congrArg Backdrop.multiplier machine.backdrop_completeFrame

omit [TapeProvider ρ] in
theorem frameStart_completeFrame (machine : Machine Cpu κ ρ) :
    machine.completeFrame.board.frameStart = machine.board.frameStart :=
  congrArg Backdrop.frameStart machine.backdrop_completeFrame

end ZxSpectrum.Machine
