import ZxSpectrum.Proofs.Machine.FrameRounds
import ZxSpectrum.Proofs.Machine.PowerOn

namespace ZxSpectrum

/-! What building a machine fixes of its frames: the timing of its screen, how its beeper is made,
which cards it has, and the tact of its interrupt. Neither the machine nor its host ever changes any
of that. -/

structure Fixtures where
  setting : FrameSetting
  interruptTact : Nat

namespace Machine

variable {Cpu κ ρ : Type} {machine after : Machine Cpu κ ρ}

def fixtures (machine : Machine Cpu κ ρ) : Fixtures :=
  ⟨machine.board.frameSetting, machine.interrupt.tact⟩

theorem fixtures_congr (setting : after.board.frameSetting = machine.board.frameSetting)
    (tact : after.interrupt.tact = machine.interrupt.tact) : after.fixtures = machine.fixtures :=
  congrArg₂ Fixtures.mk setting tact

variable [Processor Cpu]

/-! Nothing that the machine does changes them. -/

theorem interruptTact_pollInterrupt (polled : machine.pollInterrupt = some after) :
    after.interrupt.tact = machine.interrupt.tact := by
  rcases Option.bind_eq_some_iff.mp polled with ⟨⟨interrupt, change⟩, polls, rest⟩
  have tact := (Interrupt.polled_of_poll polls).tact_eq
  cases change <;> (cases rest; exact tact)

variable [Peripheral κ]

theorem fixtures_startFrame (machine : Machine Cpu κ ρ) :
    machine.startFrame.fixtures = machine.fixtures :=
  fixtures_congr (congrArg FrameView.setting machine.frameView_startFrame) rfl

theorem fixtures_completeFrame (machine : Machine Cpu κ ρ) :
    machine.completeFrame.fixtures = machine.fixtures :=
  fixtures_congr (congrArg FrameView.setting machine.frameView_completeFrame) rfl

variable [TapeProvider ρ]

theorem interruptTact_cycle {fault : Option ProcessorFault}
    (cycled : machine.cycle = some (fault, after)) :
    after.interrupt.tact = machine.interrupt.tact := by
  rcases Option.bind_eq_some_iff.mp cycled with ⟨polled, poll, rest⟩
  rcases Option.bind_eq_some_iff.mp rest with ⟨⟨⟨cpu, fault⟩, board⟩, -, rest⟩
  have tact := interruptTact_pollInterrupt poll
  cases rest
  exact tact

theorem fixtures_executeInstruction {options : RunOptions} {reason : Option Completion}
    (executed : machine.executeInstruction options = some (reason, after)) :
    after.fixtures = machine.fixtures := by
  have setting := congrArg FrameView.setting (sameFrames_executeInstruction executed).view
  apply fixtures_congr setting
  cases executed_of_executeInstruction executed with
  | faulted cycled =>
      have tact := interruptTact_cycle cycled
      exact tact
  | @halted stepped cycled _ =>
      rw [(settled_drawnBy stepped options).interrupt]
      exact interruptTact_cycle cycled
  | @completed stepped followed cycled tape =>
      have drawn := (interrupt_followTape tape).trans (settled_drawnBy stepped options).interrupt
      exact (congrArg Interrupt.tact drawn).trans (interruptTact_cycle cycled)

theorem Step.fixtures {permitted : RunOptions → Prop} {first last : Standing Cpu κ ρ}
    {log : List (Moment Cpu κ ρ)} (step : Step permitted first log last) :
    last.machine.fixtures = first.machine.fixtures := by
  cases step with
  | note debugger completion => rfl
  | call allowed => rfl
  | startFrame => exact fixtures_startFrame _
  | boundary between => rfl
  | start => rfl
  | stop allowed stopped => exact fixtures_executeInstruction stopped
  | goOn allowed completed => exact fixtures_executeInstruction completed
  | completeFrame => exact fixtures_completeFrame _

theorem Path.fixtures {permitted : RunOptions → Prop} {first last : Standing Cpu κ ρ}
    {log : List (Moment Cpu κ ρ)} (path : Path permitted first log last) :
    last.machine.fixtures = first.machine.fixtures := by
  induction path with
  | nil => rfl
  | cons step _ induction => exact induction.trans step.fixtures

theorem fixtures_call {call : RunCall} {completion : Option Completion}
    (called : machine.call call = some (completion, after)) :
    after.fixtures = machine.fixtures := by
  rcases call_path called with ⟨executed, path⟩
  have same := path.fixtures
  exact same

/-! Neither does a reset, or anything else that the host does. -/

omit [TapeProvider ρ] in
theorem fixtures_reset (machine : Machine Cpu κ ρ) : machine.reset.fixtures = machine.fixtures := by
  refine fixtures_congr ?_ rfl
  rw [reset, Board.callCards_eq, Board.frameSetting, Option.isSome_map, Option.isSome_map]
  rfl

theorem fixtures_act {action : HostAction ρ} (acted : machine.act action = some after) :
    after.fixtures = machine.fixtures := by
  cases action with
  | run call =>
      rcases Option.map_eq_some_iff.mp acted with ⟨⟨completion, machine⟩, called, rfl⟩
      exact fixtures_call called
  | input port tact =>
      rcases Option.map_eq_some_iff.mp acted with ⟨⟨value, wait, board⟩, input, rfl⟩
      have same := Board.keptByCycles_sameFrames.input input
      exact fixtures_congr (congrArg FrameView.setting same.view) rfl
  | output port value tact =>
      rcases Option.map_eq_some_iff.mp acted with ⟨⟨wait, board⟩, output, rfl⟩
      have same := Board.keptByCycles_sameFrames.output output
      exact fixtures_congr (congrArg FrameView.setting same.view) rfl
  | tape change =>
      rcases Option.map_eq_some_iff.mp acted with ⟨deck, -, rfl⟩
      rfl
  | followTape fast =>
      have setting := congrArg FrameView.setting (sameFrames_followTape acted).view
      exact fixtures_congr setting (congrArg Interrupt.tact (interrupt_followTape acted))
  | key row column pressed | releaseKeys | poke address value | setRegisters registers
  | setSignals signals | takeNotices =>
      cases acted
      rfl
  | reset =>
      cases acted
      exact machine.fixtures_reset

theorem fixtures_acts {actions : List (HostAction ρ)} (acted : machine.acts actions = some after) :
    after.fixtures = machine.fixtures := by
  induction actions generalizing machine with
  | nil =>
      cases acted
      rfl
  | cons action actions induction =>
      rcases Option.bind_eq_some_iff.mp acted with ⟨middle, first, rest⟩
      exact (induction rest).trans (fixtures_act first)

end Machine

end ZxSpectrum
