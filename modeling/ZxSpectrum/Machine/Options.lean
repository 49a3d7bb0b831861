namespace ZxSpectrum

/-! How a run of the machine is asked to end, and how it did end. -/

inductive StepMode
  | stopAtBreakpoint
  | stepInto
  | stepOver
deriving DecidableEq

def StepMode.label : StepMode → String
  | .stopAtBreakpoint => "StopAtBreakpoint"
  | .stepInto => "StepInto"
  | .stepOver => "StepOver"

def StepMode.ofLabel (name : String) : Option StepMode :=
  [stopAtBreakpoint, stepInto, stepOver].find? (·.label = name)

theorem StepMode.ofLabel_label (mode : StepMode) : ofLabel mode.label = some mode := by
  cases mode <;> rfl

inductive RunMode
  /-- At the end of the frame, or when the debugger says so. -/
  | debugger (step : StepMode)
  | untilHalt
  | untilFrameEnds
  /-- When the program counter reaches an address. One in ROM counts only while a certain page
  of it is selected. -/
  | untilPoint (address : UInt16) (rom : UInt8)
  | continuous
deriving DecidableEq

namespace RunMode

def label : RunMode → String
  | .debugger _ => "Debugger"
  | .untilHalt => "UntilHalt"
  | .untilFrameEnds => "UntilFrameEnds"
  | .untilPoint _ _ => "UntilExecutionPoint"
  | .continuous => "Continuous"

def endsWithFrame : RunMode → Bool
  | .debugger _ | .untilFrameEnds => true
  | _ => false

end RunMode

structure RunOptions where
  mode : RunMode := .untilFrameEnds
  /-- The processor tacts after which the run is given up; zero for no limit. -/
  timeout : Nat := 0
  /-- The screen is not drawn as instructions are executed. -/
  withoutDrawing : Bool := false
  /-- Pictures and sound are made, but not handed over. -/
  withoutDelivery : Bool := false
  /-- Blocks of a tape are copied straight into memory. -/
  fastTape : Bool := false
deriving DecidableEq

/-! Why the latest run ended. -/

inductive Completion
  | notRun
  | cancelled
  | timeout
  | pointReached
  | breakpointReached
  | halted
  | frameCompleted
  | faulted
deriving DecidableEq

namespace Completion

def label : Completion → String
  | .notRun => "None"
  | .cancelled => "Cancelled"
  | .timeout => "Timeout"
  | .pointReached => "TerminationPointReached"
  | .breakpointReached => "BreakpointReached"
  | .halted => "Halted"
  | .frameCompleted => "FrameCompleted"
  | .faulted => "Exception"

def all : List Completion :=
  [.notRun, .cancelled, .timeout, .pointReached, .breakpointReached, .halted, .frameCompleted,
    .faulted]

/-- The run did what it was asked for. -/
def succeeded : Completion → Bool
  | .cancelled | .timeout | .faulted => false
  | _ => true

end Completion

end ZxSpectrum
