import ZxSpectrum.Machine.Options

namespace ZxSpectrum

/-! The debugger: breakpoints, and what it remembers from one run to the next. -/

structure Debugger where
  /-- In ascending order, each once. -/
  breakpoints : List UInt16 := []
  /-- The program counter of the latest stop. A run that resumes on a breakpoint does not stop
  there again before it has executed anything. -/
  lastStop : Option UInt16 := none
  /-- The address to which the call that is being stepped over returns. -/
  returnAddress : Option UInt16 := none
deriving DecidableEq

namespace Debugger

def insert (address : UInt16) : List UInt16 → List UInt16
  | [] => [address]
  | other :: rest =>
    if address < other then address :: other :: rest
    else if address = other then other :: rest
    else other :: insert address rest

def add (debugger : Debugger) (address : UInt16) : Bool × Debugger :=
  (!debugger.breakpoints.contains address,
    { debugger with breakpoints := insert address debugger.breakpoints })

def remove (debugger : Debugger) (address : UInt16) : Bool × Debugger :=
  (debugger.breakpoints.contains address,
    { debugger with breakpoints := debugger.breakpoints.filter (· ≠ address) })

def clear (debugger : Debugger) : Debugger :=
  { debugger with breakpoints := [] }

def cancelStepOver (debugger : Debugger) : Debugger :=
  { debugger with returnAddress := none }

def reset (debugger : Debugger) : Debugger :=
  { breakpoints := debugger.breakpoints }

def mightStepOver (debugger : Debugger) (mode : StepMode) (executed : Nat) : Bool :=
  mode = .stepOver && debugger.returnAddress.isNone && executed = 0

/-- Prepares to step over an instruction of some length at an address. A length of zero means
that it is no call. -/
def stepOver (debugger : Debugger) (pc length : UInt16) : Debugger :=
  if 0 < length then { debugger with returnAddress := some (pc + length) } else debugger

/-- Whether to stop before the instruction at an address, after some instructions of this
run. Only a step over asks for the length of a call. -/
def decide (debugger : Debugger) (mode : StepMode) (pc : UInt16) (executed : Nat)
    (callLength : Unit → UInt16) : Bool × Debugger :=
  match mode with
  | .stepInto => (0 < executed, debugger.cancelStepOver)
  | .stopAtBreakpoint =>
    (debugger.breakpoints.contains pc && (0 < executed || debugger.lastStop ≠ some pc),
      debugger.cancelStepOver)
  | .stepOver =>
    match debugger.returnAddress with
    | some target =>
      if target = pc then (true, debugger.cancelStepOver) else (false, debugger)
    | none =>
      if 0 < executed then (true, debugger)
      else (false, debugger.stepOver pc (callLength ()))

/-- Whether to stop before the instruction at an address. A stop is remembered. -/
def shouldStop (debugger : Debugger) (mode : StepMode) (pc : UInt16) (executed : Nat)
    (callLength : Unit → UInt16) : Bool × Debugger :=
  let (stop, debugger) := debugger.decide mode pc executed callLength
  (stop, if stop then { debugger with lastStop := some pc } else debugger)

end Debugger

end ZxSpectrum
