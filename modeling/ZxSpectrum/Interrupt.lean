import ZxSpectrum.Number.Bound
import ZxSpectrum.Processor.Signals

namespace ZxSpectrum

/-! The interrupt window. Once a frame, from a configured tact on, the interrupt line can be
asserted, as long as the longest instruction takes. The window is polled before every
instruction. -/

structure Interrupt where
  tact : Nat
  /-- The line has been asserted in this frame. -/
  raised : Bool := false
  /-- The window of this frame has been found closed. -/
  revoked : Bool := false
  /-- How often the line has been asserted since reset. -/
  count : Nat := 0
deriving DecidableEq

namespace Interrupt

def longestInstruction : Nat := 23

inductive LineChange
  | keep
  | assert
  | release
deriving DecidableEq

def LineChange.apply : LineChange → Signals → Signals
  | .keep, signals => signals
  | .assert, signals => signals.insert .interrupt
  | .release, signals => signals.remove .interrupt

/-- Polls the window at a frame tact. The line is asserted once, in the window, when the
processor is not blocked, and released at the first poll after the window. The end of the
window has to fit a 32-bit counter. -/
def poll (interrupt : Interrupt) (blocked : Bool) (tact : Nat) :
    Option (Interrupt × LineChange) :=
  if interrupt.revoked ∨ tact < interrupt.tact then some (interrupt, .keep)
  else do
    let lastTact ← Bound.word (interrupt.tact + longestInstruction)
    if lastTact < tact then return ({ interrupt with revoked := true }, .release)
    else if interrupt.raised ∨ blocked then return (interrupt, .keep)
    else return ({ interrupt with raised := true, count := interrupt.count + 1 }, .assert)

def newFrame (interrupt : Interrupt) : Interrupt :=
  { interrupt with raised := false, revoked := false }

def reset (interrupt : Interrupt) : Interrupt :=
  { tact := interrupt.tact }

end Interrupt

end ZxSpectrum
