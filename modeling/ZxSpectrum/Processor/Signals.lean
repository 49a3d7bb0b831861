namespace ZxSpectrum

/-! The lines between the processor and the rest of the machine. -/

/-- A set of signals, one bit each. -/
structure Signals where
  bits : UInt8 := 0
deriving DecidableEq

namespace Signals

def interrupt : Signals := ⟨0x01⟩

def halted : Signals := ⟨0x08⟩

def contains (signals others : Signals) : Bool :=
  signals.bits &&& others.bits = others.bits

def insert (signals others : Signals) : Signals :=
  ⟨signals.bits ||| others.bits⟩

def remove (signals others : Signals) : Signals :=
  ⟨signals.bits &&& ~~~others.bits⟩

end Signals

end ZxSpectrum
