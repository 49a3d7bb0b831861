import ZxSpectrum.Processor.BusProgram
import ZxSpectrum.Processor.Registers
import ZxSpectrum.Processor.Signals
import ZxSpectrum.Text.Hexadecimal

namespace ZxSpectrum

/-! The processor as the machine sees it. -/

inductive ProcessorFault
  | invalidOpcode (pc : UInt16) (opcode : UInt8)
  | other (text : String)
deriving DecidableEq

def ProcessorFault.message : ProcessorFault → String
  | .invalidOpcode pc opcode =>
    s!"invalid opcode {Text.Hexadecimal.byte opcode} at {Text.Hexadecimal.word pc}"
  | .other text => s!"processor fault: {text}"

class Processor (Cpu : Type) where
  /-- The tacts executed since reset. They never go down. -/
  tacts : Cpu → Nat
  registers : Cpu → Registers
  withRegisters : Registers → Cpu → Cpu
  signals : Cpu → Signals
  withSignals : Signals → Cpu → Cpu
  /-- An instruction has been begun, but not executed. -/
  midInstruction : Cpu → Bool
  /-- An interrupt cannot be accepted now. -/
  interruptBlocked : Cpu → Bool
  /-- Executes one instruction or accepts an interrupt. -/
  step : Cpu → BusProgram (Cpu × Option ProcessorFault)
  /-- The length of the instruction at the program counter when it works like a call, else
  zero. -/
  callLength : Cpu → (memory : UInt16 → UInt8) → UInt16
  reset : Cpu → Cpu

namespace Processor

variable {Cpu : Type} [Processor Cpu]

def pc (cpu : Cpu) : UInt16 :=
  (registers cpu).pc

def halted (cpu : Cpu) : Bool :=
  (signals cpu).contains .halted

end Processor

/-- Registers and signals are components of their own: setting one changes nothing else that
can be seen between instructions. -/
class LawfulProcessor (Cpu : Type) [Processor Cpu] : Prop where
  registers_withRegisters (registers : Registers) (cpu : Cpu) :
    Processor.registers (Processor.withRegisters registers cpu) = registers
  tacts_withRegisters (registers : Registers) (cpu : Cpu) :
    Processor.tacts (Processor.withRegisters registers cpu) = Processor.tacts cpu
  signals_withRegisters (registers : Registers) (cpu : Cpu) :
    Processor.signals (Processor.withRegisters registers cpu) = Processor.signals cpu
  withRegisters_registers (cpu : Cpu) :
    Processor.withRegisters (Processor.registers cpu) cpu = cpu
  signals_withSignals (signals : Signals) (cpu : Cpu) :
    Processor.signals (Processor.withSignals signals cpu) = signals
  tacts_withSignals (signals : Signals) (cpu : Cpu) :
    Processor.tacts (Processor.withSignals signals cpu) = Processor.tacts cpu
  registers_withSignals (signals : Signals) (cpu : Cpu) :
    Processor.registers (Processor.withSignals signals cpu) = Processor.registers cpu

end ZxSpectrum
