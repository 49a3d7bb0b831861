import ZxSpectrum.Processor.Basic

namespace ZxSpectrum

/-! A small processor for exercising a machine. It executes a handful of instructions with
their documented lengths, enough for frames, interrupts, ports and routines in ROM; any other
opcode is a fault. -/

structure ScriptedProcessor where
  registers : Registers := { a := 0xFF, f := 0xFF, sp := 0xFFFF }
  tacts : Nat := 0
  signals : Signals := {}
  /-- The latest instruction enabled interrupts. -/
  justEnabled : Bool := false
  /-- Interrupts are blocked from outside. -/
  blocked : Bool := false
  /-- Addresses at which the processor claims to be within an instruction. -/
  midInstructionAt : List UInt16 := []
deriving DecidableEq

namespace ScriptedProcessor

def reset (cpu : ScriptedProcessor) : ScriptedProcessor :=
  { blocked := cpu.blocked, midInstructionAt := cpu.midInstructionAt }

def interruptBlocked (cpu : ScriptedProcessor) : Bool :=
  cpu.blocked || cpu.justEnabled

def elapse (cpu : ScriptedProcessor) (tacts : Nat) : ScriptedProcessor :=
  { cpu with tacts := cpu.tacts + tacts }

def jump (cpu : ScriptedProcessor) (pc : UInt16) : ScriptedProcessor :=
  { cpu with registers := { cpu.registers with pc } }

def setInterrupts (cpu : ScriptedProcessor) (enabled : Bool) : ScriptedProcessor :=
  { cpu with registers := { cpu.registers with iff1 := enabled, iff2 := enabled } }

def refresh (cpu : ScriptedProcessor) : ScriptedProcessor :=
  let r := cpu.registers.r
  { cpu with registers := { cpu.registers with r := r &&& 0x80 ||| (r + 1) &&& 0x7F } }

/-! Reading at the program counter, and the stack. Words are read low byte first and pushed high
byte first. -/

def fetch (cpu : ScriptedProcessor) : BusProgram (UInt8 × ScriptedProcessor) :=
  .read cpu.registers.pc cpu.tacts fun value wait =>
    .done (value, (cpu.elapse wait).jump (cpu.registers.pc + 1))

def fetchWord (cpu : ScriptedProcessor) : BusProgram (UInt16 × ScriptedProcessor) := do
  let (low, cpu) ← cpu.fetch
  let (high, cpu) ← cpu.fetch
  return (wordOf high low, cpu)

def pushByte (cpu : ScriptedProcessor) (value : UInt8) : BusProgram ScriptedProcessor :=
  let sp := cpu.registers.sp - 1
  .write sp value cpu.tacts fun wait =>
    .done { cpu.elapse wait with registers := { cpu.registers with sp } }

def push (cpu : ScriptedProcessor) (word : UInt16) : BusProgram ScriptedProcessor := do
  let cpu ← cpu.pushByte (highByte word)
  cpu.pushByte (lowByte word)

/-- Pops a word. The delays of both reads pass after them. -/
def pop (cpu : ScriptedProcessor) : BusProgram (UInt16 × ScriptedProcessor) :=
  let sp := cpu.registers.sp
  .read sp cpu.tacts fun low lowWait =>
    .read (sp + 1) cpu.tacts fun high highWait =>
      .done (wordOf high low,
        { cpu.elapse (lowWait + highWait) with registers := { cpu.registers with sp := sp + 2 } })

def acceptInterrupt (cpu : ScriptedProcessor) : BusProgram ScriptedProcessor := do
  let cpu := { cpu with signals := cpu.signals.remove .halted }
  let cpu ← ((cpu.setInterrupts false).refresh).push cpu.registers.pc
  return (cpu.jump 0x0038).elapse 13

def loadOperand (cpu : ScriptedProcessor) (store : UInt8 → Registers → Registers) :
    BusProgram (ScriptedProcessor × Option ProcessorFault) := do
  let (value, cpu) ← cpu.fetch
  return ({ cpu with registers := store value cpu.registers }.elapse 7, none)

/-- Executes the instruction whose opcode has been read at an address. An unknown opcode
leaves the program counter at that address. -/
def execute (cpu : ScriptedProcessor) (pc : UInt16) (opcode : UInt8) :
    BusProgram (ScriptedProcessor × Option ProcessorFault) :=
  match opcode with
  | 0x00 => return (cpu.elapse 4, none)
  | 0x08 => return ({ cpu with registers := cpu.registers.exchangeAF }.elapse 4, none)
  | 0x06 => cpu.loadOperand fun value registers => { registers with b := value }
  | 0x0E => cpu.loadOperand fun value registers => { registers with c := value }
  | 0x16 => cpu.loadOperand fun value registers => { registers with d := value }
  | 0x1E => cpu.loadOperand fun value registers => { registers with e := value }
  | 0x26 => cpu.loadOperand fun value registers => { registers with h := value }
  | 0x2E => cpu.loadOperand fun value registers => { registers with l := value }
  | 0x3E => cpu.loadOperand fun value registers => { registers with a := value }
  | 0x76 => return ({ cpu with signals := cpu.signals.insert .halted }.elapse 4, none)
  | 0xC3 => do
    let (target, cpu) ← cpu.fetchWord
    return ((cpu.jump target).elapse 10, none)
  | 0xC9 => do
    let (target, cpu) ← cpu.pop
    return ((cpu.jump target).elapse 10, none)
  | 0xCD => do
    let (target, cpu) ← cpu.fetchWord
    let cpu ← cpu.push cpu.registers.pc
    return ((cpu.jump target).elapse 17, none)
  | 0xD3 => do
    let (low, cpu) ← cpu.fetch
    let value := cpu.registers.a
    .output (wordOf value low) value cpu.tacts fun wait =>
      .done (cpu.elapse (wait + 11), none)
  | 0xDB => do
    let (low, cpu) ← cpu.fetch
    .input (wordOf cpu.registers.a low) cpu.tacts fun value wait =>
      .done ({ cpu with registers := { cpu.registers with a := value } }.elapse (wait + 11), none)
  | 0xF3 => return ((cpu.setInterrupts false).elapse 4, none)
  | 0xFB => return ({ cpu.setInterrupts true with justEnabled := true }.elapse 4, none)
  | opcode => return (cpu.jump pc, some (.invalidOpcode pc opcode))

/-- Accepts an interrupt if one is due, or else executes the instruction at the program
counter. A halted processor executes nothing until then. -/
def step (cpu : ScriptedProcessor) : BusProgram (ScriptedProcessor × Option ProcessorFault) :=
  if cpu.signals.contains .interrupt && cpu.registers.iff1 && !cpu.interruptBlocked then do
    let cpu ← cpu.acceptInterrupt
    return (cpu, none)
  else
    let cpu := { cpu with justEnabled := false }
    if cpu.signals.contains .halted then return (cpu.refresh.elapse 4, none)
    else do
      let pc := cpu.registers.pc
      let (opcode, cpu) ← cpu.fetch
      cpu.refresh.execute pc opcode

instance : Processor ScriptedProcessor where
  tacts := tacts
  registers := registers
  withRegisters registers cpu := { cpu with registers }
  signals := signals
  withSignals signals cpu := { cpu with signals }
  midInstruction cpu := cpu.midInstructionAt.contains cpu.registers.pc
  interruptBlocked := interruptBlocked
  step := step
  callLength cpu memory := if memory cpu.registers.pc = 0xCD then 3 else 0
  reset := reset

instance : LawfulProcessor ScriptedProcessor where
  registers_withRegisters _ _ := rfl
  tacts_withRegisters _ _ := rfl
  signals_withRegisters _ _ := rfl
  withRegisters_registers _ := rfl
  signals_withSignals _ _ := rfl
  tacts_withSignals _ _ := rfl
  registers_withSignals _ _ := rfl

end ScriptedProcessor

end ZxSpectrum
