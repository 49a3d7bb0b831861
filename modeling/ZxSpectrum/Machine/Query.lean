import ZxSpectrum.Machine.Basic

namespace ZxSpectrum

/-! Looking into a machine. Hosts and debuggers name a part of its state by a path of words
with dots between them; looking never changes anything. -/

inductive QueryValue
  | boolean (value : Bool)
  | byte (value : UInt8)
  | word (value : UInt16)
  | long (value : Nat)
  | text (value : String)
deriving DecidableEq

def QueryValue.typeName : QueryValue → String
  | .boolean _ => "bool"
  | .byte _ => "u8"
  | .word _ => "u16"
  | .long _ => "u64"
  | .text _ => "string"

def QueryValue.render : QueryValue → String
  | .boolean value => if value then "true" else "false"
  | .byte value => Text.Hexadecimal.byte value
  | .word value => Text.Hexadecimal.word value
  | .long value => toString value
  | .text value => value

/-- Digits of a base, most significant first, as a number below 0x10000. There has to be a
digit, and a plus sign may come first. -/
def parseWord (base : Nat) (characters : List Char) : Option UInt16 :=
  let digits :=
    match characters with
    | '+' :: rest => rest
    | _ => characters
  if digits = [] then none
  else do
    let value ← digits.foldlM
      (fun value character => do
        let digit ← Text.Hexadecimal.value? character
        if digit < base then return base * value + digit else none)
      0
    if value < 0x10000 then return UInt16.ofNat value else none

/-- An address: hexadecimal after `0x`, `0X` or `$`, else decimal. -/
def parseAddress (characters : List Char) : Option UInt16 :=
  match characters with
  | '0' :: 'x' :: digits | '0' :: 'X' :: digits | '$' :: digits => parseWord 16 digits
  | digits => parseWord 10 digits

namespace Machine

variable {Cpu κ ρ : Type} [Processor Cpu]

def slot (machine : Machine Cpu κ ρ) : Slot :=
  machine.board.timing.slotAt machine.frameTact

def rasterLine (machine : Machine Cpu κ ρ) : Nat :=
  machine.board.timing.raster.line machine.frameTact

def rasterColumn (machine : Machine Cpu κ ρ) : Nat :=
  machine.board.timing.raster.column machine.frameTact

def queryPaths : List String :=
  ["cpu.pc", "cpu.sp", "cpu.tacts", "cpu.halted", "ula.line", "ula.tact", "ula.phase",
    "ula.contention", "ula.border", "tape.mode", "tape.save_phase", "frame_count", "overflow",
    "memory.<addr>"]

/-! The parts of the state, by their paths. Some of these lead to an address. -/

def queryPlain (machine : Machine Cpu κ ρ) : String → Option QueryValue
  | "cpu.pc" => some (.word machine.pc)
  | "cpu.sp" => some (.word (Processor.registers machine.cpu).sp)
  | "cpu.tacts" => some (.long (Processor.tacts machine.cpu))
  | "cpu.halted" => some (.boolean (Processor.halted machine.cpu))
  | "ula.line" => some (.long machine.rasterLine)
  | "ula.tact" => some (.long machine.rasterColumn)
  | "ula.phase" => some (.text machine.slot.phase.label)
  | "ula.contention" => some (.byte (UInt8.ofNat machine.slot.contention))
  | "ula.border" => some (.byte machine.board.screen.border)
  | "tape.mode" => some (.text machine.board.deck.mode.label)
  | "tape.save_phase" => some (.text machine.board.deck.recorder.phase.label)
  | "frame_count" => some (.long machine.frameCount)
  | "overflow" => some (.long machine.overflow)
  | _ => none

def query (machine : Machine Cpu κ ρ) (path : String) : Option QueryValue :=
  match path.toList with
  | 'm' :: 'e' :: 'm' :: 'o' :: 'r' :: 'y' :: '.' :: address =>
    (parseAddress address).map fun address => .byte (machine.board.memory.read address)
  | _ => machine.queryPlain path

end Machine

end ZxSpectrum
