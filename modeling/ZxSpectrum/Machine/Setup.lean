import ZxSpectrum.Configuration
import ZxSpectrum.Machine.Basic
import ZxSpectrum.Machine.Device
import ZxSpectrum.Tape.Folder

namespace ZxSpectrum

/-! What a machine is built from: its configuration and the things that the host supplies. -/

structure Setup (κ ρ : Type) where
  configuration : Configuration := {}
  /-- A ROM image that takes the place of the configured file. -/
  rom : Option (List UInt8) := none
  /-- A memory board; one with a single ROM page when absent. -/
  memory : Option Memory := none
  tapeProvider : Option ρ := none
  sound : Option κ := none
  floppy : Option κ := none

namespace Setup

variable {κ ρ : Type}

/-- The tape folder of a configuration. There is one when the configuration names an image or
an output directory; the output directory defaults to the working directory. -/
def tapeFolder (configuration : TapeConfiguration) (storage : Storage) : Option TapeFolder :=
  if configuration.input.isSome ∨ configuration.outputDirectory.isSome then
    some
      { storage
        input := configuration.input.map Path.ofString
        outputDirectory := Path.ofString (configuration.outputDirectory.getD ".") }
  else none

def ofConfiguration (configuration : Configuration) (storage : Storage) : Setup κ TapeFolder where
  configuration
  tapeProvider := tapeFolder configuration.tape storage

def isPresent (setup : Setup κ ρ) : Device → Bool
  | .sound => setup.sound.isSome
  | .floppy => setup.floppy.isSome
  | _ => true

def romImage (setup : Setup κ ρ) (storage : Storage) : Except Error (List UInt8) := do
  let image ←
    match setup.rom, setup.configuration.romPath with
    | some image, _ => .ok image
    | none, some path => (storage.read (Path.ofString path)).mapError fun _ => .file
    | none, none => .error .missingRom
  if image.length = 0x4000 then return image else .error (.romSize 0x4000 image.length)

def board (setup : Setup κ ρ) (screen : Screen) : Board κ ρ :=
  let configuration := setup.configuration
  { memory := setup.memory.getD .empty
    screen
    beeper := .create configuration.beeper.sampleRate configuration.processor.baseClock
      screen.timing.frameTacts configuration.beeper.volume
    deck := { provider := setup.tapeProvider }
    multiplier := clampMultiplier configuration.processor.multiplier
    contended := configuration.contended }

def attachCard [Peripheral κ] (rom : List UInt8) (slot : CardSlot) (card : Option κ)
    (board : Board κ ρ) : Except Error (Board κ ρ) :=
  match card with
  | none => .ok board
  | some card => do
    let card ← Peripheral.attach rom card
    return (board.setCard slot card).tell (.cardCalled slot (.attach rom.length))

variable {Cpu : Type} [Processor Cpu] [Peripheral κ]

def attach (setup : Setup κ ρ) (cpu : Cpu) (storage : Storage) (board : Board κ ρ) :
    Except Error (Machine Cpu κ ρ) := do
  let rom ← setup.romImage storage
  let memory ← board.memory.copyRom rom
  let board ← attachCard rom .sound setup.sound { board with memory }
  let board ← attachCard rom .floppy setup.floppy board
  return {
    cpu := Processor.reset cpu
    board
    interrupt := { tact := setup.configuration.screen.interruptTact } }

/-- Builds the machine around a processor. A geometry whose measures do not fit is a fault,
which comes before any failure to attach a device. -/
def build (setup : Setup κ ρ) (cpu : Cpu) (storage : Storage) :
    Option (Except Error (Machine Cpu κ ρ)) := do
  let timing ← Timing.ofGeometry setup.configuration.screen
  let screen ← Screen.ofTiming timing
  return setup.attach cpu storage (setup.board screen)

end Setup

end ZxSpectrum
