namespace ZxSpectrum

/-! The devices of a machine, in the order in which they are attached. Later ones may rely on
earlier ones. -/

inductive Device
  | rom
  | memory
  | port
  | processor
  | screen
  | beeper
  | keyboard
  | interrupt
  | tape
  | sound
  | floppy
deriving DecidableEq

namespace Device

def attachOrder : List Device :=
  [.rom, .memory, .port, .processor, .screen, .beeper, .keyboard, .interrupt, .tape, .sound,
    .floppy]

def label : Device → String
  | .rom => "Rom"
  | .memory => "Memory"
  | .port => "Port"
  | .processor => "Cpu"
  | .screen => "Screen"
  | .beeper => "Beeper"
  | .keyboard => "Keyboard"
  | .interrupt => "Interrupt"
  | .tape => "Tape"
  | .sound => "Sound"
  | .floppy => "Floppy"

theorem mem_attachOrder (device : Device) : device ∈ attachOrder := by
  cases device <;> decide

end Device

end ZxSpectrum
