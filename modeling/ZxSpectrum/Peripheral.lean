import ZxSpectrum.Error

namespace ZxSpectrum

/-! Optional cards, such as a sound chip or a floppy controller, that decode ports of their
own and follow the frames of the machine. -/

class Peripheral (κ : Type) where
  /-- Binds the card to the machine; it may look at the ROM. -/
  attach : List UInt8 → κ → Except Error κ
  reset : κ → κ
  newFrame : κ → κ
  /-- The last instruction of a frame ran some tacts into the next one. -/
  completeFrame : (overflow : Nat) → κ → κ
  /-- The byte at a port, if the card decodes it. -/
  read : (port : UInt16) → κ → Option UInt8 × κ
  /-- Whether the card decodes the port of a written byte. -/
  write : (port : UInt16) → (value : UInt8) → κ → Bool × κ

inductive CardSlot
  | sound
  | floppy
deriving DecidableEq

def CardSlot.label : CardSlot → String
  | .sound => "sound"
  | .floppy => "floppy"

inductive CardCall
  | attach (romSize : Nat)
  | reset
  | newFrame
  | completeFrame (overflow : Nat)
  | read (port : UInt16)
  | write (port : UInt16) (value : UInt8)
deriving DecidableEq

namespace CardCall

def label : CardCall → String
  | .attach _ => "attach"
  | .reset => "reset"
  | .newFrame => "new_frame"
  | .completeFrame _ => "frame_completed"
  | .read _ => "io_read"
  | .write _ _ => "io_write"

def arguments : CardCall → List Nat
  | .reset | .newFrame => []
  | .attach value | .completeFrame value => [value]
  | .read port => [port.toNat]
  | .write port value => [port.toNat, value.toNat]

end CardCall

end ZxSpectrum
