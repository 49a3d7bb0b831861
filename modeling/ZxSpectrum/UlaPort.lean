namespace ZxSpectrum

/-! The port of the video circuit. The low three bits of a written byte select the border
colour; the next two drive the line to the tape recorder and the loudspeaker. A read byte shows
the keyboard in its low five bits and the line from the tape recorder in bit six. -/

structure UlaPort where
  /-- The byte written last. -/
  latch : UInt8 := 0
deriving DecidableEq

namespace UlaPort

def decodes (port : UInt16) : Bool :=
  port &&& 1 = 0

def border (port : UlaPort) : UInt8 :=
  port.latch &&& 0x07

def mic (port : UlaPort) : Bool :=
  port.latch &&& 0x08 ≠ 0

def ear (port : UlaPort) : Bool :=
  port.latch &&& 0x10 ≠ 0

/-- The byte read for the keyboard's columns and the level of the line from the recorder. -/
def compose (keyboard : UInt8) (ear : Bool) : UInt8 :=
  keyboard &&& (0x1F : UInt8) ||| (0xA0 : UInt8) ||| if ear then (0x40 : UInt8) else 0

end UlaPort

end ZxSpectrum
