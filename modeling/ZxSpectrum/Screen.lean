import ZxSpectrum.Raster.Canvas
import ZxSpectrum.RunLength

namespace ZxSpectrum

/-! The screen: the picture in the making, the border colour and the flash phase. -/

structure Screen where
  timing : Timing
  canvas : Canvas timing.geometry.pixelCount
  /-- The border colour, below eight. -/
  border : UInt8 := 7
  /-- Flashing cells are shown with ink and paper swapped. -/
  flash : Bool := false
  /-- The frames completed since the flash phase last changed. -/
  flashFrames : Nat := 0
  /-- Completed pictures are not handed over. -/
  suppressed : Bool := false

namespace Screen

/-- A black screen. A picture whose size a 32-bit counter cannot hold is a fault. -/
def ofTiming (timing : Timing) : Option Screen :=
  if timing.geometry.pixelCount < UInt32.size then
    some { timing, canvas := Canvas.empty timing.geometry.pixelCount }
  else none

def pixels (screen : Screen) : Array UInt8 :=
  screen.canvas.pixels.toArray

def reset (screen : Screen) : Screen :=
  { timing := screen.timing
    canvas := Canvas.empty screen.timing.geometry.pixelCount
    suppressed := screen.suppressed }

def setBorder (screen : Screen) (colour : UInt8) : Screen :=
  { screen with border := colour &&& 0x07 }

/-! Drawing some of the tacts of a frame. -/

def drawRange (screen : Screen) (first bound : Nat) (memory : UInt16 → UInt8) : Screen :=
  let ⟨timing, canvas, border, flash, flashFrames, suppressed⟩ := screen
  ⟨timing, canvas.drawSpan timing border flash memory (bound - first) first, border, flash,
    flashFrames, suppressed⟩

/-- Draws the tacts from `first` to `last`, both included. A last tact past the frame counts as
the frame's last. When the range runs backwards, the rest of the frame is drawn and then its
start. -/
def render (screen : Screen) (first last : Nat) (memory : UInt16 → UInt8) : Screen :=
  let frameTacts := screen.timing.frameTacts
  let last := min last (frameTacts - 1)
  if first ≤ last then screen.drawRange first (last + 1) memory
  else (screen.drawRange first frameTacts memory).drawRange 0 (last + 1) memory

/-! Complete frames and their pictures. -/

def countFrame (screen : Screen) : Screen :=
  if screen.flashFrames + 1 ≥ screen.timing.geometry.flashFrames then
    { screen with flashFrames := 0, flash := !screen.flash }
  else { screen with flashFrames := screen.flashFrames + 1 }

def completeFrame (screen : Screen) : Screen × Option (Array UInt8) :=
  let screen := screen.countFrame
  (screen, if screen.suppressed then none else some screen.pixels)

/-- Completes a number of frames, with the pictures to hand over. Nothing is drawn between them,
so these are all the same. -/
def completeFrames (count : Nat) (screen : Screen) : Screen × RunLength (Array UInt8) :=
  (count.repeat countFrame screen, if screen.suppressed then [] else [(screen.pixels, count)])

end Screen

end ZxSpectrum
