import ZxSpectrum.Raster.Timing

namespace ZxSpectrum

/-! Drawing. Two pixels appear at each visible tact, either in the border colour or from the
top two bits of a held bitmap byte, which then moves on by two places. -/

structure HeldCells where
  firstPixels : UInt8 := 0
  firstAttribute : UInt8 := 0
  secondPixels : UInt8 := 0
  secondAttribute : UInt8 := 0
deriving DecidableEq

/-- The colour index of a pixel. The attribute byte holds flash, bright, three paper bits and
three ink bits; a flashing cell has ink and paper swapped while the flash phase is on. -/
@[inline] def pixelColour (ink : Bool) (attributes : UInt8) (flash : Bool) : UInt8 :=
  let bright := (attributes &&& 0x40) >>> 3
  let swapped := attributes &&& 0x80 ≠ 0 ∧ flash
  if ink ≠ decide swapped then attributes &&& 0x07 ||| bright
  else (attributes >>> 3) &&& 0x07 ||| bright

structure Canvas (size : Nat) where
  pixels : Vector UInt8 size
  held : HeldCells := {}

namespace Canvas

def empty (size : Nat) : Canvas size where
  pixels := Vector.replicate size 0

/-! The pixels of a tact. A held byte moves on once its top two bits have been shown. -/

@[inline] def paintPair (canvas : Canvas size) (index : Nat) (left right : UInt8) : Canvas size :=
  { canvas with
    pixels := (canvas.pixels.setIfInBounds index left).setIfInBounds (index + 1) right }

@[inline] def paintFirst (canvas : Canvas size) (index : Nat) (flash : Bool) : Canvas size :=
  let held := canvas.held
  let colour (bit : UInt8) := pixelColour (held.firstPixels &&& bit ≠ 0) held.firstAttribute flash
  { canvas.paintPair index (colour 0x80) (colour 0x40) with
    held := { held with firstPixels := held.firstPixels <<< 2 } }

@[inline] def paintSecond (canvas : Canvas size) (index : Nat) (flash : Bool) : Canvas size :=
  let held := canvas.held
  let colour (bit : UInt8) :=
    pixelColour (held.secondPixels &&& bit ≠ 0) held.secondAttribute flash
  { canvas.paintPair index (colour 0x80) (colour 0x40) with
    held := { held with secondPixels := held.secondPixels <<< 2 } }

@[inline] def paint (canvas : Canvas size) (slot : Slot) (border : UInt8) (flash : Bool) : Canvas size :=
  match slot.phase with
  | .blank => canvas
  | .border | .borderFetchPixels | .borderFetchAttribute =>
    canvas.paintPair slot.pixelIndex border border
  | .first | .firstFetchPixels | .firstFetchAttribute => canvas.paintFirst slot.pixelIndex flash
  | .second | .secondFetchPixels | .secondFetchAttribute =>
    canvas.paintSecond slot.pixelIndex flash

/-! The work of a tact: first its pixels, then its fetch. -/

@[inline] def fetch (held : HeldCells) (slot : Slot) (memory : UInt16 → UInt8) : HeldCells :=
  match slot.phase with
  | .borderFetchPixels | .secondFetchPixels =>
    { held with firstPixels := memory slot.fetchAddress }
  | .borderFetchAttribute | .secondFetchAttribute =>
    { held with firstAttribute := memory slot.fetchAddress }
  | .firstFetchPixels => { held with secondPixels := memory slot.fetchAddress }
  | .firstFetchAttribute => { held with secondAttribute := memory slot.fetchAddress }
  | .blank | .border | .first | .second => held

@[inline] def draw (canvas : Canvas size) (slot : Slot) (border : UInt8) (flash : Bool)
    (memory : UInt16 → UInt8) : Canvas size :=
  let ⟨pixels, held⟩ := canvas.paint slot border flash
  ⟨pixels, fetch held slot memory⟩

def drawSpan (timing : Timing) (border : UInt8) (flash : Bool) (memory : UInt16 → UInt8) :
    (count first : Nat) → Canvas size → Canvas size
  | 0, _, canvas => canvas
  | count + 1, first, canvas =>
    drawSpan timing border flash memory count (first + 1)
      (canvas.draw (timing.slotAt first) border flash memory)

end Canvas

end ZxSpectrum
