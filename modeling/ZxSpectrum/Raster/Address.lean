import ZxSpectrum.Raster.Geometry

namespace ZxSpectrum.Raster

/-! Where the video circuit finds the bytes of a display line. A row has thirty-two cells of
eight pixels; its bitmap bytes are interleaved by thirds and character rows, while one
attribute byte serves the eight rows of a character. -/

def row (raster : Raster) (line : Nat) : Nat :=
  line - raster.geometry.firstDisplayLine

/-- The pixel column that a fetch at a line tact is for, when it is made `lead` tacts ahead. -/
def pixelColumn (raster : Raster) (column lead : Nat) : Nat :=
  2 * (column + lead - raster.geometry.borderLeftTime)

def attributeOffset (row pixelColumn : Nat) : Nat :=
  pixelColumn / 8 ||| row / 8 * 32 % UInt32.size

/-- A bitmap address: the row's bits `RRrrrRRR` and the cell in order, interleaved so that the
pixel row within a character moves above the character row. -/
def interleave (row pixelColumn : Nat) : UInt16 :=
  let cell := UInt16.ofNat (pixelColumn / 8)
  let direct := (0x4000 : UInt16) ||| cell ||| (UInt16.ofNat row <<< (5 : UInt16))
  direct &&& (0xF81F : UInt16)
    ||| (direct &&& (0x0700 : UInt16)) >>> (3 : UInt16)
    ||| (direct &&& (0x00E0 : UInt16)) <<< (3 : UInt16)

def pixelAddress (raster : Raster) (line column : Nat) : UInt16 :=
  interleave (raster.row line) (raster.pixelColumn column raster.geometry.pixelPrefetchTime)

def attributeAddress (raster : Raster) (line column : Nat) : UInt16 :=
  UInt16.ofNat (0x5800 + attributeOffset (raster.row line)
    (raster.pixelColumn column raster.geometry.attributePrefetchTime))

/-! Which fetches have an address. The sum of the tact and the lead, the pixel column and every
intermediate value of the address have to fit 32-bit counters. -/

def FetchFits (raster : Raster) (line column lead : Nat) : Prop :=
  raster.geometry.firstDisplayLine ≤ line ∧
    column + lead < UInt32.size ∧
    raster.geometry.borderLeftTime ≤ column + lead ∧
    raster.pixelColumn column lead < UInt32.size

instance (raster : Raster) (line column lead : Nat) :
    Decidable (raster.FetchFits line column lead) :=
  inferInstanceAs (Decidable (_ ∧ _))

def PixelAddressFits (raster : Raster) (line column : Nat) : Prop :=
  raster.FetchFits line column raster.geometry.pixelPrefetchTime

instance (raster : Raster) (line column : Nat) :
    Decidable (raster.PixelAddressFits line column) :=
  inferInstanceAs (Decidable (raster.FetchFits line column _))

def AttributeAddressFits (raster : Raster) (line column : Nat) : Prop :=
  raster.FetchFits line column raster.geometry.attributePrefetchTime ∧
    0x5800 + attributeOffset (raster.row line)
      (raster.pixelColumn column raster.geometry.attributePrefetchTime) < UInt32.size

instance (raster : Raster) (line column : Nat) :
    Decidable (raster.AttributeAddressFits line column) :=
  inferInstanceAs (Decidable (_ ∧ _))

def pixelAddress? (raster : Raster) (line column : Nat) : Option UInt16 :=
  if raster.PixelAddressFits line column then some (raster.pixelAddress line column) else none

def attributeAddress? (raster : Raster) (line column : Nat) : Option UInt16 :=
  if raster.AttributeAddressFits line column then some (raster.attributeAddress line column)
  else none

end ZxSpectrum.Raster
