namespace ZxSpectrum

/-! The shape of a video frame. Lines are counted from the vertical sync; times are machine
tacts. All of a frame's measures follow from the sixteen fields of its geometry. -/

inductive ContentionPattern
  | ula
  | gateArray
deriving DecidableEq

namespace ContentionPattern

def delays : ContentionPattern → Vector Nat 8
  | .ula => #v[5, 4, 3, 2, 1, 0, 0, 6]
  | .gateArray => #v[1, 0, 7, 6, 5, 4, 3, 2]

def delay (pattern : ContentionPattern) (tact : Nat) : Nat :=
  pattern.delays.get ⟨tact % 8, Nat.mod_lt _ (by decide)⟩

end ContentionPattern

/-! The proportions of a frame. The fields default to those of the 48K machine. -/

structure Geometry where
  verticalSyncLines : Nat := 8
  nonVisibleBorderTopLines : Nat := 16
  borderTopLines : Nat := 48
  displayLines : Nat := 192
  borderBottomLines : Nat := 48
  nonVisibleBorderBottomLines : Nat := 0
  horizontalBlankingTime : Nat := 40
  borderLeftTime : Nat := 24
  displayLineTime : Nat := 128
  borderRightTime : Nat := 24
  nonVisibleBorderRightTime : Nat := 8
  pixelPrefetchTime : Nat := 2
  attributePrefetchTime : Nat := 1
  /-- The frame tact at which the interrupt line is asserted. -/
  interruptTact : Nat := 11
  contention : ContentionPattern := .ula
  refreshRate : Nat := 50
deriving DecidableEq

namespace Geometry

def spectrum48K : Geometry := {}

/-! The lines and columns of a frame that carry pixels. -/

def screenLines (geometry : Geometry) : Nat :=
  geometry.borderTopLines + geometry.displayLines + geometry.borderBottomLines

def firstVisibleLine (geometry : Geometry) : Nat :=
  geometry.verticalSyncLines + geometry.nonVisibleBorderTopLines

def firstDisplayLine (geometry : Geometry) : Nat :=
  geometry.firstVisibleLine + geometry.borderTopLines

/-- The last line of the display. It does not go below the first line of the frame, so a
display without lines at the top of the frame still claims that line. -/
def lastDisplayLine (geometry : Geometry) : Nat :=
  geometry.firstDisplayLine + geometry.displayLines - 1

def borderLeftPixels (geometry : Geometry) : Nat :=
  2 * geometry.borderLeftTime

def borderRightPixels (geometry : Geometry) : Nat :=
  2 * geometry.borderRightTime

def displayWidth (geometry : Geometry) : Nat :=
  2 * geometry.displayLineTime

def screenWidth (geometry : Geometry) : Nat :=
  geometry.borderLeftPixels + geometry.displayWidth + geometry.borderRightPixels

def visibleTime (geometry : Geometry) : Nat :=
  geometry.borderLeftTime + geometry.displayLineTime + geometry.borderRightTime

def lineTime (geometry : Geometry) : Nat :=
  geometry.visibleTime + geometry.nonVisibleBorderRightTime + geometry.horizontalBlankingTime

def visibleLinesEnd (geometry : Geometry) : Nat :=
  geometry.firstDisplayLine + geometry.displayLines + geometry.borderBottomLines

def rasterLines (geometry : Geometry) : Nat :=
  geometry.visibleLinesEnd + geometry.nonVisibleBorderBottomLines

def frameTacts (geometry : Geometry) : Nat :=
  geometry.rasterLines * geometry.lineTime

def firstDisplayPixelTact (geometry : Geometry) : Nat :=
  geometry.firstDisplayLine * geometry.lineTime + geometry.borderLeftTime

def firstScreenPixelTact (geometry : Geometry) : Nat :=
  geometry.firstVisibleLine * geometry.lineTime

/-- Frames between two changes of the flash phase: half a second, rounded up, but at least
one frame. -/
def flashFrames (geometry : Geometry) : Nat :=
  max 1 ((geometry.refreshRate + 1) / 2)

def pixelCount (geometry : Geometry) : Nat :=
  geometry.screenWidth * geometry.screenLines

/-! What 32-bit counters have to hold: the measures of lines and columns, and the frame tacts. -/

structure ProportionsFit (geometry : Geometry) : Prop where
  screenLines_lt : geometry.screenLines < UInt32.size
  screenWidth_lt : geometry.screenWidth < UInt32.size
  lineTime_lt : geometry.lineTime < UInt32.size
  rasterLines_lt : geometry.rasterLines < UInt32.size

structure FrameFits (geometry : Geometry) : Prop where
  frameTacts_lt : geometry.frameTacts < UInt32.size
  firstDisplayPixelTact_lt : geometry.firstDisplayPixelTact < UInt32.size
  firstScreenPixelTact_lt : geometry.firstScreenPixelTact < UInt32.size

instance (geometry : Geometry) : Decidable geometry.ProportionsFit :=
  decidable_of_iff (geometry.screenLines < UInt32.size ∧ geometry.screenWidth < UInt32.size ∧
      geometry.lineTime < UInt32.size ∧ geometry.rasterLines < UInt32.size)
    ⟨fun ⟨lines, width, time, raster⟩ => ⟨lines, width, time, raster⟩,
      fun fits => ⟨fits.1, fits.2, fits.3, fits.4⟩⟩

instance (geometry : Geometry) : Decidable geometry.FrameFits :=
  decidable_of_iff (geometry.frameTacts < UInt32.size ∧ geometry.firstDisplayPixelTact < UInt32.size ∧
      geometry.firstScreenPixelTact < UInt32.size)
    ⟨fun ⟨frame, display, screen⟩ => ⟨frame, display, screen⟩,
      fun fits => ⟨fits.1, fits.2, fits.3⟩⟩

end Geometry

/-- A geometry with at least one tact in its frame, all of whose measures fit. -/
structure Raster where
  geometry : Geometry
  proportionsFit : geometry.ProportionsFit
  frameFits : geometry.FrameFits
  rasterLines_pos : 0 < geometry.rasterLines
  lineTime_pos : 0 < geometry.lineTime

namespace Raster

def spectrum48K : Raster where
  geometry := .spectrum48K
  proportionsFit := by decide
  frameFits := by decide
  rasterLines_pos := by decide
  lineTime_pos := by decide

/-- The raster of a geometry. A frame without tacts is replaced by that of the 48K machine; a
measure too large for its counter is a fault. -/
def ofGeometry (geometry : Geometry) : Option Raster :=
  if proportionsFit : geometry.ProportionsFit then
    if nonempty : 0 < geometry.rasterLines ∧ 0 < geometry.lineTime then
      if frameFits : geometry.FrameFits then
        some ⟨geometry, proportionsFit, frameFits, nonempty.1, nonempty.2⟩
      else none
    else some spectrum48K
  else none

def frameTacts (raster : Raster) : Nat :=
  raster.geometry.frameTacts

theorem frameTacts_pos (raster : Raster) : 0 < raster.frameTacts :=
  Nat.mul_pos raster.rasterLines_pos raster.lineTime_pos

def line (raster : Raster) (tact : Nat) : Nat :=
  tact / raster.geometry.lineTime

def column (raster : Raster) (tact : Nat) : Nat :=
  tact % raster.geometry.lineTime

end Raster

end ZxSpectrum
