import Mathlib
import ZxSpectrum.Screen

namespace ZxSpectrum

/-! The picture that a frame should show, described pixel by pixel from the screen memory, without
regard to how the circuit gets at it. A row of the display has a bitmap byte for each eight pixels,
whose highest bit is the leftmost one, and one attribute byte for each eight by eight. -/

/-- The address of a bitmap byte. The bits `RRrrrRRR` of the row are placed around those of the
cell so that the rows of a character lie 256 bytes apart and the thirds of the display 2048. -/
def bitmapAddress (row cell : Nat) : UInt16 :=
  .ofNat
    (0x4000 ||| (row &&& 0xC0) <<< 5 ||| (row &&& 0x07) <<< 8 ||| (row &&& 0x38) <<< 2 ||| cell)

def attributeAddress (row cell : Nat) : UInt16 :=
  .ofNat (0x5800 + 32 * (row / 8) + cell)

/-! The colours of a cell. -/

def inkColour (attributes : UInt8) : UInt8 :=
  attributes % 8 + 8 * (attributes / 64 % 2)

def paperColour (attributes : UInt8) : UInt8 :=
  attributes / 8 % 8 + 8 * (attributes / 64 % 2)

def shownColour (set : Bool) (attributes : UInt8) (flash : Bool) : UInt8 :=
  let swapped := flash && 128 ≤ attributes
  if set != swapped then inkColour attributes else paperColour attributes

def displayPixel (memory : UInt16 → UInt8) (flash : Bool) (row column : Nat) : UInt8 :=
  let bitmap := memory (bitmapAddress row (column / 8))
  shownColour (bitmap.toNat.testBit (7 - column % 8)) (memory (attributeAddress row (column / 8)))
    flash

namespace Geometry

/-! The pixels of the buffer: the display, with the border around it. -/

def OnPaper (geometry : Geometry) (y x : Nat) : Prop :=
  geometry.borderTopLines ≤ y ∧ y < geometry.borderTopLines + geometry.displayLines ∧
    geometry.borderLeftPixels ≤ x ∧ x < geometry.borderLeftPixels + geometry.displayWidth

instance (geometry : Geometry) (y x : Nat) : Decidable (geometry.OnPaper y x) :=
  inferInstanceAs (Decidable (_ ∧ _))

def pictureAt (geometry : Geometry) (memory : UInt16 → UInt8) (border : UInt8) (flash : Bool)
    (y x : Nat) : UInt8 :=
  if geometry.OnPaper y x then
    displayPixel memory flash (y - geometry.borderTopLines) (x - geometry.borderLeftPixels)
  else border

/-- The pixels of a frame, row after row. -/
def picture (geometry : Geometry) (memory : UInt16 → UInt8) (border : UInt8) (flash : Bool) :
    Array UInt8 :=
  Array.ofFn fun index : Fin geometry.pixelCount =>
    geometry.pictureAt memory border flash (index / geometry.screenWidth)
      (index % geometry.screenWidth)

theorem getElem?_picture (geometry : Geometry) (memory : UInt16 → UInt8) (border : UInt8)
    (flash : Bool) {y x : Nat} (inScreen : y < geometry.screenLines)
    (inLine : x < geometry.screenWidth) :
    (geometry.picture memory border flash)[y * geometry.screenWidth + x]? =
      some (geometry.pictureAt memory border flash y x) := by
  have inside : y * geometry.screenWidth + x < geometry.pixelCount := by
    have lines := Nat.mul_le_mul_right geometry.screenWidth inScreen
    rw [Nat.succ_mul] at lines
    rw [pixelCount, Nat.mul_comm geometry.screenWidth]
    omega
  have line : (y * geometry.screenWidth + x) / geometry.screenWidth = y := by
    rw [Nat.mul_comm, Nat.mul_add_div (Nat.zero_lt_of_lt inLine), Nat.div_eq_of_lt inLine,
      Nat.add_zero]
  have column : (y * geometry.screenWidth + x) % geometry.screenWidth = x := by
    rw [Nat.mul_comm, Nat.mul_add_mod, Nat.mod_eq_of_lt inLine]
  simp only [picture, Array.getElem?_ofFn, dif_pos inside, line, column]

theorem pictureAt_display (geometry : Geometry) (memory : UInt16 → UInt8) (border : UInt8)
    (flash : Bool) {row column : Nat} (inDisplay : row < geometry.displayLines)
    (inRow : column < 2 * geometry.displayLineTime) :
    geometry.pictureAt memory border flash (geometry.borderTopLines + row)
        (2 * geometry.borderLeftTime + column) =
      displayPixel memory flash row column := by
  have onPaper : geometry.OnPaper (geometry.borderTopLines + row)
      (2 * geometry.borderLeftTime + column) := by
    rw [OnPaper, borderLeftPixels, displayWidth]
    omega
  rw [pictureAt, if_pos onPaper, borderLeftPixels, Nat.add_sub_cancel_left,
    Nat.add_sub_cancel_left]

end Geometry

/-! The circuit reaches the same addresses by shifting and masking a counter. -/

theorem getElem_toBitVec_ofNat_eq_false {number width : Nat} (small : number < 2 ^ width)
    {bit : Nat} (above : width ≤ bit) (inWord : bit < 16) :
    (UInt16.ofNat number).toBitVec[bit] = false := by
  have clear : number.testBit bit = false :=
    Nat.testBit_lt_two_pow (small.trans_le (Nat.pow_le_pow_right Nat.two_pos above))
  rw [UInt16.toBitVec_ofNat', ← BitVec.getLsbD_eq_getElem, BitVec.getLsbD_ofNat, clear,
    Bool.and_false]

theorem Raster.interleave_eq {row cell : Nat} (rowLt : row < 2 ^ 8) (cellLt : cell < 2 ^ 5)
    {pixelColumn : Nat} (inCell : pixelColumn / 8 = cell) :
    interleave row pixelColumn = bitmapAddress row cell := by
  have rowBits := @getElem_toBitVec_ofNat_eq_false _ _ rowLt
  have cellBits := @getElem_toBitVec_ofNat_eq_false _ _ cellLt
  apply UInt16.toBitVec_inj.mp
  apply BitVec.eq_of_getLsbD_eq
  intro bit inWord
  -- Each bit of the address is one bit of the row, one of the cell, or fixed.
  interval_cases bit <;> simp [interleave, bitmapAddress, inCell, rowBits, cellBits]

theorem Raster.attributeOffset_eq {row cell : Nat} (rowLt : row < 2 ^ 8) (cellLt : cell < 2 ^ 5)
    {pixelColumn : Nat} (inCell : pixelColumn / 8 = cell) :
    attributeOffset row pixelColumn = 32 * (row / 8) + cell := by
  have small : row / 8 * 32 < UInt32.size := by
    rw [show UInt32.size = 4294967296 from rfl]
    omega
  rw [attributeOffset, inCell, Nat.mod_eq_of_lt small, Nat.or_comm, Nat.mul_comm]
  exact (Nat.two_pow_add_eq_or_of_lt cellLt (row / 8)).symm

/-! It takes the colours apart by masks, and it reads a bitmap byte from its top two bits, which it
replaces at every tact by the next two. -/

def rolled (byte : UInt8) : Nat → UInt8
  | 0 => byte
  | tacts + 1 => rolled byte tacts <<< 2

theorem pixelColour_eq (set : Bool) (attributes : UInt8) (flash : Bool) :
    pixelColour set attributes flash = shownColour set attributes flash := by
  have bytes : ∀ number < 256, ∀ set flash,
      pixelColour set (.ofNat number) flash = shownColour set (.ofNat number) flash := by
    decide +kernel
  have byte := bytes attributes.toNat attributes.toNat_lt set flash
  rwa [UInt8.ofNat_toNat] at byte

theorem rolled_bits (byte : UInt8) {tacts : Nat} (early : tacts < 4) :
    decide (rolled byte tacts &&& 0x80 ≠ 0) = byte.toNat.testBit (7 - 2 * tacts) ∧
      decide (rolled byte tacts &&& 0x40 ≠ 0) = byte.toNat.testBit (6 - 2 * tacts) := by
  have bytes : ∀ number < 256, ∀ tacts < 4,
      decide (rolled (.ofNat number) tacts &&& 0x80 ≠ 0) =
          (UInt8.ofNat number).toNat.testBit (7 - 2 * tacts) ∧
        decide (rolled (.ofNat number) tacts &&& 0x40 ≠ 0) =
          (UInt8.ofNat number).toNat.testBit (6 - 2 * tacts) := by
    decide +kernel
  have bits := bytes byte.toNat byte.toNat_lt tacts early
  rwa [UInt8.ofNat_toNat] at bits

end ZxSpectrum
