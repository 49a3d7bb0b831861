namespace ZxSpectrum

/-! The keyboard: a matrix of eight half-rows of five keys. A half-row is selected by a clear
bit in the high byte of the port address; a pressed key clears its column's bit.

The matrix is passive. With several keys down, current also flows through pressed keys into
half-rows that are not selected, and from those into further columns. -/

structure Keyboard where
  /-- The pressed keys of each half-row, one bit for each column. -/
  rows : Vector UInt8 8 := Vector.replicate 8 0
deriving DecidableEq

namespace Keyboard

/-! Half-rows and columns are bytes, taken as sets of bits. -/

def bit (index : Nat) : UInt8 :=
  1 <<< UInt8.ofNat index

/-- Presses or releases a key. There are no keys past the eighth row or the fifth column. -/
def setKey (keyboard : Keyboard) (row column : Nat) (pressed : Bool) : Keyboard :=
  if inMatrix : row < 8 ∧ column < 5 then
    let keys := keyboard.rows[row]
    ⟨keyboard.rows.set row (if pressed then keys ||| bit column else keys &&& ~~~bit column)⟩
  else keyboard

def columns (keyboard : Keyboard) (rows : UInt8) : UInt8 :=
  (List.finRange 8).foldl
    (fun columns (row : Fin 8) =>
      if rows &&& bit row ≠ 0 then columns ||| keyboard.rows[row] else columns)
    0

def spread (keyboard : Keyboard) (rows : UInt8) : UInt8 :=
  let columns := keyboard.columns rows
  (List.finRange 8).foldl
    (fun reached (row : Fin 8) =>
      if keyboard.rows[row] &&& columns ≠ 0 then reached ||| bit row else reached)
    rows

/-- The half-rows that current reaches from a set. Each round but the last adds one of the
eight, so that eight rounds are enough. -/
def reached (keyboard : Keyboard) (rows : UInt8) : UInt8 :=
  Nat.repeat keyboard.spread 8 rows

/-- The byte that a port address with a high byte reads: a clear bit for each column that the
current reaches. The upper three bits are set. -/
def read (keyboard : Keyboard) (high : UInt8) : UInt8 :=
  ~~~keyboard.columns (keyboard.reached (~~~high)) &&& 0x1F ||| 0xE0

end Keyboard

end ZxSpectrum
