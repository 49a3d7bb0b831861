namespace ZxSpectrum.Palette

/-! The sixteen colours. A colour index holds blue, red and green in its three low bits and
brightness in the fourth. -/

def level (index : UInt8) : UInt32 :=
  if index &&& 8 = 0 then 0xCD else 0xFF

def gun (index bit : UInt8) (shift : UInt32) : UInt32 :=
  if index &&& bit = 0 then 0 else level index <<< shift

/-- The opaque colour of an index, as alpha, red, green and blue bytes. Only the low four
bits of the index count. -/
def argb (index : UInt8) : UInt32 :=
  0xFF000000 ||| gun index 2 16 ||| gun index 4 8 ||| gun index 1 0

example : argb 0 = argb 8 := rfl

example : [argb 7, argb 15] = [0xFFCDCDCD, 0xFFFFFFFF] := rfl

end ZxSpectrum.Palette
