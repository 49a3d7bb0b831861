namespace ZxSpectrum.Text

/-! White space, as the Unicode property `White_Space` lists it. -/

/-- The code points of white space: tab to carriage return, space, next line, no-break
space, and the spaces and separators of the general punctuation blocks. -/
def blankCodes : List (Nat × Nat) :=
  [(0x09, 0x0D), (0x20, 0x20), (0x85, 0x85), (0xA0, 0xA0), (0x1680, 0x1680),
    (0x2000, 0x200A), (0x2028, 0x2029), (0x202F, 0x202F), (0x205F, 0x205F), (0x3000, 0x3000)]

def isBlank (character : Char) : Bool :=
  blankCodes.any fun (low, high) => low ≤ character.toNat && character.toNat ≤ high

def trim (characters : List Char) : List Char :=
  ((characters.dropWhile isBlank).reverse.dropWhile isBlank).reverse

end ZxSpectrum.Text
