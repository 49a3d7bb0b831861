namespace ZxSpectrum.Text

/-! UTF-8. A byte string splits into encoded characters and maximal ill-formed pieces: the
longest beginnings of an encoding that nothing valid continues, or else single bytes. -/

namespace Utf8

def within (low high byte : UInt8) : Bool :=
  low ≤ byte && byte ≤ high

def continues (byte : UInt8) : Bool :=
  within 0x80 0xBF byte

/-! Bounds of the second byte of longer encodings. They leave out overlong forms, surrogates and
values past the last character. -/

def secondOfThree (first second : UInt8) : Bool :=
  if first = 0xE0 then within 0xA0 0xBF second
  else if first = 0xED then within 0x80 0x9F second
  else continues second

def secondOfFour (first second : UInt8) : Bool :=
  if first = 0xF0 then within 0x90 0xBF second
  else if first = 0xF4 then within 0x80 0x8F second
  else continues second

def payload (byte : UInt8) : Nat :=
  byte.toNat % 64

/-! Characters of two, three and four bytes, each with the number of bytes that the piece takes
after the first. Bytes before the first wrong one count. -/

def two (first : UInt8) : List UInt8 → Option Char × Nat
  | second :: _ =>
    if continues second then (some (Char.ofNat (first.toNat % 32 * 64 + payload second)), 1)
    else (none, 0)
  | [] => (none, 0)

def three (first : UInt8) : List UInt8 → Option Char × Nat
  | second :: after =>
    if secondOfThree first second then
      match after with
      | third :: _ =>
        if continues third then
          (some (Char.ofNat ((first.toNat % 16 * 64 + payload second) * 64 + payload third)), 2)
        else (none, 1)
      | [] => (none, 1)
    else (none, 0)
  | [] => (none, 0)

def four (first : UInt8) : List UInt8 → Option Char × Nat
  | second :: after =>
    if secondOfFour first second then
      match after with
      | third :: after =>
        if continues third then
          match after with
          | fourth :: _ =>
            if continues fourth then
              (some (Char.ofNat (((first.toNat % 8 * 64 + payload second) * 64
                + payload third) * 64 + payload fourth)), 3)
            else (none, 2)
          | [] => (none, 2)
        else (none, 1)
      | [] => (none, 1)
    else (none, 0)
  | [] => (none, 0)

/-- The piece that starts with a byte: its character, if it is well formed, and the number of
bytes it takes after the first. -/
def piece (first : UInt8) (rest : List UInt8) : Option Char × Nat :=
  if first < 0x80 then (some (Char.ofNat first.toNat), 0)
  else if within 0xC2 0xDF first then two first rest
  else if within 0xE0 0xEF first then three first rest
  else if within 0xF0 0xF4 first then four first rest
  else (none, 0)

/-- The characters of a byte string in order, with `none` for each maximal ill-formed piece. -/
def pieces : List UInt8 → List (Option Char)
  | [] => []
  | first :: rest =>
    let (character, length) := piece first rest
    character :: pieces (rest.drop length)
termination_by bytes => bytes.length
decreasing_by simp only [List.length_drop, List.length_cons]; omega

def decode? (bytes : List UInt8) : Option String :=
  (pieces bytes).mapM id |>.map String.ofList

/-- The text of any byte string, with a replacement character for each ill-formed piece. -/
def decodeLossy (bytes : List UInt8) : String :=
  String.ofList ((pieces bytes).map (·.getD '\uFFFD'))

end Utf8

end ZxSpectrum.Text
