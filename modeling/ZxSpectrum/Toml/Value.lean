import ZxSpectrum.Number.Binary
import ZxSpectrum.Toml.Quoted
import ZxSpectrum.Toml.Table

namespace ZxSpectrum.Toml

/-! Keys and values. -/

namespace Value

open Scanner

/-- Tables and arrays within one another, and parts of a key, are fewer than this. -/
def depthLimit : Nat := 80

/-! ## Numbers -/

def digitsAfter (base : Nat) : Scanner (List Nat) :=
  many (digit base <|> (character '_' *> digit base))

def anyDigits (base : Nat) : Scanner (List Nat) := do
  let first ← digit base
  return first :: (← digitsAfter base)

def sign : Scanner Bool :=
  (do discard (character '-'); return true)
  <|> (do discard (character '+'); return false)
  <|> return false

def wholeDigits : Scanner (List Nat) := do
  match ← digit 10 with
  | 0 => return [0]
  | first => return first :: (← digitsAfter 10)

def integerEnd : Nat := 0x8000000000000000

def integerOf (negative : Bool) (base : Nat) (digits : List Nat) : Scanner Node := do
  let size : Int := Numeral.valueWithin base integerEnd digits
  let value := if negative then -size else size
  require (-(integerEnd : Int) ≤ value && value < integerEnd)
  return .integer value

def basedInteger (mark : String) (base : Nat) : Scanner Node := do
  text mark
  integerOf false base (← anyDigits base)

def integer : Scanner Node :=
  basedInteger "0x" 16 <|> basedInteger "0o" 8 <|> basedInteger "0b" 2
  <|> (do integerOf (← sign) 10 (← wholeDigits))

def fraction : Scanner (List Nat) :=
  character '.' *> anyDigits 10

def exponentLimit : Nat := 0xFFFF

/-- The power of ten. Its digits after one that takes it past the limit are left out. -/
def exponent : Scanner Int := do
  discard (character 'e' <|> character 'E')
  let negative ← sign
  let size : Int := Numeral.valueWithin 10 exponentLimit (← anyDigits 10)
  return if negative then -size else size

/-- A decimal number with a point or an exponent. One that is rounded to plus infinity is
refused. -/
def float : Scanner Node := do
  let negative ← sign
  let whole ← wholeDigits
  let after ← optional fraction
  let power ← optional exponent
  require (after.isSome || power.isSome)
  let after := after.getD []
  let bits := BinaryFormat.double.ofDigits negative (whole ++ after)
    (power.getD 0 - after.length)
  require (bits ≠ BinaryFormat.double.infinity)
  return .float bits

def special : Scanner Node := do
  let negative ← sign
  let format := BinaryFormat.double
  let magnitude ←
    (do text "inf"; return format.infinity)
    <|> (do text "nan"; return format.infinity + 1 <<< (format.precision - 2))
  return .float (format.sign negative + magnitude)

/-! ## Dates and times -/

def isLeapYear (year : Nat) : Bool :=
  year % 4 = 0 && (year % 100 ≠ 0 || year % 400 = 0)

def daysOfMonth (year month : Nat) : Nat :=
  if month = 2 then if isLeapYear year then 29 else 28
  else if month = 4 ∨ month = 6 ∨ month = 9 ∨ month = 11 then 30
  else 31

def date : Scanner Unit := do
  let year ← digits 10 4
  discard (character '-')
  let month ← digits 10 2
  discard (character '-')
  let day ← digits 10 2
  require (1 ≤ month && month ≤ 12 && 1 ≤ day && day ≤ daysOfMonth year month)

/-- A time of day. A minute may have a leap second. -/
def time : Scanner Unit := do
  let hour ← digits 10 2
  discard (character ':')
  let minute ← digits 10 2
  discard (character ':')
  let second ← digits 10 2
  require (hour ≤ 23 && minute ≤ 59 && second ≤ 60)
  discard (optional (character '.' *> satisfy isDigit *> takeWhile isDigit))

def zone : Scanner Unit :=
  discard (character 'Z' <|> character 'z')
  <|> (do
    discard (character '+' <|> character '-')
    let hour ← digits 10 2
    discard (character ':')
    let minute ← digits 10 2
    require (hour ≤ 23 && minute ≤ 59))

def moment : Scanner Node :=
  (do
    date
    discard (optional (do
      discard (character 'T' <|> character 't' <|> character ' ')
      time
      discard (optional zone)))
    return .moment)
  <|> (do time; return .moment)

/-! ## Keys -/

def isBare (character : Char) : Bool :=
  character.isAlphanum || character = '-' || character = '_'

def keyPart : Scanner String :=
  Quoted.basic <|> Quoted.literal
  <|> (do
    let first ← satisfy isBare
    return String.ofList (first :: (← takeWhile isBare)))

def key : Scanner (List String) := do
  let part := spaces *> keyPart <* spaces
  let first ← part
  let parts := first :: (← many (character '.' *> part))
  require (parts.length < depthLimit)
  return parts

/-! ## Values -/

def boolean : Scanner Node :=
  (do text "true"; return .boolean true) <|> (do text "false"; return .boolean false)

def scalar : Scanner Node :=
  (return .string (← Quoted.string)) <|> moment <|> float <|> integer <|> special <|> boolean

def gap : Scanner Unit :=
  discard (many (discard (satisfy isSpace) <|> newline <|> comment))

/-- An array. A comma may follow its last item. -/
def array (value : Scanner Node) : Scanner Node := do
  discard (character '[')
  let items ← separated (gap *> value <* gap) (character ',')
  if !items.isEmpty then discard (optional (character ','))
  gap
  discard (character ']')
  return .array items

def inlineEntry (value : Scanner Node) : Scanner (List String × Node) := do
  let key ← key
  discard (character '=')
  spaces
  let value ← value
  spaces
  return (key, value)

def inlineTable (value : Scanner Node) : Scanner Node := do
  discard (character '\x7b')
  let values ← separated (inlineEntry value) (character ',')
  spaces
  discard (character '\x7d')
  match Entries.defineAll .inlineDotted .inline values with
  | some entries => return .table .inline entries
  | none => failure

/-- A value within a number of levels of arrays and tables. -/
def valueWithin : (levels : Nat) → Scanner Node
  | 0 => scalar
  | levels + 1 =>
    scalar <|> array (valueWithin levels) <|> inlineTable (valueWithin levels)

def value : Scanner Node :=
  valueWithin (depthLimit - 1)

end Value

end ZxSpectrum.Toml
