import ZxSpectrum.Number.Numeral
import ZxSpectrum.Text.Hexadecimal

namespace ZxSpectrum.Toml

/-! Reading text from its front. A scanner takes characters and answers a value, or it fails and
takes nothing. -/

abbrev Scanner := StateT (List Char) Option

namespace Scanner

def satisfy (property : Char → Bool) : Scanner Char := fun input =>
  match input with
  | character :: rest => if property character then some (character, rest) else none
  | [] => none

def character (expected : Char) : Scanner Char :=
  satisfy (· = expected)

def text (expected : String) : Scanner Unit :=
  expected.toList.forM fun expected => discard (character expected)

def takeWhile (property : Char → Bool) : Scanner (List Char) := fun input =>
  some (input.takeWhile property, input.dropWhile property)

def finish : Scanner Unit := fun input =>
  if input = [] then some ((), []) else none

/-- Succeeds where another scanner would, and takes nothing. -/
def ahead (scanner : Scanner α) : Scanner Unit := fun input =>
  (scanner input).map fun _ => ((), input)

/-- A value again and again, at most once for each member of a list, after earlier ones that are
listed from the last to the first. -/
def upTo (scanner : Scanner α) : (turns : List β) → (earlier : List α) → Scanner (List α)
  | [], earlier, input => some (earlier.reverse, input)
  | _ :: turns, earlier, input =>
    match scanner input with
    | none => some (earlier.reverse, input)
    | some (value, rest) => upTo scanner turns (value :: earlier) rest

/-- A value again and again. Each must take some text, so there are no more of them than
characters. -/
def many (scanner : Scanner α) : Scanner (List α) := fun input =>
  upTo scanner input [] input

def separated (scanner : Scanner α) (separator : Scanner β) : Scanner (List α) := do
  match ← optional scanner with
  | none => return []
  | some first => return first :: (← many (discard separator *> scanner))

def require (condition : Bool) : Scanner Unit :=
  if condition then return else failure

def run (scanner : Scanner α) (input : List Char) : Option α := do
  let (value, _) ← (scanner <* finish) input
  return value

/-! What the parts of a document share. -/

def isSpace (character : Char) : Bool :=
  character = ' ' || character = '\t'

def spaces : Scanner Unit :=
  discard (takeWhile isSpace)

def newline : Scanner Unit :=
  discard (character '\n') <|> text "\r\n"

/-- A character of comments and strings: no control character but the tab. -/
def isText (character : Char) : Bool :=
  character = '\t' || (' ' ≤ character && character ≠ '\x7F')

def comment : Scanner Unit := do
  discard (character '#')
  discard (takeWhile isText)

def lineEnd : Scanner Unit :=
  newline <|> finish

def lineRest : Scanner Unit := do
  spaces
  discard (optional comment)
  lineEnd

def isDigit (character : Char) : Bool :=
  '0' ≤ character && character ≤ '9'

/-! Digits of a base. -/

def digit (base : Nat) : Scanner Nat := do
  let digit ← satisfy fun character => (Text.Hexadecimal.value? character).any (· < base)
  return (Text.Hexadecimal.value? digit).getD 0

def digits (base count : Nat) : Scanner Nat := do
  let digits ← upTo (digit base) (List.range count) []
  require (digits.length = count)
  return Numeral.value base digits

end Scanner

end ZxSpectrum.Toml
