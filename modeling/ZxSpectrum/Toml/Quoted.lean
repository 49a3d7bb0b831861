import ZxSpectrum.Toml.Scanner

namespace ZxSpectrum.Toml

/-! Quoted strings. Basic strings are in double quotes and have escapes, literal strings are in
single quotes and have none; either may be written over several lines in three quotes. -/

namespace Quoted

open Scanner

def code (width : Nat) : Scanner Char := do
  let value ← digits 16 width
  require (value < 0xD800 || (0xE000 ≤ value && value < 0x110000))
  return Char.ofNat value

def escape : Scanner Char := do
  discard (character '\\')
  match ← satisfy fun _ => true with
  | 'b' => return '\x08'
  | 't' => return '\t'
  | 'n' => return '\n'
  | 'f' => return '\x0C'
  | 'r' => return '\r'
  | '"' => return '"'
  | '\\' => return '\\'
  | 'u' => code 4
  | 'U' => code 8
  | _ => failure

/-! Strings on a single line. -/

def isPlain (character : Char) : Bool :=
  isText character && character ≠ '"' && character ≠ '\\'

def basicCharacter : Scanner Char :=
  satisfy isPlain <|> escape

def basic : Scanner String := do
  discard (character '"')
  let characters ← many basicCharacter
  discard (character '"')
  return String.ofList characters

def isLiteral (character : Char) : Bool :=
  isText character && character ≠ '\''

def literal : Scanner String := do
  discard (character '\'')
  let characters ← takeWhile isLiteral
  discard (character '\'')
  return String.ofList characters

/-! Strings over several lines, in pieces. One or two quotes may stand within them. -/

def quotes (quote : Char) (following : Scanner Unit) : Scanner (List Char) :=
  (do
    discard (character quote)
    discard (character quote)
    ahead following
    return [quote, quote])
  <|> (do
    discard (character quote)
    ahead following
    return [quote])

/-- A backslash at the end of a line takes all white space up to the next character. -/
def lineContinuation : Scanner Unit := do
  discard (character '\\')
  spaces
  newline
  discard (many (discard (satisfy isSpace) <|> newline))

def basicPiece : Scanner (List Char) :=
  (return [← satisfy isPlain])
  <|> (do lineContinuation; return [])
  <|> (return [← escape])
  <|> (do newline; return ['\n'])

def literalPiece : Scanner (List Char) :=
  (return [← satisfy isLiteral])
  <|> (do newline; return ['\n'])

/-- A string over several lines, from pieces between three quotes on either side. A line end
right after the opening quotes does not count, and up to two quotes may stand before the closing
ones. -/
def multiline (quote : Char) (piece : Scanner (List Char)) : Scanner String := do
  let delimiter := text (String.ofList [quote, quote, quote])
  delimiter
  discard (optional newline)
  let body ← many (piece <|> quotes quote (discard piece))
  let last ← optional (quotes quote delimiter)
  delimiter
  return String.ofList (body.flatten ++ last.getD [])

def string : Scanner String :=
  multiline '"' basicPiece <|> basic <|> multiline '\'' literalPiece <|> literal

end Quoted

end ZxSpectrum.Toml
