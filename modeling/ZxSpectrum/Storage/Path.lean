namespace ZxSpectrum

/-! The text of a path is cut into pieces at its slashes. A piece may be empty, as between two
slashes that stand together or after a slash at the end. -/

structure Path where
  pieces : List String
deriving DecidableEq

namespace Path

def ofString (text : String) : Path :=
  ⟨text.splitToList (· = '/')⟩

def toString (path : Path) : String :=
  "/".intercalate path.pieces

/-- A piece that leads elsewhere. An empty piece and a single dot stay in the directory. -/
def moves (piece : String) : Bool :=
  piece ≠ "" && piece ≠ "."

def isName (piece : String) : Bool :=
  moves piece && piece ≠ ".."

def isAbsolute (path : Path) : Bool :=
  match path.pieces with
  | "" :: _ :: _ => true
  | _ => false

def join (path : Path) (name : String) : Path :=
  if path.pieces.getLast? = some "" then ⟨path.pieces.dropLast ++ [name]⟩
  else ⟨path.pieces ++ [name]⟩

def withoutEnd (path : Path) : Path :=
  ⟨(path.pieces.reverse.dropWhile (· = "")).reverse⟩

def fromHome (path : Path) : Path :=
  if path.isAbsolute then path else ⟨path.pieces.dropWhile fun piece => !moves piece⟩

/-- The path of the directory that encloses what a path names, which is its last piece that leads
elsewhere. -/
def parent (path : Path) : Path :=
  ⟨((path.pieces.reverse.dropWhile fun piece => !moves piece).drop 1).reverse⟩

end Path

end ZxSpectrum
