import Std.Data.HashSet.Basic
import ZxSpectrum.Error
import ZxSpectrum.Storage.Path

namespace ZxSpectrum

/-! A tree of directories and files on the host, and what the paths of a program find in it. -/

abbrev Place := List String

structure Storage where
  /-- The working directory, in which a path starts unless it starts with a slash. -/
  home : Place := ["home", "spectrum"]
  directories : Std.HashSet Place := .ofList [["home"], ["home", "spectrum"]]
  files : List (Place × List UInt8) := []

/-- Where a piece of a path leads from a directory, whether or not something is there. The top
of the tree encloses itself. -/
def Place.follow (place : Place) (piece : String) : Place :=
  if Path.isName piece then place ++ [piece]
  else if Path.moves piece then place.dropLast
  else place

namespace Storage

def ofFiles (files : List (String × List UInt8)) : Storage :=
  let storage : Storage := {}
  { storage with files := files.map fun (name, bytes) => (storage.home ++ [name], bytes) }

def isDirectory (storage : Storage) (place : Place) : Bool :=
  place = [] || storage.directories.contains place

def file? (storage : Storage) (place : Place) : Option (List UInt8) :=
  storage.files.lookup place

def listing (storage : Storage) : List (String × List UInt8) :=
  let below := storage.files.filter fun (place, _) => storage.home.isPrefixOf place
  (below.map fun (place, bytes) =>
    ("/".intercalate (place.drop storage.home.length), bytes)).mergeSort
      fun left right => left.1 ≤ right.1

def longestName : Nat := 255

def longestPath : Nat := 4095

/-- The pieces of a path from the top of the tree on. The host takes no path that is too long
or that holds a zero character. -/
def piecesOf (storage : Storage) (path : Path) : Option (List String) :=
  let pieces := if path.isAbsolute then path.pieces else "" :: (storage.home ++ path.pieces)
  let text := Path.toString ⟨pieces⟩
  if text.utf8ByteSize ≤ longestPath ∧ !text.contains '\x00' then some pieces else none

/-! Walking along the pieces of a path. -/

def enter (storage : Storage) (place : Place) (piece : String) : Option Place :=
  let next := place.follow piece
  if storage.isDirectory next then some next else none

def walk (storage : Storage) (pieces : List String) : Option Place :=
  pieces.foldlM storage.enter []

def entryIn (directory : Place) (name : String) : Option Place :=
  if Path.isName name ∧ name.utf8ByteSize ≤ longestName then some (directory ++ [name]) else none

def entry (storage : Storage) (pieces : List String) : Option Place := do
  let name ← pieces.getLast?
  entryIn (← storage.walk pieces.dropLast) name

def find (storage : Storage) (path : Path) : Option Place := do
  let pieces ← storage.piecesOf path
  match storage.walk pieces with
  | some directory => return directory
  | none =>
    let place ← storage.entry pieces
    if (storage.file? place).isSome then return place else none

/-! Reading files, and making directories and files. -/

def leadsToDirectory (storage : Storage) (path : Path) : Bool :=
  (storage.find path).any storage.isDirectory

/-- The bytes that a reader of a path finds. A directory can be opened, but not read. -/
def read (storage : Storage) (path : Path) : Except Error (List UInt8) :=
  match storage.find path with
  | none => .error .file
  | some place =>
    match storage.file? place with
    | some bytes => .ok bytes
    | none => .error .io

def makeAt (storage : Storage) (place : Place) : Option Storage :=
  if storage.isDirectory place || (storage.file? place).isSome then none
  else some { storage with directories := storage.directories.insert place }

def makeDirectory (storage : Storage) (path : Path) : Option Storage := do
  let pieces ← storage.piecesOf path
  storage.makeAt (← storage.entry (Path.withoutEnd ⟨pieces⟩).pieces)

/-- Follows pieces from a directory and makes those directories that are missing. After a
failure, those before it stay. -/
def makeMissing (place : Place) :
    (pieces : List String) → Storage → Except Error Unit × Storage
  | [], storage => (.ok (), storage)
  | piece :: rest, storage =>
    match storage.enter place piece with
    | some next => makeMissing next rest storage
    | none =>
      match (entryIn place piece).bind storage.makeAt with
      | some storage => makeMissing (place.follow piece) rest storage
      | none => (.error .file, storage)

def createDirectories (path : Path) (storage : Storage) : Except Error Unit × Storage :=
  match storage.piecesOf path, storage.piecesOf path.parent with
  | some _, some parents =>
    match makeMissing [] parents storage with
    | (.error error, storage) => (.error error, storage)
    | (.ok (), storage) =>
      match storage.makeDirectory path with
      | some storage => (.ok (), storage)
      | none => (if storage.leadsToDirectory path then .ok () else .error .file, storage)
  | _, _ => (.error .file, storage)

def write (storage : Storage) (path : Path) (bytes : List UInt8) : Except Error Storage :=
  match (storage.piecesOf path).bind storage.entry with
  | none => .error .file
  | some place =>
    if storage.isDirectory place then .error .file
    else .ok { storage with files := storage.files.filter (·.1 ≠ place) ++ [(place, bytes)] }

end Storage

end ZxSpectrum
