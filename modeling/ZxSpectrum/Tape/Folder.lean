import ZxSpectrum.Storage
import ZxSpectrum.Tape.Provider

namespace ZxSpectrum

/-! A tape provider over files: the image comes from one file, and each saved session becomes a
TAP file in an output directory. -/

structure TapeFolder where
  storage : Storage
  /-- The file of the inserted image. -/
  input : Option Path := none
  outputDirectory : Path
  name : Option String := none
  /-- The records of the current session. -/
  buffer : List UInt8 := []

namespace TapeFolder

def keeps (character : Char) : Bool :=
  character.isAlphanum || character = '-' || character = '_'

/-- The stem of a file name. Characters that it does not keep become underscores, so that the
name of a tape cannot lead out of the directory. -/
def stem (name : Option String) : String :=
  let kept := (name.getD "").toList.map fun character =>
    if keeps character then character else '_'
  if kept = [] then "saved" else String.ofList kept

def outputPath (folder : TapeFolder) : Path :=
  folder.outputDirectory.join (stem folder.name ++ ".tap")

def content (folder : TapeFolder) : Except Error (Option (List UInt8)) :=
  match folder.input with
  | none => .ok none
  | some path => (folder.storage.read path).map some

/-- Appends the record of a block. A block too long for one leaves everything as it was. -/
def save (block : List UInt8) (folder : TapeFolder) : Except Error Unit × TapeFolder :=
  match Tap.record ⟨block⟩ with
  | .ok record => (.ok (), { folder with buffer := folder.buffer ++ record })
  | .error error => (.error (.tap error), folder)

def written (folder : TapeFolder) (storage : Storage) : Except Error Storage :=
  storage.write folder.outputPath folder.buffer

/-- Writes the current session, unless nothing has been saved. The name is kept, and so are the
records when writing fails. -/
def finalize (folder : TapeFolder) : Except Error Unit × TapeFolder :=
  if folder.buffer = [] then (.ok (), folder)
  else
    match folder.storage.createDirectories folder.outputDirectory with
    | (.error error, storage) => (.error error, { folder with storage })
    | (.ok (), storage) =>
      match folder.written storage with
      | .error error => (.error error, { folder with storage })
      | .ok storage => (.ok (), { folder with storage, buffer := [] })

instance : TapeProvider TapeFolder where
  content folder := (folder.content, folder)
  create folder := (.ok (), { folder with name := none, buffer := [] })
  setName name folder := { folder with name := some name }
  save := save
  finalize := finalize

end TapeFolder

end ZxSpectrum
