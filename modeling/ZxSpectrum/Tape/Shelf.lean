import ZxSpectrum.Tape.Provider

namespace ZxSpectrum

/-! A tape provider that keeps everything in memory. -/

structure SavedTape where
  name : Option String
  blocks : List (List UInt8)
deriving DecidableEq

structure TapeShelf where
  /-- The inserted image. -/
  image : Option (List UInt8) := none
  name : Option String := none
  /-- The blocks of the current output file. -/
  blocks : List (List UInt8) := []
  finished : List SavedTape := []
deriving DecidableEq

namespace TapeShelf

def insert (shelf : TapeShelf) (image : List UInt8) : TapeShelf :=
  { shelf with image := some image }

def eject (shelf : TapeShelf) : TapeShelf :=
  { shelf with image := none }

/-- Finishing a file keeps its name for the next one. -/
instance : TapeProvider TapeShelf where
  content shelf := (.ok shelf.image, shelf)
  create shelf := (.ok (), { shelf with name := none, blocks := [] })
  setName name shelf := { shelf with name := some name }
  save block shelf := (.ok (), { shelf with blocks := shelf.blocks ++ [block] })
  finalize shelf :=
    (.ok (), { shelf with
      blocks := []
      finished := shelf.finished ++ [⟨shelf.name, shelf.blocks⟩] })

end TapeShelf

end ZxSpectrum
