import ZxSpectrum.Peripheral

namespace ZxSpectrum

/-! A card that holds nothing but constant bytes at some ports, and swallows what is written to
others. -/

structure PortCard where
  reads : List (UInt16 × UInt8) := []
  writes : List UInt16 := []
deriving DecidableEq

namespace PortCard

instance : Peripheral PortCard where
  attach _ card := .ok card
  reset card := card
  newFrame card := card
  completeFrame _ card := card
  read port card := (card.reads.lookup port, card)
  write port _ card := (card.writes.contains port, card)

end PortCard

end ZxSpectrum
