import ZxSpectrum.Raster.Geometry

namespace ZxSpectrum

/-! The configuration of a machine. Every field has a default; together the defaults describe
the 48K machine. -/

structure ProcessorConfiguration where
  /-- The clock of the processor at multiplier one, in hertz. -/
  baseClock : Nat := 3500000
  multiplier : Nat := 1
deriving DecidableEq

/-- Rounds a multiplier down to one, two, four or eight. -/
def clampMultiplier (value : Nat) : Nat :=
  if value < 2 then 1 else if value < 4 then 2 else if value < 8 then 4 else 8

structure BeeperConfiguration where
  sampleRate : Nat := 48000
  /-- The sample while the loudspeaker is high, as the bits of a 32-bit binary number. The
  default is one half. -/
  volume : UInt32 := 0x3F000000
deriving DecidableEq

structure TapeConfiguration where
  input : Option String := none
  outputDirectory : Option String := none
deriving DecidableEq

structure Configuration where
  screen : Geometry := {}
  processor : ProcessorConfiguration := {}
  /-- The video circuit delays accesses to the memory it shares. -/
  contended : Bool := true
  beeper : BeeperConfiguration := {}
  tape : TapeConfiguration := {}
  /-- The file of the ROM image. An image given directly takes its place. -/
  romPath : Option String := none
deriving DecidableEq

end ZxSpectrum
