namespace ZxSpectrum

/-! The beeper turns the levels of the loudspeaker into samples. Sample `i` of a frame belongs
to the tact `i * clock / sampleRate`, rounded down. A change of level fills in the samples up
to its tact with the level before it; the end of a frame fills in the rest. Samples are the
bits of numbers in the 32-bit binary format. -/

structure Beeper where
  /-- Samples per second; at least one. -/
  sampleRate : Nat
  /-- Tacts per second; at least one. -/
  clock : Nat
  frameTacts : Nat
  /-- The sample while the level is high. -/
  volume : UInt32
  /-- The samples of the frame so far. -/
  samples : Array UInt32 := #[]
  level : Bool := false
  /-- The level comes from the tape, and not from the program. -/
  fromTape : Bool := false
  /-- Completed frames are not handed over. -/
  muted : Bool := false

namespace Beeper

def create (sampleRate clock frameTacts : Nat) (volume : UInt32) : Beeper where
  sampleRate := max 1 sampleRate
  clock := max 1 clock
  frameTacts
  volume

def samplesPerFrame (beeper : Beeper) : Nat :=
  beeper.frameTacts * beeper.sampleRate / beeper.clock

def sampleTact (beeper : Beeper) (index : Nat) : Nat :=
  index * beeper.clock / beeper.sampleRate

def value (beeper : Beeper) : UInt32 :=
  if beeper.level then beeper.volume else 0

/-- Adds copies of a sample while its tact is before a bound and there is room. -/
def fill (clock sampleRate bound : Nat) (value : UInt32) :
    (room : Nat) → Array UInt32 → Array UInt32
  | 0, samples => samples
  | room + 1, samples =>
    if samples.size * clock / sampleRate < bound then
      fill clock sampleRate bound value room (samples.push value)
    else samples

def fillUntil (beeper : Beeper) (tact : Nat) : Beeper :=
  let room := beeper.samplesPerFrame - beeper.samples.size
  let value := beeper.value
  let ⟨sampleRate, clock, frameTacts, volume, samples, level, fromTape, muted⟩ := beeper
  ⟨sampleRate, clock, frameTacts, volume, fill clock sampleRate tact value room samples, level,
    fromTape, muted⟩

/-- Takes a level at a frame tact. A level from the source that is not listened to is
ignored. -/
def hear (beeper : Beeper) (fromTape level : Bool) (tact : Nat) : Beeper :=
  if fromTape = beeper.fromTape then { beeper.fillUntil tact with level } else beeper

def newFrame (beeper : Beeper) : Beeper :=
  { beeper with samples := #[] }

def completeFrame (beeper : Beeper) : Beeper × Option (Array UInt32) :=
  let beeper := beeper.fillUntil beeper.frameTacts
  (beeper, if beeper.muted then none else some beeper.samples)

def reset (beeper : Beeper) : Beeper :=
  { beeper with samples := #[], level := false, fromTape := false }

end Beeper

end ZxSpectrum
