import ZxSpectrum.Number.Bound
import ZxSpectrum.Tape.Pulse

namespace ZxSpectrum

/-! The recorder rebuilds the bytes of a saved block from its pulses: a long pilot tone, two
synchronisation pulses, two equal halves for each bit and a closing pulse. -/

structure Reception where
  /-- The first half of the bit being received. -/
  half : Option Bool
  /-- The bits of the byte being received, the first one highest. -/
  byte : UInt8 := 0
  bitCount : Nat := 0
  bytes : Array UInt8 := #[]

namespace Reception

def push (reception : Reception) (bit : Bool) : Reception :=
  let byte := reception.byte <<< 1 ||| bit.toUInt8
  if reception.bitCount + 1 = 8 then
    { half := none, bytes := reception.bytes.push byte }
  else { reception with half := none, byte, bitCount := reception.bitCount + 1 }

/-- A half of a bit. A half that differs from the one before it takes its place. -/
def receive (reception : Reception) (half : Bool) : Reception :=
  if reception.half = some half then reception.push half
  else { reception with half := some half }

end Reception

/-! How far the recorder is within a block. -/

inductive RecorderPhase
  | idle
  | pilot
  | sync1
  | sync2
  | data (reception : Reception)
  /-- After an unexpected pulse, until a pilot pulse comes. -/
  | lost

namespace RecorderPhase

def label : RecorderPhase → String
  | .idle => "None"
  | .pilot => "Pilot"
  | .sync1 => "Sync1"
  | .sync2 => "Sync2"
  | .data _ => "Data"
  | .lost => "Error"

end RecorderPhase

structure Recorder where
  phase : RecorderPhase := .idle
  /-- The pulses of the latest pilot tone. -/
  pilotCount : Nat := 0

namespace Recorder

/-- The pulses that a pilot tone must have before synchronisation is accepted. -/
def requiredPilotPulses : Nat := 3000

/-- Feeds one pulse, with the block that it closes. The count of pilot pulses has to fit a
32-bit counter. -/
def feed : Recorder → Pulse → Option (Recorder × Option (List UInt8))
  | ⟨.idle, _⟩, .pilot | ⟨.lost, _⟩, .pilot => some (⟨.pilot, 1⟩, none)
  | ⟨.pilot, count⟩, .pilot => do return (⟨.pilot, ← Bound.word (count + 1)⟩, none)
  | ⟨.pilot, count⟩, .sync1 =>
    some (⟨if requiredPilotPulses ≤ count then .sync1 else .lost, count⟩, none)
  | ⟨.sync1, count⟩, .sync2 => some (⟨.sync2, count⟩, none)
  | ⟨.sync2, count⟩, .zero => some (⟨.data { half := some false }, count⟩, none)
  | ⟨.sync2, count⟩, .one => some (⟨.data { half := some true }, count⟩, none)
  | ⟨.data reception, count⟩, .zero => some (⟨.data (reception.receive false), count⟩, none)
  | ⟨.data reception, count⟩, .one => some (⟨.data (reception.receive true), count⟩, none)
  | ⟨.data reception, count⟩, .closing => some (⟨.idle, count⟩, some reception.bytes.toList)
  | ⟨_, count⟩, _ => some (⟨.lost, count⟩, none)

def feedAll (recorder : Recorder) (pulses : List Pulse) :
    Option (List (List UInt8) × Recorder) :=
  pulses.foldlM
    (fun (blocks, recorder) pulse => do
      let (recorder, block) ← feed recorder pulse
      return (blocks ++ block.toList, recorder))
    ([], recorder)

end Recorder

end ZxSpectrum
