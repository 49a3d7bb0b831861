import ZxSpectrum.Number.Bound
import ZxSpectrum.Tape.Tap
import ZxSpectrum.Tape.Tzx
import ZxSpectrum.Tape.Pulse

namespace ZxSpectrum

/-! The signal of a tape block: segments of pulses and a pause after them. -/

inductive Segment
  /-- One width over and over. -/
  | tone (width count : Nat)
  | pulses (widths : List Nat)
  /-- Two pulses for each bit, the highest bit of a byte first. Of the last byte only the
  used bits are played. -/
  | data (zeroWidth oneWidth usedBits : Nat) (bytes : List UInt8)
deriving DecidableEq

namespace Segment

def byteWidths (zeroWidth oneWidth : Nat) (byte : UInt8) (bits : Nat) (later : List Nat) :
    List Nat :=
  (List.range bits).foldr
    (fun bit later =>
      let width := if byte.toNat.testBit (7 - bit) then oneWidth else zeroWidth
      width :: width :: later)
    later

def widthsBefore (later : List Nat) : Segment → List Nat
  | .tone width count => List.replicate count width ++ later
  | .pulses widths => widths ++ later
  | .data zeroWidth oneWidth usedBits bytes =>
    bytes.dropLast.foldr (byteWidths zeroWidth oneWidth · 8)
      (bytes.getLast?.toList.foldr (byteWidths zeroWidth oneWidth · usedBits) later)

def widths (segment : Segment) : List Nat :=
  segment.widthsBefore []

/-! Pulses in front of later ones are the same as pulses without any, with the later ones
appended. -/

theorem foldr_eq_flatMap {place : α → List β → List β}
    (places : ∀ item later, place item later = place item [] ++ later) (items : List α)
    (later : List β) : items.foldr place later = items.flatMap (place · []) ++ later := by
  induction items with
  | nil => rfl
  | cons item items induction =>
    rw [List.foldr_cons, induction, places]
    simp

theorem byteWidths_eq (zeroWidth oneWidth : Nat) (byte : UInt8) (bits : Nat) (later : List Nat) :
    byteWidths zeroWidth oneWidth byte bits later
      = byteWidths zeroWidth oneWidth byte bits [] ++ later := by
  simp [byteWidths, foldr_eq_flatMap]

theorem widthsBefore_eq (segment : Segment) (later : List Nat) :
    segment.widthsBefore later = segment.widths ++ later := by
  cases segment with
  | tone width count => simp [widths, widthsBefore]
  | pulses list => simp [widths, widthsBefore]
  | data zeroWidth oneWidth usedBits bytes =>
    simp [widths, widthsBefore, foldr_eq_flatMap (byteWidths_eq zeroWidth oneWidth · _)]

theorem widths_data (zeroWidth oneWidth usedBits : Nat) (bytes : List UInt8) :
    (Segment.data zeroWidth oneWidth usedBits bytes).widths
      = bytes.dropLast.flatMap (byteWidths zeroWidth oneWidth · 8 [])
        ++ bytes.getLast?.toList.flatMap (byteWidths zeroWidth oneWidth · usedBits []) := by
  simp [widths, widthsBefore, foldr_eq_flatMap (byteWidths_eq zeroWidth oneWidth · _)]

/-- Data as an image describes it. A count of zero bits, or of more than eight, stands for a
whole last byte. -/
def ofImage (zeroWidth oneWidth : UInt16) (usedBits : UInt8) (bytes : List UInt8) : Segment :=
  .data zeroWidth.toNat oneWidth.toNat (if usedBits = 0 then 8 else min usedBits.toNat 8) bytes

end Segment

/-! Blocks ready to be played. The ROM writes more pilot pulses before a header than before any
other block. -/

structure TapeBlock where
  segments : List Segment
  /-- The tacts of silence after the last pulse. -/
  pause : Nat := 0
  /-- The bytes that the ROM loader would read from the block. -/
  romData : Option (List UInt8) := none
deriving DecidableEq

namespace TapeBlock

def tactsPerMillisecond : Nat := 3500

def headerPilotPulses : Nat := 8063

def dataPilotPulses : Nat := 3223

def defaultPause : Nat := 1000

def pilotPulses (bytes : List UInt8) : Nat :=
  match bytes with
  | flag :: _ => if flag < 0x80 then headerPilotPulses else dataPilotPulses
  | [] => dataPilotPulses

def ofBytes (bytes : List UInt8) (pauseTacts : Nat) : TapeBlock where
  segments :=
    [.tone PulseWidth.pilot (pilotPulses bytes),
      .pulses [PulseWidth.sync1, PulseWidth.sync2],
      .data PulseWidth.zero PulseWidth.one 8 bytes,
      .pulses [PulseWidth.closing]]
  pause := pauseTacts
  romData := some bytes

/-- The signal that the ROM writes for a block of bytes, before a pause in milliseconds. The
pause in tacts has to fit a 64-bit counter. -/
def standard (bytes : List UInt8) (pause : Nat) : Option TapeBlock :=
  (Bound.long (pause * tactsPerMillisecond)).map (ofBytes bytes)

theorem standard_eq_some_iff {bytes : List UInt8} {pause : Nat} {block : TapeBlock} :
    standard bytes pause = some block ↔
      pause * tactsPerMillisecond < UInt64.size ∧
        block = ofBytes bytes (pause * tactsPerMillisecond) := by
  rw [standard, Option.map_eq_some_iff]
  constructor
  · rintro ⟨tacts, counted, rfl⟩
    rcases Bound.long_eq_some_iff.mp counted with ⟨fits, rfl⟩
    exact ⟨fits, rfl⟩
  · rintro ⟨fits, rfl⟩
    exact ⟨_, Bound.long_eq_some_iff.mpr ⟨fits, rfl⟩, rfl⟩

def ofTap (block : Tap.Block) : TapeBlock :=
  ofBytes block.bytes (defaultPause * tactsPerMillisecond)

def imagePause (pause : UInt16) : Nat :=
  pause.toNat * tactsPerMillisecond

def ofTzx : Tzx.Block → Option TapeBlock
  | .standardSpeed pause data => some (ofBytes data (imagePause pause))
  | .turboSpeed pilotPulse sync1 sync2 zeroPulse onePulse pilotCount usedBits pause data =>
    some
      { segments :=
          [.tone pilotPulse.toNat pilotCount.toNat, .pulses [sync1.toNat, sync2.toNat],
            .ofImage zeroPulse onePulse usedBits data]
        pause := imagePause pause
        romData := some data }
  | .pureTone pulse count => some { segments := [.tone pulse.toNat count.toNat] }
  | .pulseSequence pulses => some { segments := [.pulses (pulses.map UInt16.toNat)] }
  | .pureData zeroPulse onePulse usedBits pause data =>
    some { segments := [.ofImage zeroPulse onePulse usedBits data], pause := imagePause pause }
  | .pause duration => some { segments := [], pause := imagePause duration }
  | .groupStart _ | .groupEnd | .textDescription _ | .archiveInfo _ | .unsupported _ => none

def widths (block : TapeBlock) : List Nat :=
  block.segments.foldr (fun segment later => segment.widthsBefore later) []

theorem widths_eq_flatMap (block : TapeBlock) :
    block.widths = block.segments.flatMap Segment.widths := by
  simp [widths, Segment.foldr_eq_flatMap Segment.widthsBefore_eq]
  rfl

end TapeBlock

end ZxSpectrum
