import Mathlib
import ZxSpectrum.Tape.Block

namespace ZxSpectrum

/-! A block of a tape is made either from bytes, in the form in which the ROM saves them, or from
a block of a TZX image. Its pulses are described here bit by bit, apart from the segments of the
block that is played, and the two descriptions agree. -/

structure Signal where
  pulses : List Nat
  pause : Nat

namespace Signal

def duration (signal : Signal) : Nat :=
  signal.pulses.sum + signal.pause

def byteBits (byte : UInt8) : List Bool :=
  (List.range 8).map fun place => byte.toNat.testBit (7 - place)

/-- The bits of some bytes that are played: all, but of the last byte only the used ones, which
come first. -/
def playedBits (usedBits : Nat) (bytes : List UInt8) : List Bool :=
  (bytes.flatMap byteBits).take (8 * bytes.length - (8 - usedBits))

def bitPulses (zeroWidth oneWidth : Nat) (bits : List Bool) : List Nat :=
  bits.flatMap fun bit => List.replicate 2 (if bit then oneWidth else zeroWidth)

/-- The pulses of bytes that the ROM saves: pilot tone, synchronisation, bits and closing
pulse. -/
def romPulses (bytes : List UInt8) : List Nat :=
  List.replicate (TapeBlock.pilotPulses bytes) PulseWidth.pilot
    ++ [PulseWidth.sync1, PulseWidth.sync2]
    ++ bitPulses PulseWidth.zero PulseWidth.one (bytes.flatMap byteBits)
    ++ [PulseWidth.closing]

/-- The number of bits used of the last byte, as an image counts them. Zero stands for all, and
so does every number above eight. -/
def usedBits (count : UInt8) : Nat :=
  if count = 0 then 8 else min count.toNat 8

theorem usedBits_le (count : UInt8) : usedBits count ≤ 8 := by
  unfold usedBits
  split
  · exact Nat.le_refl 8
  · exact Nat.min_le_right _ _

@[simp] theorem length_byteBits (byte : UInt8) : (byteBits byte).length = 8 := by
  simp [byteBits]

theorem length_flatMap_byteBits (bytes : List UInt8) :
    (bytes.flatMap byteBits).length = 8 * bytes.length := by
  induction bytes with
  | nil => rfl
  | cons byte bytes induction =>
      rw [List.flatMap_cons, List.length_append, length_byteBits, induction, List.length_cons]
      omega

theorem playedBits_eight (bytes : List UInt8) : playedBits 8 bytes = bytes.flatMap byteBits := by
  apply List.take_of_length_le
  rw [length_flatMap_byteBits]
  exact Nat.le_refl _

theorem playedBits_concat {usedBits : Nat} (fits : usedBits ≤ 8) (bytes : List UInt8)
    (last : UInt8) :
    playedBits usedBits (bytes ++ [last]) =
      bytes.flatMap byteBits ++ (byteBits last).take usedBits := by
  have count : 8 * (bytes ++ [last]).length - (8 - usedBits) =
      (bytes.flatMap byteBits).length + usedBits := by
    rw [length_flatMap_byteBits, List.length_append, List.length_singleton]
    omega
  rw [playedBits, count, List.flatMap_append, List.flatMap_singleton,
    List.take_length_add_append]

theorem bitPulses_append (zeroWidth oneWidth : Nat) (front back : List Bool) :
    bitPulses zeroWidth oneWidth (front ++ back) =
      bitPulses zeroWidth oneWidth front ++ bitPulses zeroWidth oneWidth back :=
  List.flatMap_append

/-! The segments of data that a player is given carry these bits. -/

theorem byteWidths_eq_bitPulses (zeroWidth oneWidth : Nat) (byte : UInt8) {usedBits : Nat}
    (fits : usedBits ≤ 8) :
    Segment.byteWidths zeroWidth oneWidth byte usedBits [] =
      bitPulses zeroWidth oneWidth ((byteBits byte).take usedBits) := by
  have taken : (byteBits byte).take usedBits =
      (List.range usedBits).map fun place => byte.toNat.testBit (7 - place) := by
    rw [byteBits, ← List.map_take, List.take_range, Nat.min_eq_left fits]
  rw [taken, bitPulses, List.flatMap_map]
  exact (Segment.foldr_eq_flatMap (fun _ _ => rfl) _ _).trans (List.append_nil _)

theorem widths_data_eq_bitPulses (zeroWidth oneWidth : Nat) {usedBits : Nat}
    (fits : usedBits ≤ 8) (bytes : List UInt8) :
    (Segment.data zeroWidth oneWidth usedBits bytes).widths =
      bitPulses zeroWidth oneWidth (playedBits usedBits bytes) := by
  have whole (byte : UInt8) : Segment.byteWidths zeroWidth oneWidth byte 8 [] =
      bitPulses zeroWidth oneWidth (byteBits byte) := by
    rw [byteWidths_eq_bitPulses zeroWidth oneWidth byte (Nat.le_refl 8), ← length_byteBits byte,
      List.take_length]
  rw [Segment.widths_data]
  rcases List.eq_nil_or_concat bytes with rfl | ⟨front, last, rfl⟩
  · simp [bitPulses, playedBits]
  · rw [List.concat_eq_append, playedBits_concat fits, bitPulses_append,
      ← byteWidths_eq_bitPulses zeroWidth oneWidth last fits]
    simp [whole, bitPulses, List.flatMap_assoc]

theorem widths_ofImage (zeroWidth oneWidth : UInt16) (count : UInt8) (bytes : List UInt8) :
    (Segment.ofImage zeroWidth oneWidth count bytes).widths =
      bitPulses zeroWidth.toNat oneWidth.toNat (playedBits (usedBits count) bytes) :=
  widths_data_eq_bitPulses _ _ (usedBits_le count) bytes

theorem widths_tone (width count : Nat) :
    (Segment.tone width count).widths = List.replicate count width :=
  List.append_nil _

theorem widths_pulses (widths : List Nat) : (Segment.pulses widths).widths = widths :=
  List.append_nil _

end Signal

/-! What a block of a tape is made from, and the signal that should be played. -/

inductive Recording
  /-- Bytes that the ROM saves, before a pause in milliseconds. -/
  | saved (bytes : List UInt8) (pause : Nat)
  /-- A block of a TZX image. -/
  | image (block : Tzx.Block)

namespace Recording

def block : Recording → Option TapeBlock
  | .saved bytes pause => TapeBlock.standard bytes pause
  | .image block => TapeBlock.ofTzx block

def pauseTacts (milliseconds : Nat) : Nat :=
  3500 * milliseconds

def signal : Recording → Signal
  | .saved bytes pause => ⟨Signal.romPulses bytes, pauseTacts pause⟩
  | .image (.standardSpeed pause bytes) => ⟨Signal.romPulses bytes, pauseTacts pause.toNat⟩
  | .image (.turboSpeed pilot sync1 sync2 zero one pilots count pause bytes) =>
    ⟨List.replicate pilots.toNat pilot.toNat
        ++ [sync1.toNat, sync2.toNat]
        ++ Signal.bitPulses zero.toNat one.toNat
          (Signal.playedBits (Signal.usedBits count) bytes),
      pauseTacts pause.toNat⟩
  | .image (.pureTone width count) => ⟨List.replicate count.toNat width.toNat, 0⟩
  | .image (.pulseSequence widths) => ⟨widths.map UInt16.toNat, 0⟩
  | .image (.pureData zero one count pause bytes) =>
    ⟨Signal.bitPulses zero.toNat one.toNat (Signal.playedBits (Signal.usedBits count) bytes),
      pauseTacts pause.toNat⟩
  | .image (.pause duration) => ⟨[], pauseTacts duration.toNat⟩
  | .image _ => ⟨[], 0⟩

end Recording

namespace TapeBlock

def signal (block : TapeBlock) : Signal :=
  ⟨block.widths, block.pause⟩

theorem signal_mk (segments : List Segment) (pause : Nat) (romData : Option (List UInt8)) :
    signal ⟨segments, pause, romData⟩ = ⟨segments.flatMap Segment.widths, pause⟩ := by
  rw [signal, widths_eq_flatMap]

theorem signal_ofBytes (bytes : List UInt8) (pause : Nat) :
    (ofBytes bytes pause).signal = ⟨Signal.romPulses bytes, pause⟩ := by
  have data : (Segment.data PulseWidth.zero PulseWidth.one 8 bytes).widths =
      Signal.bitPulses PulseWidth.zero PulseWidth.one (bytes.flatMap Signal.byteBits) := by
    rw [Signal.widths_data_eq_bitPulses _ _ (Nat.le_refl 8), Signal.playedBits_eight]
  rw [ofBytes, signal_mk]
  simp [Signal.romPulses, Signal.widths_tone, Signal.widths_pulses, data]

theorem widths_of_standard {bytes : List UInt8} {pause : Nat} {block : TapeBlock}
    (standard : TapeBlock.standard bytes pause = some block) :
    block.widths = Signal.romPulses bytes := by
  have same := (standard_eq_some_iff.mp standard).2
  have signal := signal_ofBytes bytes (pause * tactsPerMillisecond)
  rw [← same] at signal
  exact congrArg Signal.pulses signal

theorem imagePause_eq_pauseTacts (pause : UInt16) :
    imagePause pause = Recording.pauseTacts pause.toNat :=
  Nat.mul_comm _ _

end TapeBlock

/-- The block of a recording carries the signal that should be played. -/
theorem Recording.signal_block {recording : Recording} {block : TapeBlock}
    (playable : recording.block = some block) : block.signal = recording.signal := by
  cases recording with
  | saved bytes pause =>
      rcases TapeBlock.standard_eq_some_iff.mp playable with ⟨-, rfl⟩
      rw [TapeBlock.signal_ofBytes]
      exact congrArg _ (Nat.mul_comm _ _)
  | image source =>
      cases source with
      | standardSpeed pause bytes =>
          cases playable
          rw [TapeBlock.signal_ofBytes, TapeBlock.imagePause_eq_pauseTacts]
          rfl
      | turboSpeed | pureTone | pulseSequence | pureData | pause =>
          cases playable
          simp [signal, TapeBlock.signal_mk, TapeBlock.imagePause_eq_pauseTacts,
            Signal.widths_tone, Signal.widths_pulses, Signal.widths_ofImage]
      | groupStart | groupEnd | textDescription | archiveInfo | unsupported =>
          exact nomatch playable

theorem Recording.signals_blocks {recordings : List Recording} {blocks : List TapeBlock}
    (playable : recordings.mapM Recording.block = some blocks) :
    blocks.map TapeBlock.signal = recordings.map Recording.signal := by
  induction recordings generalizing blocks with
  | nil =>
      cases playable
      rfl
  | cons recording recordings induction =>
      rw [List.mapM_cons] at playable
      rcases Option.bind_eq_some_iff.mp playable with ⟨block, first, playable⟩
      rcases Option.bind_eq_some_iff.mp playable with ⟨later, rest, playable⟩
      cases playable
      rw [List.map_cons, List.map_cons, Recording.signal_block first, induction rest]

end ZxSpectrum
