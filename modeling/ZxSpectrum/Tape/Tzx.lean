import ZxSpectrum.Text.Utf8

namespace ZxSpectrum.Tzx

/-! TZX images describe the tape signal itself: data with the timing of the ROM loader, turbo
data with pulse widths of its own, tones and pulse sequences. After a signature and two version
bytes come blocks, each an identifying byte and a body. Blocks that steer playback or carry
encodings not modelled here are kept as their identifier alone. -/

/-- One block. Pulse widths are in tacts at 3.5 MHz, pauses in milliseconds. -/
inductive Block
  | standardSpeed (pause : UInt16) (data : List UInt8)
  | turboSpeed (pilotPulse sync1 sync2 zeroPulse onePulse pilotCount : UInt16)
      (usedBits : UInt8) (pause : UInt16) (data : List UInt8)
  | pureTone (pulse count : UInt16)
  | pulseSequence (pulses : List UInt16)
  | pureData (zeroPulse onePulse : UInt16) (usedBits : UInt8) (pause : UInt16)
      (data : List UInt8)
  | pause (duration : UInt16)
  | groupStart (name : String)
  | groupEnd
  | textDescription (text : String)
  | archiveInfo (entries : List (UInt8 × String))
  | unsupported (id : UInt8)
deriving DecidableEq

def Block.romData : Block → Option (List UInt8)
  | .standardSpeed _ data => some data
  | .turboSpeed _ _ _ _ _ _ _ _ data => some data
  | _ => none

structure Image where
  major : UInt8
  minor : UInt8
  blocks : List Block
deriving DecidableEq

inductive Error
  | tooShort
  | badMagic
  | truncated (context : String) (offset need remain : Nat)
  | invalidUsedBits (context : String) (offset : Nat) (usedBits : UInt8)
deriving DecidableEq

def Error.message : Error → String
  | .tooShort => "TZX file too short for header (need 10 bytes)"
  | .badMagic => "invalid TZX magic (expected \"ZXTape!\" + 0x1A)"
  | .truncated context offset need remain =>
    s!"truncated TZX {context} at offset {offset}: need {need} bytes, {remain} remain"
  | .invalidUsedBits context offset usedBits =>
    s!"invalid used bits {usedBits} in TZX {context} at offset {offset}"

/-! Readers of the bytes from an offset on. They answer a value and the number of bytes that they
have consumed. -/

def Reader (α : Type) :=
  (offset : Nat) → List UInt8 → Except Error (α × Nat)

namespace Reader

def pure (value : α) : Reader α :=
  fun _ _ => .ok (value, 0)

def bind (first : Reader α) (next : α → Reader β) : Reader β :=
  fun offset bytes => do
    let (value, consumed) ← first offset bytes
    let (result, more) ← next value (offset + consumed) (bytes.drop consumed)
    return (result, consumed + more)

instance : Monad Reader where
  pure := Reader.pure
  bind := Reader.bind

def take (context : String) (need : Nat) : Reader (List UInt8) :=
  fun offset bytes =>
    let taken := bytes.take need
    if taken.length < need then .error (.truncated context offset need taken.length)
    else .ok (taken, need)

def number (context : String) (width : Nat) : Reader Nat := do
  let bytes ← take context width
  return bytes.foldr (fun byte value => byte.toNat + 256 * value) 0

def byte (context : String) : Reader UInt8 :=
  UInt8.ofNat <$> number context 1

def word (context : String) : Reader UInt16 :=
  UInt16.ofNat <$> number context 2

/-- The number of bits used in the last byte of data. Zero stands for all eight. -/
def usedBits (context : String) : Reader UInt8 :=
  fun offset bytes => do
    let (bits, consumed) ← byte context offset bytes
    if bits = 0 then return (8, consumed)
    else if bits ≤ 8 then return (bits, consumed)
    else .error (.invalidUsedBits context offset bits)

def text (context : String) (length : Nat) : Reader String :=
  Text.Utf8.decodeLossy <$> take context length

def times (reader : Reader α) : Nat → Reader (List α)
  | 0 => return []
  | count + 1 => do
    let value ← reader
    let values ← times reader count
    return value :: values

end Reader

/-- The entries of an archive block's body. They end early where the body does. -/
def archiveEntries : (count : Nat) → List UInt8 → List (UInt8 × String)
  | count + 1, id :: length :: rest =>
    (id, Text.Utf8.decodeLossy (rest.take length.toNat))
      :: archiveEntries count (rest.drop length.toNat)
  | _, _ => []

def skippedLength (id : UInt8) : Reader Nat :=
  match id with
  | 0x15 => do
    discard (Reader.take "direct recording header" 5)
    Reader.number "direct recording header" 3
  | 0x23 | 0x24 => return 2
  | 0x25 | 0x27 => return 0
  | 0x26 => do return 2 * (← Reader.number "call sequence" 2)
  | 0x28 => Reader.number "select block" 2
  | 0x2A => return 4
  | 0x2B => return 5
  | 0x31 => do
    discard (Reader.byte "message")
    Reader.number "message" 1
  | 0x33 => do return 3 * (← Reader.number "hardware type" 1)
  | 0x35 => do
    discard (Reader.take "custom info" 16)
    Reader.number "custom info" 4
  | 0x5A => return 9
  | _ => Reader.number "block length" 4

/-! Blocks, each by its identifier, and whole images. -/

def body (id : UInt8) : Reader Block :=
  match id with
  | 0x10 => do
    let pause ← Reader.word "standard speed header"
    let length ← Reader.number "standard speed header" 2
    let data ← Reader.take "standard speed data" length
    return .standardSpeed pause data
  | 0x11 => do
    let pilotPulse ← Reader.word "turbo speed header"
    let sync1 ← Reader.word "turbo speed header"
    let sync2 ← Reader.word "turbo speed header"
    let zeroPulse ← Reader.word "turbo speed header"
    let onePulse ← Reader.word "turbo speed header"
    let pilotCount ← Reader.word "turbo speed header"
    let usedBits ← Reader.usedBits "turbo speed header"
    let pause ← Reader.word "turbo speed header"
    let length ← Reader.number "turbo speed header" 3
    let data ← Reader.take "turbo speed data" length
    return .turboSpeed pilotPulse sync1 sync2 zeroPulse onePulse pilotCount usedBits pause data
  | 0x12 => do
    let pulse ← Reader.word "pure tone"
    let count ← Reader.word "pure tone"
    return .pureTone pulse count
  | 0x13 => do
    let count ← Reader.number "pulse sequence" 1
    let pulses ← (Reader.word "pulse sequence").times count
    return .pulseSequence pulses
  | 0x14 => do
    let zeroPulse ← Reader.word "pure data header"
    let onePulse ← Reader.word "pure data header"
    let usedBits ← Reader.usedBits "pure data header"
    let pause ← Reader.word "pure data header"
    let length ← Reader.number "pure data header" 3
    let data ← Reader.take "pure data" length
    return .pureData zeroPulse onePulse usedBits pause data
  | 0x20 => do return .pause (← Reader.word "pause")
  | 0x21 => do
    let length ← Reader.number "group start" 1
    return .groupStart (← Reader.text "group name" length)
  | 0x22 => return .groupEnd
  | 0x30 => do
    let length ← Reader.number "text description" 1
    return .textDescription (← Reader.text "text description" length)
  | 0x32 => do
    let length ← Reader.number "archive info" 2
    match ← Reader.take "archive info" length with
    | [] => return .archiveInfo []
    | count :: entries => return .archiveInfo (archiveEntries count.toNat entries)
  | _ => do
    let length ← skippedLength id
    discard (Reader.take "skipped block" length)
    return .unsupported id

/-- The blocks in a byte string that starts at an offset of its image. -/
def blocksFrom (offset : Nat) : List UInt8 → Except Error (List Block)
  | [] => .ok []
  | id :: rest => do
    let (block, consumed) ← body id (offset + 1) rest
    let blocks ← blocksFrom (offset + 1 + consumed) (rest.drop consumed)
    return block :: blocks
termination_by image => image.length
decreasing_by simp only [List.length_drop, List.length_cons]; omega

def signature : List UInt8 :=
  [0x5A, 0x58, 0x54, 0x61, 0x70, 0x65, 0x21, 0x1A]

def isImage (bytes : List UInt8) : Bool :=
  signature.isPrefixOf bytes

def parse (bytes : List UInt8) : Except Error Image :=
  match bytes.drop 8 with
  | major :: minor :: rest =>
    if isImage bytes then do
      let blocks ← blocksFrom 10 rest
      return ⟨major, minor, blocks⟩
    else .error .badMagic
  | _ => .error .tooShort

end ZxSpectrum.Tzx
