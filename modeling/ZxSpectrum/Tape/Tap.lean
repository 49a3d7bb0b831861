namespace ZxSpectrum.Tap

/-! TAP images: a sequence of records, each a little-endian length of two bytes and that many
bytes of a block. A block is a flag byte, its payload and a checksum byte, the exclusive or of
the others. Blocks are kept byte for byte, wrong checksums included: the loader in ROM reports
those, and some protected tapes depend on it. -/

structure Block where
  bytes : List UInt8
deriving DecidableEq

/-! The checksum of a block lets its bytes cancel out. -/

def checksum (flag : UInt8) (payload : List UInt8) : UInt8 :=
  payload.foldl (· ^^^ ·) flag

namespace Block

def ofPayload (flag : UInt8) (payload : List UInt8) : Block :=
  ⟨flag :: payload ++ [checksum flag payload]⟩

/-- The first byte; zero for an empty block. -/
def flag (block : Block) : UInt8 :=
  block.bytes.headD 0

def payload (block : Block) : List UInt8 :=
  block.bytes.tail.dropLast

def isHeader (block : Block) : Bool :=
  block.flag < 0x80

def checksumHolds (block : Block) : Bool :=
  checksum 0 block.bytes = 0

theorem checksum_append (flag : UInt8) (front back : List UInt8) :
    checksum flag (front ++ back) = checksum (checksum flag front) back := by
  simp [checksum]

theorem checksumHolds_ofPayload (flag : UInt8) (payload : List UInt8) :
    (ofPayload flag payload).checksumHolds := by
  simp [checksumHolds, ofPayload, checksum]

end Block

/-! Reading and writing images. -/

inductive Error
  /-- One byte stands where a length belongs. -/
  | truncatedLength (offset : Nat)
  /-- A record has no room for flag and checksum. -/
  | recordTooShort (offset length : Nat)
  /-- Fewer bytes remain than a record's length says. -/
  | truncatedRecord (offset need remain : Nat)
  /-- A block is longer than a length of two bytes can say. -/
  | blockTooLong (length : Nat)
deriving DecidableEq

def Error.message : Error → String
  | .truncatedLength offset =>
    s!"truncated TAP file: expected 2-byte length at offset {offset}"
  | .recordTooShort offset length =>
    s!"TAP record at offset {offset} has length {length}, minimum is 2 (flag + checksum)"
  | .truncatedRecord offset need remain =>
    s!"truncated TAP record at offset {offset}: need {need} bytes, only {remain} remain"
  | .blockTooLong length =>
    s!"TAP block of {length} bytes does not fit a 16-bit length"

/-- The blocks of the records in a byte string that starts at an offset of its image. -/
def parseFrom (offset : Nat) : List UInt8 → Except Error (List Block)
  | [] => .ok []
  | [_] => .error (.truncatedLength offset)
  | low :: high :: rest =>
    let length := low.toNat + 256 * high.toNat
    let bytes := rest.take length
    if length < 2 then .error (.recordTooShort offset length)
    else if bytes.length < length then .error (.truncatedRecord offset length bytes.length)
    else (parseFrom (offset + 2 + length) (rest.drop length)).map (⟨bytes⟩ :: ·)
termination_by image => image.length
decreasing_by simp only [List.length_drop, List.length_cons]; omega

def parse (image : List UInt8) : Except Error (List Block) :=
  parseFrom 0 image

def record (block : Block) : Except Error (List UInt8) :=
  let length := block.bytes.length
  if length < UInt16.size then
    .ok (UInt8.ofNat length :: UInt8.ofNat (length / 256) :: block.bytes)
  else .error (.blockTooLong length)

def encode : List Block → Except Error (List UInt8)
  | [] => .ok []
  | block :: rest => do
    let bytes ← record block
    let image ← encode rest
    return bytes ++ image

end ZxSpectrum.Tap
