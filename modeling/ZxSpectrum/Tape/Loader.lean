import ZxSpectrum.Memory
import ZxSpectrum.Processor.Registers

namespace ZxSpectrum.Loader

/-! Loading a block at once, with the outcome that the loader in ROM has after it has read the
block from its signal. On entry `IX` is the destination and `DE` the length; the alternate
accumulator holds the expected flag byte, with the alternate carry set to load and clear to
verify. -/

def waitAddress : UInt16 := 0x056C

def rejectAddress : UInt16 := 0x05B6

def resumeAddress : UInt16 := 0x05E2

/-! What the loader leaves in the registers. -/

def compareWithOne (a : UInt8) : UInt8 :=
  let result := a - 1
  let bit (set : Bool) (flag : UInt8) := if set then flag else 0
  Flag.subtract ||| result &&& Flag.sign
    ||| bit (result = 0) Flag.zero
    ||| bit (a &&& 0x0F = 0) Flag.halfCarry
    ||| bit (a = 0x80) Flag.parity
    ||| bit (a = 0) Flag.carry

def reject (registers : Registers) : Registers :=
  { registers with
    f := registers.f &&& ~~~(Flag.zero ||| Flag.carry)
    pc := rejectAddress }

/-- The loader's registers after the last byte, given the parity byte if there is one. The
block is good when all its bytes, flag and parity included, cancel out. -/
def finish (registers : Registers) (parity : Option UInt8) : Registers :=
  let h := registers.h ^^^ parity.getD 0
  { registers with h, a := h, f := compareWithOne h, pc := resumeAddress }

def accept (registers : Registers) (byte : UInt8) : Registers :=
  { registers with
    l := byte
    h := registers.h ^^^ byte
    ix := registers.ix + 1 }.setDE (registers.de - 1)

/-- Loads or verifies a number of bytes. A missing byte ends the block, and so does one that
differs from memory while verifying. -/
def transfer (verify : Bool) : (count : Nat) → List UInt8 → Registers → Memory →
    Registers × Memory
  | 0, bytes, registers, memory => (finish registers bytes.head?, memory)
  | _ + 1, [], registers, memory => (reject registers, memory)
  | count + 1, byte :: bytes, registers, memory =>
    if verify then
      let existing := memory.read registers.ix
      if existing = byte then transfer verify count bytes (accept registers byte) memory
      else (reject { registers with l := byte, a := existing ^^^ byte }, memory)
    else transfer verify count bytes (accept registers byte) (memory.write registers.ix byte)

/-- Loads a block. A flag byte other than the expected one is rejected before anything is
loaded. -/
def load (block : List UInt8) (registers : Registers) (memory : Memory) : Registers × Memory :=
  let registers := registers.exchangeAF
  let verify := registers.a = 0xFF ∧ registers.f &&& Flag.carry = 0
  match block with
  | [] => (reject { registers with a := registers.a ^^^ registers.l }, memory)
  | flag :: bytes =>
    if flag = registers.a then
      transfer verify registers.de.toNat bytes { registers with h := registers.a } memory
    else (reject { registers with a := registers.a ^^^ registers.l }, memory)

end ZxSpectrum.Loader
