namespace ZxSpectrum

/-! The register file of the processor. -/

structure Registers where
  a : UInt8 := 0
  f : UInt8 := 0
  b : UInt8 := 0
  c : UInt8 := 0
  d : UInt8 := 0
  e : UInt8 := 0
  h : UInt8 := 0
  l : UInt8 := 0
  aAlternate : UInt8 := 0
  fAlternate : UInt8 := 0
  bAlternate : UInt8 := 0
  cAlternate : UInt8 := 0
  dAlternate : UInt8 := 0
  eAlternate : UInt8 := 0
  hAlternate : UInt8 := 0
  lAlternate : UInt8 := 0
  ix : UInt16 := 0
  iy : UInt16 := 0
  sp : UInt16 := 0
  pc : UInt16 := 0
  i : UInt8 := 0
  r : UInt8 := 0
  iff1 : Bool := false
  iff2 : Bool := false
  /-- The interrupt mode. -/
  im : UInt8 := 0
deriving DecidableEq

def wordOf (high low : UInt8) : UInt16 :=
  high.toUInt16 <<< 8 ||| low.toUInt16

def highByte (word : UInt16) : UInt8 :=
  (word >>> 8).toUInt8

def lowByte (word : UInt16) : UInt8 :=
  word.toUInt8

/-! The bits of the flag register. -/

namespace Flag

def sign : UInt8 := 0x80

def zero : UInt8 := 0x40

def halfCarry : UInt8 := 0x10

def parity : UInt8 := 0x04

def subtract : UInt8 := 0x02

def carry : UInt8 := 0x01

end Flag

namespace Registers

/-! Pairs of registers as words. -/

def af (registers : Registers) : UInt16 :=
  wordOf registers.a registers.f

def bc (registers : Registers) : UInt16 :=
  wordOf registers.b registers.c

def de (registers : Registers) : UInt16 :=
  wordOf registers.d registers.e

def hl (registers : Registers) : UInt16 :=
  wordOf registers.h registers.l

def setAF (registers : Registers) (word : UInt16) : Registers :=
  { registers with a := highByte word, f := lowByte word }

def setBC (registers : Registers) (word : UInt16) : Registers :=
  { registers with b := highByte word, c := lowByte word }

def setDE (registers : Registers) (word : UInt16) : Registers :=
  { registers with d := highByte word, e := lowByte word }

def setHL (registers : Registers) (word : UInt16) : Registers :=
  { registers with h := highByte word, l := lowByte word }

def exchangeAF (registers : Registers) : Registers :=
  { registers with
    a := registers.aAlternate
    f := registers.fAlternate
    aAlternate := registers.a
    fAlternate := registers.f }

def carry (registers : Registers) : Bool :=
  registers.f &&& Flag.carry ≠ 0

def zero (registers : Registers) : Bool :=
  registers.f &&& Flag.zero ≠ 0

end Registers

end ZxSpectrum
