import ZxSpectrum.Processor.Registers

namespace ZxSpectrum

/-! The registers under the names by which a debugger reads and changes them. -/

structure RegisterName where
  name : String
  get : Registers → Nat
  /-- Only the low bits that fit the register count. -/
  set : Nat → Registers → Registers

namespace RegisterName

def bytes : List RegisterName :=
  [⟨"a", (·.a.toNat), fun value registers => { registers with a := .ofNat value }⟩,
    ⟨"f", (·.f.toNat), fun value registers => { registers with f := .ofNat value }⟩,
    ⟨"b", (·.b.toNat), fun value registers => { registers with b := .ofNat value }⟩,
    ⟨"c", (·.c.toNat), fun value registers => { registers with c := .ofNat value }⟩,
    ⟨"d", (·.d.toNat), fun value registers => { registers with d := .ofNat value }⟩,
    ⟨"e", (·.e.toNat), fun value registers => { registers with e := .ofNat value }⟩,
    ⟨"h", (·.h.toNat), fun value registers => { registers with h := .ofNat value }⟩,
    ⟨"l", (·.l.toNat), fun value registers => { registers with l := .ofNat value }⟩,
    ⟨"a_alt", (·.aAlternate.toNat),
      fun value registers => { registers with aAlternate := .ofNat value }⟩,
    ⟨"f_alt", (·.fAlternate.toNat),
      fun value registers => { registers with fAlternate := .ofNat value }⟩,
    ⟨"b_alt", (·.bAlternate.toNat),
      fun value registers => { registers with bAlternate := .ofNat value }⟩,
    ⟨"c_alt", (·.cAlternate.toNat),
      fun value registers => { registers with cAlternate := .ofNat value }⟩,
    ⟨"d_alt", (·.dAlternate.toNat),
      fun value registers => { registers with dAlternate := .ofNat value }⟩,
    ⟨"e_alt", (·.eAlternate.toNat),
      fun value registers => { registers with eAlternate := .ofNat value }⟩,
    ⟨"h_alt", (·.hAlternate.toNat),
      fun value registers => { registers with hAlternate := .ofNat value }⟩,
    ⟨"l_alt", (·.lAlternate.toNat),
      fun value registers => { registers with lAlternate := .ofNat value }⟩,
    ⟨"i", (·.i.toNat), fun value registers => { registers with i := .ofNat value }⟩,
    ⟨"r", (·.r.toNat), fun value registers => { registers with r := .ofNat value }⟩,
    ⟨"im", (·.im.toNat), fun value registers => { registers with im := .ofNat value }⟩]

def words : List RegisterName :=
  [⟨"ix", (·.ix.toNat), fun value registers => { registers with ix := .ofNat value }⟩,
    ⟨"iy", (·.iy.toNat), fun value registers => { registers with iy := .ofNat value }⟩,
    ⟨"sp", (·.sp.toNat), fun value registers => { registers with sp := .ofNat value }⟩,
    ⟨"pc", (·.pc.toNat), fun value registers => { registers with pc := .ofNat value }⟩]

def pairs : List RegisterName :=
  [⟨"af", (·.af.toNat), fun value registers => registers.setAF (.ofNat value)⟩,
    ⟨"bc", (·.bc.toNat), fun value registers => registers.setBC (.ofNat value)⟩,
    ⟨"de", (·.de.toNat), fun value registers => registers.setDE (.ofNat value)⟩,
    ⟨"hl", (·.hl.toNat), fun value registers => registers.setHL (.ofNat value)⟩]

def flipFlops : List RegisterName :=
  [⟨"iff1", (·.iff1.toNat), fun value registers => { registers with iff1 := value % 2 = 1 }⟩,
    ⟨"iff2", (·.iff2.toNat), fun value registers => { registers with iff2 := value % 2 = 1 }⟩]

def ofName (name : String) : Option RegisterName :=
  (bytes ++ words ++ pairs ++ flipFlops).find? (·.name = name)

end RegisterName

/-- Changes the register or pair of a name. No register has any other name. -/
def Registers.assign (registers : Registers) (name : String) (value : Nat) : Registers :=
  match RegisterName.ofName name with
  | some register => register.set value registers
  | none => registers

end ZxSpectrum
