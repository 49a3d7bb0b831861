import ZxSpectrum.Error

namespace ZxSpectrum

/-! The memory board: sixteen kilobytes of ROM below forty-eight of RAM. Writes to ROM have no
effect. The lower sixteen kilobytes of RAM are shared with the video circuit. -/

structure Memory where
  rom : Vector UInt8 0x4000
  ram : Vector UInt8 0xC000
  /-- The page register of a board with several ROM pages. A board with one page has none. -/
  page : Option UInt8 := none

namespace Memory

def empty : Memory where
  rom := Vector.replicate 0x4000 0
  ram := Vector.replicate 0xC000 0

def read (memory : Memory) (address : UInt16) : UInt8 :=
  if inRom : address.toNat < 0x4000 then memory.rom[address.toNat]
  else memory.ram.get ⟨address.toNat - 0x4000, by have := address.toNat_lt; omega⟩

def write (memory : Memory) (address : UInt16) (value : UInt8) : Memory :=
  if inRom : address.toNat < 0x4000 then memory
  else
    let ⟨rom, ram, page⟩ := memory
    ⟨rom, ram.set (address.toNat - 0x4000) value (by have := address.toNat_lt; omega), page⟩

/-! Rows of bytes, from an address on. After the last address comes the first, but what is loaded
past the last one is dropped. -/

def writeAll (memory : Memory) (address : UInt16) (bytes : List UInt8) : Memory :=
  match bytes with
  | [] => memory
  | byte :: rest => (memory.write address byte).writeAll (address + 1) rest

def load (memory : Memory) (address : UInt16) (bytes : List UInt8) : Memory :=
  memory.writeAll address (bytes.take (0x10000 - address.toNat))

def readAll (memory : Memory) (address : UInt16) (count : Nat) : List UInt8 :=
  (List.range count).map fun offset => memory.read (address + UInt16.ofNat offset)

def contended (address : UInt16) : Bool :=
  0x4000 ≤ address && address < 0x8000

def selectedRom (memory : Memory) : UInt8 :=
  memory.page.getD 0

def selectRom (memory : Memory) (page : UInt8) : Memory :=
  { memory with page := memory.page.map fun _ => page }

def copyRom (memory : Memory) (image : List UInt8) : Except Error Memory :=
  let rom := image.toArray
  if size : rom.size = 0x4000 then .ok { memory with rom := ⟨rom, size⟩ }
  else .error (.romSize 0x4000 rom.size)

/-- The board after power-on. The ROM and its selected page are kept. -/
def reset (memory : Memory) : Memory :=
  { memory with ram := Vector.replicate 0xC000 0 }

end Memory

end ZxSpectrum
