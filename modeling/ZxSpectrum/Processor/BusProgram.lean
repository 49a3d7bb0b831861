namespace ZxSpectrum

/-! What an instruction does on the bus. A program of bus cycles ends with a result or asks for
one cycle and goes on with its answer. The processor passes its own tact with every timed
cycle, and learns by how many tacts the cycle was delayed. -/

inductive BusProgram (α : Type) where
  | done (result : α)
  | read (address : UInt16) (tact : Nat) (next : UInt8 → Nat → BusProgram α)
  | write (address : UInt16) (value : UInt8) (tact : Nat) (next : Nat → BusProgram α)
  | input (port : UInt16) (tact : Nat) (next : UInt8 → Nat → BusProgram α)
  | output (port : UInt16) (value : UInt8) (tact : Nat) (next : Nat → BusProgram α)
  /-- A memory read outside of time. -/
  | peek (address : UInt16) (next : UInt8 → BusProgram α)
  /-- A memory write outside of time. -/
  | poke (address : UInt16) (value : UInt8) (next : BusProgram α)

namespace BusProgram

def bind (program : BusProgram α) (next : α → BusProgram β) : BusProgram β :=
  match program with
  | .done result => next result
  | .read address tact resume => .read address tact fun value wait =>
    (resume value wait).bind next
  | .write address value tact resume => .write address value tact fun wait =>
    (resume wait).bind next
  | .input port tact resume => .input port tact fun value wait =>
    (resume value wait).bind next
  | .output port value tact resume => .output port value tact fun wait =>
    (resume wait).bind next
  | .peek address resume => .peek address fun value => (resume value).bind next
  | .poke address value resume => .poke address value (resume.bind next)

instance : Monad BusProgram where
  pure := .done
  bind := bind

end BusProgram

end ZxSpectrum
