import ZxSpectrum.Beeper
import ZxSpectrum.Keyboard
import ZxSpectrum.Peripheral
import ZxSpectrum.Screen
import ZxSpectrum.UlaPort
import ZxSpectrum.Processor.BusProgram
import ZxSpectrum.Tape.Deck

namespace ZxSpectrum

/-! The board: memory and every device that the processor reaches. It answers the cycles of
the bus and delays those that the video circuit contends for. -/

inductive Notice
  | frameStarted
  | picture (pixels : Array UInt8)
  | sound (samples : Array UInt32)
  | cardCalled (slot : CardSlot) (call : CardCall)

structure Board (κ ρ : Type) where
  memory : Memory
  port : UlaPort := {}
  screen : Screen
  beeper : Beeper
  keyboard : Keyboard := {}
  deck : TapeDeck ρ := {}
  sound : Option κ := none
  floppy : Option κ := none
  /-- The processor tact at which the current frame started. -/
  frameStart : Nat := 0
  /-- Processor tacts for each machine tact. -/
  multiplier : Nat := 1
  /-- Accesses are delayed at all. -/
  contended : Bool := true
  notices : Array Notice := #[]

namespace Board

variable {κ ρ : Type}

def timing (board : Board κ ρ) : Timing :=
  board.screen.timing

def machineTact (board : Board κ ρ) (tact : Nat) : Nat :=
  tact / board.multiplier

/-- The machine tacts from the start of the frame to a processor tact, on a 32-bit counter. -/
def frameTact (board : Board κ ρ) (tact : Nat) : Nat :=
  (tact - board.frameStart) / board.multiplier % UInt32.size

def tell (board : Board κ ρ) (notice : Notice) : Board κ ρ :=
  { board with notices := board.notices.push notice }

def takeNotices (board : Board κ ρ) : Array Notice × Board κ ρ :=
  (board.notices, { board with notices := #[] })

/-- Draws the tacts from `first` on, before `bound`, from memory as it is now. -/
def draw (board : Board κ ρ) (first bound : Nat) : Board κ ρ :=
  let memory := board.memory
  { board with screen := board.screen.drawRange first bound memory.read }

/-! Delays of the video circuit, before an access to memory or to a port. -/

def memoryWait (board : Board κ ρ) (address : UInt16) (tact : Nat) : Nat :=
  if board.contended && Memory.contended address then
    board.timing.contentionAt (board.frameTact tact)
  else 0

def portWait (board : Board κ ρ) (port : UInt16) (tact : Nat) : Option Nat :=
  if board.contended then
    board.timing.ioContention? (board.frameTact tact) (UlaPort.decodes port)
      (Memory.contended port)
  else some 0

/-! The cards, each of which decodes ports of its own. -/

def card (board : Board κ ρ) : CardSlot → Option κ
  | .sound => board.sound
  | .floppy => board.floppy

def setCard (board : Board κ ρ) (slot : CardSlot) (card : κ) : Board κ ρ :=
  match slot with
  | .sound => { board with sound := some card }
  | .floppy => { board with floppy := some card }

variable [Peripheral κ]

def callCard (board : Board κ ρ) (slot : CardSlot) (call : CardCall) (change : κ → κ) :
    Board κ ρ :=
  match board.card slot with
  | none => board
  | some card => (board.setCard slot (change card)).tell (.cardCalled slot call)

def callCards (board : Board κ ρ) (call : CardCall) (change : κ → κ) : Board κ ρ :=
  (board.callCard .sound call change).callCard .floppy call change

def readCard (board : Board κ ρ) (slot : CardSlot) (port : UInt16) :
    Option UInt8 × Board κ ρ :=
  match board.card slot with
  | none => (none, board)
  | some card =>
    let (value, card) := Peripheral.read port card
    (value, (board.setCard slot card).tell (.cardCalled slot (.read port)))

/-- The byte of the first card that decodes a port. A port that no card decodes floats high. -/
def readCards (board : Board κ ρ) (port : UInt16) : UInt8 × Board κ ρ :=
  match board.readCard .sound port with
  | (some value, board) => (value, board)
  | (none, board) =>
    let (value, board) := board.readCard .floppy port
    (value.getD 0xFF, board)

def writeCard (board : Board κ ρ) (slot : CardSlot) (port : UInt16) (value : UInt8) :
    Bool × Board κ ρ :=
  match board.card slot with
  | none => (false, board)
  | some card =>
    let (decoded, card) := Peripheral.write port value card
    (decoded, (board.setCard slot card).tell (.cardCalled slot (.write port value)))

def writeCards (board : Board κ ρ) (port : UInt16) (value : UInt8) : Board κ ρ :=
  let (decoded, board) := board.writeCard .sound port value
  if decoded then board else (board.writeCard .floppy port value).2

/-! The port of the video circuit. While a tape is playing its level is read, and heard from the
beeper. -/

def readUla (board : Board κ ρ) (port : UInt16) (tact : Nat) : Option (UInt8 × Board κ ρ) := do
  let keys := board.keyboard.read (highByte port)
  if board.deck.loading then
    let (level, deck) ← board.deck.ear (board.machineTact tact)
    let beeper := board.beeper.hear true level (board.frameTact tact)
    return (UlaPort.compose keys level, { board with deck, beeper })
  else return (UlaPort.compose keys board.port.ear, board)

variable [TapeProvider ρ]

def writeUla (board : Board κ ρ) (value : UInt8) (tact : Nat) : Option (Board κ ρ) := do
  let port : UlaPort := ⟨value⟩
  let machineTact := board.machineTact tact
  let frameTact := board.frameTact tact
  let ⟨memory, _, screen, beeper, keyboard, deck, sound, floppy, frameStart, multiplier,
    contended, notices⟩ := board
  let deck ← deck.hear port.mic machineTact
  return ⟨memory, port, screen.setBorder port.border, beeper.hear false port.ear frameTact,
    keyboard, deck, sound, floppy, frameStart, multiplier, contended, notices⟩

/-! The cycles of the bus. -/

def read (board : Board κ ρ) (address : UInt16) (tact : Nat) : UInt8 × Nat :=
  (board.memory.read address, board.memoryWait address tact)

def poke (board : Board κ ρ) (address : UInt16) (value : UInt8) : Board κ ρ :=
  { board with memory := board.memory.write address value }

def write (board : Board κ ρ) (address : UInt16) (value : UInt8) (tact : Nat) :
    Nat × Board κ ρ :=
  (board.memoryWait address tact, board.poke address value)

def input (board : Board κ ρ) (port : UInt16) (tact : Nat) :
    Option (UInt8 × Nat × Board κ ρ) := do
  let wait ← board.portWait port tact
  if UlaPort.decodes port then
    let (value, board) ← board.readUla port tact
    return (value, wait, board)
  else
    let (value, board) := board.readCards port
    return (value, wait, board)

def output (board : Board κ ρ) (port : UInt16) (value : UInt8) (tact : Nat) :
    Option (Nat × Board κ ρ) := do
  let wait ← board.portWait port tact
  if UlaPort.decodes port then return (wait, ← board.writeUla value tact)
  else return (wait, board.writeCards port value)

def perform : BusProgram α → Board κ ρ → Option (α × Board κ ρ)
  | .done result, board => some (result, board)
  | .read address tact next, board =>
    let (value, wait) := board.read address tact
    perform (next value wait) board
  | .write address value tact next, board =>
    let (wait, board) := board.write address value tact
    perform (next wait) board
  | .input port tact next, board => do
    let (value, wait, board) ← board.input port tact
    perform (next value wait) board
  | .output port value tact next, board => do
    let (wait, board) ← board.output port value tact
    perform (next wait) board
  | .peek address next, board => perform (next (board.memory.read address)) board
  | .poke address value next, board => perform next (board.poke address value)

end Board

end ZxSpectrum
