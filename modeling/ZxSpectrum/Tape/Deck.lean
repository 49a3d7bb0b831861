import ZxSpectrum.Text.Blank
import ZxSpectrum.Tape.Loader
import ZxSpectrum.Tape.Player
import ZxSpectrum.Tape.Provider
import ZxSpectrum.Tape.Recorder

namespace ZxSpectrum

/-! The tape deck watches the program counter after every instruction. When the ROM starts to
load, it plays the inserted tape or, on request, copies each block straight into memory. When
the ROM starts to save, it measures the pulses that the program sends and rebuilds the saved
blocks. What goes wrong with the provider never reaches the program. -/

inductive TapeEvent
  | enteredLoadMode
  | leftLoadMode
  | loadCompleted
  | enteredSaveMode
  | leftSaveMode
  | fastLoadCompleted
deriving DecidableEq

def TapeEvent.label : TapeEvent → String
  | .enteredLoadMode => "EnteredLoadMode"
  | .leftLoadMode => "LeftLoadMode"
  | .loadCompleted => "LoadCompleted"
  | .enteredSaveMode => "EnteredSaveMode"
  | .leftSaveMode => "LeftSaveMode"
  | .fastLoadCompleted => "FastLoadCompleted"

/-- What observers have heard together: every event once for each observer that was there at its
time, in the order of the events. The first observer has heard them all, one that came later has
heard the last of them. -/
def TapeEvent.merge (observers : List (List TapeEvent)) : List TapeEvent :=
  let all := observers.headD []
  all.zipIdx.flatMap fun (event, index) =>
    List.replicate (observers.countP (all.length ≤ index + ·.length)) event

inductive TapeSession
  | passive
  | load (player : Player)
  /-- The line last changed at a tact, and some blocks have been saved. -/
  | save (lastEdge blocksSaved : Nat)

inductive TapeMode
  | passive
  | load
  | save
deriving DecidableEq

def TapeMode.label : TapeMode → String
  | .passive => "Passive"
  | .load => "Load"
  | .save => "Save"

structure TapeDeck (ρ : Type) where
  provider : Option ρ := none
  session : TapeSession := .passive
  recorder : Recorder := {}
  /-- The level of the line from the program, as the deck last heard it. -/
  line : Bool := false
  /-- The events since they were last taken. -/
  events : List TapeEvent := []
  /-- One list for each observer: the events since it last looked. -/
  observers : List (List TapeEvent) := []

namespace TapeDeck

/-! The places in ROM at which the deck acts, the silence that ends a save session, and the length
of a header block: flag, seventeen bytes and checksum. -/

def saveAddress : UInt16 := 0x04C2

def errorAddress : UInt16 := 0x0008

def silence : Nat := 17500000

def headerLength : Nat := 19

variable {ρ : Type}

def mode (deck : TapeDeck ρ) : TapeMode :=
  match deck.session with
  | .passive => .passive
  | .load _ => .load
  | .save _ _ => .save

def loading (deck : TapeDeck ρ) : Bool :=
  deck.mode = .load

def player? (deck : TapeDeck ρ) : Option Player :=
  match deck.session with
  | .load player => some player
  | _ => none

def subscribe (deck : TapeDeck ρ) : TapeDeck ρ :=
  { deck with observers := deck.observers ++ [[]] }

def takeEvents (deck : TapeDeck ρ) : List TapeEvent × TapeDeck ρ :=
  (deck.events, { deck with events := [] })

def takeObserved (deck : TapeDeck ρ) : List (List TapeEvent) × TapeDeck ρ :=
  (deck.observers, { deck with observers := deck.observers.map fun _ => [] })

def notify (deck : TapeDeck ρ) (event : TapeEvent) : TapeDeck ρ :=
  { deck with
    events := deck.events ++ [event]
    observers := deck.observers.map (· ++ [event]) }

/-- The deck after power-on. Its provider and its observers are kept. -/
def reset (deck : TapeDeck ρ) : TapeDeck ρ :=
  { provider := deck.provider, observers := deck.observers }

/-! The line to the program, and the line from it. -/

def ear (deck : TapeDeck ρ) (tact : Nat) : Option (Bool × TapeDeck ρ) :=
  match deck.session with
  | .load player => do
    let (level, player) ← player.ear tact
    return (level, { deck with session := .load player })
  | _ => some (false, deck)

/-- The name in a header block, one character for each of its ten bytes, without the white
space around it. -/
def headerName (block : List UInt8) : String :=
  String.ofList (Text.trim (((block.drop 2).take 10).map fun byte => Char.ofNat byte.toNat))

variable [TapeProvider ρ]

/-- Hands a block to the provider. The first block of a session names the tape, if it is as
long as a header. -/
def store (block : List UInt8) (first : Bool) (provider : ρ) : ρ :=
  let provider :=
    if first ∧ block.length = headerLength then
      TapeProvider.setName (headerName block) provider
    else provider
  (TapeProvider.save block provider).2

/-- Hears the line from the program at a tact. While saving, every change of its level ends a
pulse. -/
def hear (deck : TapeDeck ρ) (level : Bool) (tact : Nat) : Option (TapeDeck ρ) :=
  match deck with
  | ⟨provider, .save lastEdge blocksSaved, recorder, line, events, observers⟩ =>
    if level = line then
      some ⟨provider, .save lastEdge blocksSaved, recorder, line, events, observers⟩
    else do
      let (recorder, block) ← recorder.feed (Pulse.classify (tact - lastEdge))
      match block with
      | none => return ⟨provider, .save tact blocksSaved, recorder, level, events, observers⟩
      | some block =>
        return ⟨provider.map (store block (blocksSaved = 0)), .save tact (blocksSaved + 1),
          recorder, level, events, observers⟩
  | deck => some deck

/-- Hears a line whose level changes at the end of each of some pulses. The level is the one
before the first change, and the tact the start of the first pulse. -/
def hearPulses (deck : TapeDeck ρ) (level : Bool) (tact : Nat) : List Nat →
    Option (TapeDeck ρ × Bool × Nat)
  | [] => some (deck, level, tact)
  | width :: widths => do
    let tact ← Bound.long (tact + width)
    let deck ← deck.hear (!level) tact
    deck.hearPulses (!level) tact widths

/-! Entering and leaving the modes. Without a tape that has a block to play, nothing is played. -/

def enterLoad (deck : TapeDeck ρ) (tact : Nat) : Option (TapeDeck ρ) :=
  match deck.provider with
  | none => some deck
  | some provider =>
    let (content, provider) := TapeProvider.content provider
    let deck := { deck with provider := some provider }
    match content with
    | .ok (some image) =>
      match Player.ofImage image with
      | .ok player =>
        if player.blocks = [] then some deck
        else do
          let player ← player.start tact
          return { deck with session := .load player }.notify .enteredLoadMode
      | .error _ => some deck
    | _ => some deck

def leaveLoad (deck : TapeDeck ρ) : TapeDeck ρ :=
  ({ deck with session := .passive }.notify .leftLoadMode).notify .loadCompleted

def enterSave (deck : TapeDeck ρ) (tact : Nat) : TapeDeck ρ :=
  { deck with
    provider := deck.provider.map fun provider => (TapeProvider.create provider).2
    session := .save tact 0
    recorder := {} }.notify .enteredSaveMode

def leaveSave (deck : TapeDeck ρ) : TapeDeck ρ :=
  { deck with
    provider := deck.provider.map fun provider => (TapeProvider.finalize provider).2
    session := .passive }.notify .leftSaveMode

def updateMode (deck : TapeDeck ρ) (pc : UInt16) (tact : Nat) : Option (TapeDeck ρ) :=
  match deck.session with
  | .passive =>
    if pc = Loader.waitAddress then deck.enterLoad tact
    else if pc = saveAddress then some (deck.enterSave tact)
    else some deck
  | .load player =>
    some (if player.atEnd ∨ pc = errorAddress then deck.leaveLoad else deck)
  | .save lastEdge _ =>
    some (if pc = errorAddress ∨ silence < tact - lastEdge then deck.leaveSave else deck)

def fastLoad (deck : TapeDeck ρ) (tact : Nat) (registers : Registers) (memory : Memory) :
    Option (TapeDeck ρ × Registers × Memory) :=
  match deck.session with
  | .load player =>
    match player.currentBlock.bind TapeBlock.romData with
    | some data => do
      let (registers, memory) := Loader.load data registers memory
      let player ← player.nextBlock tact
      return ({ deck with session := .load player }.notify .fastLoadCompleted,
        registers, memory)
    | none => some (deck, registers, memory)
  | _ => some (deck, registers, memory)

def follow (deck : TapeDeck ρ) (fast : Bool) (tact : Nat) (registers : Registers)
    (memory : Memory) : Option (TapeDeck ρ × Registers × Memory) := do
  let deck ← deck.updateMode registers.pc tact
  if fast ∧ deck.loading ∧ registers.pc = Loader.waitAddress then
    deck.fastLoad tact registers memory
  else return (deck, registers, memory)

end TapeDeck

end ZxSpectrum
