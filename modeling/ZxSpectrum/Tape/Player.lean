import ZxSpectrum.Error
import ZxSpectrum.Tape.Block

namespace ZxSpectrum

/-! The player turns the blocks of a tape into the level of a line at a growing sequence of
tacts. The line is high during the first pulse of a block and every second one after it, and
low in the pulses between, in pauses and after the tape. -/

inductive Head
  /-- A pulse, its level, and the pulses of the block after it. -/
  | pulse (high : Bool) (later : List Nat)
  | pause
deriving DecidableEq

inductive TapePosition
  /-- Within a block that later ones follow. The current pulse or pause ends at a tact. -/
  | playing (block : TapeBlock) (later : List TapeBlock) (head : Head) (ends : Nat)
  | ended
deriving DecidableEq

namespace TapePosition

def enter (start : Nat) : List TapeBlock → Option TapePosition
  | [] => some .ended
  | block :: later =>
    match block.widths with
    | width :: widths => do
      return .playing block later (.pulse true widths) (← Bound.long (start + width))
    | [] => do return .playing block later .pause (← Bound.long (start + block.pause))

/-! The search for a tact goes through the pulses, pauses and blocks from the current place on. -/

inductive PulseSearch
  /-- In a pulse of some level that ends at a tact, before later pulses. -/
  | within (high : Bool) (later : List Nat) (ends : Nat)
  /-- All pulses are over, the last one since a tact. -/
  | over (since : Nat)

def seekPulse (tact : Nat) : (high : Bool) → (widths : List Nat) → (start : Nat) →
    Option PulseSearch
  | _, [], start => some (.over start)
  | high, width :: later, start => do
    let ends ← Bound.long (start + width)
    if tact < ends then return .within high later ends
    else seekPulse tact (!high) later ends

def seekFrom (tact : Nat) : (later : List TapeBlock) → (block : TapeBlock) → (high : Bool) →
    (widths : List Nat) → (start : Nat) → Option TapePosition
  | later, block, high, widths, start => do
    match ← seekPulse tact high widths start with
    | .within high widths ends => return .playing block later (.pulse high widths) ends
    | .over since =>
      let ends ← Bound.long (since + block.pause)
      if tact < ends then return .playing block later .pause ends
      else
        match later with
        | [] => return .ended
        | next :: later => seekFrom tact later next true next.widths ends

/-- The place at a tact that is not before the current one. -/
def seek (tact : Nat) : TapePosition → Option TapePosition
  | .ended => some .ended
  | .playing block later head ends =>
    if tact < ends then some (.playing block later head ends)
    else
      match head, later with
      | .pulse high widths, _ => seekFrom tact later block (!high) widths ends
      | .pause, [] => some .ended
      | .pause, next :: later => seekFrom tact later next true next.widths ends

def level : TapePosition → Bool
  | .playing _ _ (.pulse high _) _ => high
  | _ => false

end TapePosition

/-! A player has a tape, and a place on it once it has been started. -/

structure Player where
  blocks : List TapeBlock
  position : Option TapePosition := none
deriving DecidableEq

namespace Player

/-- The blocks of a TAP or TZX image that have a signal. -/
def blocksOfImage (image : List UInt8) : Except Error (List TapeBlock) :=
  if Tzx.isImage image then
    match Tzx.parse image with
    | .ok image => .ok (image.blocks.filterMap TapeBlock.ofTzx)
    | .error error => .error (.tzx error)
  else
    match Tap.parse image with
    | .ok blocks => .ok (blocks.map TapeBlock.ofTap)
    | .error error => .error (.tap error)

def ofImage (image : List UInt8) : Except Error Player :=
  (blocksOfImage image).map fun blocks => { blocks }

def start (player : Player) (tact : Nat) : Option Player := do
  return { player with position := ← TapePosition.enter tact player.blocks }

/-- Leaves the rest of the current block out. The next one starts at a tact. -/
def nextBlock (player : Player) (tact : Nat) : Option Player :=
  match player.position with
  | some (.playing _ later _ _) => do
    return { player with position := ← TapePosition.enter tact later }
  | _ => some player

def ear (player : Player) (tact : Nat) : Option (Bool × Player) :=
  match player.position with
  | none => some (false, player)
  | some position => do
    let position ← position.seek tact
    return (position.level, { player with position })

def index (player : Player) : Nat :=
  match player.position with
  | none => 0
  | some (.playing _ later _ _) => player.blocks.length - later.length - 1
  | some .ended => player.blocks.length

def atEnd (player : Player) : Bool :=
  match player.position with
  | some .ended => true
  | _ => false

def currentBlock (player : Player) : Option TapeBlock :=
  match player.position with
  | some (.playing block _ _ _) => some block
  | _ => none

end Player

end ZxSpectrum
