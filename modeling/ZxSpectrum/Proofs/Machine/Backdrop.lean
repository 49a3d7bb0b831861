import Mathlib
import ZxSpectrum.Machine.Board

namespace ZxSpectrum

/-! What the cycles of the bus leave alone. Between two frames only drawing changes the picture;
where the frame started, the clock and what is handed over are not for the processor to change. -/

/-- A sheet of paper: the picture drawn so far, with the timing it is drawn by. -/
abbrev Sheet := (timing : Timing) × Canvas timing.geometry.pixelCount

def Screen.sheet (screen : Screen) : Sheet :=
  ⟨screen.timing, screen.canvas⟩

/-- The part of a board that no bus cycle changes. -/
structure Backdrop where
  sheet : Sheet
  suppressed : Bool
  muted : Bool
  frameStart : Nat
  multiplier : Nat
  contended : Bool

namespace Board

variable {κ ρ : Type}

def backdrop (board : Board κ ρ) : Backdrop where
  sheet := board.screen.sheet
  suppressed := board.screen.suppressed
  muted := board.beeper.muted
  frameStart := board.frameStart
  multiplier := board.multiplier
  contended := board.contended

theorem muted_hear (beeper : Beeper) (fromTape level : Bool) (tact : Nat) :
    (beeper.hear fromTape level tact).muted = beeper.muted := by
  rw [Beeper.hear]
  split <;> rfl

theorem backdrop_setCard (board : Board κ ρ) (slot : CardSlot) (card : κ) :
    (board.setCard slot card).backdrop = board.backdrop := by
  cases slot <;> rfl

theorem backdrop_callCard (board : Board κ ρ) (slot : CardSlot) (call : CardCall)
    (change : κ → κ) : (board.callCard slot call change).backdrop = board.backdrop := by
  rw [callCard]
  split
  · rfl
  · exact board.backdrop_setCard slot _

theorem backdrop_callCards (board : Board κ ρ) (call : CardCall) (change : κ → κ) :
    (board.callCards call change).backdrop = board.backdrop := by
  rw [callCards, backdrop_callCard, backdrop_callCard]

theorem backdrop_readUla {board after : Board κ ρ} {port : UInt16} {tact : Nat} {value : UInt8}
    (read : board.readUla port tact = some (value, after)) : after.backdrop = board.backdrop := by
  simp only [readUla] at read
  split at read
  · rcases Option.bind_eq_some_iff.mp read with ⟨⟨level, deck⟩, -, rest⟩
    cases rest
    exact congrArg (Backdrop.mk _ _ · _ _ _) (muted_hear _ _ _ _)
  · cases read
    rfl

theorem backdrop_writeUla [TapeProvider ρ] {board after : Board κ ρ} {value : UInt8} {tact : Nat}
    (written : board.writeUla value tact = some after) : after.backdrop = board.backdrop := by
  rcases Option.bind_eq_some_iff.mp written with ⟨deck, -, rest⟩
  cases rest
  exact congrArg (Backdrop.mk _ _ · _ _ _) (muted_hear _ _ _ _)

section Cards

variable [Peripheral κ]

theorem backdrop_readCard (board : Board κ ρ) (slot : CardSlot) (port : UInt16) :
    (board.readCard slot port).2.backdrop = board.backdrop := by
  rw [readCard]
  split
  · rfl
  · exact board.backdrop_setCard slot _

theorem backdrop_readCards (board : Board κ ρ) (port : UInt16) :
    (board.readCards port).2.backdrop = board.backdrop := by
  have sound := board.backdrop_readCard .sound port
  rw [readCards]
  split
  · next equation => rwa [equation] at sound
  · next equation =>
      rw [equation] at sound
      exact (backdrop_readCard _ .floppy port).trans sound

theorem backdrop_writeCard (board : Board κ ρ) (slot : CardSlot) (port : UInt16)
    (value : UInt8) : (board.writeCard slot port value).2.backdrop = board.backdrop := by
  rw [writeCard]
  split
  · rfl
  · exact board.backdrop_setCard slot _

theorem backdrop_writeCards (board : Board κ ρ) (port : UInt16) (value : UInt8) :
    (board.writeCards port value).backdrop = board.backdrop := by
  have sound := board.backdrop_writeCard .sound port value
  simp only [writeCards]
  split
  · exact sound
  · exact (backdrop_writeCard _ .floppy port value).trans sound

theorem backdrop_input {board after : Board κ ρ} {port : UInt16} {tact wait : Nat} {value : UInt8}
    (input : board.input port tact = some (value, wait, after)) :
    after.backdrop = board.backdrop := by
  rcases Option.bind_eq_some_iff.mp input with ⟨waited, -, rest⟩
  split at rest
  · rcases Option.bind_eq_some_iff.mp rest with ⟨⟨read, board⟩, ula, rest⟩
    cases rest
    exact backdrop_readUla ula
  · cases rest
    exact backdrop_readCards _ _

variable [TapeProvider ρ]

theorem backdrop_output {board after : Board κ ρ} {port : UInt16} {value : UInt8} {tact wait : Nat}
    (output : board.output port value tact = some (wait, after)) :
    after.backdrop = board.backdrop := by
  rcases Option.bind_eq_some_iff.mp output with ⟨waited, -, rest⟩
  split at rest
  · rcases Option.bind_eq_some_iff.mp rest with ⟨board, ula, rest⟩
    cases rest
    exact backdrop_writeUla ula
  · cases rest
    exact backdrop_writeCards _ _ _

/-! What every bus cycle keeps, a program keeps. -/

structure KeptByCycles (Kept : Board κ ρ → Board κ ρ → Prop) : Prop where
  refl (board : Board κ ρ) : Kept board board
  trans {board middle after : Board κ ρ} (first : Kept board middle) (rest : Kept middle after) :
    Kept board after
  poke (board : Board κ ρ) (address : UInt16) (value : UInt8) :
    Kept board (board.poke address value)
  input {board after : Board κ ρ} {port : UInt16} {tact wait : Nat} {value : UInt8}
    (input : board.input port tact = some (value, wait, after)) : Kept board after
  output {board after : Board κ ρ} {port : UInt16} {value : UInt8} {tact wait : Nat}
    (output : board.output port value tact = some (wait, after)) : Kept board after

theorem KeptByCycles.perform {Kept : Board κ ρ → Board κ ρ → Prop} (kept : KeptByCycles Kept)
    {program : BusProgram α} {board after : Board κ ρ} {result : α}
    (performed : board.perform program = some (result, after)) : Kept board after := by
  induction program generalizing board with
  | done result =>
      cases performed
      exact kept.refl _
  | read address tact next induction => exact induction _ _ performed
  | write address value tact next induction =>
      have rest : (board.poke address value).perform (next (board.memoryWait address tact)) =
        some (result, after) := performed
      exact kept.trans (kept.poke board address value) (induction _ rest)
  | input port tact next induction =>
      rcases Option.bind_eq_some_iff.mp performed with ⟨⟨value, wait, middle⟩, input, rest⟩
      exact kept.trans (kept.input input) (induction _ _ rest)
  | output port value tact next induction =>
      rcases Option.bind_eq_some_iff.mp performed with ⟨⟨wait, middle⟩, output, rest⟩
      exact kept.trans (kept.output output) (induction _ rest)
  | peek address next induction => exact induction _ performed
  | poke address value next induction =>
      have rest : (board.poke address value).perform next = some (result, after) := performed
      exact kept.trans (kept.poke board address value) (induction rest)

theorem backdrop_perform {program : BusProgram α} {board after : Board κ ρ} {result : α}
    (performed : board.perform program = some (result, after)) :
    after.backdrop = board.backdrop := by
  let Same (board after : Board κ ρ) : Prop := after.backdrop = board.backdrop
  have kept : KeptByCycles Same :=
    { refl := fun _ => rfl
      trans := fun first rest => rest.trans first
      poke := fun _ _ _ => rfl
      input := backdrop_input
      output := backdrop_output }
  exact kept.perform performed

end Cards

end Board

end ZxSpectrum
