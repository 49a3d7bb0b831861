import ZxSpectrum.Proofs.Beeper
import ZxSpectrum.Proofs.Machine.Building
import ZxSpectrum.Proofs.Machine.Instruction

namespace ZxSpectrum

/-! What can be seen of the frames on a board: what has been handed over and which frames the cards
have been told of, with the settings that this depends on. Instructions change none of it. -/

def Notice.ofFrame : Notice → Bool
  | .cardCalled _ .newFrame | .cardCalled _ (.completeFrame _) => true
  | .cardCalled _ _ => false
  | .frameStarted | .picture _ | .sound _ => true

/-- What is fixed when a machine is built. -/
structure FrameSetting where
  timing : Timing
  beeper : Beeper.Make
  sound : Bool
  floppy : Bool

namespace FrameSetting

def cardSlots (setting : FrameSetting) : List CardSlot :=
  (if setting.sound then [.sound] else []) ++ if setting.floppy then [.floppy] else []

end FrameSetting

structure FrameView where
  setting : FrameSetting
  suppressed : Bool
  muted : Bool
  notices : List Notice

namespace FrameView

def told (view : FrameView) (notices : List Notice) : FrameView :=
  { view with notices := view.notices ++ notices }

@[simp] theorem told_nil (view : FrameView) : view.told [] = view := by
  simp [told]

@[simp] theorem told_told (view : FrameView) (first second : List Notice) :
    (view.told first).told second = view.told (first ++ second) := by
  simp [told]

end FrameView

namespace Board

variable {κ ρ : Type}

def frameSetting (board : Board κ ρ) : FrameSetting where
  timing := board.screen.timing
  beeper := board.beeper.make
  sound := board.sound.isSome
  floppy := board.floppy.isSome

def frameNotices (board : Board κ ρ) : List Notice :=
  board.notices.toList.filter Notice.ofFrame

def frameView (board : Board κ ρ) : FrameView where
  setting := board.frameSetting
  suppressed := board.screen.suppressed
  muted := board.beeper.muted
  notices := board.frameNotices

/-- The frames look the same as before, and the beeper still keeps within its frame. -/
structure SameFrames (before after : Board κ ρ) : Prop where
  view : after.frameView = before.frameView
  tuned : before.beeper.Tuned → after.beeper.Tuned

namespace SameFrames

theorem refl (board : Board κ ρ) : SameFrames board board :=
  ⟨rfl, id⟩

theorem trans {before middle after : Board κ ρ} (first : SameFrames before middle)
    (rest : SameFrames middle after) : SameFrames before after :=
  ⟨rest.view.trans first.view, fun tuned => rest.tuned (first.tuned tuned)⟩

end SameFrames

theorem frameView_tell (board : Board κ ρ) {notice : Notice} (frame : notice.ofFrame = true) :
    (board.tell notice).frameView = board.frameView.told [notice] := by
  have notices : (board.tell notice).frameNotices = board.frameNotices ++ [notice] := by
    rw [frameNotices, tell, Array.toList_push, List.filter_append, List.filter_singleton, frame]
    rfl
  exact congrArg (FrameView.mk _ _ _) notices

theorem frameNotices_tell_access (board : Board κ ρ) {notice : Notice}
    (access : notice.ofFrame = false) : (board.tell notice).frameNotices = board.frameNotices := by
  rw [frameNotices, tell, Array.toList_push, List.filter_append, List.filter_singleton, access]
  exact List.append_nil _

theorem sameFrames_draw (board : Board κ ρ) (first bound : Nat) :
    SameFrames board (board.draw first bound) :=
  ⟨rfl, id⟩

/-! Accesses of a card are no notices of a frame, and leave it in its place. -/

theorem sameFrames_access {board : Board κ ρ} {slot : CardSlot} {card : κ}
    (present : board.card slot = some card) (changed : κ) {call : CardCall}
    (access : (Notice.cardCalled slot call).ofFrame = false) :
    SameFrames board ((board.setCard slot changed).tell (.cardCalled slot call)) := by
  have silent := (board.setCard slot changed).frameNotices_tell_access access
  cases slot with
  | sound =>
      have fitted : board.sound.isSome = true := by rw [show board.sound = _ from present]; rfl
      refine ⟨?_, id⟩
      simp only [frameView, frameSetting, silent, fitted]
      rfl
  | floppy =>
      have fitted : board.floppy.isSome = true := by rw [show board.floppy = _ from present]; rfl
      refine ⟨?_, id⟩
      simp only [frameView, frameSetting, silent, fitted]
      rfl

theorem sameFrames_readUla {board after : Board κ ρ} {port : UInt16} {tact : Nat} {value : UInt8}
    (read : board.readUla port tact = some (value, after)) : SameFrames board after := by
  simp only [readUla] at read
  split at read
  · rcases Option.bind_eq_some_iff.mp read with ⟨⟨level, deck⟩, -, rest⟩
    cases rest
    refine ⟨?_, fun tuned => tuned.hear _ _ _⟩
    simp only [frameView, frameSetting, Beeper.make_hear, muted_hear]
    rfl
  · cases read
    exact .refl board

theorem sameFrames_writeUla [TapeProvider ρ] {board after : Board κ ρ} {value : UInt8} {tact : Nat}
    (written : board.writeUla value tact = some after) : SameFrames board after := by
  rcases Option.bind_eq_some_iff.mp written with ⟨deck, -, rest⟩
  cases rest
  refine ⟨?_, fun tuned => tuned.hear _ _ _⟩
  simp only [frameView, frameSetting, Beeper.make_hear, muted_hear]
  rfl

theorem callCards_eq (board : Board κ ρ) (call : CardCall) (change : κ → κ) :
    board.callCards call change =
      { board with
        sound := board.sound.map change
        floppy := board.floppy.map change
        notices := board.notices ++
          (board.frameSetting.cardSlots.map (Notice.cardCalled · call)).toArray } := by
  rcases board with ⟨memory, port, screen, beeper, keyboard, deck, sound, floppy, frameStart,
    multiplier, contended, notices⟩
  have both (first second : Notice) :
      (notices.push first).push second = notices ++ #[first, second] := by
    apply Array.ext'
    simp
  cases sound <;> cases floppy <;>
    simp [callCards, callCard, card, setCard, tell, FrameSetting.cardSlots, frameSetting, both]

theorem frameView_callCards (board : Board κ ρ) {call : CardCall}
    (frame : ∀ slot, (Notice.cardCalled slot call).ofFrame = true) (change : κ → κ) :
    (board.callCards call change).frameView =
      board.frameView.told (board.frameSetting.cardSlots.map (Notice.cardCalled · call)) := by
  let called := board.frameSetting.cardSlots.map (Notice.cardCalled · call)
  have kept : called.filter Notice.ofFrame = called := by
    rw [List.filter_eq_self]
    intro notice member
    rcases List.mem_map.mp member with ⟨slot, -, rfl⟩
    exact frame slot
  rw [callCards_eq]
  simp only [frameView, frameSetting, frameNotices, Array.toList_append, List.filter_append,
    Option.isSome_map, FrameView.told]
  exact congrArg (fun notices => FrameView.mk _ _ _ (board.frameNotices ++ notices)) kept

section Cards

variable [Peripheral κ]

theorem sameFrames_readCard (board : Board κ ρ) (slot : CardSlot) (port : UInt16) :
    SameFrames board (board.readCard slot port).2 := by
  rw [readCard]
  split
  · exact .refl board
  · next present => exact sameFrames_access present _ rfl

theorem sameFrames_readCards (board : Board κ ρ) (port : UInt16) :
    SameFrames board (board.readCards port).2 := by
  have sound := board.sameFrames_readCard .sound port
  rw [readCards]
  split
  · next equation => rwa [equation] at sound
  · next equation =>
      rw [equation] at sound
      exact sound.trans (sameFrames_readCard _ .floppy port)

theorem sameFrames_writeCard (board : Board κ ρ) (slot : CardSlot) (port : UInt16)
    (value : UInt8) : SameFrames board (board.writeCard slot port value).2 := by
  rw [writeCard]
  split
  · exact .refl board
  · next present => exact sameFrames_access present _ rfl

theorem sameFrames_writeCards (board : Board κ ρ) (port : UInt16) (value : UInt8) :
    SameFrames board (board.writeCards port value) := by
  have sound := board.sameFrames_writeCard .sound port value
  simp only [writeCards]
  split
  · exact sound
  · exact sound.trans (sameFrames_writeCard _ .floppy port value)

variable [TapeProvider ρ]

/-! No bus cycle changes what can be seen of the frames, and neither does an instruction, however it
ends. -/

theorem keptByCycles_sameFrames :
    KeptByCycles (SameFrames : Board κ ρ → Board κ ρ → Prop) where
  refl := .refl
  trans := .trans
  poke _ _ _ := ⟨rfl, id⟩
  input cycle := by
    rcases Option.bind_eq_some_iff.mp cycle with ⟨waited, -, rest⟩
    split at rest
    · rcases Option.bind_eq_some_iff.mp rest with ⟨⟨read, board⟩, ula, rest⟩
      cases rest
      exact sameFrames_readUla ula
    · cases rest
      exact sameFrames_readCards _ _
  output cycle := by
    rcases Option.bind_eq_some_iff.mp cycle with ⟨waited, -, rest⟩
    split at rest
    · rcases Option.bind_eq_some_iff.mp rest with ⟨board, ula, rest⟩
      cases rest
      exact sameFrames_writeUla ula
    · cases rest
      exact sameFrames_writeCards _ _ _

end Cards

end Board

namespace Machine

variable {Cpu κ ρ : Type} [Processor Cpu]

theorem board_pollInterrupt {machine polled : Machine Cpu κ ρ}
    (poll : machine.pollInterrupt = some polled) : polled.board = machine.board := by
  rcases Option.bind_eq_some_iff.mp poll with ⟨⟨interrupt, change⟩, -, rest⟩
  cases change <;> (cases rest; rfl)

theorem sameFrames_drawnBy (machine : Machine Cpu κ ρ) (options : RunOptions) :
    Board.SameFrames machine.board (machine.drawnBy options).board := by
  rw [drawnBy]
  split
  · exact .refl _
  · rw [drawTo_eq]
    exact Board.sameFrames_draw _ _ _

variable [TapeProvider ρ]

theorem sameFrames_followTape {machine followed : Machine Cpu κ ρ} {fast : Bool}
    (tape : machine.followTape fast = some followed) :
    Board.SameFrames machine.board followed.board := by
  rcases Option.bind_eq_some_iff.mp tape with ⟨⟨deck, registers, memory⟩, -, rest⟩
  cases rest
  exact ⟨rfl, fun tuned => ⟨tuned.sampleRate_pos, tuned.clock_pos, tuned.fits⟩⟩

variable [Peripheral κ]

theorem sameFrames_cycle {machine stepped : Machine Cpu κ ρ} {fault : Option ProcessorFault}
    (cycled : machine.cycle = some (fault, stepped)) :
    Board.SameFrames machine.board stepped.board := by
  rcases Option.bind_eq_some_iff.mp cycled with ⟨polled, poll, rest⟩
  rcases Option.bind_eq_some_iff.mp rest with ⟨⟨⟨cpu, fault⟩, board⟩, performed, rest⟩
  cases rest
  rw [← board_pollInterrupt poll]
  exact Board.keptByCycles_sameFrames.perform performed

theorem sameFrames_executeInstruction {machine after : Machine Cpu κ ρ} {options : RunOptions}
    {reason : Option Completion}
    (result : machine.executeInstruction options = some (reason, after)) :
    Board.SameFrames machine.board after.board := by
  cases executed_of_executeInstruction result with
  | faulted cycled =>
      have stepped := sameFrames_cycle cycled
      exact stepped
  | halted cycled _ => exact (sameFrames_cycle cycled).trans (sameFrames_drawnBy _ _)
  | completed cycled tape =>
      have drawn := (sameFrames_cycle cycled).trans (sameFrames_drawnBy _ options)
      have followed := sameFrames_followTape tape
      exact drawn.trans followed

end Machine

end ZxSpectrum
