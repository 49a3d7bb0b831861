import ZxSpectrum.Proofs.Machine.Path

namespace ZxSpectrum

/-! The log of a session tells all that happens to the picture: drawing the tacts of the log one
after another, on the sheet that the session started with, gives the sheet that it ended with. -/

variable {Cpu κ ρ : Type}

namespace Moment

def replay (sheet : Sheet) : Moment Cpu κ ρ → Sheet
  | .drawn tact border flash memory =>
    ⟨sheet.1, sheet.2.draw (sheet.1.slotAt tact) border flash memory⟩
  | .frameStarted _ | .boundary _ _ | .executing _ | .frameCompleted _ => sheet

end Moment

def Machine.sheet (machine : Machine Cpu κ ρ) : Sheet :=
  machine.board.screen.sheet

namespace Board

theorem replay_drawnMoments (board : Board κ ρ) (first bound : Nat) :
    (board.drawnMoments first bound : List (Moment Cpu κ ρ)).foldl Moment.replay
        board.screen.sheet =
      (board.draw first bound).screen.sheet := by
  rcases board with ⟨memory, port, ⟨timing, canvas, border, flash, flashFrames, suppressed⟩,
    beeper, keyboard, deck, sound, floppy, frameStart, multiplier, contended, notices⟩
  simp only [drawnMoments, List.foldl_map, draw, Screen.drawRange, Screen.sheet]
  generalize bound - first = count
  induction count generalizing first canvas with
  | zero => rfl
  | succ count induction =>
      rw [List.range'_succ, List.foldl_cons]
      exact induction (first + 1) _

theorem draw_callCards [Peripheral κ] (board : Board κ ρ) (call : CardCall) (change : κ → κ)
    (first bound : Nat) :
    ((board.callCards call change).draw first bound).screen = (board.draw first bound).screen := by
  have one (board : Board κ ρ) (slot : CardSlot) :
      ((board.callCard slot call change).draw first bound).screen =
        (board.draw first bound).screen := by
    rw [callCard]
    split
    · rfl
    · cases slot <;> rfl
  rw [callCards, one, one]

end Board

namespace Machine

variable [Processor Cpu] [Peripheral κ] [TapeProvider ρ] {permitted : RunOptions → Prop}

theorem Executed.replay {machine after : Machine Cpu κ ρ} {options : RunOptions}
    {reason : Option Completion} (executed : Executed machine options reason after) :
    (machine.executeLog options).foldl Moment.replay machine.sheet = after.sheet := by
  have kept {fault stepped} (cycled : machine.cycle = some (fault, stepped)) :
      machine.sheet = stepped.sheet :=
    (congrArg (fun account => account.backdrop.sheet) (account_cycle cycled)).symm
  have drawn {stepped} (cycled : machine.cycle = some (none, stepped)) :
      (machine.executeLog options).foldl Moment.replay machine.sheet =
        (stepped.drawnBy options).sheet := by
    rw [kept cycled, executeLog, cycled, drawnBy]
    dsimp only
    split
    · rfl
    · rw [drawTo_eq]
      exact stepped.board.replay_drawnMoments _ _
  cases executed with
  | faulted cycled =>
      rw [executeLog, cycled]
      exact (kept cycled).trans rfl
  | halted cycled _ => exact drawn cycled
  | completed cycled tape =>
      have followed := congrArg (fun account => account.backdrop.sheet) (account_followTape tape)
      exact (drawn cycled).trans followed.symm

theorem Step.replay {first last : Standing Cpu κ ρ} {log : List (Moment Cpu κ ρ)}
    (step : Step permitted first log last) :
    log.foldl Moment.replay first.machine.sheet = last.machine.sheet := by
  cases step with
  | note debugger completion => rfl
  | call allowed => rfl
  | @startFrame _ machine =>
      have screen :
          machine.startFrame.board.screen = (machine.board.draw 0 machine.overflow).screen :=
        (Board.draw_callCards _ _ _ _ _).trans rfl
      exact (machine.board.replay_drawnMoments _ _).trans (congrArg Screen.sheet screen).symm
  | boundary between => rfl
  | start => rfl
  | stop allowed stopped => exact (executed_of_executeInstruction stopped).replay
  | goOn allowed completed => exact (executed_of_executeInstruction completed).replay
  | @completeFrame _ machine => exact (congrArg Backdrop.sheet machine.backdrop_completeFrame).symm

theorem Path.replay {first last : Standing Cpu κ ρ} {log : List (Moment Cpu κ ρ)}
    (path : Path permitted first log last) :
    log.foldl Moment.replay first.machine.sheet = last.machine.sheet := by
  induction path with
  | nil => rfl
  | cons step _ induction => rw [List.foldl_append, step.replay, induction]

end Machine

end ZxSpectrum
