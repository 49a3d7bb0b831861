import ZxSpectrum.Proofs.Machine.Veil

namespace ZxSpectrum

/-! Runs behind a veil. Machines that look the same behind a veil, in runs whose options do, go on
to look the same. So it makes no difference to what is emulated whether the screen is drawn and
whether pictures and sound are handed over. -/

theorem map_bind_eq_map_bind {α β γ δ : Type} {look lookOther : α → γ} {view viewOther : β → δ}
    {one other : Option α} {next nextOther : α → Option β}
    (same : one.map look = other.map lookOther)
    (rest : ∀ result resultOther, look result = lookOther resultOther →
      (next result).map view = (nextOther resultOther).map viewOther) :
    (one.bind next).map view = (other.bind nextOther).map viewOther := by
  cases one with
  | none =>
      cases other with
      | none => rfl
      | some _ => exact nomatch same
  | some result =>
      cases other with
      | none => exact nomatch same
      | some resultOther => exact rest result resultOther (Option.some.inj same)

namespace Veil

variable {κ ρ Cpu : Type} {veil : Veil} {earlier : Array Notice}

def after (veil : Veil) (earlier : Array Notice) : Veil :=
  { veil with earlier }

/-- The machines look the same behind the veil, one of them with other notices ahead. -/
def Alike (veil : Veil) (earlier : Array Notice) (one other : Machine Cpu κ ρ) : Prop :=
  veil.machine one = (veil.after earlier).machine other

/-! Drawing. Either the picture is hidden, or it is there on both sides. -/

theorem screen_of_open (seen : veil.presentation = false) (screen : Screen) :
    veil.screen screen = screen := by
  simp [Veil.screen, seen]

theorem beeper_of_open (seen : veil.presentation = false) (beeper : Beeper) :
    veil.beeper beeper = beeper := by
  simp [Veil.beeper, seen]

theorem draw_of_hidden (hidden : veil.presentation = true) (board : Board κ ρ) (first bound : Nat) :
    veil.board (board.draw first bound) = veil.board board := by
  have screen : veil.screen (board.draw first bound).screen = veil.screen board.screen := by
    simp only [Veil.screen, hidden, if_true]
    rfl
  rw [Veil.board, screen]
  rfl

theorem draw_of_open (seen : veil.presentation = false) (board : Board κ ρ) (first bound : Nat) :
    (veil.board board).draw first bound = veil.board (board.draw first bound) := by
  rw [Veil.board, Veil.board, screen_of_open seen, screen_of_open seen]
  rfl

theorem draw_alike {one other : Board κ ρ}
    (alike : veil.board one = (veil.after earlier).board other) (first bound : Nat) :
    veil.board (one.draw first bound) = (veil.after earlier).board (other.draw first bound) := by
  cases seen : veil.presentation with
  | true =>
      have hidden : (veil.after earlier).presentation = true := seen
      rw [draw_of_hidden seen, draw_of_hidden hidden, alike]
  | false =>
      have shown : (veil.after earlier).presentation = false := seen
      rw [← draw_of_open seen, ← draw_of_open shown, alike]

variable {one other : Machine Cpu κ ρ}

theorem Alike.congr {α : Type} (alike : veil.Alike earlier one other)
    (seen : Machine Cpu κ ρ → α) :
    seen (veil.machine one) = seen ((veil.after earlier).machine other) :=
  congrArg seen alike

theorem options_congr {α : Type} {options optionsOther : RunOptions}
    (same : veil.options options = veil.options optionsOther) (seen : RunOptions → α) :
    seen (veil.options options) = seen (veil.options optionsOther) :=
  congrArg seen same

variable [Processor Cpu]

theorem drawnBy_of_hidden (hidden : veil.presentation = true) (machine : Machine Cpu κ ρ)
    (options : RunOptions) : veil.machine (machine.drawnBy options) = veil.machine machine := by
  rw [Machine.drawnBy]
  split
  · rfl
  · rw [Machine.drawTo_eq, Veil.machine, draw_of_hidden hidden]
    simp only [Veil.machine, hidden, if_true]

theorem drawnBy_of_open (seen : veil.presentation = false) (machine : Machine Cpu κ ρ)
    (options : RunOptions) :
    (veil.machine machine).drawnBy options = veil.machine (machine.drawnBy options) := by
  rw [Machine.drawnBy, Machine.drawnBy]
  split
  · rfl
  · rw [Machine.drawTo_eq, Machine.drawTo_eq]
    simp only [Veil.machine, seen, Bool.false_eq_true, if_false, ← draw_of_open seen]
    rfl

theorem Alike.drawnBy (alike : veil.Alike earlier one other) {options optionsOther : RunOptions}
    (same : veil.options options = veil.options optionsOther) :
    veil.Alike earlier (one.drawnBy options) (other.drawnBy optionsOther) := by
  cases seen : veil.presentation with
  | true =>
      have hidden : (veil.after earlier).presentation = true := seen
      rw [Alike, drawnBy_of_hidden seen, drawnBy_of_hidden hidden, alike]
  | false =>
      have shown : (veil.after earlier).presentation = false := seen
      have drawing : options.withoutDrawing = optionsOther.withoutDrawing := by
        have same := congrArg RunOptions.withoutDrawing same
        simpa [Veil.options, seen] using same
      rw [Alike, ← drawnBy_of_open seen, ← drawnBy_of_open shown, alike, Machine.drawnBy,
        Machine.drawnBy, drawing]

/-! One instruction. -/

theorem pollInterrupt_machine (machine : Machine Cpu κ ρ) :
    (veil.machine machine).pollInterrupt = machine.pollInterrupt.map veil.machine := by
  have same : (veil.machine machine).interrupt.poll
      (Processor.interruptBlocked (veil.machine machine).cpu) (veil.machine machine).frameTact =
    machine.interrupt.poll (Processor.interruptBlocked machine.cpu) machine.frameTact := rfl
  rw [Machine.pollInterrupt, Machine.pollInterrupt, same]
  cases machine.interrupt.poll (Processor.interruptBlocked machine.cpu) machine.frameTact with
  | none => rfl
  | some polled =>
      rcases polled with ⟨interrupt, change⟩
      cases change <;> rfl

variable [TapeProvider ρ]

theorem followTape_machine (machine : Machine Cpu κ ρ) (fast : Bool) :
    (veil.machine machine).followTape fast = (machine.followTape fast).map veil.machine := by
  rcases machine with ⟨cpu, board, interrupt, debugger, finished, count, overflow, drawn,
    completion, fault⟩
  have clock : (veil.board board).machineTact (Processor.tacts cpu) =
      board.machineTact (Processor.tacts cpu) := rfl
  have deck : (veil.board board).deck = veil.deck board.deck := rfl
  have memory : (veil.board board).memory = board.memory := rfl
  simp only [Machine.followTape, Veil.machine, clock, deck, memory, follow_deck]
  cases board.deck.follow fast (board.machineTact (Processor.tacts cpu))
    (Processor.registers cpu) board.memory with
  | none => rfl
  | some followed => rfl

theorem Alike.settle (alike : veil.Alike earlier one other) {options optionsOther : RunOptions}
    (same : veil.options options = veil.options optionsOther) :
    (one.settle options).map (Prod.map id veil.machine) =
      (other.settle optionsOther).map (Prod.map id (veil.after earlier).machine) := by
  have drawn := alike.drawnBy same
  have cpu : (one.drawnBy options).cpu = (other.drawnBy optionsOther).cpu :=
    drawn.congr Machine.cpu
  have mode : options.mode = optionsOther.mode := options_congr same RunOptions.mode
  have fastTape : options.fastTape = optionsOther.fastTape :=
    options_congr same RunOptions.fastTape
  have tact : one.frameTact = other.frameTact := alike.congr Machine.frameTact
  rw [Machine.settle, Machine.settle, mode, cpu, fastTape, tact]
  by_cases halted : optionsOther.mode = .untilHalt ∧
      Processor.halted (other.drawnBy optionsOther).cpu = true
  · rw [if_pos halted, if_pos halted]
    exact congrArg (fun machine => some (some Completion.halted, machine)) drawn
  · rw [if_neg halted, if_neg halted]
    apply map_bind_eq_map_bind
    · rw [← followTape_machine, ← followTape_machine, drawn]
    · intro followed followedOther alike
      let finish (machine : Machine Cpu κ ρ) : Machine Cpu κ ρ :=
        { machine with
          frameFinished := !Processor.midInstruction machine.cpu &&
            machine.frameTacts ≤ other.frameTact }
      exact congrArg (fun machine => some (none, finish machine)) alike

variable [Peripheral κ]

theorem cycle_machine (machine : Machine Cpu κ ρ) :
    (veil.machine machine).cycle = machine.cycle.map (Prod.map id veil.machine) := by
  rw [Machine.cycle, Machine.cycle, pollInterrupt_machine]
  cases machine.pollInterrupt with
  | none => rfl
  | some polled =>
      have board : (veil.machine polled).board = veil.board polled.board := rfl
      have cpu : (veil.machine polled).cpu = polled.cpu := rfl
      simp only [Option.map_some, Option.bind_eq_bind, Option.bind_some, board, cpu, perform_board]
      cases polled.board.perform (Processor.step polled.cpu) with
      | none => rfl
      | some performed => rfl

theorem Alike.executeInstruction (alike : veil.Alike earlier one other)
    {options optionsOther : RunOptions}
    (same : veil.options options = veil.options optionsOther) :
    (one.executeInstruction options).map (Prod.map id veil.machine) =
      (other.executeInstruction optionsOther).map
        (Prod.map id (veil.after earlier).machine) := by
  rw [Machine.executeInstruction_eq, Machine.executeInstruction_eq]
  apply map_bind_eq_map_bind
  · rw [← cycle_machine, ← cycle_machine, alike]
  · rintro ⟨fault, stepped⟩ ⟨faultOther, steppedOther⟩ cycled
    rcases Prod.mk.inj cycled with ⟨rfl, stepped⟩
    cases fault with
    | some fault =>
        exact congrArg (fun machine : Machine Cpu κ ρ =>
          some (some Completion.faulted, { machine with fault := some fault })) stepped
    | none => exact Alike.settle stepped same

/-! The start and the end of a frame. -/

omit [TapeProvider ρ] in
theorem Alike.startFrame (alike : veil.Alike earlier one other) :
    veil.Alike earlier one.startFrame other.startFrame := by
  let begun (machine : Machine Cpu κ ρ) : Board κ ρ :=
    { machine.board with
      frameStart :=
        Processor.tacts machine.cpu - machine.overflow * machine.board.multiplier
      beeper := machine.board.beeper.newFrame }
  let called (machine : Machine Cpu κ ρ) : Board κ ρ :=
    ((begun machine).tell .frameStarted).callCards .newFrame Peripheral.newFrame
  have board (veil : Veil) (machine : Machine Cpu κ ρ) :
      veil.board (called machine) = called (veil.machine machine) := by
    rw [← callCards_board, ← veil.tell_board (begun machine) rfl]
    rfl
  have overflow : one.overflow = other.overflow := alike.congr Machine.overflow
  have boards : veil.board (called one) = (veil.after earlier).board (called other) := by
    rw [board, board, alike]
  have drawn := draw_alike boards 0 other.overflow
  have looks (veil : Veil) (machine : Machine Cpu κ ρ) : veil.machine machine.startFrame =
      { veil.machine machine with
        board := veil.board ((called machine).draw 0 machine.overflow)
        interrupt := machine.interrupt.newFrame
        nextDrawn := if veil.presentation then 0 else machine.overflow
        frameFinished := false } := rfl
  have interrupt : one.interrupt = other.interrupt := alike.congr Machine.interrupt
  rw [Alike, looks, looks, overflow, interrupt, drawn, alike]
  rfl

omit [Processor Cpu] [TapeProvider ρ] [Peripheral κ] in
theorem told_alike {α : Type} {tell : Board κ ρ → Option α → Board κ ρ} {notice : α → Notice}
    (tellNone : ∀ board, tell board none = board)
    (tellSome : ∀ board item, tell board (some item) = board.tell (notice item))
    (delivered : ∀ (veil : Veil) item, veil.shows (notice item) = !veil.presentation)
    {one other : Board κ ρ} (alike : veil.board one = (veil.after earlier).board other)
    {item itemOther : Option α} (same : veil.presentation = false → item = itemOther) :
    veil.board (tell one item) = (veil.after earlier).board (tell other itemOther) := by
  cases seen : veil.presentation with
  | true =>
      have hides (veil : Veil) (hidden : veil.presentation = true) (board : Board κ ρ)
          (item : Option α) : veil.board (tell board item) = veil.board board := by
        cases item with
        | none => rw [tellNone]
        | some item =>
            have dropped : (board.notices.push (notice item)).filter veil.shows =
                board.notices.filter veil.shows := by
              simp [delivered, hidden]
            rw [tellSome, Board.tell, Veil.board, dropped]
            rfl
      rw [hides veil seen, hides (veil.after earlier) seen, alike]
  | false =>
      cases same seen
      cases item with
      | none => rw [tellNone, tellNone, alike]
      | some item =>
          have shows (veil : Veil) (shown : veil.presentation = false) :
              veil.shows (notice item) = true := by
            rw [delivered, shown]
            rfl
          rw [tellSome, tellSome, ← veil.tell_board _ (shows veil seen),
            ← tell_board _ _ (shows (veil.after earlier) seen), alike]

omit [Processor Cpu] [TapeProvider ρ] [Peripheral κ] in
theorem countFrame_screen (screen : Screen) :
    (veil.screen screen).countFrame = veil.screen screen.countFrame := by
  rw [Screen.countFrame, Screen.countFrame]
  by_cases due : screen.flashFrames + 1 ≥ screen.timing.geometry.flashFrames
  · have veiled : (veil.screen screen).flashFrames + 1 ≥
      (veil.screen screen).timing.geometry.flashFrames := due
    rw [if_pos due, if_pos veiled]
    rfl
  · have veiled : ¬(veil.screen screen).flashFrames + 1 ≥
      (veil.screen screen).timing.geometry.flashFrames := due
    rw [if_neg due, if_neg veiled]
    rfl

omit [TapeProvider ρ] in
theorem Alike.completeFrame (alike : veil.Alike earlier one other) :
    veil.Alike earlier one.completeFrame other.completeFrame := by
  let counted (board : Board κ ρ) : Board κ ρ :=
    { board with
      screen := board.screen.countFrame
      beeper := board.beeper.fillUntil board.beeper.frameTacts }
  let told (board : Board κ ρ) : Board κ ρ :=
    Machine.tellSound (Machine.tellPicture (counted board) board.screen.completeFrame.2)
      board.beeper.completeFrame.2
  have board (veil : Veil) (board : Board κ ρ) :
      veil.board (counted board) = counted (veil.board board) := by
    have screen : (veil.screen board.screen).countFrame = veil.screen board.screen.countFrame :=
      countFrame_screen board.screen
    exact congrArg (fun screen => { veil.board board with
      screen, beeper := veil.beeper (board.beeper.fillUntil board.beeper.frameTacts) }) screen.symm
  have alikeBoards : veil.board one.board = (veil.after earlier).board other.board :=
    alike.congr Machine.board
  have overflow : one.frameTact % one.frameTacts = other.frameTact % other.frameTacts :=
    alike.congr fun machine => machine.frameTact % machine.frameTacts
  have frameCount : one.frameCount = other.frameCount := alike.congr Machine.frameCount
  have toldAlike : veil.board (told one.board) = (veil.after earlier).board (told other.board) := by
    apply told_alike (fun _ => rfl) (fun _ _ => rfl) (fun _ _ => rfl)
    · apply told_alike (fun _ => rfl) (fun _ _ => rfl) (fun _ _ => rfl)
      · rw [board, board, alikeBoards]
      · intro seen
        have screens : veil.screen one.board.screen = veil.screen other.board.screen :=
          alike.congr fun machine => machine.board.screen
        rw [screen_of_open seen, screen_of_open seen] at screens
        rw [screens]
    · intro seen
      have beepers : veil.beeper one.board.beeper = veil.beeper other.board.beeper :=
        alike.congr fun machine => machine.board.beeper
      rw [beeper_of_open seen, beeper_of_open seen] at beepers
      rw [beepers]
  have looks (veil : Veil) (machine : Machine Cpu κ ρ) : veil.machine machine.completeFrame =
      { veil.machine machine with
        board := (veil.board (told machine.board)).callCards
          (.completeFrame (machine.frameTact % machine.frameTacts))
          (Peripheral.completeFrame (machine.frameTact % machine.frameTacts))
        frameCount := machine.frameCount + 1
        overflow := machine.frameTact % machine.frameTacts } := by
    rw [callCards_board]
    rfl
  rw [Alike, looks, looks, overflow, frameCount, toldAlike, alike]

end Veil

/-! Turns, runs and sessions. -/

def Turn.map {Cpu κ ρ : Type} (change : Machine Cpu κ ρ → Machine Cpu κ ρ) :
    Turn Cpu κ ρ → Turn Cpu κ ρ
  | .goOn progress machine => .goOn progress (change machine)
  | .stop completion machine => .stop completion (change machine)

namespace Veil

def request (veil : Veil) (request : RunRequest) : RunRequest :=
  { request with options := veil.options request.options }

variable {κ ρ Cpu : Type} {veil : Veil} {earlier : Array Notice} [Processor Cpu]
  {one other : Machine Cpu κ ρ} {request requestOther : RunRequest} (progress : RunProgress)

omit [Processor Cpu] in
theorem request_congr {α : Type} (same : veil.request request = veil.request requestOther)
    (seen : RunRequest → α) : seen (veil.request request) = seen (veil.request requestOther) :=
  congrArg seen same

theorem askDebugger_machine (machine : Machine Cpu κ ρ) (mode : RunMode) (executed : Nat) :
    (veil.machine machine).askDebugger mode executed =
      Prod.map id veil.machine (machine.askDebugger mode executed) := by
  cases mode <;> rfl

theorem stopReason_machine (machine : Machine Cpu κ ρ) :
    (veil.machine machine).stopReason (veil.request request) progress =
      Prod.map id veil.machine (machine.stopReason request progress) := by
  have timedOut : (veil.machine machine).timedOut (veil.request request) =
      machine.timedOut request := rfl
  have atPoint : (veil.machine machine).atPoint request.options.mode =
      machine.atPoint request.options.mode := by
    cases request.options.mode <;> rfl
  have mode : (veil.request request).options.mode = request.options.mode := rfl
  have cancelled : (veil.request request).cancelled = request.cancelled := rfl
  rw [Machine.stopReason, Machine.stopReason, cancelled, timedOut, mode, atPoint,
    askDebugger_machine]
  split_ifs <;> rfl

variable [Peripheral κ]

theorem Alike.endTurn (alike : veil.Alike earlier one other)
    (same : veil.request request = veil.request requestOther) :
    (one.endTurn request progress).map veil.machine =
      (other.endTurn requestOther progress).map (veil.after earlier).machine := by
  have finished : one.frameFinished = other.frameFinished := alike.congr Machine.frameFinished
  have mode : request.options.mode = requestOther.options.mode :=
    request_congr same fun request => request.options.mode
  rw [Machine.endTurn, Machine.endTurn, finished, mode]
  split_ifs
  · exact congrArg (Turn.stop _) alike.completeFrame
  · exact congrArg (Turn.goOn _) alike.completeFrame
  · exact congrArg (Turn.goOn _) alike

variable [TapeProvider ρ]

theorem Alike.advance (alike : veil.Alike earlier one other)
    (same : veil.request request = veil.request requestOther) :
    (one.advance request progress).map (Turn.map veil.machine) =
      (other.advance requestOther progress).map (Turn.map (veil.after earlier).machine) := by
  have options : veil.options request.options = veil.options requestOther.options :=
    request_congr same RunRequest.options
  apply map_bind_eq_map_bind (alike.executeInstruction options)
  rintro ⟨reason, after⟩ ⟨reasonOther, afterOther⟩ executed
  rcases Prod.mk.inj executed with ⟨rfl, after⟩
  cases reason with
  | some reason => exact congrArg (fun machine => some (Turn.stop reason machine)) after
  | none => exact congrArg some (Alike.endTurn _ after same)

theorem Alike.turnAtBoundary (alike : veil.Alike earlier one other)
    (same : veil.request request = veil.request requestOther) :
    (one.turnAtBoundary request progress).map (Turn.map veil.machine) =
      (other.turnAtBoundary requestOther progress).map (Turn.map (veil.after earlier).machine) := by
  have midInstruction : Processor.midInstruction one.cpu = Processor.midInstruction other.cpu :=
    alike.congr fun machine => Processor.midInstruction machine.cpu
  have stops : Prod.map id veil.machine (one.stopReason request progress) =
      Prod.map id (veil.after earlier).machine (other.stopReason requestOther progress) := by
    rw [← stopReason_machine, ← stopReason_machine, same, alike]
    rfl
  rw [Machine.turnAtBoundary, Machine.turnAtBoundary, midInstruction]
  split_ifs
  · exact alike.advance progress same
  · generalize one.stopReason request progress = asked at stops
    generalize other.stopReason requestOther progress = askedOther at stops
    rcases asked with ⟨reason, after⟩
    rcases askedOther with ⟨reasonOther, afterOther⟩
    rcases Prod.mk.inj stops with ⟨rfl, after⟩
    cases reason with
    | some reason => exact congrArg (fun machine => some (Turn.stop reason machine)) after
    | none => exact Alike.advance _ after same

theorem Alike.turn (alike : veil.Alike earlier one other)
    (same : veil.request request = veil.request requestOther) :
    (one.turn request progress).map (Turn.map veil.machine) =
      (other.turn requestOther progress).map (Turn.map (veil.after earlier).machine) := by
  have cancelled : request.cancelled = requestOther.cancelled :=
    request_congr same RunRequest.cancelled
  have finished : one.frameFinished = other.frameFinished := alike.congr Machine.frameFinished
  rw [Machine.turn, Machine.turn, cancelled, finished]
  split_ifs
  · exact congrArg (fun machine => some (Turn.stop .cancelled machine)) alike
  · exact alike.startFrame.turnAtBoundary _ same
  · exact alike.turnAtBoundary _ same
  · exact alike.turnAtBoundary _ same

theorem Alike.turns (alike : veil.Alike earlier one other)
    (same : veil.request request = veil.request requestOther) (budget : Nat) :
    (Machine.turns request budget progress one).map (Prod.map id veil.machine) =
      (Machine.turns requestOther budget progress other).map
        (Prod.map id (veil.after earlier).machine) := by
  induction budget generalizing progress one other with
  | zero => exact congrArg (fun machine => some (none, machine)) alike
  | succ budget induction =>
      apply map_bind_eq_map_bind (alike.turn progress same)
      intro turn turnOther alike
      cases turn with
      | stop completion after =>
          cases turnOther with
          | goOn _ _ => exact nomatch alike
          | stop completionOther afterOther =>
              rcases Turn.stop.inj alike with ⟨rfl, after⟩
              exact congrArg (fun machine => some (some completion, machine)) after
      | goOn progress after =>
          cases turnOther with
          | stop _ _ => exact nomatch alike
          | goOn progressOther afterOther =>
              rcases Turn.goOn.inj alike with ⟨rfl, after⟩
              exact induction progress after

def call (veil : Veil) (call : RunCall) : RunCall :=
  { call with options := veil.options call.options }

omit [Processor Cpu] [Peripheral κ] [TapeProvider ρ] in
theorem call_congr {α : Type} {call callOther : RunCall}
    (same : veil.call call = veil.call callOther) (seen : RunCall → α) :
    seen (veil.call call) = seen (veil.call callOther) :=
  congrArg seen same

omit [Processor Cpu] [Peripheral κ] [TapeProvider ρ] in
theorem called_machine (machine : Machine Cpu κ ρ) (call : RunCall) :
    (veil.machine machine).called (veil.call call) = veil.machine (machine.called call) :=
  rfl

omit [Processor Cpu] [Peripheral κ] [TapeProvider ρ] in
theorem noted_machine (result : Option Completion × Machine Cpu κ ρ) :
    Machine.noted (Prod.map id veil.machine result) =
      Prod.map id veil.machine (Machine.noted result) := by
  rcases result with ⟨completion, machine⟩
  cases completion <;> rfl

theorem Alike.call (alike : veil.Alike earlier one other) {call callOther : RunCall}
    (same : veil.call call = veil.call callOther) :
    (one.call call).map (Prod.map id veil.machine) =
      (other.call callOther).map (Prod.map id (veil.after earlier).machine) := by
  have tacts : Processor.tacts one.cpu = Processor.tacts other.cpu :=
    alike.congr fun machine => Processor.tacts machine.cpu
  have called : veil.Alike earlier (one.called call) (other.called callOther) := by
    rw [Alike, ← called_machine, ← called_machine, same, alike]
    rfl
  have budget : call.budget = callOther.budget := call_congr same RunCall.budget
  have requests : veil.request ⟨call.options, call.cancelled, Processor.tacts one.cpu⟩ =
      veil.request ⟨callOther.options, callOther.cancelled, Processor.tacts other.cpu⟩ := by
    rw [tacts]
    exact call_congr same fun call =>
      RunRequest.mk call.options call.cancelled (Processor.tacts other.cpu)
  have turned := called.turns {} requests callOther.budget
  have noted (veil : Veil) (result : Option (Option Completion × Machine Cpu κ ρ)) :
      (result.map Machine.noted).map (Prod.map id veil.machine) =
        (result.map (Prod.map id veil.machine)).map Machine.noted := by
    rw [Option.map_map, Option.map_map]
    exact congrArg (Option.map · result) (funext fun _ => (noted_machine _).symm)
  rw [Machine.call_eq, Machine.call_eq, noted, noted, budget, turned]

end Veil

namespace Machine

variable {Cpu κ ρ : Type} [Processor Cpu] [Peripheral κ] [TapeProvider ρ]

/-! What some calls come to, behind the veil. -/

def outcomes : List RunCall → Machine Cpu κ ρ → List (Option (Option Completion × Machine Cpu κ ρ))
  | [], _ => []
  | call :: calls, machine =>
    machine.call call ::
      match machine.call call with
      | some (_, machine) => outcomes calls machine
      | none => []

end Machine

namespace Veil

variable {κ ρ Cpu : Type} {veil : Veil} {earlier : Array Notice} [Processor Cpu] [Peripheral κ]
  [TapeProvider ρ] {one other : Machine Cpu κ ρ}

def outcome (veil : Veil) (outcome : Option (Option Completion × Machine Cpu κ ρ)) :
    Option (Option Completion × Machine Cpu κ ρ) :=
  outcome.map (Prod.map id veil.machine)

theorem Alike.outcomes (alike : veil.Alike earlier one other) {calls callsOther : List RunCall}
    (same : calls.map veil.call = callsOther.map veil.call) :
    (one.outcomes calls).map veil.outcome =
      (other.outcomes callsOther).map (veil.after earlier).outcome := by
  induction calls generalizing one other callsOther with
  | nil =>
      cases callsOther with
      | nil => rfl
      | cons _ _ => exact nomatch same
  | cons call calls induction =>
      cases callsOther with
      | nil => exact nomatch same
      | cons callOther callsOther =>
          rcases List.cons.inj same with ⟨first, rest⟩
          have called := alike.call first
          rw [Machine.outcomes, Machine.outcomes, List.map_cons, List.map_cons]
          refine congrArg₂ List.cons called ?_
          cases ended : one.call call with
          | none =>
              cases endedOther : other.call callOther with
              | none => rfl
              | some _ =>
                  rw [ended, endedOther] at called
                  exact nomatch called
          | some result =>
              cases endedOther : other.call callOther with
              | none =>
                  rw [ended, endedOther] at called
                  exact nomatch called
              | some resultOther =>
                  rw [ended, endedOther] at called
                  have alike := congrArg Prod.snd (Option.some.inj called)
                  exact induction alike rest

end Veil

namespace Machine

variable {Cpu κ ρ : Type} [Processor Cpu] [Peripheral κ] [TapeProvider ρ]

/-- Sessions from one machine whose calls differ only in whether the screen is drawn and whether
pictures and sound are handed over come to the same after each call, but for the picture, how far
it is drawn, and what is handed over. -/
theorem delivery_not_emulated (machine : Machine Cpu κ ρ) {calls others : List RunCall}
    (same : calls.map (Veil.call { presentation := true }) =
      others.map (Veil.call { presentation := true })) :
    (machine.outcomes calls).map (Veil.outcome { presentation := true }) =
      (machine.outcomes others).map (Veil.outcome { presentation := true }) :=
  Veil.Alike.outcomes rfl same

theorem delivery_not_emulated_oneLine :
    let session (quiet : Bool) : List RunCall :=
      [{ options := { withoutDrawing := quiet, withoutDelivery := quiet }, budget := 9 },
        { options := { mode := .debugger .stepInto, withoutDrawing := quiet }, budget := 9 }]
    let told (outcome : Option (Option Completion × Machine ScriptedProcessor PortCard TapeFolder)) :=
      outcome.map fun result => (result.1, result.2.nextDrawn, result.2.board.notices.size)
    (oneLine.outcomes (session false)).map told =
        [some (some .frameCompleted, 20, 3), some (some .breakpointReached, 4, 4)] ∧
      (oneLine.outcomes (session true)).map told =
        [some (some .frameCompleted, 0, 1), some (some .breakpointReached, 0, 2)] ∧
      (session false).map (Veil.call { presentation := true }) =
        (session true).map (Veil.call { presentation := true }) ∧
      (oneLine.outcomes (session false)).map (Veil.outcome { presentation := true }) =
        (oneLine.outcomes (session true)).map (Veil.outcome { presentation := true }) := by
  intro session told
  have same : (session false).map (Veil.call { presentation := true }) =
      (session true).map (Veil.call { presentation := true }) := rfl
  exact ⟨by decide +kernel, by decide +kernel, same, delivery_not_emulated oneLine same⟩

end Machine

end ZxSpectrum
