import ZxSpectrum.Proofs.Machine.FrameApproach

namespace ZxSpectrum

/-! The frames of a session, and how each of its runs ends. Only the completion of a frame can end a
run as complete, and in the modes that end with their frame nothing comes after it. -/

namespace Machine

variable {Cpu κ ρ : Type}

/-- How a log agrees with the reason for which its run has ended: either its first frame has been
completed last, in a mode that ends with it, or there is another reason, and such a mode has not
completed a frame. -/
inductive Closed (mode : RunMode) : List (Moment Cpu κ ρ) → Option Completion → Prop
  | frame {front machine} (ends : mode.endsWithFrame = true) (first : completions front = []) :
    Closed mode (front ++ [.frameCompleted machine]) (some .frameCompleted)
  | other {log completion} (other : completion ≠ some .frameCompleted)
    (incomplete : mode.endsWithFrame = true → completions log = []) : Closed mode log completion

def Closes (mode : RunMode) (log : List (Moment Cpu κ ρ)) : Option (Turn Cpu κ ρ) → Prop
  | none => True
  | some (.stop completion _) => Closed mode log (some completion)
  | some (.goOn _ _) => mode.endsWithFrame = true → completions log = []

theorem completions_append (log later : List (Moment Cpu κ ρ)) :
    completions (log ++ later) = completions log ++ completions later :=
  List.filterMap_append

theorem Closed.after {mode : RunMode} {log later : List (Moment Cpu κ ρ)}
    {completion : Option Completion} (quiet : mode.endsWithFrame = true → completions log = [])
    (closed : Closed mode later completion) : Closed mode (log ++ later) completion := by
  cases closed with
  | frame ends first =>
      rw [← List.append_assoc]
      apply Closed.frame ends
      rw [completions_append, quiet ends, first, List.append_nil]
  | other other incomplete =>
      apply Closed.other other
      intro ends
      rw [completions_append, quiet ends, incomplete ends, List.append_nil]

theorem Closes.after {mode : RunMode} {log later : List (Moment Cpu κ ρ)}
    {turn : Option (Turn Cpu κ ρ)} (quiet : completions log = [])
    (closes : Closes mode later turn) : Closes mode (log ++ later) turn := by
  cases turn with
  | none => trivial
  | some turn =>
      cases turn with
      | stop completion machine => exact Closed.after (fun _ => quiet) closes
      | goOn progress machine =>
          intro ends
          rw [completions_append, quiet, closes ends, List.append_nil]

/-- A run is ended by a frame if and only if that is the last thing in its log, in a mode that ends
with its frame; and then it is the only frame. -/
theorem Closed.frameCompleted_iff {mode : RunMode} {log : List (Moment Cpu κ ρ)}
    {completion : Option Completion} (closed : Closed mode log completion) :
    (completion = some .frameCompleted ↔ mode.endsWithFrame = true ∧
        ∃ completed, log.getLast? = some (.frameCompleted completed)) ∧
      (completion = some .frameCompleted → (completions log).length = 1) := by
  cases closed with
  | @frame front machine ends first =>
      refine ⟨⟨fun _ => ⟨ends, machine, List.getLast?_concat⟩, fun _ => rfl⟩, fun _ => ?_⟩
      rw [completions_append, first]
      rfl
  | other other incomplete =>
      refine ⟨⟨fun same => absurd same other, ?_⟩, fun same => absurd same other⟩
      rintro ⟨ends, completed, last⟩
      have member := mem_completions.mpr (List.mem_of_getLast? last)
      rw [incomplete ends] at member
      exact nomatch member

theorem completions_of_drawn {log : List (Moment Cpu κ ρ)}
    (drawn : ∀ moment ∈ log, ∃ tact border flash memory,
      moment = .drawn tact border flash memory) : completions log = [] := by
  rw [completions_eq_frames, frames_of_drawn drawn]
  rfl

variable [Processor Cpu] [Peripheral κ] [TapeProvider ρ]

/-! Every turn agrees with its log, and so does every run. -/

omit [TapeProvider ρ] in
theorem endTurn_closes (machine : Machine Cpu κ ρ) (request : RunRequest)
    (progress : RunProgress) :
    Closes request.options.mode
      (if machine.frameFinished then [.frameCompleted machine.completeFrame] else [])
      (some (machine.endTurn request progress)) := by
  rw [endTurn]
  cases machine.frameFinished with
  | false => exact fun _ => rfl
  | true =>
      cases ends : request.options.mode.endsWithFrame with
      | true =>
          have nothing : completions ([] : List (Moment Cpu κ ρ)) = [] := rfl
          exact Closed.frame ends nothing
      | false => exact fun impossible => absurd (ends.symm.trans impossible) Bool.false_ne_true

theorem executeInstruction_ne_frameCompleted {machine after : Machine Cpu κ ρ}
    {options : RunOptions} {reason : Completion}
    (stopped : machine.executeInstruction options = some (some reason, after)) :
    some reason ≠ some .frameCompleted := by
  cases executed_of_executeInstruction stopped <;> decide

omit [Peripheral κ] [TapeProvider ρ] in
theorem stopReason_ne_frameCompleted {machine asked : Machine Cpu κ ρ} {request : RunRequest}
    {progress : RunProgress} {reason : Option Completion}
    (stops : machine.stopReason request progress = (reason, asked)) :
    reason ≠ some .frameCompleted := by
  have breaks (stop : Bool) :
      (if stop then some Completion.breakpointReached else none) ≠ some .frameCompleted := by
    cases stop <;> decide
  rw [stopReason] at stops
  split_ifs at stops
  · cases stops
    decide
  · cases stops
    decide
  · cases stops
    decide
  · cases stops
    exact breaks _

theorem advance_closes (machine : Machine Cpu κ ρ) (request : RunRequest)
    (progress : RunProgress) :
    Closes request.options.mode (machine.advanceLog request progress)
      (machine.advance request progress) := by
  have begun : completions [Moment.executing machine] = [] := rfl
  have drawn : completions (machine.executeLog request.options) = [] :=
    completions_of_drawn fun _ => drawn_of_mem_executeLog
  rw [advance, advanceLog]
  apply Closes.after begun
  cases executed : machine.executeInstruction request.options with
  | none => trivial
  | some result =>
      rcases result with ⟨reason, after⟩
      cases reason with
      | none => exact Closes.after drawn (after.endTurn_closes request _)
      | some reason =>
          have stopped : completions (after.stopLog reason (progress.executed + 1)) = [] := by
            rw [stopLog]
            split <;> rfl
          have closed : Closed request.options.mode _ (some reason) :=
            .other (executeInstruction_ne_frameCompleted executed) fun _ => stopped
          exact closed.after fun _ => drawn

theorem turnAtBoundary_closes (machine : Machine Cpu κ ρ) (request : RunRequest)
    (progress : RunProgress) :
    Closes request.options.mode (machine.boundaryLog request progress)
      (machine.turnAtBoundary request progress) := by
  rw [turnAtBoundary, boundaryLog]
  cases Processor.midInstruction machine.cpu with
  | true => exact machine.advance_closes request progress
  | false =>
      have boundary : completions [Moment.boundary progress.executed machine] = [] := rfl
      apply Closes.after boundary
      cases stops : machine.stopReason request progress with
      | mk reason asked =>
          cases reason with
          | none => exact asked.advance_closes request _
          | some reason =>
              exact .other (stopReason_ne_frameCompleted stops) fun _ => rfl

theorem turn_closes (machine : Machine Cpu κ ρ) (request : RunRequest) (progress : RunProgress) :
    Closes request.options.mode (machine.turnLog request progress)
      (machine.turn request progress) := by
  rw [turn, turnLog]
  cases progress.betweenFrames with
  | false => exact machine.turnAtBoundary_closes request progress
  | true =>
      cases request.cancelled progress.polls with
      | true => exact .other (by decide) fun _ => rfl
      | false =>
          cases machine.frameFinished with
          | false => exact machine.turnAtBoundary_closes request _
          | true =>
              have started : completions machine.startFrameLog = [] := by
                have drawn : completions
                    (machine.board.drawnMoments 0 machine.overflow : List (Moment Cpu κ ρ)) = [] :=
                  completions_of_drawn fun _ => Board.drawn_of_mem_drawnMoments
                exact drawn
              exact Closes.after started (machine.startFrame.turnAtBoundary_closes request _)

theorem turns_closed {request : RunRequest} {budget : Nat} {progress : RunProgress}
    {machine after : Machine Cpu κ ρ} {completion : Option Completion}
    (ended : turns request budget progress machine = some (completion, after)) :
    Closed request.options.mode (turnsLog request budget progress machine) completion := by
  induction budget generalizing progress machine with
  | zero =>
      cases ended
      exact .other (by decide) fun _ => rfl
  | succ budget induction =>
      have closes := machine.turn_closes request progress
      rw [turns_succ] at ended
      rw [turnsLog]
      cases taken : machine.turn request progress with
      | none => simp [taken] at ended
      | some turn =>
          rw [taken] at ended closes
          cases turn with
          | stop reason stopped =>
              cases ended
              rw [List.append_nil]
              exact closes
          | goOn progress next => exact Closed.after closes (induction ended)

theorem call_closed {machine after : Machine Cpu κ ρ} {call : RunCall}
    {completion : Option Completion} (ran : machine.call call = some (completion, after)) :
    Closed call.options.mode (machine.sessionLog [call]) completion := by
  rw [call_eq] at ran
  rcases Option.map_eq_some_iff.mp ran with ⟨⟨reason, stopped⟩, ended, noted⟩
  rw [sessionLog_singleton]
  have closed := turns_closed ended
  cases reason <;> (cases noted; exact closed)

end Machine

/-! What is on the board when a machine has been built. -/

namespace Setup

variable {Cpu κ ρ : Type} [Processor Cpu] [Peripheral κ]

def frameDevices (setup : Setup κ ρ) : List Device :=
  [.screen, .beeper, .interrupt, .sound, .floppy].filter setup.isPresent

omit [Processor Cpu] in
theorem attachCard_eq_ok {rom : List UInt8} {slot : CardSlot} {card : Option κ}
    {board after : Board κ ρ} (attached : attachCard rom slot card board = .ok after)
    (free : board.card slot = none) :
    after.beeper = board.beeper ∧
      ∀ other, (after.card other).isSome =
        if other = slot then card.isSome else (board.card other).isSome := by
  cases card with
  | none =>
      cases attached
      refine ⟨rfl, fun other => ?_⟩
      split
      · next same => rw [same, free]
      · rfl
  | some card =>
      rcases exists_of_bind_eq_ok attached with ⟨card, -, attached⟩
      cases attached
      cases slot <;> exact ⟨rfl, fun other => by cases other <;> rfl⟩

theorem keeps_of_build {setup : Setup κ ρ} {cpu : Cpu} {storage : Storage}
    {machine : Machine Cpu κ ρ} (built : setup.build cpu storage = some (.ok machine)) :
    machine.board.beeper.Tuned ∧ machine.board.frameSetting.devices = setup.frameDevices := by
  rcases exists_attached_of_build built with
    ⟨screen, rom, memory, first, -, -, sound, floppy, -⟩
  rcases attachCard_eq_ok sound rfl with ⟨beeper, cards⟩
  have absent : (first.card .floppy).isSome = false := cards .floppy
  have free : first.card .floppy = none := by simpa using absent
  rcases attachCard_eq_ok floppy free with ⟨still, all⟩
  have hasSound : machine.board.sound.isSome = setup.sound.isSome :=
    (all .sound).trans (cards .sound)
  have hasFloppy : machine.board.floppy.isSome = setup.floppy.isSome := all .floppy
  constructor
  · rw [still, beeper]
    exact Beeper.tuned_create _ _ _ _
  · rw [Board.frameSetting, hasSound, hasFloppy, FrameSetting.devices, frameDevices]
    cases sound : setup.sound <;> cases floppy : setup.floppy <;>
      simp [List.filter, isPresent, sound, floppy]

end Setup

namespace Machine

variable {Cpu κ ρ : Type} [Processor Cpu] [Peripheral κ] [TapeProvider ρ]

/-! The run of a call on its path, and the sizes of what it hands over. -/

theorem call_path {machine after : Machine Cpu κ ρ} {call : RunCall}
    {completion : Option Completion} (ran : machine.call call = some (completion, after)) :
    ∃ executed, Path (·.withoutDelivery = call.options.withoutDelivery)
      ((machine.called call).standing 0) (machine.sessionLog [call]) (after.standing executed) := by
  let permitted (options : RunOptions) : Prop :=
    options.withoutDelivery = call.options.withoutDelivery
  have allowed : ∀ other ∈ [call], permitted other.options := by simp [permitted]
  rcases session_follows_called allowed machine with ⟨last, path, ends⟩
  have ended : machine.session [call] = some after := by
    rw [session, ran]
    rfl
  rcases ends after ended with ⟨executed, rfl⟩
  exact ⟨executed, path⟩

omit [Processor Cpu] [Peripheral κ] [TapeProvider ρ] in
theorem Fits.sizes {machine completed : Machine Cpu κ ρ} {hook : FrameHook}
    (fits : Fits machine.board.frameSetting hook completed) (completes : hook ≠ .newFrame) :
    completed.board.screen.pixels.size = machine.board.screen.timing.geometry.screenWidth *
        machine.board.screen.timing.geometry.screenLines ∧
      completed.board.beeper.samples.size = machine.board.beeper.samplesPerFrame := by
  have timing : completed.board.screen.timing = machine.board.screen.timing :=
    congrArg FrameSetting.timing fits.setting
  have row : completed.board.beeper.samplesPerFrame = machine.board.beeper.samplesPerFrame :=
    Beeper.samplesPerFrame_of_make (congrArg FrameSetting.beeper fits.setting)
  have pixels : completed.board.screen.pixels.size =
      completed.board.screen.timing.geometry.pixelCount := Vector.size_toArray _
  rw [timing] at pixels
  exact ⟨pixels, (fits.samples completes).trans row⟩

/-- All devices follow the frames in step. Each time all of them are told of the start of a frame
or of its completion, in the machine that the session has come to, in turns and the start first,
and the completions are counted. A run is ended
by a frame if and only if its last action was to complete it, in a mode that ends with a frame, and
then it has completed no other. For each frame that is completed one picture and one row of samples
are handed over, unless the run asks for none, and these have the sizes that the machine has been
built for. -/
theorem session_frames {setup : Setup κ ρ} {cpu : Cpu} {storage : Storage}
    {machine : Machine Cpu κ ρ} (built : setup.build cpu storage = some (.ok machine))
    (calls : List RunCall) :
    let log := machine.sessionLog calls
    let hooks := (frames log).map Prod.fst
    (∀ front moment rest hook told, log = front ++ moment :: rest →
        moment.frame? = some (hook, told) →
          ∃ before, machine.ComesTo calls front hook before ∧
            told = before.hooked setup.frameDevices hook) ∧
      (∀ index hook, hooks[index]? = some hook → (hook = .newFrame ↔ index % 2 = 0)) ∧
      ∀ after, machine.session calls = some after →
        after.frameCount = hooks.countP (· ≠ .newFrame) ∧
        ∀ call completion last, after.call call = some (completion, last) →
          let log := after.sessionLog [call]
          (completion = some .frameCompleted ↔ call.options.mode.endsWithFrame = true ∧
            ∃ completed, log.getLast? = some (.frameCompleted completed)) ∧
          (completion = some .frameCompleted → (completions log).length = 1) ∧
          last.board.frameNotices = after.board.frameNotices ++ (frames log).flatMap (fun frame =>
            frameTold call.options.withoutDelivery frame.1 frame.2) ∧
          ∀ completed ∈ completions log,
            completed.board.screen.pixels.size = machine.board.screen.timing.geometry.screenWidth *
              machine.board.screen.timing.geometry.screenLines ∧
            completed.board.beeper.samples.size = machine.board.beeper.samplesPerFrame := by
  intro log hooks
  have poweredOn : machine.PoweredOn := .built built
  rcases Setup.keeps_of_build built with ⟨tuned, devices⟩
  let permitted (_ : RunOptions) : Prop := True
  have allowed : ∀ call ∈ calls, permitted call.options := fun _ _ => trivial
  rcases session_follows allowed machine 0 with ⟨last, path, ends⟩
  have keeps : Keeps machine.board.frameSetting machine := ⟨rfl, tuned⟩
  rcases path.keeps keeps with ⟨still, fits⟩
  refine ⟨?_, ?_, ?_⟩
  · intro front moment rest hook told split frame
    have among : (hook, told) ∈ frames log := by
      rw [split]
      exact List.mem_filterMap.mpr ⟨moment, List.mem_append_right _ List.mem_cons_self, frame⟩
    have setting : told.board.frameSetting = machine.board.frameSetting := (fits _ among).setting
    rw [← devices, ← setting]
    exact session_comesTo split frame
  · intro index hook there
    have turns := path.takeTurns
    rw [standing_of_finished poweredOn.frameFinished] at turns
    have parity := turns.getElem? there
    simpa [Standing.between] using parity
  · intro after ended
    rcases ends after ended with ⟨executed, rfl⟩
    refine ⟨?_, ?_⟩
    · have nothing : machine.frameCount = 0 := by rw [poweredOn.eq]
      have counted : after.frameCount = machine.frameCount + _ := path.frameCount
      rw [counted, nothing, Nat.zero_add, completions_eq_frames, List.length_map,
        ← List.countP_eq_length_filter, List.countP_map]
      rfl
    · intro call completion last ran log
      rcases call_path ran with ⟨executed, path⟩
      rcases (call_closed ran).frameCompleted_iff with ⟨ended, one⟩
      have begun : Keeps machine.board.frameSetting (after.called call) :=
        ⟨still.setting, still.tuned.sampleRate_pos, still.tuned.clock_pos, still.tuned.fits⟩
      have view := path.notices (fun _ same => same) ⟨rfl, rfl⟩
      refine ⟨ended, one, congrArg FrameView.notices view, fun completed member => ?_⟩
      rw [completions_eq_frames] at member
      rcases List.mem_map.mp member with ⟨frame, among, rfl⟩
      rcases List.mem_filter.mp among with ⟨there, completes⟩
      exact ((path.keeps begun).2 frame there).sizes (by simpa using completes)

/-- A step leaves the first frame unfinished, a run that shows nothing completes it, and another
run completes and shows the second: 22 pixels in a line, and two samples. -/
theorem session_frames_oneLine :
    let machine := oneLine.sampledAt 350000
    let calls : List RunCall :=
      [{ options := { mode := .debugger .stepInto }, budget := 9 },
        { options := { mode := .untilFrameEnds, withoutDelivery := true }, budget := 9 }]
    let shown : RunCall := { options := { mode := .untilFrameEnds }, budget := 9 }
    (Setup.oneLine.sampledAt 350000).build ({} : ScriptedProcessor) {} = some (.ok machine) ∧
      ∃ after last, machine.session calls = some after ∧
        after.call shown = some (some .frameCompleted, last) ∧
        after.frameCount = 1 ∧
        (completions (after.sessionLog [shown])).length = 1 ∧
        ∀ completed ∈ completions (after.sessionLog [shown]),
          completed.board.screen.pixels.size = 22 ∧ completed.board.beeper.samples.size = 2 := by
  intro machine calls shown
  have built := Setup.build_oneLine_sampledAt 350000 {}
  rcases session_frames built calls with ⟨-, -, reached⟩
  have runs : ((machine.session calls).bind (·.call shown)).any
      (·.1 = some .frameCompleted) = true := by
    decide +kernel
  have hooks : ((frames (machine.sessionLog calls)).map Prod.fst).countP (· ≠ .newFrame) = 1 := by
    decide +kernel
  have pixels : machine.board.screen.timing.geometry.screenWidth *
      machine.board.screen.timing.geometry.screenLines = 22 := by
    decide +kernel
  have samples : machine.board.beeper.samplesPerFrame = 2 := by decide +kernel
  rcases Option.any_eq_true _ _ |>.mp runs with ⟨⟨completion, last⟩, ran, ended⟩
  rcases Option.bind_eq_some_iff.mp ran with ⟨after, session, ran⟩
  cases of_decide_eq_true ended
  rcases reached after session with ⟨counted, each⟩
  rcases each _ _ _ ran with ⟨-, one, -, sizes⟩
  rw [pixels, samples] at sizes
  exact ⟨built, after, last, session, ran, counted.trans hooks, one rfl, sizes⟩

end Machine

end ZxSpectrum
