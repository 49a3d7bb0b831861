import ZxSpectrum.Proofs.Machine.FrameView
import ZxSpectrum.Proofs.Machine.History

namespace ZxSpectrum

/-! The devices that follow the frames. At the start of a frame each of them is told so, and at its
completion as well, all in the order in which they are attached. -/

inductive FrameHook
  | newFrame
  | completeFrame (overflow : Nat)
deriving DecidableEq

namespace FrameHook

def cardCall : FrameHook → CardCall
  | .newFrame => .newFrame
  | .completeFrame overflow => .completeFrame overflow

def changeCard {κ : Type} [Peripheral κ] : FrameHook → κ → κ
  | .newFrame => Peripheral.newFrame
  | .completeFrame overflow => Peripheral.completeFrame overflow

end FrameHook

namespace FrameSetting

def devices (setting : FrameSetting) : List Device :=
  [.screen, .beeper, .interrupt] ++
    (if setting.sound then [.sound] else []) ++ if setting.floppy then [.floppy] else []

end FrameSetting

namespace Machine

variable {Cpu κ ρ : Type} [Peripheral κ]

/-- Tells a device of a frame. The screen hands its picture over and the beeper its samples; the
interrupt has nothing to complete. -/
def tellDevice (hook : FrameHook) (machine : Machine Cpu κ ρ) (device : Device) :
    Machine Cpu κ ρ :=
  match device, hook with
  | .screen, .newFrame => { machine with board := machine.board.tell .frameStarted }
  | .screen, .completeFrame _ =>
    let (screen, pixels) := machine.board.screen.completeFrame
    { machine with board := tellPicture { machine.board with screen } pixels }
  | .beeper, .newFrame =>
    { machine with board := { machine.board with beeper := machine.board.beeper.newFrame } }
  | .beeper, .completeFrame _ =>
    let (beeper, samples) := machine.board.beeper.completeFrame
    { machine with board := tellSound { machine.board with beeper } samples }
  | .interrupt, .newFrame => { machine with interrupt := machine.interrupt.newFrame }
  | .sound, _ =>
    { machine with board := machine.board.callCard .sound hook.cardCall hook.changeCard }
  | .floppy, _ =>
    { machine with board := machine.board.callCard .floppy hook.cardCall hook.changeCard }
  | _, _ => machine

def tellDevices (devices : List Device) (hook : FrameHook) (machine : Machine Cpu κ ρ) :
    Machine Cpu κ ρ :=
  devices.foldl (tellDevice hook) machine

/-- What a machine is once it has told its devices of a frame. At the start the clock of the frame
is set before and the screen is drawn afterwards, as far as the machine has run over. -/
def hooked [Processor Cpu] (devices : List Device) (hook : FrameHook) (machine : Machine Cpu κ ρ) :
    Machine Cpu κ ρ :=
  match hook with
  | .newFrame =>
    let frameStart := Processor.tacts machine.cpu - machine.overflow * machine.board.multiplier
    let told := { machine with board := { machine.board with frameStart } }.tellDevices devices hook
    { told with
      board := told.board.draw 0 machine.overflow
      nextDrawn := machine.overflow
      frameFinished := false }
  | .completeFrame overflow =>
    { machine.tellDevices devices hook with frameCount := machine.frameCount + 1, overflow }

theorem startFrame_eq_hooked [Processor Cpu] (machine : Machine Cpu κ ρ) :
    machine.startFrame = machine.hooked machine.board.frameSetting.devices .newFrame := by
  rcases machine with ⟨cpu, ⟨memory, port, screen, beeper, keyboard, deck, sound, floppy,
    frameStart, multiplier, contended, notices⟩, interrupt, debugger, finished, count, overflow,
    drawn, completion, fault⟩
  cases sound <;> cases floppy <;> rfl

theorem completeFrame_eq_hooked [Processor Cpu] (machine : Machine Cpu κ ρ) :
    machine.completeFrame =
      machine.hooked machine.board.frameSetting.devices
        (.completeFrame machine.completeFrame.overflow) := by
  rcases machine with ⟨cpu, ⟨memory, port, screen, beeper, keyboard, deck, sound, floppy,
    frameStart, multiplier, contended, notices⟩, interrupt, debugger, finished, count, overflow,
    drawn, completion, fault⟩
  rcases pictured : screen.completeFrame with ⟨counted, pixels⟩
  rcases heard : beeper.completeFrame with ⟨filled, samples⟩
  cases sound <;> cases floppy <;> cases pixels <;> cases samples <;>
    simp only [completeFrame, hooked, tellDevices, FrameSetting.devices, Board.frameSetting,
      pictured, heard, List.foldl_append, List.foldl_cons, List.foldl_nil, tellDevice, tellPicture,
      Board.tell, Option.isSome_none, Option.isSome_some, if_true, if_false,
      Bool.false_eq_true] <;> rfl

end Machine

/-! What is handed over when a frame starts or is complete. -/

namespace Machine

variable {Cpu κ ρ : Type}

theorem frameView_tellPicture (board : Board κ ρ) (pixels : Option (Array UInt8)) :
    (tellPicture board pixels).frameView =
      board.frameView.told (pixels.map Notice.picture).toList := by
  cases pixels with
  | none => exact board.frameView.told_nil.symm
  | some pixels => exact board.frameView_tell rfl

theorem frameView_tellSound (board : Board κ ρ) (samples : Option (Array UInt32)) :
    (tellSound board samples).frameView =
      board.frameView.told (samples.map Notice.sound).toList := by
  cases samples with
  | none => exact board.frameView.told_nil.symm
  | some samples => exact board.frameView_tell rfl

variable [Processor Cpu] [Peripheral κ]

theorem frameView_startFrame (machine : Machine Cpu κ ρ) :
    machine.startFrame.board.frameView =
      machine.board.frameView.told (.frameStarted ::
        machine.board.frameSetting.cardSlots.map (Notice.cardCalled · .newFrame)) := by
  let begun : Board κ ρ :=
    { machine.board with
      frameStart := Processor.tacts machine.cpu - machine.overflow * machine.board.multiplier
      beeper := machine.board.beeper.newFrame }
  have called :
      ((begun.tell .frameStarted).callCards .newFrame Peripheral.newFrame).frameView = _ :=
    Board.frameView_callCards _ (fun _ => rfl) _
  rw [Board.frameView_tell _ rfl, FrameView.told_told] at called
  exact called

theorem frameSetting_startFrame (machine : Machine Cpu κ ρ) :
    machine.startFrame.board.frameSetting = machine.board.frameSetting :=
  congrArg FrameView.setting machine.frameView_startFrame

theorem tuned_startFrame {machine : Machine Cpu κ ρ} (tuned : machine.board.beeper.Tuned) :
    machine.startFrame.board.beeper.Tuned := by
  have beeper : machine.startFrame.board.beeper = machine.board.beeper.newFrame :=
    congrArg Board.beeper (Board.callCards_eq _ _ _)
  rw [beeper]
  exact tuned.newFrame

theorem shown_completeFrame (machine : Machine Cpu κ ρ) :
    machine.completeFrame.board.screen = machine.board.screen.countFrame ∧
      machine.completeFrame.board.beeper = machine.board.beeper.completeFrame.1 := by
  have told (board : Board κ ρ) (pixels : Option (Array UInt8)) (samples : Option (Array UInt32)) :
      (tellSound (tellPicture board pixels) samples).screen = board.screen ∧
        (tellSound (tellPicture board pixels) samples).beeper = board.beeper := by
    cases pixels <;> cases samples <;> exact ⟨rfl, rfl⟩
  exact ⟨(congrArg Board.screen (Board.callCards_eq _ _ _)).trans (told _ _ _).1,
    (congrArg Board.beeper (Board.callCards_eq _ _ _)).trans (told _ _ _).2⟩

theorem tuned_completeFrame {machine : Machine Cpu κ ρ} (tuned : machine.board.beeper.Tuned) :
    machine.completeFrame.board.beeper.Tuned := by
  rw [machine.shown_completeFrame.2]
  exact tuned.completeFrame

/-- What the completion of a frame hands over: the picture and the samples, as they are then,
unless they are held back. -/
theorem frameView_completeFrame (machine : Machine Cpu κ ρ) :
    let completed := machine.completeFrame
    completed.board.frameView =
      machine.board.frameView.told
        ((if machine.board.screen.suppressed then []
            else [.picture completed.board.screen.pixels]) ++
          (if machine.board.beeper.muted then []
            else [.sound completed.board.beeper.samples]) ++
          machine.board.frameSetting.cardSlots.map
            (Notice.cardCalled · (.completeFrame completed.overflow))) := by
  intro completed
  let counted := machine.board.screen.countFrame
  let filled := machine.board.beeper.completeFrame.1
  let shown : Board κ ρ := { machine.board with screen := counted, beeper := filled }
  have kept : counted.timing = machine.board.screen.timing ∧
      counted.suppressed = machine.board.screen.suppressed := by
    simp only [counted, Screen.countFrame]
    split <;> exact ⟨rfl, rfl⟩
  have view : shown.frameView = machine.board.frameView := by
    simp only [Board.frameView, Board.frameSetting, shown, kept]
    rfl
  have pictures : (machine.board.screen.completeFrame.2.map Notice.picture).toList =
      if machine.board.screen.suppressed then [] else [.picture counted.pixels] := by
    rw [← kept.2]
    change ((if counted.suppressed then none else some counted.pixels).map _).toList = _
    split <;> rfl
  have sounds : (machine.board.beeper.completeFrame.2.map Notice.sound).toList =
      if machine.board.beeper.muted then [] else [.sound filled.samples] := by
    change ((if machine.board.beeper.muted then none else some filled.samples).map _).toList = _
    split <;> rfl
  have handed : (tellSound (tellPicture shown machine.board.screen.completeFrame.2)
      machine.board.beeper.completeFrame.2).frameView =
      machine.board.frameView.told
        ((if machine.board.screen.suppressed then [] else [.picture counted.pixels]) ++
          if machine.board.beeper.muted then [] else [.sound filled.samples]) := by
    rw [frameView_tellSound, frameView_tellPicture, view, pictures, sounds, FrameView.told_told]
  let complete (view : FrameView) : FrameView :=
    view.told (view.setting.cardSlots.map (Notice.cardCalled · (.completeFrame completed.overflow)))
  have called : completed.board.frameView = complete _ :=
    Board.frameView_callCards _ (fun _ => rfl) _
  rw [called, machine.shown_completeFrame.1, machine.shown_completeFrame.2]
  refine (congrArg complete handed).trans ?_
  exact FrameView.told_told _ _ _

theorem frameSetting_completeFrame (machine : Machine Cpu κ ρ) :
    machine.completeFrame.board.frameSetting = machine.board.frameSetting :=
  congrArg FrameView.setting machine.frameView_completeFrame

end Machine

/-! The frames of a log: what the devices have been told, each time with the machine as it was
then. -/

section Frames

variable {Cpu κ ρ : Type}

def Moment.frame? : Moment Cpu κ ρ → Option (FrameHook × Machine Cpu κ ρ)
  | .frameStarted machine => some (.newFrame, machine)
  | .frameCompleted machine => some (.completeFrame machine.overflow, machine)
  | _ => none

def frames (log : List (Moment Cpu κ ρ)) : List (FrameHook × Machine Cpu κ ρ) :=
  log.filterMap Moment.frame?

theorem frames_append (log later : List (Moment Cpu κ ρ)) :
    frames (log ++ later) = frames log ++ frames later :=
  List.filterMap_append

theorem frames_of_drawn {log : List (Moment Cpu κ ρ)}
    (drawn : ∀ moment ∈ log, ∃ tact border flash memory,
      moment = .drawn tact border flash memory) : frames log = [] := by
  rw [frames, List.filterMap_eq_nil_iff]
  intro moment member
  rcases drawn moment member with ⟨tact, border, flash, memory, rfl⟩
  rfl

theorem frames_drawnMoments (board : Board κ ρ) (first bound : Nat) :
    frames (board.drawnMoments first bound : List (Moment Cpu κ ρ)) = [] :=
  frames_of_drawn fun _ => Board.drawn_of_mem_drawnMoments

theorem completions_eq_frames (log : List (Moment Cpu κ ρ)) :
    completions log = ((frames log).filter (·.1 ≠ .newFrame)).map Prod.snd := by
  induction log with
  | nil => rfl
  | cons moment log induction =>
      cases moment with
      | frameCompleted machine => exact congrArg (machine :: ·) induction
      | frameStarted _ => exact induction
      | drawn _ _ _ _ => exact induction
      | boundary _ _ => exact induction
      | executing _ => exact induction

/-- Frames are started and completed in turns, from whether the machine stands between two frames
to whether it does so afterwards. -/
def TakeTurns : (between : Bool) → List FrameHook → (after : Bool) → Prop
  | between, [], after => between = after
  | between, hook :: hooks, after =>
    (hook = .newFrame ↔ between = true) ∧ TakeTurns (!between) hooks after

theorem TakeTurns.append {between middle after : Bool} {hooks more : List FrameHook}
    (first : TakeTurns between hooks middle) (rest : TakeTurns middle more after) :
    TakeTurns between (hooks ++ more) after := by
  induction hooks generalizing between with
  | nil =>
      cases first
      exact rest
  | cons hook hooks induction => exact ⟨first.1, induction first.2⟩

theorem TakeTurns.getElem? {between after : Bool} {hooks : List FrameHook}
    (turns : TakeTurns between hooks after) {index : Nat} {hook : FrameHook}
    (there : hooks[index]? = some hook) :
    hook = .newFrame ↔ decide (index % 2 = 0) = between := by
  induction hooks generalizing between index with
  | nil => exact nomatch there
  | cons first hooks induction =>
      cases index with
      | zero =>
          cases there
          rw [turns.1, eq_comm]
          rfl
      | succ index =>
          have parity : decide ((index + 1) % 2 = 0) = !decide (index % 2 = 0) := by
            rcases Nat.mod_two_eq_zero_or_one index with even | odd <;> simp [Nat.add_mod, *]
          rw [induction turns.2 there, parity, Bool.not_eq_eq_eq_not]

end Frames

namespace Machine

variable {Cpu κ ρ : Type} [Processor Cpu] [Peripheral κ] [TapeProvider ρ]

theorem frames_executeLog (machine : Machine Cpu κ ρ) (options : RunOptions) :
    frames (machine.executeLog options) = [] :=
  frames_of_drawn fun _ => drawn_of_mem_executeLog

theorem frameCount_executeInstruction {machine after : Machine Cpu κ ρ} {options : RunOptions}
    {reason : Option Completion}
    (result : machine.executeInstruction options = some (reason, after)) :
    after.frameCount = machine.frameCount := by
  have drawn (stepped : Machine Cpu κ ρ) :
      (stepped.drawnBy options).frameCount = stepped.frameCount := by
    rw [drawnBy]
    split
    · rfl
    · rw [drawTo_eq]
  cases executed_of_executeInstruction result with
  | faulted cycled => exact congrArg Account.frameCount (account_cycle cycled)
  | halted cycled _ => exact (drawn _).trans (congrArg Account.frameCount (account_cycle cycled))
  | completed cycled tape =>
      have followed := congrArg Account.frameCount (account_followTape tape)
      exact followed.trans ((drawn _).trans (congrArg Account.frameCount (account_cycle cycled)))

/-! What a step does for the frames: it leaves them alone, or it is the start or the completion of
one. -/

inductive FrameStep (permitted : RunOptions → Prop) (first last : Standing Cpu κ ρ) :
    List (FrameHook × Machine Cpu κ ρ) → Prop
  | within (stage : first.stage = .betweenFrames ↔ last.stage = .betweenFrames)
    (count : last.machine.frameCount = first.machine.frameCount)
    (same : Board.SameFrames first.machine.board last.machine.board) :
    FrameStep permitted first last []
  | call {options} (allowed : permitted options) (stage : last.stage = first.stage)
    (machine : last.machine = first.machine.prepare options) : FrameStep permitted first last []
  | starts (stage : first.stage = .betweenFrames) (later : last.stage ≠ .betweenFrames)
    (machine : last.machine = first.machine.startFrame) :
    FrameStep permitted first last [(.newFrame, last.machine)]
  | completes (stage : first.stage ≠ .betweenFrames) (later : last.stage = .betweenFrames)
    (machine : last.machine = first.machine.completeFrame) :
    FrameStep permitted first last [(.completeFrame last.machine.overflow, last.machine)]

variable {permitted : RunOptions → Prop} {first last : Standing Cpu κ ρ}
  {log : List (Moment Cpu κ ρ)}

theorem Step.frameStep (step : Step permitted first log last) :
    FrameStep permitted first last (frames log) := by
  cases step with
  | note debugger completion => exact .within Iff.rfl rfl (.refl _)
  | call allowed => exact .call allowed rfl rfl
  | @startFrame executed machine =>
      have started : frames machine.startFrameLog = [(.newFrame, machine.startFrame)] :=
        congrArg ((FrameHook.newFrame, machine.startFrame) :: ·) (frames_drawnMoments _ _ _)
      rw [started]
      exact .starts rfl (by simp) rfl
  | boundary between => exact .within Iff.rfl rfl (.refl _)
  | start => exact .within (by simp) rfl (.refl _)
  | stop allowed stopped =>
      rw [frames_executeLog]
      exact .within (by simp) (frameCount_executeInstruction stopped)
        (sameFrames_executeInstruction stopped)
  | goOn allowed completed =>
      rw [frames_executeLog]
      refine .within ?_ (frameCount_executeInstruction completed)
        (sameFrames_executeInstruction completed)
      split <;> simp
  | completeFrame => exact .completes (by simp) rfl rfl

/-! What every step keeps holds throughout a session. -/

def Standing.between (standing : Standing Cpu κ ρ) : Bool :=
  decide (standing.stage = .betweenFrames)

theorem Path.takeTurns (path : Path permitted first log last) :
    TakeTurns first.between ((frames log).map Prod.fst) last.between := by
  induction path with
  | nil => rfl
  | @cons _ own _ _ _ step _ induction =>
      rw [frames_append, List.map_append]
      refine TakeTurns.append ?_ induction
      have acts := step.frameStep
      generalize frames own = told at acts
      cases acts with
      | within stage _ _ => exact decide_eq_decide.mpr stage
      | call _ stage _ => exact congrArg (decide <| · = .betweenFrames) stage.symm
      | starts stage later _ => simp [TakeTurns, Standing.between, stage, later]
      | completes stage later _ => simp [TakeTurns, Standing.between, stage, later]

theorem Path.frameCount (path : Path permitted first log last) :
    last.machine.frameCount = first.machine.frameCount + (completions log).length := by
  rw [completions_eq_frames, List.length_map]
  induction path with
  | nil => rfl
  | @cons _ own _ _ _ step _ induction =>
      rw [frames_append, List.filter_append, List.length_append, induction, ← Nat.add_assoc]
      congr 1
      have acts := step.frameStep
      generalize frames own = told at acts
      cases acts with
      | within _ count _ => exact count
      | call _ _ machine =>
          rw [machine]
          rfl
      | starts _ _ machine =>
          rw [machine]
          rfl
      | completes _ _ machine =>
          rw [machine]
          rfl

/-! The setting of a machine, and the samples of a complete frame. -/

structure Keeps (setting : FrameSetting) (machine : Machine Cpu κ ρ) : Prop where
  setting : machine.board.frameSetting = setting
  tuned : machine.board.beeper.Tuned

structure Fits (setting : FrameSetting) (hook : FrameHook) (machine : Machine Cpu κ ρ) : Prop where
  setting : machine.board.frameSetting = setting
  samples : hook ≠ .newFrame →
    machine.board.beeper.samples.size = machine.board.beeper.samplesPerFrame

variable {setting : FrameSetting} {told : List (FrameHook × Machine Cpu κ ρ)}

omit [TapeProvider ρ] in
theorem Keeps.startFrame {machine : Machine Cpu κ ρ} (keeps : Keeps setting machine) :
    Keeps setting machine.startFrame where
  setting := machine.frameSetting_startFrame.trans keeps.setting
  tuned := tuned_startFrame keeps.tuned

omit [TapeProvider ρ] in
theorem Keeps.completeFrame {machine : Machine Cpu κ ρ} (keeps : Keeps setting machine) :
    Keeps setting machine.completeFrame ∧
      machine.completeFrame.board.beeper.samples.size =
        machine.completeFrame.board.beeper.samplesPerFrame := by
  have setting := machine.frameSetting_completeFrame.trans keeps.setting
  refine ⟨⟨setting, tuned_completeFrame keeps.tuned⟩, ?_⟩
  have same : machine.board.beeper.completeFrame.1.samplesPerFrame = _ :=
    Beeper.samplesPerFrame_of_make (Beeper.make_fillUntil _)
  rw [machine.shown_completeFrame.2, same, Beeper.size_completeFrame keeps.tuned]

omit [TapeProvider ρ] in
theorem FrameStep.keeps (acts : FrameStep permitted first last told)
    (keeps : Keeps setting first.machine) :
    Keeps setting last.machine ∧ ∀ frame ∈ told, Fits setting frame.1 frame.2 := by
  cases acts with
  | within _ _ same =>
      have setting := congrArg FrameView.setting same.view
      exact ⟨⟨setting.trans keeps.setting, same.tuned keeps.tuned⟩, List.forall_mem_nil _⟩
  | call _ _ machine =>
      rcases keeps with ⟨setting, tuned⟩
      rw [machine]
      exact ⟨⟨setting, tuned.sampleRate_pos, tuned.clock_pos, tuned.fits⟩, List.forall_mem_nil _⟩
  | starts _ _ machine =>
      have started := keeps.startFrame
      rw [← machine] at started
      rw [List.forall_mem_singleton]
      exact ⟨started, started.setting, fun completes => absurd rfl completes⟩
  | completes _ _ machine =>
      have completed := keeps.completeFrame
      rw [← machine] at completed
      rw [List.forall_mem_singleton]
      exact ⟨completed.1, completed.1.setting, fun _ => completed.2⟩

theorem Path.keeps (path : Path permitted first log last) (keeps : Keeps setting first.machine) :
    Keeps setting last.machine ∧ ∀ frame ∈ frames log, Fits setting frame.1 frame.2 := by
  induction path with
  | nil => exact ⟨keeps, List.forall_mem_nil _⟩
  | cons step _ induction =>
      rcases step.frameStep.keeps keeps with ⟨keeps, first⟩
      rcases induction keeps with ⟨keeps, rest⟩
      rw [frames_append, List.forall_mem_append]
      exact ⟨keeps, first, rest⟩

/-! The notices of the frames of a log. -/

def frameTold (hidden : Bool) (hook : FrameHook) (machine : Machine Cpu κ ρ) : List Notice :=
  let called := machine.board.frameSetting.cardSlots.map (Notice.cardCalled · hook.cardCall)
  match hook with
  | .newFrame => .frameStarted :: called
  | .completeFrame _ =>
    (if hidden then [] else [.picture machine.board.screen.pixels]) ++
      (if hidden then [] else [.sound machine.board.beeper.samples]) ++ called

structure Delivers (hidden : Bool) (machine : Machine Cpu κ ρ) : Prop where
  suppressed : machine.board.screen.suppressed = hidden
  muted : machine.board.beeper.muted = hidden

omit [TapeProvider ρ] in
theorem FrameStep.notices {hidden : Bool} (acts : FrameStep permitted first last told)
    (alike : ∀ options, permitted options → options.withoutDelivery = hidden)
    (delivers : Delivers hidden first.machine) :
    last.machine.board.frameView =
      first.machine.board.frameView.told (told.flatMap fun frame =>
        frameTold hidden frame.1 frame.2) := by
  rcases delivers with ⟨suppressed, muted⟩
  cases acts with
  | within _ _ same => exact same.view.trans (FrameView.told_nil _).symm
  | @call options allowed _ machine =>
      have prepared : (first.machine.prepare options).board.frameView =
          { first.machine.board.frameView with
            suppressed := options.withoutDelivery, muted := options.withoutDelivery } := rfl
      rw [machine, List.flatMap_nil, FrameView.told_nil, prepared, alike options allowed]
      simp only [Board.frameView, suppressed, muted]
  | starts _ _ machine =>
      have view := first.machine.frameView_startFrame
      have setting := first.machine.frameSetting_startFrame
      rw [← machine] at view setting
      rw [List.flatMap_singleton, view, ← setting]
      rfl
  | completes _ _ machine =>
      have view := first.machine.frameView_completeFrame
      have setting := first.machine.frameSetting_completeFrame
      rw [← machine] at view setting
      rw [suppressed, muted] at view
      rw [List.flatMap_singleton, view, ← setting]
      rfl

theorem Path.notices {hidden : Bool} (path : Path permitted first log last)
    (alike : ∀ options, permitted options → options.withoutDelivery = hidden)
    (delivers : Delivers hidden first.machine) :
    last.machine.board.frameView =
      first.machine.board.frameView.told ((frames log).flatMap fun frame =>
        frameTold hidden frame.1 frame.2) := by
  induction path with
  | nil => exact (FrameView.told_nil _).symm
  | cons step _ induction =>
      have view := step.frameStep.notices alike delivers
      have still : Delivers hidden _ :=
        ⟨(congrArg FrameView.suppressed view).trans delivers.suppressed,
          (congrArg FrameView.muted view).trans delivers.muted⟩
      rw [induction still, view, frames_append, List.flatMap_append, FrameView.told_told]

end Machine

end ZxSpectrum
