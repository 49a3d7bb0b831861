import ZxSpectrum.Proofs.Machine.Clock
import ZxSpectrum.Proofs.Machine.History

namespace ZxSpectrum

/-! The end of a frame. An instruction that runs past the end of its frame finishes it, and the
frame is completed and the next one started before another instruction is begun. Only a run that
is broken off by a halt or a fault does not look at the clock any more. -/

namespace Machine

variable {Cpu κ ρ : Type} [Processor Cpu]

variable [TapeProvider ρ] [Peripheral κ]

/-! What a history says about the machine that it has come to. -/

/-- The machine that has executed the latest instruction, and whether a halt or a fault has broken
off its run. -/
structure Trail (Cpu κ ρ : Type) where
  last : Option (Machine Cpu κ ρ) := none
  brokenOff : Bool := false

namespace Trail

def next (trail : Trail Cpu κ ρ) : Event Cpu κ ρ → Trail Cpu κ ρ
  | .executing machine => { last := some machine }
  | .ended completion _ =>
    { trail with
      brokenOff :=
        trail.brokenOff || completion = some .halted || completion = some .faulted }

/-- If the latest instruction has run past the end of its frame, that frame is completed, and the
interrupt window is as a frame starts with it. -/
def Completes (trail : Trail Cpu κ ρ) (frameCount : Nat) (window : Interrupt) : Prop :=
  ∀ last stepped, trail.last = some last → last.cycle = some (none, stepped) →
    stepped.frameTacts ≤ stepped.frameTact →
      frameCount = last.frameCount + 1 ∧ window = stepped.interrupt.newFrame

/-! The account of frames agrees with a trail. -/

structure Agrees (trail : Trail Cpu κ ρ) (machine : Machine Cpu κ ρ) : Prop where
  multiplier_pos : 0 < machine.board.multiplier
  carries : machine.frameFinished = true → machine.Carries
  inFrame : trail.brokenOff = false → Processor.midInstruction machine.cpu = false →
    machine.frameFinished = false → machine.frameTact < machine.frameTacts
  completes : trail.brokenOff = false → Processor.midInstruction machine.cpu = false →
    trail.Completes machine.frameCount
      (if machine.frameFinished then machine.interrupt.newFrame else machine.interrupt)

def Fits (trail : Trail Cpu κ ρ) : Event Cpu κ ρ → Prop
  | .executing machine =>
    trail.brokenOff = false → Processor.midInstruction machine.cpu = false →
      machine.frameTact < machine.frameTacts ∧
        trail.Completes machine.frameCount machine.interrupt
  | .ended _ _ => True

variable {trail : Trail Cpu κ ρ} {machine after : Machine Cpu κ ρ}

theorem Agrees.of_settled (agrees : trail.Agrees machine) (settled : Settled machine after)
    (cpu : after.cpu = machine.cpu) (finished : after.frameFinished = machine.frameFinished) :
    trail.Agrees after where
  multiplier_pos := settled.multiplier ▸ agrees.multiplier_pos
  carries ended :=
    settled.toSameFrame.carries settled.tacts.ge (agrees.carries (finished.symm.trans ended))
  inFrame unbroken between running := by
    rw [settled.frameTact, settled.frameTacts]
    exact agrees.inFrame unbroken (cpu ▸ between) (finished.symm.trans running)
  completes unbroken between := by
    rw [settled.frameCount, settled.interrupt, finished]
    exact agrees.completes unbroken (cpu ▸ between)

theorem Agrees.ended (agrees : trail.Agrees machine) (completion : Option Completion)
    (stopped : Machine Cpu κ ρ) : (trail.next (.ended completion stopped)).Agrees machine := by
  have unbroken (still : (trail.next (.ended completion stopped)).brokenOff = false) :
      trail.brokenOff = false :=
    (Bool.or_eq_false_iff.mp (Bool.or_eq_false_iff.mp still).1).1
  exact ⟨agrees.multiplier_pos, agrees.carries, fun still => agrees.inFrame (unbroken still),
    fun still => agrees.completes (unbroken still)⟩

theorem Agrees.startFrame (agrees : trail.Agrees machine) (finished : machine.frameFinished = true) :
    trail.Agrees machine.startFrame where
  multiplier_pos := machine.multiplier_startFrame ▸ agrees.multiplier_pos
  carries running := Bool.noConfusion running
  inFrame _ _ _ := by
    have carries := agrees.carries finished
    rw [machine.frameTacts_startFrame]
    exact (frameTact_startFrame_le carries).trans_lt carries.overflow_lt
  completes unbroken between := by
    have completes := agrees.completes unbroken between
    rw [if_pos finished] at completes
    exact completes

/-! An instruction looks at the clock, or it breaks off its run. -/

theorem agrees_of_executed [LawfulProcessor Cpu] {executing : Machine Cpu κ ρ}
    {options : RunOptions} (executed : Executed executing options none after)
    (multiplier_pos : 0 < executing.board.multiplier) :
    (after.frameFinished = false → Agrees { last := some executing } after) ∧
      (after.frameFinished = true → Agrees { last := some executing } after.completeFrame) := by
  rcases executed.settled with ⟨fault, stepped, cycled, settled, completes⟩
  rcases completes rfl with ⟨rfl, looks⟩
  have frame := executed.sameFrame
  have positive : 0 < after.board.multiplier := frame.multiplier ▸ multiplier_pos
  constructor
  · intro running
    refine ⟨positive, fun finished => ?_, fun _ between _ => looks.inFrame running between,
      fun _ between last other same again past => ?_⟩
    · exact absurd (running.symm.trans finished) Bool.false_ne_true
    · cases same
      cases cycled.symm.trans again
      rw [← settled.frameTacts, ← settled.frameTact] at past
      exact absurd past (Nat.not_le.mpr (looks.inFrame running between))
  · intro finished
    refine ⟨?_, fun _ => completeFrame_carries positive, fun _ _ running => ?_,
      fun _ _ last other same again _ => ?_⟩
    · exact after.multiplier_completeFrame ▸ positive
    · exact absurd (finished.symm.trans running) Bool.noConfusion
    · cases same
      cases cycled.symm.trans again
      have count : after.frameCount = executing.frameCount :=
        settled.frameCount.trans (congrArg Account.frameCount (account_cycle cycled))
      have still : after.completeFrame.frameFinished = true := finished
      rw [if_pos still]
      exact ⟨congrArg (· + 1) count, congrArg Interrupt.newFrame settled.interrupt⟩

theorem ends_of_broken {executing : Machine Cpu κ ρ} {options : RunOptions} {reason : Completion}
    (executed : executing.executeInstruction options = some (some reason, after))
    (multiplier_pos : 0 < executing.board.multiplier) (running : executing.frameFinished = false) :
    Ends next Fits Agrees { last := some executing } (some reason)
      (after.withCompletion reason) := by
  have frame := (executed_of_executeInstruction executed).sameFrame
  have running := (frameFinished_executeInstruction executed).trans running
  let trail : Trail Cpu κ ρ := { last := some executing }
  -- The clock has not been looked at, so that nothing is known of the frame tact.
  have broken : (trail.next (.ended (some reason) (after.withCompletion reason))).brokenOff ≠
      false := by
    cases executed_of_executeInstruction executed <;> exact Bool.true_eq_false.mp
  refine ⟨trivial, frame.multiplier ▸ multiplier_pos, fun finished => ?_,
    fun still => absurd still broken, fun still => absurd still broken⟩
  exact absurd (running.symm.trans finished) Bool.false_ne_true

/-! A turn stands where the account agrees, and within a frame unless it stands between two. -/

def Stands (_ : RunOptions) (trail : Trail Cpu κ ρ) (progress : RunProgress)
    (machine : Machine Cpu κ ρ) : Prop :=
  trail.Agrees machine ∧ (machine.frameFinished = true → progress.betweenFrames = true)

theorem Stands.entered {options : RunOptions} {progress entered : RunProgress}
    {begun : Machine Cpu κ ρ} (stands : Stands options trail progress machine)
    (enters : machine.Entered progress entered begun) :
    trail.Agrees begun ∧ begun.frameFinished = false := by
  cases enters with
  | within within =>
      refine ⟨stands.1, Bool.eq_false_iff.mpr fun finished => ?_⟩
      exact absurd (within.symm.trans (stands.2 finished)) Bool.false_ne_true
  | resumed running => exact ⟨stands.1, running⟩
  | started finished => exact ⟨stands.1.startFrame finished, rfl⟩

theorem Agrees.asked {request : RunRequest} {progress : RunProgress} {reason : Option Completion}
    (agrees : trail.Agrees machine) (asks : machine.stopReason request progress = (reason, after)) :
    trail.Agrees after := by
  rcases machine.stopReason_eq request progress with ⟨debugger, same⟩
  rw [asks] at same
  subst same
  exact agrees.of_settled ⟨⟨rfl, rfl, rfl, rfl⟩, rfl, rfl, rfl⟩ rfl rfl

theorem Agrees.admitted {request : RunRequest} {progress admitted : RunProgress}
    (agrees : trail.Agrees machine) (running : machine.frameFinished = false)
    (admits : machine.Admitted request progress admitted after) :
    trail.Agrees after ∧ after.frameFinished = false := by
  cases admits with
  | within _ => exact ⟨agrees, running⟩
  | asked _ goesOn =>
      refine ⟨agrees.asked goesOn, ?_⟩
      rcases machine.stopReason_eq request progress with ⟨debugger, same⟩
      rw [goesOn] at same
      subst same
      exact running

theorem Agrees.ends {reason : Completion} (agrees : trail.Agrees machine) :
    Ends next Fits Agrees trail (some reason) (machine.withCompletion reason) :=
  ⟨trivial, (agrees.ended _ _).of_settled ⟨⟨rfl, rfl, rfl, rfl⟩, rfl, rfl, rfl⟩ rfl rfl⟩

theorem watch [LawfulProcessor Cpu] :
    Watch (fun _ => True) next (Fits : Trail Cpu κ ρ → Event Cpu κ ρ → Prop) Agrees Stands where
  begins _ rests :=
    ⟨rests.of_settled ⟨⟨rfl, rfl, rfl, rfl⟩, rfl, rfl, rfl⟩ rfl rfl, fun _ => rfl⟩
  fits turned stands := by
    cases turned with
    | cancelled => trivial
    | stopped _ _ _ => trivial
    | executed enters admits _ =>
        rcases stands.entered enters with ⟨agrees, running⟩
        rcases agrees.admitted running admits with ⟨agrees, running⟩
        refine ⟨fun unbroken between => ⟨agrees.inFrame unbroken between running, ?_⟩, trivial⟩
        have completes := agrees.completes unbroken between
        rwa [running] at completes
  goesOn turned stands := by
    cases turned with
    | executed enters admits advances =>
        rcases stands.entered enters with ⟨agrees, running⟩
        rcases agrees.admitted running admits with ⟨agrees, running⟩
        cases advances with
        | inFrame completed running =>
            have executed := executed_of_executeInstruction completed
            refine ⟨(agrees_of_executed executed agrees.multiplier_pos).1 running, fun ended => ?_⟩
            exact absurd (running.symm.trans ended) Bool.false_ne_true
        | finished completed finished =>
            have executed := executed_of_executeInstruction completed
            exact ⟨(agrees_of_executed executed agrees.multiplier_pos).2 finished, fun _ => rfl⟩
  stops turned stands := by
    cases turned with
    | cancelled => exact stands.1.ends
    | stopped enters _ stops => exact ((stands.entered enters).1.asked stops).ends
    | executed enters admits advances =>
        rcases stands.entered enters with ⟨agrees, running⟩
        rcases agrees.admitted running admits with ⟨agrees, running⟩
        cases advances with
        | stopped stopped => exact ends_of_broken stopped agrees.multiplier_pos running
        | ended completed finished =>
            have executed := executed_of_executeInstruction completed
            exact ((agrees_of_executed executed agrees.multiplier_pos).2 finished).ends
  unfinished stands := ⟨trivial, stands.1.ended _ _⟩

end Trail

/-- From power-on, whatever the host asks for, an instruction is begun within its frame, and if the
one before it has run past the end of a frame, that frame is completed and the next one started. A
run that has been broken off by a halt or a fault leaves this to be made up for by the next. -/
theorem history_begins_within_frames [LawfulProcessor Cpu] {machine : Machine Cpu κ ρ}
    (poweredOn : machine.PoweredOn) (calls : List RunCall) {before after : List (Event Cpu κ ρ)}
    {executing : Machine Cpu κ ρ}
    (split : machine.history calls = before ++ .executing executing :: after)
    (between : Processor.midInstruction executing.cpu = false)
    (unbroken : (before.foldl Trail.next {}).brokenOff = false) :
    executing.frameTact < executing.frameTacts ∧
      ∀ last stepped, (before.foldl Trail.next {}).last = some last →
        last.cycle = some (none, stepped) → stepped.frameTacts ≤ stepped.frameTact →
          executing.frameCount = last.frameCount + 1 ∧
            executing.interrupt = stepped.interrupt.newFrame := by
  have agrees : Trail.Agrees {} machine :=
    ⟨poweredOn.multiplier_pos, fun _ => poweredOn.carries,
      fun _ _ running => absurd (poweredOn.frameFinished.symm.trans running) Bool.noConfusion,
      fun _ _ last _ impossible => nomatch impossible⟩
  have monitored : Monitored Trail.next Trail.Fits {} (machine.history calls) :=
    Trail.watch.history (fun _ _ => trivial) agrees
  rw [split] at monitored
  exact monitored.fits unbroken between

theorem history_begins_within_frames_oneLine :
    let machine := oneLine.reset
    let calls : List RunCall :=
      [{ options := { mode := .debugger .stepInto }, budget := 9 },
        { options := { mode := .untilFrameEnds }, budget := 9 },
        { options := { mode := .debugger .stepInto }, budget := 9 }]
    let before := (machine.history calls).take 7
    machine.PoweredOn ∧ ∃ executing last stepped,
      machine.history calls =
        before ++ .executing executing :: (machine.history calls).drop 8 ∧
      Processor.midInstruction executing.cpu = false ∧
      (before.foldl Trail.next {}).brokenOff = false ∧
      executing.frameTact < executing.frameTacts ∧
      (before.foldl Trail.next {}).last = some last ∧ last.cycle = some (none, stepped) ∧
      stepped.frameTacts ≤ stepped.frameTact ∧ executing.frameCount = last.frameCount + 1 := by
  intro machine calls before
  have poweredOn : machine.PoweredOn := .reset (by decide)
  have reached : ((machine.history calls)[7]?.bind Event.executing?).any
      (Processor.midInstruction ·.cpu = false) = true := by
    decide +kernel
  have ran : (before.foldl Trail.next {}).last.any (·.cycle.any fun result =>
      result.1 = none ∧ result.2.frameTacts ≤ result.2.frameTact) = true := by
    decide +kernel
  have unbroken : (before.foldl Trail.next {}).brokenOff = false := by decide +kernel
  rcases (Option.any_eq_true _ _).mp reached with ⟨executing, found, between⟩
  rcases (Option.any_eq_true _ _).mp ran with ⟨last, latest, cycles⟩
  rcases (Option.any_eq_true _ _).mp cycles with ⟨⟨fault, stepped⟩, cycled, finishes⟩
  rcases of_decide_eq_true finishes with ⟨rfl, past⟩
  have split := split_of_getElem? (Event.getElem?_of_executing found)
  have between := of_decide_eq_true between
  rcases history_begins_within_frames poweredOn calls split between unbroken with
    ⟨within, completes⟩
  exact ⟨poweredOn, executing, last, stepped, split, between, unbroken, within, latest, cycled,
    past, (completes last stepped latest cycled past).1⟩

/-- Every instruction, whatever it is, begins within its frame. -/
def BeginsWithinFrames (history : List (Event Cpu κ ρ)) : Prop :=
  ∀ executing, .executing executing ∈ history → executing.frameTact < executing.frameTacts

omit [TapeProvider ρ] [Peripheral κ] in
theorem not_beginsWithinFrames {history : List (Event Cpu κ ρ)} {index : Nat}
    (late : (history[index]?.bind Event.executing?).any
      (fun executing => executing.frameTacts ≤ executing.frameTact) = true) :
    ¬ BeginsWithinFrames history := by
  intro within
  rcases (Option.any_eq_true _ _).mp late with ⟨executing, found, late⟩
  refine absurd (within executing ?_) (Nat.not_lt.mpr (of_decide_eq_true late))
  rw [split_of_getElem? (Event.getElem?_of_executing found)]
  exact List.mem_append_right _ List.mem_cons_self

/-- A halt at the end of a frame breaks off a run that waits for it, and the next run executes an
instruction in the frame that is over already. So does the rest of an instruction that has been
begun before the end of its frame. -/
theorem history_begins_past_frame :
    let halting := (oneLine.programmed [0, 0, 0, 0, 0x76]).reset
    let untilHalt : List RunCall :=
      [{ options := { mode := .untilHalt }, budget := 9 },
        { options := { mode := .debugger .stepInto }, budget := 9 }]
    let interrupted := (oneLine.midInstructionAt [5]).reset
    let untilFrameEnds : List RunCall :=
      [{ options := { mode := .untilFrameEnds }, budget := 9 }]
    (halting.PoweredOn ∧
      (halting.history untilHalt).filterMap Event.completion? = [.halted, .frameCompleted] ∧
      ¬ BeginsWithinFrames (halting.history untilHalt)) ∧
    (interrupted.PoweredOn ∧
      (interrupted.history untilFrameEnds).filterMap Event.completion? = [.frameCompleted] ∧
      ¬ BeginsWithinFrames (interrupted.history untilFrameEnds)) := by
  intro halting untilHalt interrupted untilFrameEnds
  refine ⟨⟨.reset (by decide), by decide +kernel, ?_⟩, ⟨.reset (by decide), by decide +kernel, ?_⟩⟩
  · have late : ((halting.history untilHalt)[6]?.bind Event.executing?).any
        (fun executing => executing.frameTacts ≤ executing.frameTact) = true := by
      decide +kernel
    exact not_beginsWithinFrames late
  · have late : ((interrupted.history untilFrameEnds)[5]?.bind Event.executing?).any
        (fun executing => executing.frameTacts ≤ executing.frameTact) = true := by
      decide +kernel
    exact not_beginsWithinFrames late

end Machine

end ZxSpectrum
