import ZxSpectrum.Proofs.Machine.History

namespace ZxSpectrum

/-! When a run stops. Before each instruction it polls the cancellation token, looks at the clock
and at the program counter, in this order, and between two frames it polls the token once more. So
no instruction is begun while there is a reason to stop, and the reason that a run gives is the
first one that there is. -/

inductive RunAct (Cpu κ ρ : Type)
  /-- The cancellation token is polled, and requests the end of the run or does not. -/
  | polled (requested : Bool)
  /-- An instruction, or the rest of one, is executed. -/
  | executing (machine : Machine Cpu κ ρ)

def RunAct.executing? {Cpu κ ρ : Type} : RunAct Cpu κ ρ → Option (Machine Cpu κ ρ)
  | .polled _ => none
  | .executing machine => some machine

theorem RunAct.getElem?_of_executing {Cpu κ ρ : Type} {acts : List (RunAct Cpu κ ρ)} {index : Nat}
    {machine : Machine Cpu κ ρ} (found : acts[index]?.bind RunAct.executing? = some machine) :
    acts[index]? = some (.executing machine) := by
  rcases Option.bind_eq_some_iff.mp found with ⟨act, there, executing⟩
  cases act with
  | polled _ => cases executing
  | executing _ =>
      cases executing
      exact there

/-! What is known after some acts of a run. -/

structure RunNotes (Cpu κ ρ : Type) where
  /-- How often the token has been polled. -/
  polls : Nat := 0
  /-- Its answers since the latest instruction. -/
  answers : List Bool := []
  /-- The machine before the latest instruction. -/
  begun : Option (Machine Cpu κ ρ) := none

namespace RunNotes

variable {Cpu κ ρ : Type}

def next (notes : RunNotes Cpu κ ρ) : RunAct Cpu κ ρ → RunNotes Cpu κ ρ
  | .polled requested =>
    { notes with polls := notes.polls + 1, answers := notes.answers ++ [requested] }
  | .executing machine => { polls := notes.polls, begun := some machine }

def ofActs (acts : List (RunAct Cpu κ ρ)) : RunNotes Cpu κ ρ :=
  acts.foldl next {}

/-- Since the latest instruction the token has been polled, and has never requested the end of the
run. -/
def GoAhead (notes : RunNotes Cpu κ ρ) : Prop :=
  notes.answers ≠ [] ∧ true ∉ notes.answers

instance (notes : RunNotes Cpu κ ρ) : Decidable notes.GoAhead :=
  inferInstanceAs (Decidable (_ ∧ _))

end RunNotes

theorem Completion.succeeded_eq_false_iff (reason : Completion) :
    reason.succeeded = false ↔ reason = .cancelled ∨ reason = .timeout ∨ reason = .faulted := by
  cases reason <;> decide

namespace Machine

variable {Cpu κ ρ : Type} [Processor Cpu]

def Overdue (machine : Machine Cpu κ ρ) (options : RunOptions) (started : Nat) : Prop :=
  0 < options.timeout ∧ options.timeout < Processor.tacts machine.cpu - started

def AtTermination (machine : Machine Cpu κ ρ) (options : RunOptions) : Prop :=
  ∃ address rom, options.mode = .untilPoint address rom ∧ machine.pc = address ∧
    (0x4000 ≤ machine.pc ∨ machine.board.memory.selectedRom = rom)

theorem timedOut_iff (machine : Machine Cpu κ ρ) (request : RunRequest) :
    machine.timedOut request ↔ machine.Overdue request.options request.started := by
  rw [timedOut, Bool.and_eq_true, decide_eq_true_iff, decide_eq_true_iff]
  rfl

theorem atPoint_iff (machine : Machine Cpu κ ρ) (options : RunOptions) :
    machine.atPoint options.mode ↔ machine.AtTermination options := by
  rw [AtTermination]
  generalize options.mode = mode
  cases mode with
  | untilPoint address rom =>
      rw [atPoint, Bool.and_eq_true, Bool.or_eq_true, decide_eq_true_iff, decide_eq_true_iff,
        decide_eq_true_iff]
      constructor
      · exact fun ⟨there, counts⟩ => ⟨address, rom, rfl, there, counts⟩
      · rintro ⟨_, _, same, there, counts⟩
        cases same
        exact ⟨there, counts⟩
  | debugger _ | untilHalt | untilFrameEnds | continuous =>
      exact iff_of_false Bool.false_ne_true fun ⟨_, _, other, _⟩ => nomatch other

theorem exists_askDebugger (machine : Machine Cpu κ ρ) (mode : RunMode) (executed : Nat) :
    ∃ stop debugger, machine.askDebugger mode executed = (stop, machine.withDebugger debugger) := by
  cases mode <;> exact ⟨_, _, rfl⟩

/-! What a run finds when it considers to stop before an instruction. -/

inductive Considered (machine : Machine Cpu κ ρ) (request : RunRequest) (progress : RunProgress) :
    Option Completion → Machine Cpu κ ρ → Prop
  | cancelled (requested : request.cancelled progress.polls = true) :
    Considered machine request progress (some .cancelled) machine
  | timeout (goAhead : request.cancelled progress.polls = false)
    (overdue : machine.Overdue request.options request.started) :
    Considered machine request progress (some .timeout) machine
  | pointReached (goAhead : request.cancelled progress.polls = false)
    (inTime : ¬machine.Overdue request.options request.started)
    (there : machine.AtTermination request.options) :
    Considered machine request progress (some .pointReached) machine
  | asked {stop debugger} (goAhead : request.cancelled progress.polls = false)
    (inTime : ¬machine.Overdue request.options request.started)
    (elsewhere : ¬machine.AtTermination request.options)
    (answer : machine.askDebugger request.options.mode progress.executed =
      (stop, machine.withDebugger debugger)) :
    Considered machine request progress (if stop then some .breakpointReached else none)
      (machine.withDebugger debugger)

theorem considered (machine : Machine Cpu κ ρ) (request : RunRequest) (progress : RunProgress) :
    Considered machine request progress (machine.stopReason request progress).1
      (machine.stopReason request progress).2 := by
  rw [stopReason]
  cases requested : request.cancelled progress.polls with
  | true => exact .cancelled requested
  | false =>
      by_cases overdue : machine.Overdue request.options request.started
      · rw [(machine.timedOut_iff request).mpr overdue]
        exact .timeout requested overdue
      rw [Bool.eq_false_of_not_eq_true fun late => overdue ((machine.timedOut_iff request).mp late)]
      by_cases there : machine.AtTermination request.options
      · rw [(machine.atPoint_iff request.options).mpr there]
        exact .pointReached requested overdue there
      rw [Bool.eq_false_of_not_eq_true fun arrived => there ((machine.atPoint_iff _).mp arrived)]
      rcases machine.exists_askDebugger request.options.mode progress.executed with
        ⟨stop, debugger, answer⟩
      dsimp only
      rw [answer]
      exact .asked requested overdue there answer

variable [Peripheral κ] [TapeProvider ρ]

/-- The reason that a run gives is one that it has. -/
inductive Justified (options : RunOptions) (started : Nat) (notes : RunNotes Cpu κ ρ) :
    Completion → Machine Cpu κ ρ → Prop
  | cancelled {machine} (requested : true ∈ notes.answers) :
    Justified options started notes .cancelled machine
  | timeout {machine} (between : Processor.midInstruction machine.cpu = false)
    (goAhead : notes.GoAhead) (overdue : machine.Overdue options started) :
    Justified options started notes .timeout machine
  | pointReached {machine} (between : Processor.midInstruction machine.cpu = false)
    (goAhead : notes.GoAhead) (inTime : ¬machine.Overdue options started)
    (there : machine.AtTermination options) :
    Justified options started notes .pointReached machine
  | breakpointReached {machine} (between : Processor.midInstruction machine.cpu = false)
    (goAhead : notes.GoAhead) (inTime : ¬machine.Overdue options started)
    (elsewhere : ¬machine.AtTermination options) :
    Justified options started notes .breakpointReached machine
  | halted {machine} (waits : options.mode = .untilHalt)
    (halted : Processor.halted machine.cpu = true) :
    Justified options started notes .halted machine
  | frameCompleted {machine} (finished : machine.frameFinished = true) :
    Justified options started notes .frameCompleted machine
  | faulted {machine begun stepped fault} (latest : notes.begun = some begun)
    (failed : begun.cycle = some (some fault, stepped)) (noted : machine.fault = some fault) :
    Justified options started notes .faulted machine

/-- An act of a run fits what is known before it: the token gives its answers one after another, and
no instruction is begun while there is a reason to stop. -/
def ActFits (options : RunOptions) (cancelled : Nat → Bool) (started : Nat)
    (notes : RunNotes Cpu κ ρ) : RunAct Cpu κ ρ → Prop
  | .polled requested => requested = cancelled notes.polls
  | .executing machine =>
    Processor.midInstruction machine.cpu = false →
      notes.GoAhead ∧ ¬machine.Overdue options started ∧ ¬machine.AtTermination options

/-! The acts of a run. -/

omit [Peripheral κ] [TapeProvider ρ] in
def boundaryActs (machine : Machine Cpu κ ρ) (request : RunRequest) (progress : RunProgress) :
    List (RunAct Cpu κ ρ) :=
  if Processor.midInstruction machine.cpu then [.executing machine]
  else
    .polled (request.cancelled progress.polls) ::
      match machine.stopReason request progress with
      | (some _, _) => []
      | (none, machine) => [.executing machine]

def turnActs (machine : Machine Cpu κ ρ) (request : RunRequest) (progress : RunProgress) :
    List (RunAct Cpu κ ρ) :=
  if progress.betweenFrames then
    .polled (request.cancelled progress.polls) ::
      if request.cancelled progress.polls then []
      else
        let machine := if machine.frameFinished then machine.startFrame else machine
        machine.boundaryActs request { progress with polls := progress.polls + 1 }
  else machine.boundaryActs request progress

def turnsActs (request : RunRequest) :
    (budget : Nat) → RunProgress → Machine Cpu κ ρ → List (RunAct Cpu κ ρ)
  | 0, _, _ => []
  | budget + 1, progress, machine =>
    machine.turnActs request progress ++
      match machine.turn request progress with
      | some (.goOn progress machine) => turnsActs request budget progress machine
      | _ => []

def runActs (machine : Machine Cpu κ ρ) (options : RunOptions) (cancelled : Nat → Bool)
    (budget : Nat) : List (RunAct Cpu κ ρ) :=
  turnsActs { options, cancelled, started := Processor.tacts machine.cpu } budget {}
    (machine.prepare options)

/-! The instructions among the acts are those in the log of the run. -/

theorem executing_boundaryActs (machine : Machine Cpu κ ρ) (request : RunRequest)
    (progress : RunProgress) :
    (machine.boundaryActs request progress).filterMap RunAct.executing? =
      executings (machine.boundaryLog request progress) := by
  rw [boundaryActs, boundaryLog]
  cases Processor.midInstruction machine.cpu with
  | true => exact (executings_advanceLog machine request progress).symm
  | false =>
      cases machine.stopReason request progress with
      | mk reason asked =>
          cases reason with
          | some reason => rfl
          | none => exact (executings_advanceLog asked request progress).symm

theorem executing_turnActs (machine : Machine Cpu κ ρ) (request : RunRequest)
    (progress : RunProgress) :
    (machine.turnActs request progress).filterMap RunAct.executing? =
      executings (machine.turnLog request progress) := by
  rw [turnActs, turnLog]
  cases progress.betweenFrames with
  | false => exact machine.executing_boundaryActs request progress
  | true =>
      cases request.cancelled progress.polls with
      | true => rfl
      | false =>
          cases machine.frameFinished with
          | false => exact machine.executing_boundaryActs request _
          | true =>
              refine (machine.startFrame.executing_boundaryActs request _).trans ?_
              refine Eq.trans ?_ executings_append.symm
              rw [executings_startFrameLog, List.nil_append]

theorem executing_turnsActs {request : RunRequest} (budget : Nat) {progress : RunProgress}
    {machine : Machine Cpu κ ρ} :
    (turnsActs request budget progress machine).filterMap RunAct.executing? =
      executings (turnsLog request budget progress machine) := by
  induction budget generalizing progress machine with
  | zero => rfl
  | succ budget induction =>
      rw [turnsActs, turnsLog, List.filterMap_append, executings_append, executing_turnActs]
      congr 1
      cases machine.turn request progress with
      | none => rfl
      | some turn =>
          cases turn with
          | goOn progress after => exact induction
          | stop reason after => rfl

theorem executing_runActs (machine : Machine Cpu κ ρ) (options : RunOptions)
    (cancelled : Nat → Bool) (budget : Nat) :
    (machine.runActs options cancelled budget).filterMap RunAct.executing? =
      executings (machine.runLog options cancelled budget) :=
  executing_turnsActs budget

theorem justified_of_executeInstruction {machine after : Machine Cpu κ ρ} {options : RunOptions}
    {started : Nat} {notes : RunNotes Cpu κ ρ} {reason : Completion}
    (latest : notes.begun = some machine)
    (stopped : machine.executeInstruction options = some (some reason, after)) :
    Justified options started notes reason after := by
  rw [executeInstruction_eq] at stopped
  rcases Option.bind_eq_some_iff.mp stopped with ⟨⟨fault, stepped⟩, cycled, rest⟩
  cases fault with
  | some fault =>
      cases rest
      exact .faulted latest cycled rfl
  | none =>
      replace rest : stepped.settle options = some (some reason, after) := rest
      rw [settle] at rest
      split at rest
      · next waits =>
          cases rest
          exact .halted waits.1 waits.2
      · rcases Option.bind_eq_some_iff.mp rest with ⟨followed, -, rest⟩
        cases rest

/-- The acts of a turn fit what is known before it. What is known after them justifies the end of
the run, or starts afresh with the next turn. -/
def Conducted (request : RunRequest) (notes : RunNotes Cpu κ ρ) (acts : List (RunAct Cpu κ ρ))
    (turn : Option (Turn Cpu κ ρ)) : Prop :=
  Monitored RunNotes.next (ActFits request.options request.cancelled request.started) notes acts ∧
    match turn with
    | none => True
    | some (.stop reason after) =>
      Justified request.options request.started (acts.foldl RunNotes.next notes) reason after
    | some (.goOn progress _) =>
      (acts.foldl RunNotes.next notes).answers = [] ∧
        (acts.foldl RunNotes.next notes).polls = progress.polls

theorem Conducted.after {request : RunRequest} {notes : RunNotes Cpu κ ρ} {act : RunAct Cpu κ ρ}
    {acts : List (RunAct Cpu κ ρ)} {turn : Option (Turn Cpu κ ρ)}
    (conducted : Conducted request (notes.next act) acts turn)
    (fits : ActFits request.options request.cancelled request.started notes act) :
    Conducted request notes (act :: acts) turn :=
  ⟨⟨fits, conducted.1⟩, conducted.2⟩

theorem advance_conducted {machine : Machine Cpu κ ρ} {request : RunRequest}
    {progress : RunProgress} {notes : RunNotes Cpu κ ρ}
    (fits : ActFits request.options request.cancelled request.started notes (.executing machine))
    (polls : notes.polls = progress.polls) :
    Conducted request notes [.executing machine] (machine.advance request progress) := by
  refine ⟨⟨fits, trivial⟩, ?_⟩
  have advanced := machine.advanced request progress
  cases result : machine.advance request progress with
  | none => trivial
  | some turn =>
      rw [result] at advanced
      cases advanced with
      | stopped stopped => exact justified_of_executeInstruction rfl stopped
      | inFrame _ _ => exact ⟨rfl, polls⟩
      | finished _ _ => exact ⟨rfl, polls⟩
      | ended _ finished => exact .frameCompleted finished

theorem boundary_conducted {machine : Machine Cpu κ ρ} {request : RunRequest}
    {progress : RunProgress} {notes : RunNotes Cpu κ ρ} (clear : true ∉ notes.answers)
    (polls : notes.polls = progress.polls) :
    Conducted request notes (machine.boundaryActs request progress)
      (machine.turnAtBoundary request progress) := by
  rw [boundaryActs, turnAtBoundary]
  cases between : Processor.midInstruction machine.cpu with
  | true =>
      have within : Processor.midInstruction machine.cpu ≠ false := by rw [between]; decide
      exact advance_conducted (fun begins => absurd begins within) polls
  | false =>
      let asked := notes.next (.polled (request.cancelled progress.polls))
      have fits : ActFits request.options request.cancelled request.started notes
          (.polled (request.cancelled progress.polls)) := congrArg request.cancelled polls.symm
      have goAhead (goesOn : request.cancelled progress.polls = false) : asked.GoAhead := by
        refine ⟨List.append_ne_nil_of_right_ne_nil _ (List.cons_ne_nil _ _), ?_⟩
        change true ∉ notes.answers ++ [request.cancelled progress.polls]
        rw [goesOn, List.mem_append]
        exact fun requested => requested.elim clear (by decide)
      have considered := machine.considered request progress
      dsimp only [Bool.false_eq_true, if_false]
      cases stop : machine.stopReason request progress with
      | mk reason after =>
          rw [stop] at considered
          cases considered with
          | cancelled requested =>
              refine ⟨⟨fits, trivial⟩, .cancelled (List.mem_append_right _ ?_)⟩
              exact List.mem_singleton.mpr requested.symm
          | timeout goesOn overdue =>
              exact ⟨⟨fits, trivial⟩, .timeout between (goAhead goesOn) overdue⟩
          | pointReached goesOn inTime there =>
              exact ⟨⟨fits, trivial⟩, .pointReached between (goAhead goesOn) inTime there⟩
          | @asked stops debugger goesOn inTime elsewhere _ =>
              cases stops with
              | true =>
                  exact ⟨⟨fits, trivial⟩,
                    .breakpointReached between (goAhead goesOn) inTime elsewhere⟩
              | false =>
                  let asks := machine.withDebugger debugger
                  let polled := { progress with polls := progress.polls + 1 }
                  have advances : Conducted request asked [.executing asks]
                      (asks.advance request polled) :=
                    advance_conducted (fun _ => ⟨goAhead goesOn, inTime, elsewhere⟩)
                      (congrArg (· + 1) polls)
                  exact advances.after fits

theorem turn_conducted {machine : Machine Cpu κ ρ} {request : RunRequest}
    {progress : RunProgress} {notes : RunNotes Cpu κ ρ} (afresh : notes.answers = [])
    (polls : notes.polls = progress.polls) :
    Conducted request notes (machine.turnActs request progress)
      (machine.turn request progress) := by
  rw [turnActs, turn]
  cases progress.betweenFrames with
  | false =>
      have clear : true ∉ notes.answers := by rw [afresh]; exact List.not_mem_nil
      exact boundary_conducted clear polls
  | true =>
      have fits : ActFits request.options request.cancelled request.started notes
          (.polled (request.cancelled progress.polls)) := congrArg request.cancelled polls.symm
      refine Conducted.after ?_ fits
      dsimp only
      have answers : (notes.next (.polled (request.cancelled progress.polls))).answers =
          [request.cancelled progress.polls] := congrArg (· ++ _) afresh
      cases requested : request.cancelled progress.polls with
      | true =>
          rw [requested] at answers
          exact ⟨trivial, .cancelled (answers ▸ List.mem_cons_self)⟩
      | false =>
          rw [requested] at answers
          exact boundary_conducted (answers ▸ by decide) (congrArg (· + 1) polls)

theorem turns_conducted {request : RunRequest} (budget : Nat) {progress : RunProgress}
    {machine : Machine Cpu κ ρ} {notes : RunNotes Cpu κ ρ} (afresh : notes.answers = [])
    (polls : notes.polls = progress.polls) :
    Monitored RunNotes.next (ActFits request.options request.cancelled request.started) notes
        (turnsActs request budget progress machine) ∧
      ∀ reason after, turns request budget progress machine = some (some reason, after) →
        Justified request.options request.started
          ((turnsActs request budget progress machine).foldl RunNotes.next notes) reason after := by
  induction budget generalizing progress machine notes with
  | zero => exact ⟨trivial, fun _ _ impossible => by cases impossible⟩
  | succ budget induction =>
      have conducted : Conducted request notes (machine.turnActs request progress)
          (machine.turn request progress) := turn_conducted afresh polls
      rw [turns_succ, turnsActs, monitored_append, List.foldl_append]
      cases taken : machine.turn request progress with
      | none =>
          refine ⟨⟨conducted.1, trivial⟩, fun _ _ ended => ?_⟩
          exact absurd ended.symm (Option.some_ne_none _)
      | some turn =>
          rw [taken] at conducted
          cases turn with
          | stop reason after =>
              refine ⟨⟨conducted.1, trivial⟩, fun _ _ ended => ?_⟩
              cases ended
              exact conducted.2
          | goOn progress after =>
              rcases induction conducted.2.1 conducted.2.2 with ⟨later, justified⟩
              exact ⟨⟨conducted.1, later⟩, justified⟩

theorem Justified.withCompletion {options : RunOptions} {started : Nat}
    {notes : RunNotes Cpu κ ρ} {reason : Completion} {after : Machine Cpu κ ρ}
    (justified : Justified options started notes reason after) :
    Justified options started notes reason (after.withCompletion reason) := by
  cases justified with
  | cancelled requested => exact .cancelled requested
  | timeout between goAhead overdue => exact .timeout between goAhead overdue
  | pointReached between goAhead inTime there => exact .pointReached between goAhead inTime there
  | breakpointReached between goAhead inTime elsewhere =>
      exact .breakpointReached between goAhead inTime elsewhere
  | halted waits halted => exact .halted waits halted
  | frameCompleted finished => exact .frameCompleted finished
  | faulted latest failed noted => exact .faulted latest failed noted

theorem run_conducted (machine : Machine Cpu κ ρ) (options : RunOptions) (cancelled : Nat → Bool)
    (budget : Nat) :
    Monitored RunNotes.next (ActFits options cancelled (Processor.tacts machine.cpu)) {}
        (machine.runActs options cancelled budget) ∧
      ∀ reason after, machine.run options cancelled budget = some (some reason, after) →
        Justified options (Processor.tacts machine.cpu)
            (RunNotes.ofActs (machine.runActs options cancelled budget)) reason after ∧
          after.completion = reason := by
  let request : RunRequest := ⟨options, cancelled, Processor.tacts machine.cpu⟩
  have conducted := @turns_conducted _ _ _ _ _ _ request budget {} (machine.prepare options) {}
    rfl rfl
  refine ⟨conducted.1, fun reason after ran => ?_⟩
  rcases Option.bind_eq_some_iff.mp ran with ⟨⟨completion, ended⟩, turned, rest⟩
  cases completion with
  | none => cases rest
  | some reason =>
      cases rest
      exact ⟨(conducted.2 reason ended turned).withCompletion, rfl⟩

/-- A run polls the token again and again between the instructions in its log. It begins none of
them where the token has requested the end of the run since the one before, where it has taken too
long, or where it is to stop, and it gives the first of these reasons that there is. -/
theorem run_stops_when_due (machine : Machine Cpu κ ρ) (options : RunOptions)
    (cancelled : Nat → Bool) (budget : Nat) :
    let started := Processor.tacts machine.cpu
    let acts := machine.runActs options cancelled budget
    acts.filterMap RunAct.executing? = executings (machine.runLog options cancelled budget) ∧
      (∀ before requested later, acts = before ++ .polled requested :: later →
        requested = cancelled (RunNotes.ofActs before).polls) ∧
      (∀ before begun later, acts = before ++ .executing begun :: later →
        Processor.midInstruction begun.cpu = false →
          (RunNotes.ofActs before).GoAhead ∧ ¬begun.Overdue options started ∧
            ¬begun.AtTermination options) ∧
      ∀ reason after, machine.run options cancelled budget = some (some reason, after) →
        Justified options started (RunNotes.ofActs acts) reason after ∧
          after.completion = reason ∧
          (reason.succeeded = false ↔
            reason = .cancelled ∨ reason = .timeout ∨ reason = .faulted) := by
  intro started acts
  rcases machine.run_conducted options cancelled budget with ⟨monitored, justified⟩
  refine ⟨machine.executing_runActs options cancelled budget,
    fun before requested later split => ?_, fun before begun later split => ?_,
    fun reason after ran => ?_⟩
  · change Monitored _ _ _ acts at monitored
    rw [split] at monitored
    exact monitored.fits
  · change Monitored _ _ _ acts at monitored
    rw [split] at monitored
    exact monitored.fits
  · rcases justified reason after ran with ⟨justified, noted⟩
    exact ⟨justified, noted, reason.succeeded_eq_false_iff⟩

theorem run_stops_when_due_oneLine :
    let options : RunOptions := { timeout := 9 }
    let started := Processor.tacts oneLine.cpu
    let acts := oneLine.runActs options (fun _ => false) 9
    let before := acts.take 6
    (∃ begun, acts = before ++ .executing begun :: acts.drop 7 ∧
      Processor.midInstruction begun.cpu = false ∧ (RunNotes.ofActs before).GoAhead ∧
      ¬begun.Overdue options started ∧ ¬begun.AtTermination options) ∧
    ∃ after, oneLine.run options (fun _ => false) 9 = some (some .timeout, after) ∧
      Justified options started (RunNotes.ofActs acts) .timeout after ∧
      after.completion = .timeout := by
  intro options started acts before
  obtain ⟨begins, ends⟩ :
      ((acts[6]?.bind RunAct.executing?).any (Processor.midInstruction ·.cpu = false) = true) ∧
        (oneLine.run options (fun _ => false) 9).any (·.1 = some .timeout) = true := by
    decide +kernel
  rcases run_stops_when_due oneLine options (fun _ => false) 9 with ⟨-, -, begun, stopped⟩
  constructor
  · rcases (Option.any_eq_true _ _).mp begins with ⟨executing, found, between⟩
    have between := of_decide_eq_true between
    have split := split_of_getElem? (RunAct.getElem?_of_executing found)
    exact ⟨executing, split, between, begun _ _ _ split between⟩
  · rcases (Option.any_eq_true _ _).mp ends with ⟨⟨reason, after⟩, ran, timedOut⟩
    cases of_decide_eq_true timedOut
    rcases stopped _ _ ran with ⟨justified, noted, -⟩
    exact ⟨after, ran, justified, noted⟩

end Machine

end ZxSpectrum
