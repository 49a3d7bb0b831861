import ZxSpectrum.Proofs.Machine.Cuts

namespace ZxSpectrum

/-! Histories: the instructions that a session executes and the ends of its runs, for what depends
on how a run ended. A history is watched by a monitor, and what the monitor relies on is shown turn
by turn. -/

theorem split_of_getElem? {α : Type} {items : List α} {index : Nat} {item : α}
    (there : items[index]? = some item) :
    items = items.take index ++ item :: items.drop (index + 1) := by
  rcases List.getElem?_eq_some_iff.mp there with ⟨short, there⟩
  rw [← there, ← List.drop_eq_getElem_cons short]
  exact (List.take_append_drop index items).symm

theorem split_of_getElem?_twice {α : Type} {items : List α} {index later : Nat} {item next : α}
    (there : items[index]? = some item) (thereNext : (items.drop (index + 1))[later]? = some next) :
    items = items.take index ++ item ::
      ((items.drop (index + 1)).take later ++
        next :: (items.drop (index + 1)).drop (later + 1)) := by
  rw [← split_of_getElem? thereNext]
  exact split_of_getElem? there

inductive Event (Cpu κ ρ : Type)
  /-- An instruction, or the rest of one, is about to be executed. -/
  | executing (machine : Machine Cpu κ ρ)
  /-- A run has ended. One that has not ended of its own accord has no completion. -/
  | ended (completion : Option Completion) (machine : Machine Cpu κ ρ)

namespace Event

variable {Cpu κ ρ : Type}

def machine : Event Cpu κ ρ → Machine Cpu κ ρ
  | .executing machine | .ended _ machine => machine

def executing? : Event Cpu κ ρ → Option (Machine Cpu κ ρ)
  | .executing machine => some machine
  | .ended _ _ => none

def completion? : Event Cpu κ ρ → Option Completion
  | .executing _ => none
  | .ended completion _ => completion

theorem eq_executing {event : Event Cpu κ ρ} {machine : Machine Cpu κ ρ}
    (found : event.executing? = some machine) : event = .executing machine := by
  cases event with
  | executing _ =>
      cases found
      rfl
  | ended _ _ => exact nomatch found

theorem getElem?_of_executing {history : List (Event Cpu κ ρ)} {index : Nat}
    {machine : Machine Cpu κ ρ} (found : history[index]?.bind executing? = some machine) :
    history[index]? = some (.executing machine) := by
  rcases Option.bind_eq_some_iff.mp found with ⟨event, there, executing⟩
  rw [there, eq_executing executing]

end Event

/-! Monitors. Every item of a list has to fit the state to which the items before it lead. -/

def Monitored (next : σ → α → σ) (Fits : σ → α → Prop) : σ → List α → Prop
  | _, [] => True
  | state, item :: items => Fits state item ∧ Monitored next Fits (next state item) items

instance Monitored.decidable {σ α : Type} (next : σ → α → σ) (Fits : σ → α → Prop)
    [∀ state item, Decidable (Fits state item)] :
    ∀ state items, Decidable (Monitored next Fits state items)
  | _, [] => .isTrue trivial
  | state, item :: items =>
    have := Monitored.decidable next Fits (next state item) items
    inferInstanceAs (Decidable (Fits state item ∧ Monitored next Fits (next state item) items))

section Monitors

variable {σ α : Type} {next : σ → α → σ} {Fits : σ → α → Prop} {state : σ}

theorem monitored_append {items more : List α} :
    Monitored next Fits state (items ++ more) ↔
      Monitored next Fits state items ∧ Monitored next Fits (items.foldl next state) more := by
  induction items generalizing state with
  | nil => exact (iff_of_eq (true_and _)).symm
  | cons item items induction => exact (and_congr_right fun _ => induction).trans and_assoc.symm

theorem Monitored.fits {before after : List α} {item : α}
    (monitored : Monitored next Fits state (before ++ item :: after)) :
    Fits (before.foldl next state) item :=
  (monitored_append.mp monitored).2.1

theorem monitored_of_ignored {items : List α}
    (ignored : ∀ item ∈ items, Fits state item ∧ next state item = state) :
    Monitored next Fits state items ∧ items.foldl next state = state := by
  induction items with
  | nil => exact ⟨trivial, rfl⟩
  | cons item items induction =>
      rcases List.forall_mem_cons.mp ignored with ⟨⟨fits, same⟩, rest⟩
      rcases induction rest with ⟨monitored, last⟩
      rw [Monitored, List.foldl_cons, same]
      exact ⟨⟨fits, monitored⟩, last⟩

end Monitors

section Logs

variable {Cpu κ ρ : Type}

/-! What is picked out of a log. -/

def Moment.frameStarted? : Moment Cpu κ ρ → Option (Machine Cpu κ ρ)
  | .frameStarted machine => some machine
  | _ => none

def Moment.frameCompleted? : Moment Cpu κ ρ → Option (Machine Cpu κ ρ)
  | .frameCompleted machine => some machine
  | _ => none

theorem getElem?_of_frameStarted {log : List (Moment Cpu κ ρ)} {index : Nat}
    {machine : Machine Cpu κ ρ} (found : log[index]?.bind Moment.frameStarted? = some machine) :
    log[index]? = some (.frameStarted machine) := by
  rcases Option.bind_eq_some_iff.mp found with ⟨moment, there, started⟩
  rw [there]
  cases moment with
  | frameStarted _ =>
      cases started
      rfl
  | frameCompleted _ => exact nomatch started
  | drawn _ _ _ _ => exact nomatch started
  | boundary _ _ => exact nomatch started
  | executing _ => exact nomatch started

def completions (log : List (Moment Cpu κ ρ)) : List (Machine Cpu κ ρ) :=
  log.filterMap Moment.frameCompleted?

theorem mem_completions {log : List (Moment Cpu κ ρ)} {completed : Machine Cpu κ ρ} :
    completed ∈ completions log ↔ .frameCompleted completed ∈ log := by
  rw [completions, List.mem_filterMap]
  constructor
  · rintro ⟨moment, member, same⟩
    cases moment with
    | frameCompleted machine =>
        cases same
        exact member
    | frameStarted _ => exact nomatch same
    | drawn _ _ _ _ => exact nomatch same
    | boundary _ _ => exact nomatch same
    | executing _ => exact nomatch same
  · exact fun member => ⟨_, member, rfl⟩

theorem mem_executings {log : List (Moment Cpu κ ρ)} {machine : Machine Cpu κ ρ} :
    machine ∈ executings log ↔ .executing machine ∈ log := by
  rw [executings, List.mem_filterMap]
  constructor
  · rintro ⟨moment, member, same⟩
    cases moment with
    | executing _ =>
        cases same
        exact member
    | frameStarted _ => exact nomatch same
    | frameCompleted _ => exact nomatch same
    | drawn _ _ _ _ => exact nomatch same
    | boundary _ _ => exact nomatch same
  · exact fun member => ⟨_, member, rfl⟩

variable {log later : List (Moment Cpu κ ρ)}

theorem executings_append : executings (log ++ later) = executings log ++ executings later :=
  List.filterMap_append

theorem executings_drawnMoments (board : Board κ ρ) (first bound : Nat) :
    executings (board.drawnMoments first bound : List (Moment Cpu κ ρ)) = [] :=
  Machine.executings_of_drawn fun _ => Board.drawn_of_mem_drawnMoments

section Ignoring

variable {σ : Type} {next : σ → Moment Cpu κ ρ → σ} {Fits : σ → Moment Cpu κ ρ → Prop}

/-- The monitor takes no notice of drawing. -/
def IgnoresDrawing (next : σ → Moment Cpu κ ρ → σ) (Fits : σ → Moment Cpu κ ρ → Prop) : Prop :=
  ∀ state tact border flash memory,
    Fits state (.drawn tact border flash memory) ∧
      next state (.drawn tact border flash memory) = state

theorem IgnoresDrawing.monitored (ignores : IgnoresDrawing next Fits)
    (drawn : ∀ moment ∈ log, ∃ tact border flash memory,
      moment = .drawn tact border flash memory) (state : σ) :
    Monitored next Fits state log ∧ log.foldl next state = state := by
  refine monitored_of_ignored fun moment member => ?_
  rcases drawn moment member with ⟨tact, border, flash, memory, rfl⟩
  exact ignores state tact border flash memory

theorem IgnoresDrawing.startFrameLog [Processor Cpu] [Peripheral κ]
    (ignores : IgnoresDrawing next Fits) {state : σ} {machine : Machine Cpu κ ρ}
    (fits : Fits state (.frameStarted machine.startFrame)) :
    Monitored next Fits state machine.startFrameLog ∧
      machine.startFrameLog.foldl next state =
        next state (.frameStarted machine.startFrame) := by
  rcases ignores.monitored (fun _ => Board.drawn_of_mem_drawnMoments)
    (next state (.frameStarted machine.startFrame)) with ⟨monitored, same⟩
  exact ⟨⟨fits, monitored⟩, same⟩

theorem IgnoresDrawing.executeLog [Processor Cpu] [Peripheral κ] [TapeProvider ρ]
    (ignores : IgnoresDrawing next Fits) (machine : Machine Cpu κ ρ) (options : RunOptions)
    (state : σ) :
    Monitored next Fits state (machine.executeLog options) ∧
      (machine.executeLog options).foldl next state = state :=
  ignores.monitored (fun _ => Machine.drawn_of_mem_executeLog) state

end Ignoring

end Logs

namespace Machine

variable {Cpu κ ρ : Type} [Processor Cpu] [Peripheral κ] [TapeProvider ρ]

/-! The history of some calls, up to a value out of range. -/

def history : List RunCall → Machine Cpu κ ρ → List (Event Cpu κ ρ)
  | [], _ => []
  | call :: calls, machine =>
    let edited := machine.withDebugger (call.edit machine.debugger)
    (executings (edited.runLog call.options call.cancelled call.budget)).map .executing ++
      match machine.call call with
      | some (completion, machine) => .ended completion machine :: history calls machine
      | none => []

theorem executings_executeLog (machine : Machine Cpu κ ρ) (options : RunOptions) :
    executings (machine.executeLog options) = [] :=
  executings_of_drawn fun _ => drawn_of_mem_executeLog

omit [Peripheral κ] [TapeProvider ρ] in
theorem executings_stopLog (machine : Machine Cpu κ ρ) (reason : Completion) (executed : Nat) :
    executings (machine.stopLog reason executed) = [] := by
  rw [stopLog]
  split <;> rfl

omit [TapeProvider ρ] in
theorem executings_startFrameLog (machine : Machine Cpu κ ρ) :
    executings machine.startFrameLog = [] :=
  executings_drawnMoments _ _ _

/-! A turn comes to the boundary before an instruction. Unless it is stopped there it goes on to
execute that instruction, and completes the frame if that has ended. -/

inductive Entered (machine : Machine Cpu κ ρ) (progress : RunProgress) :
    RunProgress → Machine Cpu κ ρ → Prop
  | within (within : progress.betweenFrames = false) : Entered machine progress progress machine
  | resumed (running : machine.frameFinished = false) :
    Entered machine progress { progress with polls := progress.polls + 1 } machine
  | started (finished : machine.frameFinished = true) :
    Entered machine progress { progress with polls := progress.polls + 1 } machine.startFrame

inductive Admitted (machine : Machine Cpu κ ρ) (request : RunRequest) (progress : RunProgress) :
    RunProgress → Machine Cpu κ ρ → Prop
  | within (within : Processor.midInstruction machine.cpu = true) :
    Admitted machine request progress progress machine
  | asked {asked} (between : Processor.midInstruction machine.cpu = false)
    (goesOn : machine.stopReason request progress = (none, asked)) :
    Admitted machine request progress { progress with polls := progress.polls + 1 } asked

inductive Advanced (machine : Machine Cpu κ ρ) (request : RunRequest) (progress : RunProgress) :
    Option (Turn Cpu κ ρ) → Prop
  | outOfRange : Advanced machine request progress none
  | stopped {reason after}
    (stopped : machine.executeInstruction request.options = some (some reason, after)) :
    Advanced machine request progress (some (.stop reason after))
  | inFrame {after} (completed : machine.executeInstruction request.options = some (none, after))
    (running : after.frameFinished = false) :
    Advanced machine request progress
      (some (.goOn { progress with executed := progress.executed + 1, betweenFrames := false } after))
  | finished {after} (completed : machine.executeInstruction request.options = some (none, after))
    (finished : after.frameFinished = true) :
    Advanced machine request progress
      (some (.goOn { progress with executed := progress.executed + 1, betweenFrames := true }
        after.completeFrame))
  | ended {after} (completed : machine.executeInstruction request.options = some (none, after))
    (finished : after.frameFinished = true) :
    Advanced machine request progress (some (.stop .frameCompleted after.completeFrame))

/-- A turn, with the instruction it executes if it executes one. -/
inductive Turned (machine : Machine Cpu κ ρ) (request : RunRequest) (progress : RunProgress) :
    List (Machine Cpu κ ρ) → Option (Turn Cpu κ ρ) → Prop
  | cancelled : Turned machine request progress [] (some (.stop .cancelled machine))
  | stopped {entered begun reason asked} (enters : machine.Entered progress entered begun)
    (between : Processor.midInstruction begun.cpu = false)
    (stops : begun.stopReason request entered = (some reason, asked)) :
    Turned machine request progress [] (some (.stop reason asked))
  | executed {entered begun admitted executing turn}
    (enters : machine.Entered progress entered begun)
    (admits : begun.Admitted request entered admitted executing)
    (advances : executing.Advanced request admitted turn) :
    Turned machine request progress [executing] turn

theorem advanced (machine : Machine Cpu κ ρ) (request : RunRequest) (progress : RunProgress) :
    Advanced machine request progress (machine.advance request progress) := by
  rw [advance]
  cases result : machine.executeInstruction request.options with
  | none => exact .outOfRange
  | some executed =>
      rcases executed with ⟨reason, after⟩
      cases reason with
      | some reason => exact .stopped result
      | none =>
          change Advanced machine request progress (some (after.endTurn request _))
          rw [endTurn]
          cases finished : after.frameFinished with
          | false => exact .inFrame result finished
          | true =>
              cases request.options.mode.endsWithFrame with
              | false => exact .finished result finished
              | true => exact .ended result finished

theorem executings_advanceLog (machine : Machine Cpu κ ρ) (request : RunRequest)
    (progress : RunProgress) : executings (machine.advanceLog request progress) = [machine] := by
  have rest (log : List (Moment Cpu κ ρ)) (quiet : executings log = []) :
      executings (.executing machine :: log) = [machine] :=
    congrArg (machine :: ·) quiet
  rw [advanceLog]
  apply rest
  split
  · rfl
  · rw [executings_append, executings_executeLog, executings_stopLog, List.append_nil]
  · rw [executings_append, executings_executeLog]
    split <;> rfl

theorem turned_at_boundary {machine begun : Machine Cpu κ ρ} {request : RunRequest}
    {progress entered : RunProgress} (enters : machine.Entered progress entered begun) :
    Turned machine request progress (executings (begun.boundaryLog request entered))
      (begun.turnAtBoundary request entered) := by
  rw [boundaryLog, turnAtBoundary]
  cases between : Processor.midInstruction begun.cpu with
  | true =>
      have executes := Turned.executed enters (.within between) (begun.advanced request entered)
      rwa [← executings_advanceLog begun request entered] at executes
  | false =>
      cases asks : begun.stopReason request entered with
      | mk reason asked =>
          cases reason with
          | some reason => exact .stopped enters between asks
          | none =>
              let admitted := { entered with polls := entered.polls + 1 }
              have executes :=
                Turned.executed enters (.asked between asks) (asked.advanced request admitted)
              rwa [← executings_advanceLog asked request admitted] at executes

theorem turned (machine : Machine Cpu κ ρ) (request : RunRequest) (progress : RunProgress) :
    Turned machine request progress (executings (machine.turnLog request progress))
      (machine.turn request progress) := by
  rw [turnLog, turn]
  by_cases between : progress.betweenFrames = true
  · rw [if_pos between, if_pos between]
    cases request.cancelled progress.polls with
    | true => exact .cancelled
    | false =>
        cases finished : machine.frameFinished with
        | false => exact turned_at_boundary (.resumed finished)
        | true =>
            change Turned machine request progress (executings (machine.startFrameLog ++ _)) _
            rw [executings_append, executings_startFrameLog, List.nil_append]
            exact turned_at_boundary (.started finished)
  · rw [if_neg between, if_neg between]
    exact turned_at_boundary (.within (Bool.eq_false_of_not_eq_true between))

/-! Watching a session. -/

section Watching

variable {permitted : RunCall → Prop} {σ : Type} {next : σ → Event Cpu κ ρ → σ}
  {Fits : σ → Event Cpu κ ρ → Prop} {Rests : σ → Machine Cpu κ ρ → Prop}
  {Stands : RunOptions → σ → RunProgress → Machine Cpu κ ρ → Prop}

def Ends (next : σ → Event Cpu κ ρ → σ) (Fits : σ → Event Cpu κ ρ → Prop)
    (Rests : σ → Machine Cpu κ ρ → Prop) (state : σ) (completion : Option Completion)
    (machine : Machine Cpu κ ρ) : Prop :=
  Fits state (.ended completion machine) ∧ Rests (next state (.ended completion machine)) machine

/-- What a monitor of histories relies on: a condition on the machine between runs and one before
each turn of a run, which go on holding while every event fits. -/
structure Watch (permitted : RunCall → Prop) (next : σ → Event Cpu κ ρ → σ)
    (Fits : σ → Event Cpu κ ρ → Prop) (Rests : σ → Machine Cpu κ ρ → Prop)
    (Stands : RunOptions → σ → RunProgress → Machine Cpu κ ρ → Prop) : Prop where
  begins {call state machine} (allowed : permitted call) (rests : Rests state machine) :
    Stands call.options state {} (machine.called call)
  fits {request state progress machine executed turn}
    (turned : Turned machine request progress executed turn)
    (stands : Stands request.options state progress machine) :
    Monitored next Fits state (executed.map .executing)
  goesOn {request state progress machine executed after still}
    (turned : Turned machine request progress executed (some (.goOn after still)))
    (stands : Stands request.options state progress machine) :
    Stands request.options ((executed.map .executing).foldl next state) after still
  stops {request state progress machine executed reason stopped}
    (turned : Turned machine request progress executed (some (.stop reason stopped)))
    (stands : Stands request.options state progress machine) :
    Ends next Fits Rests ((executed.map .executing).foldl next state) (some reason)
      (stopped.withCompletion reason)
  unfinished {options state progress machine} (stands : Stands options state progress machine) :
    Ends next Fits Rests state none machine

def noted : Option Completion × Machine Cpu κ ρ → Option Completion × Machine Cpu κ ρ
  | (some reason, machine) => (some reason, machine.withCompletion reason)
  | (none, machine) => (none, machine)

theorem Watch.turnsLog (watch : Watch permitted next Fits Rests Stands) {request : RunRequest}
    (budget : Nat) {state : σ} {progress : RunProgress} {machine : Machine Cpu κ ρ}
    (stands : Stands request.options state progress machine) :
    Monitored next Fits state
        ((executings (turnsLog request budget progress machine)).map .executing) ∧
      ∀ result, turns request budget progress machine = some result →
        Ends next Fits Rests
          (((executings (turnsLog request budget progress machine)).map .executing).foldl next
            state)
          (noted result).1 (noted result).2 := by
  induction budget generalizing state progress machine with
  | zero =>
      refine ⟨trivial, fun result ended => ?_⟩
      cases ended
      exact watch.unfinished stands
  | succ budget induction =>
      have turned := machine.turned request progress
      have monitored := watch.fits turned stands
      rw [Machine.turnsLog, executings_append, List.map_append, turns_succ, monitored_append,
        List.foldl_append]
      cases taken : machine.turn request progress with
      | none =>
          exact ⟨⟨monitored, trivial⟩, fun _ ended => absurd ended.symm (Option.some_ne_none _)⟩
      | some turn =>
          rw [taken] at turned
          cases turn with
          | stop reason after =>
              refine ⟨⟨monitored, trivial⟩, fun result ended => ?_⟩
              cases ended
              have ends := watch.stops turned stands
              exact ends
          | goOn progress after =>
              rcases induction (watch.goesOn turned stands) with ⟨later, ends⟩
              exact ⟨⟨monitored, later⟩, ends⟩

theorem call_eq (machine : Machine Cpu κ ρ) (call : RunCall) :
    machine.call call =
      (turns ⟨call.options, call.cancelled, Processor.tacts machine.cpu⟩ call.budget {}
        (machine.called call)).map noted := by
  let request : RunRequest := ⟨call.options, call.cancelled, Processor.tacts machine.cpu⟩
  rw [Machine.call, run]
  change Option.bind (turns request call.budget {} (machine.called call)) _ =
    (turns request call.budget {} (machine.called call)).map noted
  cases turns request call.budget {} (machine.called call) with
  | none => rfl
  | some result =>
      rcases result with ⟨completion, after⟩
      cases completion <;> rfl

/-- The history of a session fits a monitor that can rely on what it relies on. -/
theorem Watch.history (watch : Watch permitted next Fits Rests Stands) {calls : List RunCall}
    (allowed : ∀ call ∈ calls, permitted call) {state : σ} {machine : Machine Cpu κ ρ}
    (rests : Rests state machine) : Monitored next Fits state (machine.history calls) := by
  induction calls generalizing state machine with
  | nil => trivial
  | cons call calls induction =>
      let request : RunRequest := ⟨call.options, call.cancelled, Processor.tacts machine.cpu⟩
      have stands : Stands request.options state {} (machine.called call) :=
        watch.begins (allowed call List.mem_cons_self) rests
      rcases watch.turnsLog call.budget stands with ⟨monitored, ends⟩
      rw [Machine.history, monitored_append, call_eq]
      refine ⟨monitored, ?_⟩
      cases ran : turns request call.budget {} (machine.called call) with
      | none => trivial
      | some result =>
          rcases ends result ran with ⟨fits, rests⟩
          exact ⟨fits, induction (fun other member =>
            allowed other (List.mem_cons_of_mem _ member)) rests⟩

end Watching

end Machine

end ZxSpectrum
