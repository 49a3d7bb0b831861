import ZxSpectrum.Proofs.Machine.History

namespace ZxSpectrum

/-! Breakpoints. A run stops before the instruction at a breakpoint when it has executed something,
or when the latest stop was elsewhere. So a host that runs the machine again is told of each arrival
once, except of one that ends its run for another reason at the address of the latest stop. -/

/-- The address of the latest stop at a breakpoint, after an event. -/
def Event.lastStop {Cpu κ ρ : Type} [Processor Cpu] (latest : Option UInt16) :
    Event Cpu κ ρ → Option UInt16
  | .ended (some .breakpointReached) machine => some machine.pc
  | _ => latest

/-! What a host knows that watches the runs of the machine. -/

structure Lookout where
  lastStop : Option UInt16
  /-- The present run has executed an instruction. -/
  ran : Bool := false
  /-- Where the latest run has left the program counter, until something is executed. -/
  place : Option UInt16 := none

namespace Lookout

variable {Cpu κ ρ : Type} [Processor Cpu]

def next (lookout : Lookout) (event : Event Cpu κ ρ) : Lookout :=
  let lastStop := event.lastStop lookout.lastStop
  match event with
  | .executing _ => { lastStop, ran := true }
  | .ended _ machine => { lastStop, place := some machine.pc }

theorem foldl_lastStop (events : List (Event Cpu κ ρ)) (lookout : Lookout) :
    (events.foldl next lookout).lastStop = events.foldl Event.lastStop lookout.lastStop := by
  induction events generalizing lookout with
  | nil => rfl
  | cons event events induction =>
      refine (induction _).trans ?_
      cases event <;> rfl

def InPlace (lookout : Lookout) (pc : UInt16) : Prop :=
  ∀ place, lookout.place = some place → pc = place

/-- With some breakpoints, an instruction at one is executed only by a run that resumes at the
latest stop, and no stop is repeated there. -/
def Fits (breakpoints : List UInt16) (lookout : Lookout) : Event Cpu κ ρ → Prop
  | .executing machine =>
    lookout.InPlace machine.pc ∧
      (Processor.midInstruction machine.cpu = false → machine.pc ∈ breakpoints →
        lookout.ran = false ∧ lookout.lastStop = some machine.pc)
  | .ended completion machine =>
    lookout.InPlace machine.pc ∧
      (completion = some .breakpointReached →
        lookout.ran = true ∨ lookout.lastStop ≠ some machine.pc)

section Quiet

variable {breakpoints : List UInt16} {lookout : Lookout} {quiet : List (Event Cpu κ ρ)}
  {completion : Option Completion} {machine : Machine Cpu κ ρ} {pc : UInt16}

def Reported (quiet : List (Event Cpu κ ρ)) (pc : UInt16) : Prop :=
  ∃ machine, .ended (some .breakpointReached) machine ∈ quiet ∧ machine.pc = pc

theorem breakpointReached_mem_completions (reported : Reported quiet pc) :
    Completion.breakpointReached ∈ quiet.filterMap Event.completion? := by
  rcases reported with ⟨machine, member, -⟩
  exact List.mem_filterMap.mpr ⟨_, member, rfl⟩

theorem reported_cons (silent : completion ≠ some .breakpointReached) :
    Reported (.ended completion machine :: quiet) pc ↔ Reported quiet pc := by
  constructor
  · rintro ⟨other, member, here⟩
    rcases List.mem_cons.mp member with head | member
    · cases head
      exact absurd rfl silent
    · exact ⟨other, member, here⟩
  · exact fun ⟨other, member, here⟩ => ⟨other, List.mem_cons_of_mem _ member, here⟩

theorem reported_of_first
    (first : (quiet.filterMap Event.completion?).head? = some .breakpointReached)
    (places : ∀ event ∈ quiet, event.machine.pc = pc) : Reported quiet pc := by
  rcases List.mem_filterMap.mp (List.mem_of_head? first) with ⟨event, member, completion⟩
  cases event with
  | executing _ => exact nomatch completion
  | ended _ machine =>
      cases completion
      exact ⟨machine, member, places _ member⟩

theorem lastStop_of_silent (machine : Machine Cpu κ ρ)
    (silent : completion ≠ some .breakpointReached) :
    (lookout.next (.ended completion machine)).lastStop = lookout.lastStop := by
  cases completion with
  | none => rfl
  | some reason => cases reason <;> first | rfl | exact absurd rfl silent

/-! Runs that execute nothing come to remember an address only by stopping there, and they do not
stop there if they remember it. -/

theorem place_of_quiet
    (monitored : Monitored next (Fits breakpoints) lookout (quiet ++ [.executing machine]))
    (still : quiet.filterMap Event.executing? = []) (there : lookout.place = some pc) :
    machine.pc = pc ∧ ∀ event ∈ quiet, event.machine.pc = pc := by
  induction quiet generalizing lookout with
  | nil => exact ⟨monitored.1.1 pc there, List.forall_mem_nil _⟩
  | cons event quiet induction =>
      cases event with
      | executing _ => exact nomatch still
      | ended completion other =>
          have same : other.pc = pc := monitored.1.1 pc there
          rcases induction monitored.2 still (congrArg some same) with ⟨last, all⟩
          exact ⟨last, List.forall_mem_cons.mpr ⟨same, all⟩⟩

theorem reported_iff_of_quiet
    (monitored : Monitored next (Fits breakpoints) lookout quiet)
    (still : quiet.filterMap Event.executing? = []) (rests : lookout.ran = false)
    (places : ∀ event ∈ quiet, event.machine.pc = pc)
    (latest : (quiet.foldl next lookout).lastStop = some pc) :
    Reported quiet pc ↔ lookout.lastStop ≠ some pc := by
  induction quiet generalizing lookout with
  | nil => exact ⟨fun ⟨_, member, _⟩ => (nomatch member), fun other => absurd latest other⟩
  | cons event quiet induction =>
      cases event with
      | executing _ => exact nomatch still
      | ended completion machine =>
          rcases List.forall_mem_cons.mp places with ⟨here, places⟩
          -- A run that ends otherwise leaves the latest stop as it is.
          by_cases stopped : completion = some .breakpointReached
          · subst stopped
            refine ⟨fun _ => ?_, fun _ => ⟨machine, List.mem_cons_self, here⟩⟩
            rcases monitored.1.2 rfl with ran | elsewhere
            · exact absurd (rests.symm.trans ran) Bool.false_ne_true
            · exact fun remembered => elsewhere (remembered.trans (congrArg some here.symm))
          · rw [reported_cons stopped, ← lastStop_of_silent machine stopped]
            exact induction monitored.2 still rfl places latest

theorem reported_iff_of_arrival
    (monitored : Monitored next (Fits breakpoints) lookout (quiet ++ [.executing machine]))
    (still : quiet.filterMap Event.executing? = []) (ran : lookout.ran = true)
    (begins : Processor.midInstruction machine.cpu = false) (member : machine.pc ∈ breakpoints) :
    Reported quiet machine.pc ↔
      lookout.lastStop ≠ some machine.pc ∨
        (quiet.filterMap Event.completion?).head? = some .breakpointReached := by
  rcases monitored_append.mp monitored with ⟨ends, ⟨-, executes⟩, -⟩
  rcases executes begins member with ⟨resumes, latest⟩
  cases quiet with
  | nil => exact absurd (ran.symm.trans resumes) Bool.noConfusion
  | cons event quiet =>
      cases event with
      | executing _ => exact nomatch still
      | ended completion stopped =>
          rcases place_of_quiet monitored.2 still rfl with ⟨here, places⟩
          rw [← here] at places
          by_cases reached : completion = some .breakpointReached
          · subst reached
            exact ⟨fun _ => .inr rfl, fun _ => ⟨stopped, List.mem_cons_self, here.symm⟩⟩
          · have later := reported_iff_of_quiet ends.2 still rfl places latest
            rw [lastStop_of_silent stopped reached, ← reported_cons reached] at later
            refine ⟨fun reported => .inl (later.mp reported), ?_⟩
            rintro (elsewhere | first)
            · exact later.mpr elsewhere
            · exact reported_of_first first (List.forall_mem_cons.mpr ⟨here.symm, places⟩)

end Quiet

end Lookout

/-! What a run under the debugger asks. -/

namespace Machine

variable {Cpu κ ρ : Type} [Processor Cpu]

/-- The answer of a machine that is to stop at breakpoints, after some instructions of a run. -/
inductive Answered (machine : Machine Cpu κ ρ) (executed : Nat) :
    Option Completion → Machine Cpu κ ρ → Prop
  | otherwise {reason} (other : reason ≠ .breakpointReached) :
    Answered machine executed (some reason) machine
  | stopped (due : 0 < executed ∨ machine.debugger.lastStop ≠ some machine.pc) :
    Answered machine executed (some .breakpointReached)
      (machine.withDebugger
        { machine.debugger.cancelStepOver with lastStop := some machine.pc })
  | passed (resumed : machine.pc ∈ machine.debugger.breakpoints →
      executed = 0 ∧ machine.debugger.lastStop = some machine.pc) :
    Answered machine executed none (machine.withDebugger machine.debugger.cancelStepOver)

theorem answered_askDebugger (machine : Machine Cpu κ ρ) (executed : Nat) :
    let answer := machine.askDebugger (.debugger .stopAtBreakpoint) executed
    Answered machine executed (if answer.1 then some .breakpointReached else none) answer.2 := by
  intro answer
  let due := machine.debugger.breakpoints.contains machine.pc &&
    (0 < executed || machine.debugger.lastStop ≠ some machine.pc)
  have asked : answer = (due, machine.withDebugger
      (if due then { machine.debugger.cancelStepOver with lastStop := some machine.pc }
        else machine.debugger.cancelStepOver)) := rfl
  rw [asked]
  cases stops : due with
  | true =>
      have moved := (Bool.and_eq_true_iff.mp stops).2
      exact .stopped ((Bool.or_eq_true_iff.mp moved).imp of_decide_eq_true of_decide_eq_true)
  | false =>
      refine .passed fun member => ?_
      rcases Bool.and_eq_false_iff.mp stops with absent | resumed
      · rw [List.contains_iff_mem.mpr member] at absent
        exact Bool.noConfusion absent
      · rcases Bool.or_eq_false_iff.mp resumed with ⟨nothing, same⟩
        exact ⟨Nat.eq_zero_of_not_pos (of_decide_eq_false nothing),
          not_not.mp (of_decide_eq_false same)⟩

theorem answered (machine : Machine Cpu κ ρ) {request : RunRequest}
    (mode : request.options.mode = .debugger .stopAtBreakpoint) (progress : RunProgress) :
    Answered machine progress.executed (machine.stopReason request progress).1
      (machine.stopReason request progress).2 := by
  rw [stopReason]
  split_ifs
  · exact .otherwise (by decide)
  · exact .otherwise (by decide)
  · exact .otherwise (by decide)
  · rw [mode]
    exact answered_askDebugger machine progress.executed

variable [Peripheral κ] [TapeProvider ρ]

theorem Executed.debugger {machine after : Machine Cpu κ ρ} {options : RunOptions}
    {reason : Option Completion} (executed : Executed machine options reason after) :
    after.debugger = machine.debugger := by
  have cycle {fault stepped} (cycled : machine.cycle = some (fault, stepped)) :
      stepped.debugger = machine.debugger := by
    rcases Option.bind_eq_some_iff.mp cycled with ⟨polled, poll, rest⟩
    rcases Option.bind_eq_some_iff.mp rest with ⟨⟨⟨cpu, fault⟩, board⟩, performed, rest⟩
    cases rest
    rcases Option.bind_eq_some_iff.mp poll with ⟨⟨interrupt, change⟩, -, rest⟩
    cases change <;> (cases rest; rfl)
  have drawn (stepped : Machine Cpu κ ρ) :
      (stepped.drawnBy options).debugger = stepped.debugger := by
    rw [drawnBy]
    split
    · rfl
    · rw [drawTo_eq]
  cases executed with
  | faulted cycled =>
      have same := cycle cycled
      exact same
  | halted cycled _ => exact (drawn _).trans (cycle cycled)
  | @completed stepped followed cycled tape =>
      have kept : followed.debugger = (stepped.drawnBy options).debugger := by
        rcases Option.bind_eq_some_iff.mp tape with ⟨⟨deck, registers, memory⟩, -, rest⟩
        cases rest
        rfl
      exact kept.trans ((drawn _).trans (cycle cycled))

end Machine

namespace Lookout

open Machine

variable {Cpu κ ρ : Type} [Processor Cpu] {breakpoints : List UInt16} {lookout : Lookout}
  {machine after : Machine Cpu κ ρ}

/-! The debugger remembers what the host knows, between two runs and before each turn. -/

structure Knows (breakpoints : List UInt16) (lookout : Lookout) (machine : Machine Cpu κ ρ) :
    Prop where
  breakpoints : machine.debugger.breakpoints = breakpoints
  lastStop : machine.debugger.lastStop = lookout.lastStop
  inPlace : lookout.InPlace machine.pc

def Rests (breakpoints : List UInt16) (lookout : Lookout) (machine : Machine Cpu κ ρ) : Prop :=
  Knows breakpoints lookout machine ∧ lookout.ran = false

def Stands (breakpoints : List UInt16) (options : RunOptions) (lookout : Lookout)
    (progress : RunProgress) (machine : Machine Cpu κ ρ) : Prop :=
  options.mode = .debugger .stopAtBreakpoint ∧ Knows breakpoints lookout machine ∧
    lookout.ran = decide (0 < progress.executed)

theorem Stands.admitted {request : RunRequest} {progress admitted : RunProgress}
    (stands : Stands breakpoints request.options lookout progress machine)
    (admits : machine.Admitted request progress admitted after) :
    Stands breakpoints request.options lookout admitted after ∧
      Fits breakpoints lookout (.executing after) := by
  cases admits with
  | within within =>
      refine ⟨stands, stands.2.1.inPlace, fun between => ?_⟩
      exact absurd (between.symm.trans within) Bool.false_ne_true
  | @asked asked between goesOn =>
      have answer := answered machine stands.1 progress
      rw [goesOn] at answer
      cases answer with
      | passed resumed =>
          rcases stands with ⟨mode, ⟨same, latest, inPlace⟩, ran⟩
          refine ⟨⟨mode, ⟨same, latest, inPlace⟩, ran⟩, inPlace, fun _ member => ?_⟩
          rcases resumed (same.symm ▸ member) with ⟨nothing, stopped⟩
          refine ⟨?_, latest.symm.trans stopped⟩
          rw [ran, nothing]
          rfl

theorem Knows.ends {reason : Completion} (knows : Knows breakpoints lookout machine)
    (other : reason ≠ .breakpointReached) :
    Ends next (Fits breakpoints) (Rests breakpoints) lookout (some reason)
      (machine.withCompletion reason) := by
  refine ⟨⟨knows.inPlace, fun stopped => absurd (Option.some.inj stopped) other⟩,
    ⟨knows.breakpoints, ?_, fun _ here => ?_⟩, rfl⟩
  · refine knows.lastStop.trans ?_
    cases reason <;> first | rfl | exact absurd rfl other
  · exact Option.some.inj here

theorem Stands.stopped {request : RunRequest} {progress : RunProgress} {reason : Completion}
    (stands : Stands breakpoints request.options lookout progress machine)
    (stops : machine.stopReason request progress = (some reason, after)) :
    Ends next (Fits breakpoints) (Rests breakpoints) lookout (some reason)
      (after.withCompletion reason) := by
  have answer := answered machine stands.1 progress
  rcases stands with ⟨mode, knows, ran⟩
  rw [stops] at answer
  cases answer with
  | otherwise other => exact knows.ends other
  | stopped due =>
      refine ⟨⟨knows.inPlace, fun _ => ?_⟩, ⟨knows.breakpoints, rfl, fun _ here => ?_⟩, rfl⟩
      · rw [ran, ← knows.lastStop]
        exact due.imp_left decide_eq_true
      · exact Option.some.inj here

variable [Peripheral κ]

theorem Stands.entered {options : RunOptions} {progress entered : RunProgress}
    (stands : Stands breakpoints options lookout progress machine)
    (enters : machine.Entered progress entered after) :
    Stands breakpoints options lookout entered after := by
  cases enters with
  | within _ => exact stands
  | resumed _ => exact stands
  | started _ => exact ⟨stands.1, ⟨stands.2.1.1, stands.2.1.2, stands.2.1.3⟩, stands.2.2⟩

theorem Knows.completeFrame (knows : Knows breakpoints lookout machine) :
    Knows breakpoints lookout machine.completeFrame :=
  ⟨knows.breakpoints, knows.lastStop, knows.inPlace⟩

variable [TapeProvider ρ]

theorem Knows.executed {options : RunOptions} {reason : Option Completion}
    (knows : Knows breakpoints lookout machine) (executed : Executed machine options reason after) :
    Knows breakpoints (lookout.next (.executing machine)) after where
  breakpoints := (congrArg Debugger.breakpoints executed.debugger).trans knows.breakpoints
  lastStop := (congrArg Debugger.lastStop executed.debugger).trans knows.lastStop
  inPlace _ impossible := nomatch impossible

/-- A call that only has the machine stop at its breakpoints. -/
def StopsAtBreakpoints (call : RunCall) : Prop :=
  call.options.mode = .debugger .stopAtBreakpoint ∧ call.edit = id

theorem watch (breakpoints : List UInt16) :
    Watch StopsAtBreakpoints next (Fits breakpoints : Lookout → Event Cpu κ ρ → Prop)
      (Rests breakpoints) (Stands breakpoints) where
  begins {call lookout machine} allowed rests := by
    have same : (machine.called call).debugger = machine.debugger := by
      rw [called, prepare, allowed.1, allowed.2]
      rfl
    refine ⟨allowed.1, ⟨?_, ?_, rests.1.inPlace⟩, rests.2⟩
    · rw [same, rests.1.breakpoints]
    · rw [same, rests.1.lastStop]
  fits turned stands := by
    cases turned with
    | cancelled => trivial
    | stopped _ _ _ => trivial
    | executed enters admits _ => exact ⟨((stands.entered enters).admitted admits).2, trivial⟩
  goesOn turned stands := by
    cases turned with
    | executed enters admits advances =>
        rcases ((stands.entered enters).admitted admits).1 with ⟨mode, knows, ran⟩
        cases advances with
        | inFrame completed _ =>
            exact ⟨mode, knows.executed (executed_of_executeInstruction completed), rfl⟩
        | finished completed _ =>
            have knows := knows.executed (executed_of_executeInstruction completed)
            exact ⟨mode, knows.completeFrame, rfl⟩
  stops turned stands := by
    cases turned with
    | cancelled => exact stands.2.1.ends (by decide)
    | stopped enters _ stops => exact (stands.entered enters).stopped stops
    | executed enters admits advances =>
        have knows := ((stands.entered enters).admitted admits).1.2.1
        cases advances with
        | stopped stopped =>
            have executed := executed_of_executeInstruction stopped
            refine (knows.executed executed).ends ?_
            cases executed <;> decide
        | ended completed _ =>
            have knows := knows.executed (executed_of_executeInstruction completed)
            exact knows.completeFrame.ends (by decide)
  unfinished stands :=
    ⟨⟨stands.2.1.inPlace, fun impossible => nomatch impossible⟩,
      ⟨stands.2.1.breakpoints, stands.2.1.lastStop, fun _ here => Option.some.inj here⟩, rfl⟩

end Lookout

namespace Machine

variable {Cpu κ ρ : Type} [Processor Cpu] [Peripheral κ] [TapeProvider ρ]

/-- When a host only has the machine stop at some breakpoints, and an instruction takes the machine
to one of them, then before the instruction there is executed a stop is reported, unless the latest
stop before was at the same address and the run that came there ended for another reason. -/
theorem reported_iff_at_breakpoint {machine : Machine Cpu κ ρ} {calls : List RunCall}
    (allowed : ∀ call ∈ calls, Lookout.StopsAtBreakpoints call)
    {before between after : List (Event Cpu κ ρ)} {arriving arrived : Machine Cpu κ ρ}
    (split : machine.history calls =
      before ++ .executing arriving :: (between ++ .executing arrived :: after))
    (still : between.filterMap Event.executing? = [])
    (begins : Processor.midInstruction arrived.cpu = false)
    (member : arrived.pc ∈ machine.debugger.breakpoints) :
    Lookout.Reported between arrived.pc ↔
      before.foldl Event.lastStop machine.debugger.lastStop ≠ some arrived.pc ∨
        (between.filterMap Event.completion?).head? = some .breakpointReached := by
  let breakpoints := machine.debugger.breakpoints
  let first : Lookout := { lastStop := machine.debugger.lastStop }
  have monitored : Monitored Lookout.next (Lookout.Fits breakpoints) first
      (machine.history calls) :=
    (Lookout.watch breakpoints).history allowed ⟨⟨rfl, rfl, fun _ there => nomatch there⟩, rfl⟩
  rw [split] at monitored
  rcases (monitored_append.mp monitored).2 with ⟨-, monitored⟩
  have latest : ((before.foldl Lookout.next first).next (.executing arriving)).lastStop =
      before.foldl Event.lastStop machine.debugger.lastStop :=
    Lookout.foldl_lastStop before first
  rw [List.append_cons between] at monitored
  rw [← latest]
  exact Lookout.reported_iff_of_arrival (monitored_append.mp monitored).1 still rfl begins member

/-! A jump to itself on a breakpoint, which takes half a frame of twenty tacts. -/

def jumping : Machine ScriptedProcessor PortCard TapeFolder :=
  (oneLine.programmed [0xC3, 0, 0]).withDebugger { breakpoints := [0] }

def breakpointRuns (count : Nat) : List RunCall :=
  List.replicate count { options := { mode := .debugger .stopAtBreakpoint }, budget := 9 }

theorem stopsAtBreakpoints_of_mem {call : RunCall} {count : Nat}
    (member : call ∈ breakpointRuns count) : Lookout.StopsAtBreakpoints call := by
  cases List.eq_of_mem_replicate member
  exact ⟨rfl, rfl⟩

theorem reported_iff_at_breakpoint_jumping :
    let history := jumping.history (breakpointRuns 4)
    let between := (history.drop 2).take 1
    (∀ call ∈ breakpointRuns 4, Lookout.StopsAtBreakpoints call) ∧ ∃ arriving arrived,
      history =
        history.take 1 ++ .executing arriving ::
          (between ++ .executing arrived :: (history.drop 2).drop 2) ∧
      between.filterMap Event.executing? = [] ∧
      Processor.midInstruction arrived.cpu = false ∧
      arrived.pc ∈ jumping.debugger.breakpoints ∧
      (between.filterMap Event.completion?).head? = some .breakpointReached ∧
      Lookout.Reported between arrived.pc := by
  intro history between
  have allowed : ∀ call ∈ breakpointRuns 4, Lookout.StopsAtBreakpoints call :=
    fun _ => stopsAtBreakpoints_of_mem
  obtain ⟨reaches, arrives, quiet, first⟩ :
      (history[1]?.bind Event.executing?).isSome ∧
      ((history.drop 2)[1]?.bind Event.executing?).any (fun arrived =>
        Processor.midInstruction arrived.cpu = false ∧
          arrived.pc ∈ jumping.debugger.breakpoints) = true ∧
      (between.filterMap Event.executing?).isEmpty ∧
      (between.filterMap Event.completion?).head? = some .breakpointReached := by
    decide +kernel
  have still : between.filterMap Event.executing? = [] := List.isEmpty_iff.mp quiet
  rcases Option.isSome_iff_exists.mp reaches with ⟨arriving, reached⟩
  rcases (Option.any_eq_true _ _).mp arrives with ⟨arrived, found, holds⟩
  rcases of_decide_eq_true holds with ⟨begins, member⟩
  have split := split_of_getElem?_twice (Event.getElem?_of_executing reached)
    (Event.getElem?_of_executing found)
  have reported := (reported_iff_at_breakpoint allowed split still begins member).mpr (.inr first)
  exact ⟨allowed, arriving, arrived, split, still, begins, member, first, reported⟩

/-- Of every arrival at a breakpoint a stop is reported before the instruction there is executed. -/
def ReportsArrivals (breakpoints : List UInt16) (history : List (Event Cpu κ ρ)) : Prop :=
  ∀ before arriving between arrived after,
    history = before ++ .executing arriving :: (between ++ .executing arrived :: after) →
      between.filterMap Event.executing? = [] → Processor.midInstruction arrived.cpu = false →
        arrived.pc ∈ breakpoints → Lookout.Reported between arrived.pc

/-- The second jump finishes a frame, which ends the third run, and the fourth run executes the
instruction at the breakpoint: it takes the stop of the second run for that of the third. -/
theorem arrival_missed_jumping :
    let history := jumping.history (breakpointRuns 4)
    (∀ call ∈ breakpointRuns 4, Lookout.StopsAtBreakpoints call) ∧
      history.filterMap Event.completion? =
        [.breakpointReached, .breakpointReached, .frameCompleted, .breakpointReached] ∧
      ¬ ReportsArrivals jumping.debugger.breakpoints history := by
  intro history
  refine ⟨fun _ => stopsAtBreakpoints_of_mem, by decide +kernel, fun reports => ?_⟩
  obtain ⟨reaches, arrives, quiet, silent⟩ :
      (history[3]?.bind Event.executing?).isSome ∧
      ((history.drop 4)[1]?.bind Event.executing?).any (fun arrived =>
        Processor.midInstruction arrived.cpu = false ∧
          arrived.pc ∈ jumping.debugger.breakpoints) = true ∧
      (((history.drop 4).take 1).filterMap Event.executing?).isEmpty ∧
      Completion.breakpointReached ∉ ((history.drop 4).take 1).filterMap Event.completion? := by
    decide +kernel
  rcases Option.isSome_iff_exists.mp reaches with ⟨arriving, reached⟩
  rcases (Option.any_eq_true _ _).mp arrives with ⟨arrived, found, holds⟩
  rcases of_decide_eq_true holds with ⟨begins, member⟩
  have split := split_of_getElem?_twice (Event.getElem?_of_executing reached)
    (Event.getElem?_of_executing found)
  exact silent (Lookout.breakpointReached_mem_completions
    (reports _ _ _ _ _ split (List.isEmpty_iff.mp quiet) begins member))

end Machine

end ZxSpectrum
