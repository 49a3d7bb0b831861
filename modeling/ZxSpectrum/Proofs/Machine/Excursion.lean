import ZxSpectrum.Proofs.Machine.Breakpoints
import ZxSpectrum.Proofs.Machine.FrameView
import ZxSpectrum.Proofs.Machine.StopConditions

namespace ZxSpectrum

/-! Stepping over a call. The debugger remembers the address to which the call returns until the
machine comes there, however often its runs end on the way. -/

namespace Debugger

theorem returnAddress_shouldStop (debugger : Debugger) {mode : StepMode} (other : mode ≠ .stepOver)
    (pc : UInt16) (executed : Nat) (callLength : Unit → UInt16) :
    (debugger.shouldStop mode pc executed callLength).2.returnAddress = none := by
  cases mode with
  | stepOver => exact absurd rfl other
  | stepInto =>
      rw [shouldStop]
      dsimp only
      split <;> rfl
  | stopAtBreakpoint =>
      rw [shouldStop]
      dsimp only
      split <;> rfl

/-! What a debugger that steps over answers before an instruction. -/

inductive SteppedOver (debugger : Debugger) (pc : UInt16) (executed : Nat) (length : UInt16) :
    Bool → Debugger → Prop
  | returned (pending : debugger.returnAddress = some pc) :
    SteppedOver debugger pc executed length true
      { debugger.cancelStepOver with lastStop := some pc }
  | away {target} (pending : debugger.returnAddress = some target) (elsewhere : pc ≠ target) :
    SteppedOver debugger pc executed length false debugger
  | stepped (idle : debugger.returnAddress = none) (ran : 0 < executed) :
    SteppedOver debugger pc executed length true { debugger with lastStop := some pc }
  | begun (idle : debugger.returnAddress = none) (first : executed = 0) :
    SteppedOver debugger pc executed length false (debugger.stepOver pc length)

theorem steppedOver (debugger : Debugger) (pc : UInt16) (executed : Nat)
    (callLength : Unit → UInt16) :
    SteppedOver debugger pc executed (callLength ())
      (debugger.shouldStop .stepOver pc executed callLength).1
      (debugger.shouldStop .stepOver pc executed callLength).2 := by
  rw [shouldStop, decide]
  cases pending : debugger.returnAddress with
  | some target =>
      by_cases here : target = pc
      · subst here
        simp only [if_true]
        exact .returned pending
      · simp only [if_neg here]
        exact .away pending (Ne.symm here)
  | none =>
      by_cases ran : 0 < executed
      · simp only [if_pos ran]
        exact .stepped pending ran
      · simp only [if_neg ran]
        exact .begun pending (Nat.eq_zero_of_not_pos ran)

theorem shouldStop_of_returned {debugger : Debugger} {pc : UInt16}
    (pending : debugger.returnAddress = some pc) (executed : Nat) (callLength : Unit → UInt16) :
    debugger.shouldStop .stepOver pc executed callLength =
      (true, { debugger.cancelStepOver with lastStop := some pc }) := by
  rw [shouldStop, decide]
  simp only [pending, if_true]

theorem shouldStop_of_stepped {debugger : Debugger} (idle : debugger.returnAddress = none)
    (pc : UInt16) {executed : Nat} (ran : 0 < executed) (callLength : Unit → UInt16) :
    debugger.shouldStop .stepOver pc executed callLength =
      (true, { debugger with lastStop := some pc }) := by
  rw [shouldStop, decide]
  simp only [idle, if_pos ran, if_true]

theorem shouldStop_of_noCall {debugger : Debugger} (idle : debugger.returnAddress = none)
    (pc : UInt16) {callLength : Unit → UInt16} (noCall : callLength () = 0) :
    debugger.shouldStop .stepOver pc 0 callLength = (false, debugger) := by
  have none : ¬(0 : UInt16) < 0 := by decide
  rw [shouldStop, decide]
  simp only [idle, noCall, stepOver, Nat.lt_irrefl, none, if_false, Bool.false_eq_true]

theorem not_pending {debugger : Debugger} {target : UInt16}
    (idle : debugger.returnAddress = none) : debugger.returnAddress ≠ some target := by
  rw [idle]
  exact (Option.some_ne_none target).symm

theorem returnAddress_stepOver (debugger : Debugger) (pc : UInt16) {length : UInt16}
    (call : 0 < length) : (debugger.stepOver pc length).returnAddress = some (pc + length) := by
  rw [stepOver, if_pos call]

end Debugger

namespace Machine

variable {Cpu κ ρ : Type} [Processor Cpu]

inductive Inquired (machine : Machine Cpu κ ρ) (executed : Nat) :
    Option Completion → Machine Cpu κ ρ → Prop
  | otherwise {reason} (other : reason = .cancelled ∨ reason = .timeout) :
    Inquired machine executed (some reason) machine
  | stopped {debugger} (answer : machine.debugger.SteppedOver machine.pc executed
      (Processor.callLength machine.cpu machine.board.memory.read) true debugger) :
    Inquired machine executed (some .breakpointReached) (machine.withDebugger debugger)
  | passed {debugger} (answer : machine.debugger.SteppedOver machine.pc executed
      (Processor.callLength machine.cpu machine.board.memory.read) false debugger) :
    Inquired machine executed none (machine.withDebugger debugger)

theorem inquired (machine : Machine Cpu κ ρ) {request : RunRequest}
    (mode : request.options.mode = .debugger .stepOver) (progress : RunProgress) :
    Inquired machine progress.executed (machine.stopReason request progress).1
      (machine.stopReason request progress).2 := by
  have considered := machine.considered request progress
  generalize machine.stopReason request progress = found at considered ⊢
  rcases found with ⟨reason, after⟩
  cases considered with
  | cancelled _ => exact .otherwise (.inl rfl)
  | timeout _ _ => exact .otherwise (.inr rfl)
  | pointReached _ _ there =>
      rcases there with ⟨_, _, other, _⟩
      rw [mode] at other
      cases other
  | @asked stop debugger _ _ _ answer =>
      let length (_ : Unit) := Processor.callLength machine.cpu machine.board.memory.read
      have asks : machine.askDebugger (.debugger .stepOver) progress.executed =
          ((machine.debugger.shouldStop .stepOver machine.pc progress.executed length).1,
            machine.withDebugger
              (machine.debugger.shouldStop .stepOver machine.pc progress.executed length).2) := rfl
      have answers := machine.debugger.steppedOver machine.pc progress.executed length
      rw [mode, asks] at answer
      rcases Prod.mk.inj answer with ⟨stops, same⟩
      have remembers :
          (machine.debugger.shouldStop .stepOver machine.pc progress.executed length).2 =
            debugger := congrArg Machine.debugger same
      rw [stops, remembers] at answers
      cases stop with
      | true => exact .stopped answers
      | false => exact .passed answers

end Machine

theorem Machine.memory_startFrame {Cpu κ ρ : Type} [Processor Cpu] [Peripheral κ]
    (machine : Machine Cpu κ ρ) : machine.startFrame.board.memory = machine.board.memory := by
  rw [startFrame, Board.callCards_eq]
  rfl

/-! What a host knows that has the machine step over an instruction. -/

structure Excursion where
  /-- The machine has executed something. -/
  ran : Bool := false
  /-- A stop has been reported. -/
  returned : Bool := false

namespace Excursion

open Machine

variable {Cpu κ ρ : Type} {excursion : Excursion}

def next (excursion : Excursion) : Event Cpu κ ρ → Excursion
  | .executing _ => { excursion with ran := true }
  | .ended completion _ =>
    { excursion with returned := excursion.returned || completion = some .breakpointReached }

variable [Processor Cpu] {first machine after : Machine Cpu κ ρ}

/-- Until a stop is reported the target is pending whenever something is executed, and no
instruction is begun there once something has been. The stop is reported there. A run that ends
otherwise leaves the target pending. -/
def Fits (target : UInt16) (excursion : Excursion) : Event Cpu κ ρ → Prop
  | .executing machine =>
    excursion.returned = false →
      machine.debugger.returnAddress = some target ∧
        (excursion.ran = true → Processor.midInstruction machine.cpu = false →
          machine.pc ≠ target)
  | .ended completion machine =>
    excursion.returned = false →
      if completion = some .breakpointReached then
        excursion.ran = true ∧ Processor.midInstruction machine.cpu = false ∧
          machine.pc = target ∧ machine.debugger.returnAddress = none
      else
        machine.debugger.returnAddress = (if excursion.ran then some target else none) ∧
          completion ∈ [none, some .cancelled, some .timeout, some .frameCompleted, some .faulted]

def target (machine : Machine Cpu κ ρ) : UInt16 :=
  machine.pc + Processor.callLength machine.cpu machine.board.memory.read

/-- How far the machine has come. -/
inductive Underway (first : Machine Cpu κ ρ) (excursion : Excursion) (machine : Machine Cpu κ ρ) :
    Prop
  | waiting (waits : excursion.ran = false) (cpu : machine.cpu = first.cpu)
    (memory : machine.board.memory = first.board.memory)
    (idle : machine.debugger.returnAddress = none) : Underway first excursion machine
  | away (ran : excursion.ran = true)
    (pending : machine.debugger.returnAddress = some (target first)) :
    Underway first excursion machine
  | returned (returned : excursion.returned = true) : Underway first excursion machine

/-! A run that steps over, turn by turn. -/

structure Stands (first : Machine Cpu κ ρ) (options : RunOptions) (excursion : Excursion)
    (progress : RunProgress) (machine : Machine Cpu κ ρ) : Prop where
  mode : options.mode = .debugger .stepOver
  underway : Underway first excursion machine
  executed : excursion.ran = false → progress.executed = 0

theorem Underway.pending (underway : Underway first excursion machine)
    (silent : excursion.returned = false) :
    machine.debugger.returnAddress = if excursion.ran then some (target first) else none := by
  cases underway with
  | waiting waits _ _ idle => rw [idle, waits]; rfl
  | away ran pending => rw [pending, ran]; rfl
  | returned returned => exact absurd (silent.symm.trans returned) (by decide)

theorem Underway.ends {completion : Option Completion} (underway : Underway first excursion machine)
    (other : completion ∈
      [none, some .cancelled, some .timeout, some .frameCompleted, some .faulted])
    (debugger : after.debugger = machine.debugger) (cpu : after.cpu = machine.cpu)
    (memory : after.board.memory = machine.board.memory) :
    Ends next (Fits (target first)) (Underway first) excursion completion after := by
  have silent : completion ≠ some .breakpointReached := by
    rintro rfl
    exact absurd other (by decide)
  have same : excursion.next (.ended completion after) = excursion := by
    rw [next, decide_eq_false silent, Bool.or_false]
  constructor
  · intro unreported
    rw [if_neg silent, debugger]
    exact ⟨underway.pending unreported, other⟩
  · rw [same]
    cases underway with
    | waiting waits there same idle =>
        exact .waiting waits (cpu.trans there) (memory.trans same)
          ((congrArg Debugger.returnAddress debugger).trans idle)
    | away ran pending =>
        exact .away ran ((congrArg Debugger.returnAddress debugger).trans pending)
    | returned returned => exact .returned returned

theorem Stands.admitted {request : RunRequest} {progress admitted : RunProgress}
    (between : Processor.midInstruction first.cpu = false)
    (calls : 0 < Processor.callLength first.cpu first.board.memory.read)
    (stands : Stands first request.options excursion progress machine)
    (admits : machine.Admitted request progress admitted after) :
    Fits (target first) excursion (.executing after) ∧
      Underway first (excursion.next (.executing after)) after := by
  rcases stands with ⟨mode, underway, executed⟩
  cases admits with
  | within within =>
      cases underway with
      | waiting _ cpu _ _ =>
          rw [cpu] at within
          exact absurd (between.symm.trans within) Bool.false_ne_true
      | away ran pending =>
          refine ⟨fun _ => ⟨pending, fun _ begins => ?_⟩, .away rfl pending⟩
          exact absurd (begins.symm.trans within) Bool.false_ne_true
      | returned returned =>
          refine ⟨fun silent => ?_, .returned returned⟩
          exact absurd (silent.symm.trans returned) Bool.false_ne_true
  | asked begins goesOn =>
      have inquired := machine.inquired mode progress
      rw [goesOn] at inquired
      cases inquired with
      | passed answer =>
          cases underway with
          | waiting waits cpu memory idle =>
              cases answer with
              | away pending _ => exact absurd pending (Debugger.not_pending idle)
              | begun _ _ =>
                  have here : machine.pc = first.pc := congrArg Processor.pc cpu
                  have started : (machine.debugger.stepOver machine.pc (Processor.callLength
                      machine.cpu machine.board.memory.read)).returnAddress =
                        some (target first) := by
                    rw [here, cpu, memory]
                    exact machine.debugger.returnAddress_stepOver first.pc calls
                  refine ⟨fun _ => ⟨started, fun ran => ?_⟩, .away rfl started⟩
                  exact absurd (waits.symm.trans ran) Bool.false_ne_true
          | away ran pending =>
              cases answer with
              | @away elsewhere there different =>
                  cases Option.some.inj (there.symm.trans pending)
                  exact ⟨fun _ => ⟨pending, fun _ _ => different⟩, .away rfl pending⟩
              | begun idle _ => exact absurd pending (Debugger.not_pending idle)
          | returned returned =>
              refine ⟨fun silent => ?_, .returned returned⟩
              exact absurd (silent.symm.trans returned) Bool.false_ne_true

theorem Stands.stopped {request : RunRequest} {progress : RunProgress} {reason : Completion}
    (stands : Stands first request.options excursion progress machine)
    (between : Processor.midInstruction machine.cpu = false)
    (stops : machine.stopReason request progress = (some reason, after)) :
    Ends next (Fits (target first)) (Underway first) excursion (some reason)
      (after.withCompletion reason) := by
  rcases stands with ⟨mode, underway, executed⟩
  have inquired := machine.inquired mode progress
  rw [stops] at inquired
  cases inquired with
  | otherwise other =>
      refine underway.ends ?_ rfl rfl rfl
      rcases other with rfl | rfl <;> decide
  | @stopped debugger answer =>
      have reported : (excursion.next (.ended (some .breakpointReached)
          ((machine.withDebugger debugger).withCompletion .breakpointReached))).returned = true :=
        Bool.or_true _
      refine ⟨fun silent => ?_, .returned reported⟩
      rw [if_pos rfl]
      cases underway with
      | waiting waits _ _ idle =>
          cases answer with
          | returned pending => exact absurd pending (Debugger.not_pending idle)
          | stepped _ ran => exact absurd (executed waits) (Nat.ne_of_gt ran)
      | away ran pending =>
          cases answer with
          | returned there =>
              exact ⟨ran, between, Option.some.inj (there.symm.trans pending), rfl⟩
          | stepped idle _ => exact absurd pending (Debugger.not_pending idle)
      | returned returned => exact absurd (silent.symm.trans returned) (by decide)

variable [Peripheral κ]

theorem Stands.entered {options : RunOptions} {progress entered : RunProgress}
    (stands : Stands first options excursion progress machine)
    (enters : machine.Entered progress entered after) :
    Stands first options excursion entered after := by
  cases enters with
  | within _ => exact stands
  | resumed _ => exact ⟨stands.1, stands.2, stands.3⟩
  | started _ =>
      refine ⟨stands.1, ?_, stands.3⟩
      cases stands.2 with
      | waiting waits cpu memory idle =>
          exact .waiting waits cpu ((memory_startFrame machine).trans memory) idle
      | away ran pending => exact .away ran pending
      | returned returned => exact .returned returned

omit [Peripheral κ] in
theorem Underway.executed (ran : excursion.ran = true) (underway : Underway first excursion machine)
    (same : after.debugger = machine.debugger) : Underway first excursion after := by
  cases underway with
  | waiting waits _ _ _ => exact absurd (waits.symm.trans ran) (by decide)
  | away _ pending => exact .away ran ((congrArg Debugger.returnAddress same).trans pending)
  | returned returned => exact .returned returned

/-- A call that has the machine step over an instruction, and leaves the address to which that
returns as it is. -/
def StepsOver (call : RunCall) : Prop :=
  call.options.mode = .debugger .stepOver ∧
    ∀ debugger, (call.edit debugger).returnAddress = debugger.returnAddress

omit [Processor Cpu] [Peripheral κ] in
theorem StepsOver.returnAddress_called {call : RunCall} (stepsOver : StepsOver call) :
    (machine.called call).debugger.returnAddress = machine.debugger.returnAddress := by
  rw [called, prepare, stepsOver.1]
  exact stepsOver.2 _

variable [TapeProvider ρ]

theorem watch (between : Processor.midInstruction first.cpu = false)
    (calls : 0 < Processor.callLength first.cpu first.board.memory.read) :
    Watch StepsOver next (Fits (target first)) (Underway first) (Stands first) where
  begins {call excursion machine} allowed rests := by
    have same : (machine.called call).debugger.returnAddress =
        machine.debugger.returnAddress := allowed.returnAddress_called
    refine ⟨allowed.1, ?_, fun _ => rfl⟩
    cases rests with
    | waiting waits cpu memory idle => exact .waiting waits cpu memory (same.trans idle)
    | away ran pending => exact .away ran (same.trans pending)
    | returned returned => exact .returned returned
  fits turned stands := by
    cases turned with
    | cancelled => trivial
    | stopped _ _ _ => trivial
    | executed enters admits _ =>
        exact ⟨((stands.entered enters).admitted between calls admits).1, trivial⟩
  goesOn turned stands := by
    cases turned with
    | executed enters admits advances =>
        have underway := ((stands.entered enters).admitted between calls admits).2
        cases advances with
        | inFrame completed _ =>
            have same := (executed_of_executeInstruction completed).debugger
            refine ⟨stands.mode, underway.executed rfl same, fun waits => ?_⟩
            exact absurd waits.symm Bool.false_ne_true
        | finished completed _ =>
            have same := (executed_of_executeInstruction completed).debugger
            refine ⟨stands.mode, underway.executed rfl same, fun waits => ?_⟩
            exact absurd waits.symm Bool.false_ne_true
  stops turned stands := by
    cases turned with
    | cancelled => exact stands.underway.ends (by decide) rfl rfl rfl
    | stopped enters begins stops => exact (stands.entered enters).stopped begins stops
    | executed enters admits advances =>
        have underway := ((stands.entered enters).admitted between calls admits).2
        cases advances with
        | stopped stopped =>
            have executed := executed_of_executeInstruction stopped
            refine (underway.executed rfl executed.debugger).ends ?_ rfl rfl rfl
            cases executed with
            | faulted _ => decide
            | halted _ waits =>
                rw [stands.mode] at waits
                cases waits
        | @ended after completed _ =>
            have same := (executed_of_executeInstruction completed).debugger
            have underway : Underway first _ after.completeFrame := underway.executed rfl same
            exact underway.ends (by decide) rfl rfl rfl
  unfinished stands := stands.underway.ends (by decide) rfl rfl rfl

end Excursion

end ZxSpectrum
