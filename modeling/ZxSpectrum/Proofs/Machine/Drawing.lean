import ZxSpectrum.Proofs.Machine.Path

namespace ZxSpectrum

/-! How the frames of a session are drawn. Tacts are drawn in three places: those carried into a
frame when it starts, those that an instruction has taken when it has been executed, and the rest
of the frame by the instruction that ends it. Together they are each tact of the frame once, in
order. -/

namespace Moment

variable {Cpu κ ρ : Type}

/-- A frame starts or is completed. -/
def bounds : Moment Cpu κ ρ → Bool
  | .frameStarted _ | .frameCompleted _ => true
  | _ => false

def drawnTact? : Moment Cpu κ ρ → Option Nat
  | .drawn tact _ _ _ => some tact
  | _ => none

def count (drawn : Option Nat) : Moment Cpu κ ρ → Option Nat
  | .frameStarted _ => some 0
  | .drawn _ _ _ _ => drawn.map (· + 1)
  | .frameCompleted _ => none
  | .boundary _ _ | .executing _ => drawn

/-- The moment fits the number of tacts drawn before it, out of all tacts of a frame. -/
def Fits (frameTacts drawn : Nat) : Moment Cpu κ ρ → Prop
  | .drawn tact _ _ _ => tact = drawn
  | .boundary _ machine => machine.nextDrawn = drawn
  | .frameCompleted _ => frameTacts = drawn
  | .frameStarted _ | .executing _ => True

end Moment

/-! The tacts that a log draws. Within a frame they are those from the number drawn before on. -/

def drawnTacts (log : List (Moment Cpu κ ρ)) : List Nat :=
  log.filterMap Moment.drawnTact?

def InOrder (frameTacts : Nat) : Option Nat → List (Moment Cpu κ ρ) → Prop
  | _, [] => True
  | drawn, moment :: log =>
    (∀ n ∈ drawn, moment.Fits frameTacts n) ∧ InOrder frameTacts (moment.count drawn) log

section Logs

variable {Cpu κ ρ : Type} {frameTacts : Nat} {drawn : Option Nat}
  {log later : List (Moment Cpu κ ρ)}

theorem inOrder_append :
    InOrder frameTacts drawn (log ++ later) ↔
      InOrder frameTacts drawn log ∧ InOrder frameTacts (log.foldl Moment.count drawn) later := by
  induction log generalizing drawn with
  | nil => exact (iff_of_eq (true_and _)).symm
  | cons moment log induction => exact (and_congr_right fun _ => induction).trans and_assoc.symm

theorem drawnTacts_of_inOrder {n : Nat} (inOrder : InOrder frameTacts (some n) log)
    (within : ∀ moment ∈ log, moment.bounds = false) :
    ∃ many, drawnTacts log = List.range' n many ∧
      log.foldl Moment.count (some n) = some (n + many) := by
  induction log generalizing n with
  | nil => exact ⟨0, rfl, rfl⟩
  | cons moment log induction =>
      have rest := fun other member => within other (List.mem_cons_of_mem _ member)
      have first := within moment List.mem_cons_self
      rcases inOrder with ⟨fits, inOrder⟩
      cases moment with
      | frameStarted machine => exact nomatch first
      | frameCompleted machine => exact nomatch first
      | drawn tact border flash memory =>
          rcases induction inOrder rest with ⟨many, tacts, total⟩
          have fits : tact = n := fits n rfl
          refine ⟨many + 1, ?_, ?_⟩
          · rw [List.range'_succ, ← tacts, ← fits]
            rfl
          · rw [← Nat.add_assoc, Nat.add_right_comm]
            exact total
      | boundary executed machine => exact induction inOrder rest
      | executing machine => exact induction inOrder rest

theorem inOrder_drawnMoments (board : Board κ ρ) {first : Nat} (bound : Nat)
    (next : ∀ n ∈ drawn, first = n) :
    InOrder frameTacts drawn (board.drawnMoments first bound : List (Moment Cpu κ ρ)) ∧
      (board.drawnMoments first bound : List (Moment Cpu κ ρ)).foldl Moment.count drawn =
        drawn.map fun _ => max first bound := by
  have total : max first bound = first + (bound - first) := by omega
  rw [Board.drawnMoments, total]
  clear total
  generalize bound - first = many
  induction many generalizing first drawn with
  | zero =>
      refine ⟨trivial, ?_⟩
      cases drawn with
      | none => rfl
      | some n => exact congrArg some (next n rfl).symm
  | succ many induction =>
      have later : ∀ n ∈ drawn.map (· + 1), first + 1 = n := by
        intro n member
        rcases Option.mem_map.mp member with ⟨before, inside, rfl⟩
        rw [next before inside]
      rcases induction later with ⟨inOrder, count⟩
      rw [List.range'_succ]
      refine ⟨⟨next, inOrder⟩, count.trans ?_⟩
      rw [Option.map_map, Nat.add_assoc, Nat.add_comm 1 many]
      rfl

/-! The start of a frame begins the count anew. -/

theorem drawnTacts_of_started (inOrder : InOrder frameTacts none log)
    {before inside : List (Moment Cpu κ ρ)} {start : Machine Cpu κ ρ}
    (split : log = before ++ .frameStarted start :: inside)
    (within : ∀ other ∈ inside, other.bounds = false) :
    ∃ many, drawnTacts inside = List.range many ∧ log.foldl Moment.count none = some many := by
  rw [split] at inOrder
  have later := (inOrder_append.mp inOrder).2.2
  rcases drawnTacts_of_inOrder later within with ⟨many, tacts, count⟩
  refine ⟨many, tacts.trans List.range_eq_range'.symm, ?_⟩
  rw [split, List.foldl_append]
  exact count.trans (congrArg some (Nat.zero_add many))

theorem drawnTacts_of_split {log : List (Moment Cpu κ ρ)} (inOrder : InOrder frameTacts none log)
    {before inside after : List (Moment Cpu κ ρ)} {start : Machine Cpu κ ρ}
    {moment : Moment Cpu κ ρ}
    (split : log = before ++ .frameStarted start :: inside ++ moment :: after)
    (within : ∀ other ∈ inside, other.bounds = false) :
    ∃ many, drawnTacts inside = List.range many ∧ moment.Fits frameTacts many := by
  rw [split] at inOrder
  rcases inOrder_append.mp inOrder with ⟨upTo, rest⟩
  rcases drawnTacts_of_started upTo rfl within with ⟨many, tacts, count⟩
  exact ⟨many, tacts, rest.1 many count⟩

end Logs

/-! A path draws in order. -/

namespace Machine

variable {Cpu κ ρ : Type} [Processor Cpu]

variable [TapeProvider ρ] [Peripheral κ]

structure SameFrame (machine after : Machine Cpu κ ρ) : Prop where
  frameTacts : after.frameTacts = machine.frameTacts
  frameStart : after.board.frameStart = machine.board.frameStart
  multiplier : after.board.multiplier = machine.board.multiplier
  overflow : after.overflow = machine.overflow

omit [Processor Cpu] [TapeProvider ρ] [Peripheral κ] in
theorem SameFrame.of_account {machine after : Machine Cpu κ ρ}
    (same : after.account = machine.account) : SameFrame machine after where
  frameTacts := congrArg (fun account => account.backdrop.sheet.1.frameTacts) same
  frameStart := congrArg (fun account => account.backdrop.frameStart) same
  multiplier := congrArg (fun account => account.backdrop.multiplier) same
  overflow := congrArg Account.overflow same

omit [Processor Cpu] [TapeProvider ρ] [Peripheral κ] in
theorem SameFrame.trans {machine middle after : Machine Cpu κ ρ} (first : SameFrame machine middle)
    (second : SameFrame middle after) : SameFrame machine after where
  frameTacts := second.frameTacts.trans first.frameTacts
  frameStart := second.frameStart.trans first.frameStart
  multiplier := second.multiplier.trans first.multiplier
  overflow := second.overflow.trans first.overflow

omit [TapeProvider ρ] [Peripheral κ] in
theorem sameFrame_drawnBy (machine : Machine Cpu κ ρ) (options : RunOptions) :
    SameFrame machine (machine.drawnBy options) := by
  rw [drawnBy]
  split
  · exact .of_account rfl
  · rw [drawTo_eq]
    exact ⟨rfl, rfl, rfl, rfl⟩

theorem Executed.sameFrame {machine after : Machine Cpu κ ρ} {options : RunOptions}
    {reason : Option Completion} (executed : Executed machine options reason after) :
    SameFrame machine after := by
  cases executed with
  | faulted cycled => exact (SameFrame.of_account (account_cycle cycled)).trans ⟨rfl, rfl, rfl, rfl⟩
  | halted cycled _ =>
      exact (SameFrame.of_account (account_cycle cycled)).trans (sameFrame_drawnBy _ _)
  | completed cycled tape =>
      have cycle := SameFrame.of_account (account_cycle cycled)
      have drawn := cycle.trans (sameFrame_drawnBy _ options)
      have followed := drawn.trans (.of_account (account_followTape tape))
      exact followed.trans ⟨rfl, rfl, rfl, rfl⟩

/-! How far an instruction draws. -/

def drawBound (machine : Machine Cpu κ ρ) : Nat :=
  min machine.frameTact machine.frameTacts

theorem Executed.nextDrawn_eq {machine after : Machine Cpu κ ρ} {options : RunOptions}
    (hidden : options.withoutDrawing = true) {reason : Option Completion}
    (executed : Executed machine options reason after) : after.nextDrawn = machine.nextDrawn := by
  have drawn (stepped : Machine Cpu κ ρ) : stepped.drawnBy options = stepped := if_pos hidden
  cases executed with
  | faulted cycled => exact congrArg Account.nextDrawn (account_cycle cycled)
  | halted cycled _ =>
      rw [drawn]
      exact congrArg Account.nextDrawn (account_cycle cycled)
  | completed cycled tape =>
      rw [drawn] at tape
      exact congrArg Account.nextDrawn ((account_followTape tape).trans (account_cycle cycled))

/-- An instruction that meets no fault draws on, and it does not finish the frame before all of
it is due. -/
theorem Executed.drawn {machine after : Machine Cpu κ ρ} {options : RunOptions}
    (drawing : options.withoutDrawing = false) {reason : Option Completion}
    (executed : Executed machine options reason after) :
    (reason = some .faulted ∧ machine.executeLog options = [] ∧
        after.nextDrawn = machine.nextDrawn) ∨
      ∃ stepped, machine.cycle = some (none, stepped) ∧
        machine.executeLog options =
          stepped.board.drawnMoments machine.nextDrawn stepped.drawBound ∧
        after.nextDrawn = max machine.nextDrawn stepped.drawBound ∧
        (reason = none → after.frameFinished = true →
          stepped.drawBound = machine.frameTacts) := by
  have log {stepped} (cycled : machine.cycle = some (none, stepped)) :
      machine.executeLog options =
        stepped.board.drawnMoments machine.nextDrawn stepped.drawBound := by
    have next : stepped.nextDrawn = machine.nextDrawn :=
      congrArg Account.nextDrawn (account_cycle cycled)
    simp only [executeLog, cycled, drawing, next]
    rfl
  have next {stepped} (cycled : machine.cycle = some (none, stepped)) :
      (stepped.drawnBy options).nextDrawn = max machine.nextDrawn stepped.drawBound := by
    have next : stepped.nextDrawn = machine.nextDrawn :=
      congrArg Account.nextDrawn (account_cycle cycled)
    rw [drawnBy, drawing, if_neg Bool.false_ne_true, drawTo_eq, ← next]
    rfl
  cases executed with
  | faulted cycled =>
      refine .inl ⟨rfl, ?_, congrArg Account.nextDrawn (account_cycle cycled)⟩
      rw [executeLog, cycled]
  | halted cycled _ =>
      exact .inr ⟨_, cycled, log cycled, next cycled,
        fun completed => absurd completed (Option.some_ne_none _)⟩
  | completed cycled tape =>
      have followed := account_followTape tape
      have frame := (sameFrame_drawnBy _ options).trans (.of_account followed)
      have drawn := (congrArg Account.nextDrawn followed).trans (next cycled)
      refine .inr ⟨_, cycled, log cycled, drawn, ?_⟩
      intro _ finished
      have due := of_decide_eq_true (Bool.and_eq_true_iff.mp finished).2
      rw [drawBound, ← (SameFrame.of_account (account_cycle cycled)).frameTacts]
      rw [frame.frameTacts] at due
      exact min_eq_right due

theorem Executed.inOrder {machine after : Machine Cpu κ ρ} {options : RunOptions}
    (drawing : options.withoutDrawing = false) {reason : Option Completion}
    (executed : Executed machine options reason after) {drawn : Option Nat}
    (next : ∀ n ∈ drawn, machine.nextDrawn = n) (inFrame : machine.nextDrawn ≤ machine.frameTacts) :
    InOrder machine.frameTacts drawn (machine.executeLog options) ∧
      (∀ n ∈ (machine.executeLog options).foldl Moment.count drawn, after.nextDrawn = n) ∧
      after.nextDrawn ≤ machine.frameTacts ∧
      (reason = none → after.frameFinished = true → after.nextDrawn = machine.frameTacts) := by
  rcases executed.drawn drawing with
    ⟨fault, log, same⟩ | ⟨stepped, cycled, log, nextDrawn, finish⟩
  · rw [log, same]
    exact ⟨trivial, next, inFrame, fun completed => nomatch fault.symm.trans completed⟩
  · rcases inOrder_drawnMoments stepped.board stepped.drawBound next with ⟨inOrder, count⟩
    have bound : stepped.drawBound ≤ machine.frameTacts := by
      rw [drawBound, (SameFrame.of_account (account_cycle cycled)).frameTacts]
      exact min_le_right _ _
    rw [log, nextDrawn, count]
    refine ⟨inOrder, fun n member => ?_, max_le inFrame bound, fun completed finished => ?_⟩
    · rcases Option.mem_map.mp member with ⟨_, -, total⟩
      exact total
    · rw [finish completed finished]
      exact max_eq_right inFrame

/-- What has been drawn at a place on a path, where frames have a number of tacts. -/
def Draws (frameTacts : Nat) (drawn : Option Nat) (standing : Standing Cpu κ ρ) : Prop :=
  let machine := standing.machine
  machine.frameTacts = frameTacts ∧ machine.overflow < frameTacts ∧
    match standing.stage with
    | .betweenFrames => drawn = none
    | .inFrame | .begun => (∀ n ∈ drawn, machine.nextDrawn = n) ∧ machine.nextDrawn ≤ frameTacts
    | .overrun => (∀ n ∈ drawn, machine.nextDrawn = n) ∧ machine.nextDrawn = frameTacts

omit [Processor Cpu] [TapeProvider ρ] [Peripheral κ] in
theorem Draws.nextDrawn {frameTacts many : Nat} {drawn : Option Nat} {machine : Machine Cpu κ ρ}
    {executed : Nat} (draws : Draws frameTacts drawn (machine.standing executed))
    (count : drawn = some many) : machine.nextDrawn = many := by
  cases finished : machine.frameFinished with
  | true =>
      rw [standing_of_finished finished] at draws
      have none : drawn = none := draws.2.2
      exact nomatch none.symm.trans count
  | false =>
      rw [standing_of_running finished] at draws
      exact draws.2.2.1 many count

variable {permitted : RunOptions → Prop}

theorem Step.draws (drawing : ∀ options, permitted options → options.withoutDrawing = false)
    {first last : Standing Cpu κ ρ} {log : List (Moment Cpu κ ρ)}
    (step : Step permitted first log last) {frameTacts : Nat} {drawn : Option Nat}
    (draws : Draws frameTacts drawn first) :
    InOrder frameTacts drawn log ∧ Draws frameTacts (log.foldl Moment.count drawn) last := by
  rcases draws with ⟨rfl, room, draws⟩
  cases step with
  | note debugger completion => exact ⟨trivial, rfl, room, draws⟩
  | call allowed => exact ⟨trivial, rfl, room, draws⟩
  | @startFrame executed machine =>
      have start : ∀ n ∈ some 0, 0 = n := fun _ member => Option.some.inj member
      rcases inOrder_drawnMoments machine.board machine.overflow start with ⟨inOrder, count⟩
      refine ⟨⟨fun _ _ => trivial, inOrder⟩, machine.frameTacts_startFrame, room,
        fun n member => ?_, room.le⟩
      have total : some (max 0 machine.overflow) = some n := count.symm.trans member
      rw [Nat.zero_max] at total
      exact Option.some.inj total
  | boundary between => exact ⟨⟨draws.1, trivial⟩, rfl, room, draws⟩
  | start => exact ⟨⟨fun _ _ => trivial, trivial⟩, rfl, room, draws⟩
  | stop allowed stopped =>
      have executed := executed_of_executeInstruction stopped
      rcases executed.inOrder (drawing _ allowed) draws.1 draws.2 with ⟨inOrder, next, inFrame, -⟩
      refine ⟨inOrder, executed.sameFrame.frameTacts, ?_, next, inFrame⟩
      rw [executed.sameFrame.overflow]
      exact room
  | @goOn _ _ _ after allowed completed =>
      have executed := executed_of_executeInstruction completed
      rcases executed.inOrder (drawing _ allowed) draws.1 draws.2
        with ⟨inOrder, next, inFrame, finish⟩
      refine ⟨inOrder, executed.sameFrame.frameTacts, ?_, ?_⟩
      · rw [executed.sameFrame.overflow]
        exact room
      · cases finished : after.frameFinished with
        | false => exact ⟨next, inFrame⟩
        | true => exact ⟨next, finish rfl finished⟩
  | @completeFrame _ machine =>
      have carried : machine.frameTact % machine.frameTacts < machine.frameTacts :=
        Nat.mod_lt _ machine.board.timing.raster.frameTacts_pos
      refine ⟨⟨fun n member => ?_, trivial⟩, machine.frameTacts_completeFrame, carried, rfl⟩
      exact draws.2.symm.trans (draws.1 n member)

theorem Path.draws (drawing : ∀ options, permitted options → options.withoutDrawing = false)
    {first last : Standing Cpu κ ρ} {log : List (Moment Cpu κ ρ)}
    (path : Path permitted first log last) {frameTacts : Nat} {drawn : Option Nat}
    (draws : Draws frameTacts drawn first) :
    InOrder frameTacts drawn log ∧ Draws frameTacts (log.foldl Moment.count drawn) last := by
  induction path generalizing drawn with
  | nil => exact ⟨trivial, draws⟩
  | cons step _ induction =>
      rcases step.draws drawing draws with ⟨inOrder, draws⟩
      rcases induction draws with ⟨later, draws⟩
      rw [List.foldl_append]
      exact ⟨inOrder_append.mpr ⟨inOrder, later⟩, draws⟩

/-! Whether or not anything is drawn, what is counted of a frame stays within it. -/

def CountsWithin (standing : Standing Cpu κ ρ) : Prop :=
  let machine := standing.machine
  machine.overflow < machine.frameTacts ∧
    (standing.stage ≠ .betweenFrames → machine.nextDrawn ≤ machine.frameTacts)

theorem Executed.nextDrawn_le {machine after : Machine Cpu κ ρ} {options : RunOptions}
    {reason : Option Completion} (executed : Executed machine options reason after)
    (inFrame : machine.nextDrawn ≤ machine.frameTacts) : after.nextDrawn ≤ after.frameTacts := by
  rw [executed.sameFrame.frameTacts]
  cases drawing : options.withoutDrawing with
  | true =>
      rw [executed.nextDrawn_eq drawing]
      exact inFrame
  | false =>
      have nothing : ∀ n ∈ (none : Option Nat), machine.nextDrawn = n := nofun
      exact (executed.inOrder drawing nothing inFrame).2.2.1

theorem Executed.countsWithin {machine after : Machine Cpu κ ρ} {options : RunOptions}
    {reason : Option Completion} (executed : Executed machine options reason after)
    {executedBefore executedAfter : Nat} {stage : Stage}
    (counts : CountsWithin ⟨.begun, executedBefore, machine⟩) :
    CountsWithin ⟨stage, executedAfter, after⟩ := by
  refine ⟨?_, fun _ => executed.nextDrawn_le (counts.2 nofun)⟩
  rw [executed.sameFrame.overflow, executed.sameFrame.frameTacts]
  exact counts.1

theorem Step.countsWithin {first last : Standing Cpu κ ρ} {log : List (Moment Cpu κ ρ)}
    (step : Step permitted first log last) (counts : CountsWithin first) : CountsWithin last := by
  cases step with
  | note debugger completion => exact counts
  | call allowed => exact counts
  | @startFrame _ machine =>
      have frame := machine.frameTacts_startFrame
      exact ⟨counts.1.trans_eq frame.symm, fun _ => counts.1.le.trans_eq frame.symm⟩
  | boundary between => exact counts
  | start => exact ⟨counts.1, fun _ => counts.2 nofun⟩
  | stop allowed stopped => exact (executed_of_executeInstruction stopped).countsWithin counts
  | goOn allowed completed => exact (executed_of_executeInstruction completed).countsWithin counts
  | @completeFrame _ machine =>
      refine ⟨?_, fun inFrame => absurd rfl inFrame⟩
      rw [machine.frameTacts_completeFrame]
      exact Nat.mod_lt _ machine.board.timing.raster.frameTacts_pos

theorem Path.countsWithin {first last : Standing Cpu κ ρ} {log : List (Moment Cpu κ ρ)}
    (path : Path permitted first log last) (counts : CountsWithin first) : CountsWithin last := by
  induction path with
  | nil => exact counts
  | cons step _ induction => exact induction (step.countsWithin counts)

omit [Processor Cpu] [TapeProvider ρ] [Peripheral κ] in
theorem CountsWithin.draws {machine : Machine Cpu κ ρ} {executed : Nat}
    (counts : CountsWithin (machine.standing executed)) :
    Draws machine.frameTacts none (machine.standing executed) := by
  refine ⟨rfl, counts.1, ?_⟩
  cases finished : machine.frameFinished with
  | true => rw [standing_of_finished finished]
  | false =>
      rw [standing_of_running finished] at counts ⊢
      exact ⟨nofun, counts.2 nofun⟩

end Machine

end ZxSpectrum
