import Mathlib
import ZxSpectrum.Tape.Deck
import ZxSpectrum.Tape.Shelf

namespace ZxSpectrum

/-! With fast loading on, the ROM gets the blocks of a tape one after another, one each time that
it waits for the first edge of a block. -/

namespace TapeBlock

/-- What is played of a block at first: its first pulse, or its pause if it has no pulses. -/
def lead (block : TapeBlock) : Nat :=
  block.widths.headD block.pause

def opening (block : TapeBlock) : Head :=
  match block.widths with
  | [] => .pause
  | _ :: widths => .pulse true widths

end TapeBlock

namespace TapePosition

/-- The position is within the first of some blocks, or after the last one if there are none. -/
def Facing (position : TapePosition) : List TapeBlock → Prop
  | [] => position = .ended
  | block :: later => ∃ head ends, position = .playing block later head ends

theorem enter_cons (start : Nat) (block : TapeBlock) (later : List TapeBlock) :
    enter start (block :: later) =
      (Bound.long (start + block.lead)).map (.playing block later block.opening) := by
  simp only [enter, TapeBlock.lead, TapeBlock.opening]
  cases block.widths <;> simp [Option.map_eq_bind]

theorem exists_enter {start : Nat} {blocks : List TapeBlock}
    (fits : ∀ block ∈ blocks.head?, start + block.lead < 2 ^ 64) :
    ∃ position, enter start blocks = some position ∧ position.Facing blocks := by
  cases blocks with
  | nil => exact ⟨.ended, rfl, rfl⟩
  | cons block later =>
      have bounded := Bound.long_eq_some_iff.mpr ⟨fits block rfl, rfl⟩
      rw [enter_cons, bounded]
      exact ⟨_, rfl, _, _, rfl⟩

end TapePosition

namespace TapeDeck

/-! What the deck is told after each instruction. -/

structure Report where
  tact : Nat
  registers : Registers
  memory : Memory

namespace Report

def waits (report : Report) : Bool :=
  report.registers.pc = Loader.waitAddress

def unchanged (report : Report) : Registers × Memory :=
  (report.registers, report.memory)

/-- What is left of the reports if each one at which the ROM waits loads the next block. -/
def outcomes : List (List UInt8) → List Report → List (Registers × Memory)
  | block :: blocks, report :: reports =>
    if report.waits then
      Loader.load block report.registers report.memory :: outcomes blocks reports
    else report.unchanged :: outcomes (block :: blocks) reports
  | _, reports => reports.map unchanged

def loads (reports : List Report) : Nat :=
  reports.countP waits

def loadTacts (reports : List Report) : List Nat :=
  (reports.filter waits).map tact

/-- The tacts at which blocks begin to be played: the first one when the ROM waits for the first
time, and each later one when the block before it is loaded. -/
def startTacts (reports : List Report) : List Nat :=
  (loadTacts reports).head?.toList ++ loadTacts reports

theorem mem_zip_startTacts {tape : List TapeBlock} {reports : List Report}
    {start : TapeBlock × Nat} (member : start ∈ tape.tail.zip (loadTacts reports)) :
    start ∈ tape.zip (startTacts reports) := by
  cases tape with
  | nil => simp at member
  | cons block later =>
      cases tacts : loadTacts reports with
      | nil => simp [tacts] at member
      | cons tact others =>
          rw [tacts] at member
          simp only [startTacts, tacts]
          exact List.mem_cons_of_mem _ member

theorem mem_zip_startTacts_first {tape : List TapeBlock} {reports : List Report} {tact : Nat}
    {block : TapeBlock} (first : tact ∈ (loadTacts reports).head?) (front : block ∈ tape.head?) :
    (block, tact) ∈ tape.zip (startTacts reports) := by
  rcases List.head?_eq_some_iff.mp first with ⟨others, tacts⟩
  rcases List.head?_eq_some_iff.mp front with ⟨later, rfl⟩
  simp [startTacts, tacts]

theorem loads_of_waits {report : Report} (waits : report.waits = true) (reports : List Report) :
    loads (report :: reports) = loads reports + 1 := by
  simp [loads, waits]

theorem loads_of_not_waits {report : Report} (elsewhere : report.waits = false)
    (reports : List Report) : loads (report :: reports) = loads reports := by
  simp [loads, elsewhere]

theorem loadTacts_of_waits {report : Report} (waits : report.waits = true)
    (reports : List Report) : loadTacts (report :: reports) = report.tact :: loadTacts reports := by
  simp [loadTacts, waits]

theorem loadTacts_of_not_waits {report : Report} (elsewhere : report.waits = false)
    (reports : List Report) : loadTacts (report :: reports) = loadTacts reports := by
  simp [loadTacts, elsewhere]

theorem outcomes_of_waits {report : Report} (waits : report.waits = true) (bytes : List UInt8)
    (blocks : List (List UInt8)) (reports : List Report) :
    outcomes (bytes :: blocks) (report :: reports) =
      Loader.load bytes report.registers report.memory :: outcomes blocks reports := by
  simp [outcomes, waits]

theorem outcomes_of_not_waits {report : Report} (elsewhere : report.waits = false)
    (blocks : List (List UInt8)) (reports : List Report) :
    outcomes blocks (report :: reports) = report.unchanged :: outcomes blocks reports := by
  cases blocks <;> simp [outcomes, elsewhere]

/-- Nothing hinders the loading of blocks: the reports come before the last block is loaded, and
neither an error of the ROM nor an overflow of the clock ends the session. -/
structure Unhindered (tape : List TapeBlock) (blocks : List (List UInt8))
    (reports : List Report) : Prop where
  carried : tape.map TapeBlock.romData = blocks.map some
  before : reports ≠ [] → loads reports.dropLast < blocks.length
  fits : ∀ start ∈ tape.tail.zip (loadTacts reports), start.2 + start.1.lead < 2 ^ 64
  fine : ∀ report ∈ reports, report.registers.pc ≠ TapeDeck.errorAddress

namespace Unhindered

variable {tape later : List TapeBlock} {block : TapeBlock} {bytes : List UInt8}
  {blocks : List (List UInt8)} {report : Report} {reports : List Report}

theorem exists_cons (unhindered : Unhindered tape blocks (report :: reports)) :
    ∃ block later bytes others, tape = block :: later ∧ blocks = bytes :: others ∧
      block.romData = some bytes := by
  have before := unhindered.before (List.cons_ne_nil _ _)
  have nonempty : blocks ≠ [] := List.ne_nil_of_length_pos (Nat.zero_lt_of_lt before)
  rcases List.exists_cons_of_ne_nil nonempty with ⟨bytes, others, rfl⟩
  rcases List.map_eq_cons_iff.mp unhindered.carried with ⟨block, later, rfl, carries, -⟩
  exact ⟨block, later, bytes, others, rfl, rfl, carries⟩

theorem elsewhere (unhindered : Unhindered tape blocks (report :: reports))
    (elsewhere : report.waits = false) : Unhindered tape blocks reports where
  carried := unhindered.carried
  before := by
    intro more
    have before := unhindered.before (List.cons_ne_nil _ _)
    rwa [List.dropLast_cons_of_ne_nil more, loads_of_not_waits elsewhere] at before
  fits := by
    have fits := unhindered.fits
    rwa [loadTacts_of_not_waits elsewhere] at fits
  fine := (List.forall_mem_cons.mp unhindered.fine).2

theorem loaded (unhindered : Unhindered (block :: later) (bytes :: blocks) (report :: reports))
    (waits : report.waits = true) : Unhindered later blocks reports where
  carried := List.tail_eq_of_cons_eq unhindered.carried
  before := by
    intro more
    have before := unhindered.before (List.cons_ne_nil _ _)
    rw [List.dropLast_cons_of_ne_nil more, loads_of_waits waits] at before
    exact Nat.lt_of_succ_lt_succ before
  fits := by
    have fits := unhindered.fits
    rw [loadTacts_of_waits waits, List.tail_cons] at fits
    cases later with
    | nil => simp
    | cons next later => exact (List.forall_mem_cons.mp fits).2
  fine := (List.forall_mem_cons.mp unhindered.fine).2

theorem begins (unhindered : Unhindered (block :: later) (bytes :: blocks) (report :: reports))
    (waits : report.waits = true) :
    ∀ next ∈ later.head?, report.tact + next.lead < 2 ^ 64 := by
  have fits := unhindered.fits
  rw [loadTacts_of_waits waits, List.tail_cons] at fits
  cases later with
  | nil => simp
  | cons next later =>
      have first := (List.forall_mem_cons.mp fits).1
      simpa using first

end Unhindered

end Report

open Report

variable {ρ : Type}

/-! The deck while it plays, with the events that it has told. -/

def notifyAll (deck : TapeDeck ρ) (events : List TapeEvent) : TapeDeck ρ :=
  { deck with
    events := deck.events ++ events
    observers := deck.observers.map (· ++ events) }

def playing (deck : TapeDeck ρ) (player : Player) (events : List TapeEvent) : TapeDeck ρ :=
  { deck.notifyAll events with session := .load player }

def loadEvents : Nat → List TapeEvent
  | 0 => []
  | count + 1 => .enteredLoadMode :: List.replicate (count + 1) .fastLoadCompleted

theorem loadEvents_of_pos {count : Nat} (positive : 0 < count) :
    loadEvents count = .enteredLoadMode :: List.replicate count .fastLoadCompleted := by
  rcases Nat.exists_eq_add_one.mpr positive with ⟨count, rfl⟩
  rfl

theorem notify_playing (deck : TapeDeck ρ) (player : Player) (events : List TapeEvent)
    (event : TapeEvent) :
    (deck.playing player events).notify event = deck.playing player (events ++ [event]) := by
  simp [playing, notifyAll, notify]

theorem leaveLoad_playing {deck : TapeDeck ρ} (passive : deck.session = .passive)
    (player : Player) (events : List TapeEvent) :
    (deck.playing player events).leaveLoad =
      deck.notifyAll (events ++ [.leftLoadMode, .loadCompleted]) := by
  simp [leaveLoad, playing, notifyAll, notify, ← passive]

variable [TapeProvider ρ]

def consulted (deck : TapeDeck ρ) : TapeDeck ρ :=
  { deck with
    provider := deck.provider.map fun provider => (TapeProvider.content provider).2 }

def followAll (deck : TapeDeck ρ) :
    List Report → Option (List (Registers × Memory) × TapeDeck ρ)
  | [] => some ([], deck)
  | report :: reports => do
    let (deck, outcome) ← deck.follow true report.tact report.registers report.memory
    let (outcomes, deck) ← deck.followAll reports
    return (outcome :: outcomes, deck)

theorem followAll_cons {deck middle final : TapeDeck ρ} {report : Report} {reports : List Report}
    {outcome : Registers × Memory} {outcomes : List (Registers × Memory)}
    (first : deck.follow true report.tact report.registers report.memory = some (middle, outcome))
    (later : middle.followAll reports = some (outcomes, final)) :
    deck.followAll (report :: reports) = some (outcome :: outcomes, final) := by
  rw [followAll, first]
  simp [later]

/-! A report either leaves the deck and the processor as they are, or loads the current block. -/

theorem follow_elsewhere {deck : TapeDeck ρ} {tape : List TapeBlock} {block : TapeBlock}
    {later : List TapeBlock} {head : Head} {ends : Nat} {events : List TapeEvent} {report : Report}
    (elsewhere : report.waits = false) (fine : report.registers.pc ≠ errorAddress) :
    (deck.playing ⟨tape, some (.playing block later head ends)⟩ events).follow true report.tact
        report.registers report.memory =
      some (deck.playing ⟨tape, some (.playing block later head ends)⟩ events,
        report.unchanged) := by
  have pc : report.registers.pc ≠ Loader.waitAddress := of_decide_eq_false elsewhere
  simp [follow, updateMode, playing, Player.atEnd, fine, pc, unchanged]

theorem follow_ended {deck : TapeDeck ρ} {player : Player} (plays : deck.session = .load player)
    (ended : player.atEnd = true) (report : Report) :
    deck.follow true report.tact report.registers report.memory =
      some (deck.leaveLoad, report.unchanged) := by
  have left : deck.leaveLoad.loading = false := rfl
  simp [follow, updateMode, plays, ended, left, unchanged]

theorem follow_load {deck : TapeDeck ρ} {tape : List TapeBlock} {block : TapeBlock}
    {later : List TapeBlock} {head : Head} {ends : Nat} {events : List TapeEvent} {report : Report}
    {bytes : List UInt8} {next : TapePosition} (waits : report.waits = true)
    (carries : block.romData = some bytes)
    (enters : TapePosition.enter report.tact later = some next) :
    (deck.playing ⟨tape, some (.playing block later head ends)⟩ events).follow true report.tact
        report.registers report.memory =
      some (deck.playing ⟨tape, some next⟩ (events ++ [.fastLoadCompleted]),
        Loader.load bytes report.registers report.memory) := by
  have pc : report.registers.pc = Loader.waitAddress := of_decide_eq_true waits
  rw [← notify_playing]
  simp [follow, updateMode, playing, Player.atEnd, pc, Player.currentBlock, Player.nextBlock,
    carries, enters, loading, mode, fastLoad, Loader.waitAddress, errorAddress]

/-- The blocks are loaded in turn, and the deck faces those that are left. -/
theorem followAll_playing (deck : TapeDeck ρ) (tape : List TapeBlock) (events : List TapeEvent)
    {remaining : List TapeBlock} {blocks : List (List UInt8)} {position : TapePosition}
    {reports : List Report} (facing : position.Facing remaining)
    (unhindered : Unhindered remaining blocks reports) :
    ∃ last, last.Facing (remaining.drop (loads reports)) ∧
      (deck.playing ⟨tape, some position⟩ events).followAll reports =
        some (outcomes blocks reports,
          deck.playing ⟨tape, some last⟩
            (events ++ List.replicate (loads reports) .fastLoadCompleted)) := by
  induction reports generalizing remaining blocks position events with
  | nil =>
      refine ⟨position, facing, ?_⟩
      cases blocks <;> simp [followAll, outcomes, loads]
  | cons report reports induction =>
      rcases unhindered.exists_cons with ⟨block, later, bytes, others, rfl, rfl, carries⟩
      rcases facing with ⟨head, ends, rfl⟩
      cases waits : report.waits with
      | false =>
          have fine := unhindered.fine report List.mem_cons_self
          have still : (TapePosition.playing block later head ends).Facing (block :: later) :=
            ⟨head, ends, rfl⟩
          rcases induction _ still (unhindered.elsewhere waits) with ⟨last, there, run⟩
          rw [loads_of_not_waits waits, outcomes_of_not_waits waits]
          exact ⟨last, there, followAll_cons (follow_elsewhere waits fine) run⟩
      | true =>
          rcases TapePosition.exists_enter (unhindered.begins waits) with ⟨next, enters, facing⟩
          rcases induction _ facing (unhindered.loaded waits) with ⟨last, there, run⟩
          rw [loads_of_waits waits, outcomes_of_waits waits]
          refine ⟨last, there, ?_⟩
          rw [followAll_cons (follow_load waits carries enters) run]
          simp [List.replicate_succ]

/-! Before the ROM waits for the first time the deck is passive. Then it enters the session and
faces the first block before it loads it. -/

variable {deck : TapeDeck ρ} {provider : ρ} {image : List UInt8} {tape : List TapeBlock}

theorem follow_passive (passive : deck.session = .passive) {report : Report}
    (elsewhere : report.waits = false) (noSave : report.registers.pc ≠ saveAddress) :
    deck.follow true report.tact report.registers report.memory =
      some (deck, report.unchanged) := by
  have pc : report.registers.pc ≠ Loader.waitAddress := of_decide_eq_false elsewhere
  simp [follow, updateMode, passive, noSave, pc, unchanged]

theorem enterLoad_eq (inserted : deck.provider = some provider)
    (content : (TapeProvider.content provider).1 = .ok (some image))
    (playable : Player.blocksOfImage image = .ok tape) (nonempty : tape ≠ []) {tact : Nat}
    {position : TapePosition} (enters : TapePosition.enter tact tape = some position) :
    deck.enterLoad tact =
      some (deck.consulted.playing ⟨tape, some position⟩ [.enteredLoadMode]) := by
  have player : Player.ofImage image = .ok ⟨tape, none⟩ := by
    rw [Player.ofImage, playable]
    rfl
  simp [enterLoad, consulted, inserted, content, player, nonempty, Player.start, enters, playing,
    notifyAll, notify]

theorem followAll_enters (passive : deck.session = .passive) {report : Report}
    (waits : report.waits = true) {entered : TapeDeck ρ} {player : Player}
    (enters : deck.enterLoad report.tact = some entered) (loads : entered.session = .load player)
    (more : player.atEnd = false) (reports : List Report) :
    deck.followAll (report :: reports) = entered.followAll (report :: reports) := by
  have pc : report.registers.pc = Loader.waitAddress := of_decide_eq_true waits
  have other : Loader.waitAddress ≠ errorAddress := by decide
  simp [followAll, follow, updateMode, passive, pc, enters, loads, more, other]

theorem followAll_passive (passive : deck.session = .passive)
    (inserted : deck.provider = some provider)
    (content : (TapeProvider.content provider).1 = .ok (some image))
    (playable : Player.blocksOfImage image = .ok tape) {blocks : List (List UInt8)}
    {reports : List Report} (unhindered : Unhindered tape blocks reports)
    (begins : ∀ tact ∈ (loadTacts reports).head?, ∀ block ∈ tape.head?,
      tact + block.lead < 2 ^ 64)
    (noSave : ∀ report ∈ reports.takeWhile fun report => !report.waits,
      report.registers.pc ≠ saveAddress) :
    loads reports = 0 ∧ deck.followAll reports = some (outcomes blocks reports, deck) ∨
      0 < loads reports ∧ ∃ last : TapePosition, last.Facing (tape.drop (loads reports)) ∧
        deck.followAll reports =
          some (outcomes blocks reports,
            deck.consulted.playing ⟨tape, some last⟩
              (.enteredLoadMode :: List.replicate (loads reports) .fastLoadCompleted)) := by
  induction reports with
  | nil =>
      left
      cases blocks <;> exact ⟨rfl, rfl⟩
  | cons report reports induction =>
      cases waits : report.waits with
      | false =>
          rw [loadTacts_of_not_waits waits] at begins
          have skipped : (report :: reports).takeWhile (fun report => !report.waits) =
              report :: reports.takeWhile fun report => !report.waits := by
            simp [waits]
          rw [skipped, List.forall_mem_cons] at noSave
          have first := follow_passive passive waits noSave.1
          rw [loads_of_not_waits waits, outcomes_of_not_waits waits]
          rcases induction (unhindered.elsewhere waits) begins noSave.2 with
            ⟨nothing, run⟩ | ⟨begun, last, facing, run⟩
          · exact Or.inl ⟨nothing, followAll_cons first run⟩
          · exact Or.inr ⟨begun, last, facing, followAll_cons first run⟩
      | true =>
          right
          rw [loadTacts_of_waits waits] at begins
          rcases TapePosition.exists_enter (begins report.tact rfl) with
            ⟨position, enters, facing⟩
          rcases unhindered.exists_cons with ⟨block, later, bytes, others, rfl, rfl, carries⟩
          have entered : deck.enterLoad report.tact = _ :=
            enterLoad_eq inserted content playable (List.cons_ne_nil _ _) enters
          rcases followAll_playing deck.consulted (block :: later) [.enteredLoadMode] facing
            unhindered with ⟨last, there, run⟩
          refine ⟨?_, last, there, ?_⟩
          · simp [loads_of_waits waits]
          · rw [followAll_enters passive waits entered rfl ?_, run]
            · rfl
            · rcases facing with ⟨head, ends, rfl⟩
              rfl

/-- With fast loading on, the reports at which the ROM waits load the blocks of the inserted tape
one after another, each block once. No other report does anything. The report after the last block
takes the deck back to where it was, wherever the ROM is then. -/
theorem followAll_block_by_block (passive : deck.session = .passive)
    (inserted : deck.provider = some provider)
    (content : (TapeProvider.content provider).1 = .ok (some image))
    (playable : Player.blocksOfImage image = .ok tape) {blocks : List (List UInt8)}
    (carried : tape.map TapeBlock.romData = blocks.map some) {reports : List Report}
    (before : loads reports.dropLast < blocks.length)
    (fits : ∀ start ∈ tape.zip (startTacts reports), start.2 + start.1.lead < 2 ^ 64)
    (fine : ∀ report ∈ reports, report.registers.pc ≠ errorAddress)
    (noSave : ∀ report ∈ reports.takeWhile fun report => !report.waits,
      report.registers.pc ≠ saveAddress) :
    ∃ reached, deck.followAll reports = some (outcomes blocks reports, reached) ∧
      reached.events = deck.events ++ loadEvents (loads reports) ∧
      (loads reports = blocks.length → ∀ last : Report,
        reached.follow true last.tact last.registers last.memory =
          some (deck.consulted.notifyAll
              (.enteredLoadMode :: List.replicate blocks.length .fastLoadCompleted
                ++ [.leftLoadMode, .loadCompleted]),
            last.unchanged)) := by
  have length := congrArg List.length carried
  rw [List.length_map, List.length_map] at length
  have unhindered : Unhindered tape blocks reports := by
    refine ⟨carried, fun _ => before, ?_, fine⟩
    exact fun start member => fits start (mem_zip_startTacts member)
  have begins : ∀ tact ∈ (loadTacts reports).head?, ∀ block ∈ tape.head?,
      tact + block.lead < 2 ^ 64 :=
    fun tact first block front => fits (block, tact) (mem_zip_startTacts_first first front)
  rcases followAll_passive passive inserted content playable unhindered begins noSave with
    ⟨nothing, run⟩ | ⟨begun, position, facing, run⟩
  · refine ⟨deck, run, ?_, ?_⟩
    · simp [nothing, loadEvents]
    · intro all
      omega
  · refine ⟨_, run, ?_, ?_⟩
    · rw [loadEvents_of_pos begun]
      rfl
    · intro all last
      have ended : position = .ended := by
        rwa [all, ← length, List.drop_length] at facing
      rw [all, ended]
      have still : deck.consulted.session = .passive := passive
      rw [follow_ended rfl rfl, leaveLoad_playing still]

/-! A tape of two blocks, without and with a byte between flag and parity. -/

def twoBlocks : List (List UInt8) :=
  [[0, 0], [0xFF, 0xAA, 0x55]]

def imageOfTwoBlocks : List UInt8 :=
  [2, 0, 0, 0, 3, 0, 0xFF, 0xAA, 0x55]

def tapeOfTwoBlocks : List TapeBlock :=
  twoBlocks.map (TapeBlock.ofBytes · 3500000)

theorem blocksOfImage_twoBlocks :
    Player.blocksOfImage imageOfTwoBlocks = .ok tapeOfTwoBlocks := by
  simp [Player.blocksOfImage, imageOfTwoBlocks, Tzx.isImage, Tzx.signature, Tap.parse,
    Tap.parseFrom, Except.map]
  rfl

def deckOfTwoBlocks : TapeDeck TapeShelf where
  provider := some { image := some imageOfTwoBlocks }

def reportsOfTwoBlocks : List Report :=
  [⟨10, {}, Memory.empty⟩, ⟨20, { pc := Loader.waitAddress }, Memory.empty⟩,
    ⟨30, { pc := 0x1234 }, Memory.empty⟩,
    ⟨40, { pc := Loader.waitAddress, e := 1, aAlternate := 0xFF, fAlternate := Flag.carry },
      Memory.empty⟩]

theorem followAll_block_by_block_twoBlocks :
    ∃ reached,
      deckOfTwoBlocks.followAll reportsOfTwoBlocks =
          some (outcomes twoBlocks reportsOfTwoBlocks, reached) ∧
        ∀ last : Report,
          reached.follow true last.tact last.registers last.memory =
            some (deckOfTwoBlocks.notifyAll
                [.enteredLoadMode, .fastLoadCompleted, .fastLoadCompleted, .leftLoadMode,
                  .loadCompleted],
              last.unchanged) := by
  let shelf : TapeShelf := { image := some imageOfTwoBlocks }
  have inserted : deckOfTwoBlocks.provider = some shelf := rfl
  have content : (TapeProvider.content shelf).1 = .ok (some imageOfTwoBlocks) := rfl
  have carried : tapeOfTwoBlocks.map TapeBlock.romData = twoBlocks.map some := rfl
  have before : loads reportsOfTwoBlocks.dropLast < twoBlocks.length := by decide
  rcases followAll_block_by_block rfl inserted content blocksOfImage_twoBlocks carried before
    (by decide +kernel) (by decide) (by decide) with ⟨reached, run, -, leaves⟩
  exact ⟨reached, run, leaves rfl⟩

/-- The last tact that the clock can show. -/
def lastTact : Nat :=
  UInt64.size - 1

/-- Then there is no room for the first pulse of the tape. -/
theorem follow_at_lastTact :
    deckOfTwoBlocks.session = .passive ∧
      Player.blocksOfImage imageOfTwoBlocks = .ok tapeOfTwoBlocks ∧
      tapeOfTwoBlocks.map TapeBlock.romData = twoBlocks.map some ∧
      deckOfTwoBlocks.follow true lastTact { pc := Loader.waitAddress } Memory.empty = none := by
  have player : Player.ofImage imageOfTwoBlocks = .ok ⟨tapeOfTwoBlocks, none⟩ := by
    rw [Player.ofImage, blocksOfImage_twoBlocks]
    rfl
  have nonempty : tapeOfTwoBlocks ≠ [] := by decide
  have full : TapePosition.enter lastTact tapeOfTwoBlocks = none := by decide +kernel
  refine ⟨rfl, blocksOfImage_twoBlocks, rfl, ?_⟩
  simp [follow, updateMode, enterLoad, deckOfTwoBlocks, TapeProvider.content, player, nonempty,
    Player.start, full]

end TapeDeck

end ZxSpectrum
