import ZxSpectrum.Proofs.Machine.History

namespace ZxSpectrum

/-! Veils. Parts of a machine are there for its host only: the picture and whether it is handed
over, what the observers of the tape deck have heard, and what has been told before. A veil hides
some of them, and nothing that a machine does looks behind it. -/

/-- What is hidden of a machine, and what it seems to have told. -/
structure Veil where
  /-- The picture, how far it is drawn, and whether pictures and sound are handed over. -/
  presentation : Bool := false
  /-- What the observers of the tape deck have heard. -/
  observers : Bool := false
  /-- Notices that seem to have come before the first. -/
  earlier : Array Notice := #[]

namespace Veil

variable {κ ρ Cpu : Type} (veil : Veil)

def shows : Notice → Bool
  | .picture _ | .sound _ => !veil.presentation
  | .frameStarted | .cardCalled _ _ => true

def screen (screen : Screen) : Screen :=
  { screen with
    canvas := if veil.presentation then Canvas.empty _ else screen.canvas
    suppressed := !veil.presentation && screen.suppressed }

def beeper (beeper : Beeper) : Beeper :=
  { beeper with muted := !veil.presentation && beeper.muted }

def deck (deck : TapeDeck ρ) : TapeDeck ρ :=
  { deck with observers := if veil.observers then [] else deck.observers }

def board (board : Board κ ρ) : Board κ ρ :=
  { board with
    screen := veil.screen board.screen
    beeper := veil.beeper board.beeper
    deck := veil.deck board.deck
    notices := veil.earlier ++ board.notices.filter veil.shows }

def machine (machine : Machine Cpu κ ρ) : Machine Cpu κ ρ :=
  { machine with
    board := veil.board machine.board
    nextDrawn := if veil.presentation then 0 else machine.nextDrawn }

def options (options : RunOptions) : RunOptions :=
  { options with
    withoutDrawing := !veil.presentation && options.withoutDrawing
    withoutDelivery := !veil.presentation && options.withoutDelivery }

/-! The tape deck does not look at its observers. -/

section Deck

variable (deck : TapeDeck ρ)

theorem notify_deck (event : TapeEvent) :
    (veil.deck deck).notify event = veil.deck (deck.notify event) := by
  cases hidden : veil.observers <;> simp [TapeDeck.notify, Veil.deck, hidden]

theorem ear_deck (tact : Nat) :
    (veil.deck deck).ear tact = (deck.ear tact).map (Prod.map id veil.deck) := by
  rcases deck with ⟨provider, session, recorder, line, events, observers⟩
  cases session with
  | passive => rfl
  | save _ _ => rfl
  | load player =>
      simp only [TapeDeck.ear, Veil.deck]
      cases player.ear tact <;> rfl

theorem leaveLoad_deck : (veil.deck deck).leaveLoad = veil.deck deck.leaveLoad := by
  rw [TapeDeck.leaveLoad, TapeDeck.leaveLoad, ← notify_deck, ← notify_deck]
  rfl

variable [TapeProvider ρ]

theorem hear_deck (level : Bool) (tact : Nat) :
    (veil.deck deck).hear level tact = (deck.hear level tact).map veil.deck := by
  rcases deck with ⟨provider, session, recorder, line, events, observers⟩
  cases session with
  | passive => rfl
  | load _ => rfl
  | save lastEdge blocksSaved =>
      simp only [TapeDeck.hear, Veil.deck]
      by_cases same : level = line
      · rw [if_pos same, if_pos same]
        rfl
      · rw [if_neg same, if_neg same]
        cases recorder.feed (Pulse.classify (tact - lastEdge)) with
        | none => rfl
        | some fed =>
            rcases fed with ⟨recorder, block⟩
            cases block <;> rfl

theorem enterLoad_deck (tact : Nat) :
    (veil.deck deck).enterLoad tact = (deck.enterLoad tact).map veil.deck := by
  rcases deck with ⟨provider, session, recorder, line, events, observers⟩
  cases provider with
  | none => rfl
  | some provider =>
      simp only [TapeDeck.enterLoad, Veil.deck]
      rcases TapeProvider.content provider with ⟨content, provider⟩
      cases content with
      | error _ => rfl
      | ok image =>
          cases image with
          | none => rfl
          | some image =>
              simp only
              cases Player.ofImage image with
              | error _ => rfl
              | ok player =>
                  simp only
                  by_cases empty : player.blocks = []
                  · rw [if_pos empty, if_pos empty]
                    rfl
                  · rw [if_neg empty, if_neg empty]
                    cases player.start tact with
                    | none => rfl
                    | some player =>
                        let begun : TapeDeck ρ :=
                          ⟨some provider, .load player, recorder, line, events, observers⟩
                        exact congrArg some (veil.notify_deck begun .enteredLoadMode)

theorem enterSave_deck (tact : Nat) :
    (veil.deck deck).enterSave tact = veil.deck (deck.enterSave tact) := by
  rw [TapeDeck.enterSave, TapeDeck.enterSave, ← notify_deck]
  rfl

theorem leaveSave_deck : (veil.deck deck).leaveSave = veil.deck deck.leaveSave := by
  rw [TapeDeck.leaveSave, TapeDeck.leaveSave, ← notify_deck]
  rfl

theorem updateMode_deck (pc : UInt16) (tact : Nat) :
    (veil.deck deck).updateMode pc tact = (deck.updateMode pc tact).map veil.deck := by
  have session : (veil.deck deck).session = deck.session := rfl
  rw [TapeDeck.updateMode, TapeDeck.updateMode, session, enterLoad_deck, enterSave_deck,
    leaveLoad_deck, leaveSave_deck]
  cases deck.session with
  | passive =>
      simp only
      split_ifs <;> rfl
  | load player =>
      simp only
      split_ifs <;> rfl
  | save lastEdge _ =>
      simp only
      split_ifs <;> rfl

omit [TapeProvider ρ] in
theorem fastLoad_deck (tact : Nat) (registers : Registers) (memory : Memory) :
    (veil.deck deck).fastLoad tact registers memory =
      (deck.fastLoad tact registers memory).map (Prod.map veil.deck id) := by
  have session : (veil.deck deck).session = deck.session := rfl
  rw [TapeDeck.fastLoad, TapeDeck.fastLoad, session]
  cases deck.session with
  | passive => rfl
  | save _ _ => rfl
  | load player =>
      simp only
      cases player.currentBlock.bind TapeBlock.romData with
      | none => rfl
      | some data =>
          simp only
          cases player.nextBlock tact with
          | none => rfl
          | some player =>
              let advanced : TapeDeck ρ := { deck with session := .load player }
              have told := veil.notify_deck advanced .fastLoadCompleted
              exact congrArg (fun deck => some (deck, Loader.load data registers memory)) told

theorem follow_deck (fast : Bool) (tact : Nat) (registers : Registers) (memory : Memory) :
    (veil.deck deck).follow fast tact registers memory =
      (deck.follow fast tact registers memory).map (Prod.map veil.deck id) := by
  rw [TapeDeck.follow, TapeDeck.follow, updateMode_deck]
  cases deck.updateMode registers.pc tact with
  | none => rfl
  | some deck =>
      have loading : (veil.deck deck).loading = deck.loading := rfl
      simp only [Option.map_some, Option.bind_eq_bind, Option.bind_some, loading, fastLoad_deck]
      split_ifs <;> rfl

end Deck

theorem hear_beeper (beeper : Beeper) (fromTape level : Bool) (tact : Nat) :
    (veil.beeper beeper).hear fromTape level tact = veil.beeper (beeper.hear fromTape level tact) := by
  have same : (veil.beeper beeper).fromTape = beeper.fromTape := rfl
  rw [Beeper.hear, Beeper.hear, same]
  split_ifs <;> rfl

/-! The board answers the processor as if nothing were hidden. -/

section Board

variable (board : Board κ ρ)

theorem tell_board {notice : Notice} (shown : veil.shows notice = true) :
    (veil.board board).tell notice = veil.board (board.tell notice) := by
  have pushed : veil.earlier ++ (board.notices.push notice).filter veil.shows =
      (veil.earlier ++ board.notices.filter veil.shows).push notice := by
    simp [shown]
  rw [Board.tell, Board.tell, Veil.board, Veil.board, pushed]

theorem setCard_board (slot : CardSlot) (card : κ) :
    (veil.board board).setCard slot card = veil.board (board.setCard slot card) := by
  cases slot <;> rfl

theorem card_board (slot : CardSlot) : (veil.board board).card slot = board.card slot := by
  cases slot <;> rfl

theorem readUla_board (port : UInt16) (tact : Nat) :
    (veil.board board).readUla port tact =
      (board.readUla port tact).map (Prod.map id veil.board) := by
  have deck : (veil.board board).deck = veil.deck board.deck := rfl
  have loading : (veil.deck board.deck).loading = board.deck.loading := rfl
  rw [Board.readUla, Board.readUla, deck, loading, ear_deck]
  cases board.deck.loading with
  | false => rfl
  | true =>
      have clock : (veil.board board).machineTact tact = board.machineTact tact := rfl
      rw [if_pos rfl, if_pos rfl, clock]
      cases board.deck.ear (board.machineTact tact) with
      | none => rfl
      | some heard =>
          rcases heard with ⟨level, deck⟩
          have beeper := veil.hear_beeper board.beeper true level (board.frameTact tact)
          exact congrArg (fun beeper => some (UlaPort.compose (board.keyboard.read (highByte port))
            level, { veil.board board with deck := veil.deck deck, beeper })) beeper

theorem callCard_board (slot : CardSlot) (call : CardCall) (change : κ → κ) :
    (veil.board board).callCard slot call change =
      veil.board (board.callCard slot call change) := by
  rw [Board.callCard, Board.callCard, card_board]
  cases board.card slot with
  | none => rfl
  | some card =>
      simp only [setCard_board]
      exact veil.tell_board _ rfl

theorem callCards_board (call : CardCall) (change : κ → κ) :
    (veil.board board).callCards call change = veil.board (board.callCards call change) := by
  rw [Board.callCards, Board.callCards, callCard_board, callCard_board]

variable [Peripheral κ]

theorem readCard_board (slot : CardSlot) (port : UInt16) :
    (veil.board board).readCard slot port =
      Prod.map id veil.board (board.readCard slot port) := by
  rw [Board.readCard, Board.readCard, card_board]
  cases board.card slot with
  | none => rfl
  | some card =>
      simp only [setCard_board]
      exact congrArg (Prod.mk _) (veil.tell_board _ rfl)

theorem readCards_board (port : UInt16) :
    (veil.board board).readCards port = Prod.map id veil.board (board.readCards port) := by
  rw [Board.readCards, Board.readCards, readCard_board]
  rcases board.readCard .sound port with ⟨value, board⟩
  cases value with
  | none => exact congrArg (Prod.map (Option.getD · 0xFF) id) (veil.readCard_board board .floppy port)
  | some value => rfl

theorem writeCard_board (slot : CardSlot) (port : UInt16) (value : UInt8) :
    (veil.board board).writeCard slot port value =
      Prod.map id veil.board (board.writeCard slot port value) := by
  rw [Board.writeCard, Board.writeCard, card_board]
  cases board.card slot with
  | none => rfl
  | some card =>
      simp only [setCard_board]
      exact congrArg (Prod.mk _) (veil.tell_board _ rfl)

theorem writeCards_board (port : UInt16) (value : UInt8) :
    (veil.board board).writeCards port value = veil.board (board.writeCards port value) := by
  rw [Board.writeCards, Board.writeCards, writeCard_board]
  rcases board.writeCard .sound port value with ⟨decoded, board⟩
  cases decoded with
  | true => rfl
  | false => exact congrArg Prod.snd (veil.writeCard_board board .floppy port value)

theorem input_board (port : UInt16) (tact : Nat) :
    (veil.board board).input port tact =
      (board.input port tact).map (Prod.map id (Prod.map id veil.board)) := by
  have wait : (veil.board board).portWait port tact = board.portWait port tact := rfl
  rw [Board.input, Board.input, wait, readUla_board, readCards_board]
  cases board.portWait port tact with
  | none => rfl
  | some wait =>
      simp only [Option.bind_eq_bind, Option.bind_some]
      split_ifs
      · cases board.readUla port tact <;> rfl
      · rfl

variable [TapeProvider ρ]

omit [Peripheral κ] in
theorem writeUla_board (value : UInt8) (tact : Nat) :
    (veil.board board).writeUla value tact = (board.writeUla value tact).map veil.board := by
  let port : UlaPort := ⟨value⟩
  have clock : (veil.board board).machineTact tact = board.machineTact tact := rfl
  have deck : (veil.board board).deck = veil.deck board.deck := rfl
  rw [Board.writeUla, Board.writeUla, clock]
  simp only [deck, hear_deck]
  cases board.deck.hear port.mic (board.machineTact tact) with
  | none => rfl
  | some deck =>
      have beeper := veil.hear_beeper board.beeper false port.ear (board.frameTact tact)
      exact congrArg (fun beeper => some { veil.board board with
        port, beeper, deck := veil.deck deck, screen := veil.screen (board.screen.setBorder port.border) })
        beeper

theorem output_board (port : UInt16) (value : UInt8) (tact : Nat) :
    (veil.board board).output port value tact =
      (board.output port value tact).map (Prod.map id veil.board) := by
  have wait : (veil.board board).portWait port tact = board.portWait port tact := rfl
  rw [Board.output, Board.output, wait, writeUla_board, writeCards_board]
  cases board.portWait port tact with
  | none => rfl
  | some wait =>
      simp only [Option.bind_eq_bind, Option.bind_some]
      split_ifs
      · cases board.writeUla value tact <;> rfl
      · rfl

theorem perform_board {α : Type} (program : BusProgram α) :
    (veil.board board).perform program =
      (board.perform program).map (Prod.map id veil.board) := by
  induction program generalizing board with
  | done result => rfl
  | read address tact next induction => exact induction _ _ board
  | write address value tact next induction => exact induction _ (board.poke address value)
  | input port tact next induction =>
      rw [Board.perform, Board.perform, input_board]
      cases board.input port tact with
      | none => rfl
      | some answered =>
          rcases answered with ⟨value, wait, board⟩
          exact induction value wait board
  | output port value tact next induction =>
      rw [Board.perform, Board.perform, output_board]
      cases board.output port value tact with
      | none => rfl
      | some answered =>
          rcases answered with ⟨wait, board⟩
          exact induction wait board
  | peek address next induction => exact induction _ board
  | poke address value next induction => exact induction (board.poke address value)

end Board

end Veil

end ZxSpectrum
