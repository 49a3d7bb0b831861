import ZxSpectrum.Proofs.Tape.Protocol

namespace ZxSpectrum

/-! The deck asks its provider for an image only to play it. Providers whose images give the same
player cannot be told apart at the deck. -/

def Player.ofContent : Except Error (Option (List UInt8)) → Option Player
  | .ok (some image) => (ofImage image).toOption
  | _ => none

/-- A provider seen as another that does the same, and whose image gives the same player. -/
structure Alike {ρ σ : Type} [TapeProvider ρ] [TapeProvider σ] (view : ρ → σ) : Prop where
  plays : ∀ provider, Player.ofContent (TapeProvider.content (view provider)).1 =
    Player.ofContent (TapeProvider.content provider).1
  content : ∀ provider, (TapeProvider.content (view provider)).2 =
    view (TapeProvider.content provider).2
  create : ∀ provider, (TapeProvider.create (view provider)).2 =
    view (TapeProvider.create provider).2
  setName : ∀ name provider, TapeProvider.setName name (view provider) =
    view (TapeProvider.setName name provider)
  save : ∀ block provider, (TapeProvider.save block (view provider)).2 =
    view (TapeProvider.save block provider).2
  finalize : ∀ provider, (TapeProvider.finalize (view provider)).2 =
    view (TapeProvider.finalize provider).2

namespace TapeDeck

variable {ρ σ : Type}

/-! The deck with its provider seen as another, through each of its operations. -/

def viewed (view : ρ → σ) (deck : TapeDeck ρ) : TapeDeck σ where
  provider := deck.provider.map view
  session := deck.session
  recorder := deck.recorder
  line := deck.line
  events := deck.events
  observers := deck.observers

section Viewed

variable (view : ρ → σ) (deck : TapeDeck ρ)

theorem ear_viewed (tact : Nat) :
    (deck.viewed view).ear tact = (deck.ear tact).map (Prod.map id (viewed view)) := by
  rcases deck with ⟨provider, session, recorder, line, events, observers⟩
  cases session with
  | passive => rfl
  | save _ _ => rfl
  | load player =>
      simp only [ear, viewed]
      cases player.ear tact <;> rfl

theorem fastLoad_viewed (tact : Nat) (registers : Registers) (memory : Memory) :
    (deck.viewed view).fastLoad tact registers memory =
      (deck.fastLoad tact registers memory).map (Prod.map (viewed view) id) := by
  have session : (deck.viewed view).session = deck.session := rfl
  rw [fastLoad, fastLoad, session]
  cases deck.session with
  | passive => rfl
  | save _ _ => rfl
  | load player =>
      simp only
      cases player.currentBlock.bind TapeBlock.romData with
      | none => rfl
      | some data =>
          simp only
          cases player.nextBlock tact <;> rfl

end Viewed

variable [TapeProvider ρ] [TapeProvider σ]

theorem enterLoad_of_content {deck : TapeDeck ρ} {provider : ρ}
    (inserted : deck.provider = some provider) (tact : Nat) :
    deck.enterLoad tact =
      match Player.ofContent (TapeProvider.content provider).1 with
      | some player =>
        if player.blocks = [] then some deck.consulted
        else (player.start tact).map fun player =>
          { deck.consulted with session := .load player }.notify .enteredLoadMode
      | none => some deck.consulted := by
  rw [consulted_of_some inserted]
  simp only [enterLoad, inserted]
  rcases TapeProvider.content provider with ⟨content, provider⟩
  cases content with
  | error _ => rfl
  | ok image =>
      cases image with
      | none => rfl
      | some image =>
          simp only [Player.ofContent]
          cases Player.ofImage image with
          | error _ => rfl
          | ok player =>
              simp only [Except.toOption]
              split_ifs with empty
              · rfl
              · cases player.start tact <;> rfl

section Alike

variable {view : ρ → σ} (alike : Alike view) (deck : TapeDeck ρ)

include alike

theorem store_viewed (block : List UInt8) (first : Bool) (provider : ρ) :
    store block first (view provider) = view (store block first provider) := by
  unfold store
  split_ifs with header
  · simp only [alike.setName, alike.save]
  · exact alike.save block provider

theorem consulted_viewed : (deck.viewed view).consulted = deck.consulted.viewed view := by
  rcases deck with ⟨provider, session, recorder, line, events, observers⟩
  cases provider with
  | none => rfl
  | some provider => simp [consulted, viewed, alike.content]

theorem hear_viewed (level : Bool) (tact : Nat) :
    (deck.viewed view).hear level tact = (deck.hear level tact).map (viewed view) := by
  rcases deck with ⟨provider, session, recorder, line, events, observers⟩
  cases session with
  | passive => rfl
  | load _ => rfl
  | save lastEdge saved =>
      simp only [hear, viewed]
      split_ifs with same
      · rfl
      · cases recorder.feed (Pulse.classify (tact - lastEdge)) with
        | none => rfl
        | some fed =>
            rcases fed with ⟨recorder, block⟩
            cases block with
            | none => rfl
            | some block =>
                have stored : store block (decide (saved = 0)) ∘ view =
                    view ∘ store block (decide (saved = 0)) := by
                  funext provider
                  exact store_viewed alike block _ provider
                simp [viewed, stored]

theorem enterLoad_viewed (tact : Nat) :
    (deck.viewed view).enterLoad tact = (deck.enterLoad tact).map (viewed view) := by
  cases inserted : deck.provider with
  | none => simp [enterLoad, viewed, inserted]
  | some provider =>
      have seen : (deck.viewed view).provider = some (view provider) := by
        simp [viewed, inserted]
      rw [enterLoad_of_content inserted, enterLoad_of_content seen, alike.plays,
        consulted_viewed alike]
      cases Player.ofContent (TapeProvider.content provider).1 with
      | none => rfl
      | some player =>
          simp only
          split_ifs with empty
          · rfl
          · cases player.start tact <;> rfl

theorem enterSave_viewed (tact : Nat) :
    (deck.viewed view).enterSave tact = (deck.enterSave tact).viewed view := by
  rcases deck with ⟨provider, session, recorder, line, events, observers⟩
  cases provider with
  | none => rfl
  | some provider => simp [enterSave, viewed, notify, alike.create]

theorem leaveSave_viewed : (deck.viewed view).leaveSave = deck.leaveSave.viewed view := by
  rcases deck with ⟨provider, session, recorder, line, events, observers⟩
  cases provider with
  | none => rfl
  | some provider => simp [leaveSave, viewed, notify, alike.finalize]

theorem updateMode_viewed (pc : UInt16) (tact : Nat) :
    (deck.viewed view).updateMode pc tact = (deck.updateMode pc tact).map (viewed view) := by
  have session : (deck.viewed view).session = deck.session := rfl
  rw [updateMode, updateMode, session, enterLoad_viewed alike, enterSave_viewed alike,
    leaveSave_viewed alike]
  cases deck.session with
  | passive =>
      simp only
      split_ifs <;> rfl
  | load player =>
      simp only
      split_ifs <;> rfl
  | save lastEdge _ =>
      simp only
      split_ifs <;> rfl

theorem follow_viewed (fast : Bool) (tact : Nat) (registers : Registers) (memory : Memory) :
    (deck.viewed view).follow fast tact registers memory =
      (deck.follow fast tact registers memory).map (Prod.map (viewed view) id) := by
  rw [follow, follow, updateMode_viewed alike]
  cases deck.updateMode registers.pc tact with
  | none => rfl
  | some deck =>
      have loading : (deck.viewed view).loading = deck.loading := rfl
      simp only [Option.map_some, Option.bind_eq_bind, Option.bind_some, loading, fastLoad_viewed]
      split_ifs <;> rfl

end Alike

/-! What comes back from the deck is the same, action after action. -/

inductive DeckAnswer
  | heard
  | level (level : Bool)
  | processor (registers : Registers) (memory : Memory)
  | events (events : List TapeEvent)

def answer {ρ : Type} [TapeProvider ρ] (deck : TapeDeck ρ) :
    DeckAction → Option (DeckAnswer × TapeDeck ρ)
  | .input (.write level tact) => (deck.hear level tact).map fun deck => (.heard, deck)
  | .input (.instruction fast tact registers memory) =>
    (deck.follow fast tact registers memory).map fun (deck, registers, memory) =>
      (.processor registers memory, deck)
  | .listen tact => (deck.ear tact).map fun (level, deck) => (.level level, deck)
  | .takeEvents => some (.events deck.events, deck.takeEvents.2)

def answers {ρ : Type} [TapeProvider ρ] (deck : TapeDeck ρ) :
    List DeckAction → Option (List DeckAnswer)
  | [] => some []
  | action :: actions => do
    let (answer, deck) ← deck.answer action
    return answer :: (← deck.answers actions)

theorem answer_viewed {view : ρ → σ} (alike : Alike view) (deck : TapeDeck ρ)
    (action : DeckAction) :
    (deck.viewed view).answer action =
      (deck.answer action).map (Prod.map id (viewed view)) := by
  cases action with
  | input input =>
      cases input with
      | write level tact =>
          simp only [answer, hear_viewed alike]
          cases deck.hear level tact <;> rfl
      | instruction fast tact registers memory =>
          simp only [answer, follow_viewed alike]
          cases deck.follow fast tact registers memory <;> rfl
  | listen tact =>
      simp only [answer, ear_viewed]
      cases deck.ear tact <;> rfl
  | takeEvents => rfl

theorem answers_viewed {view : ρ → σ} (alike : Alike view) (deck : TapeDeck ρ)
    (actions : List DeckAction) : (deck.viewed view).answers actions = deck.answers actions := by
  induction actions generalizing deck with
  | nil => rfl
  | cons action actions induction =>
      rw [answers, answers, answer_viewed alike]
      cases deck.answer action with
      | none => rfl
      | some answered =>
          rcases answered with ⟨answer, next⟩
          simp [induction next]

end TapeDeck

end ZxSpectrum
