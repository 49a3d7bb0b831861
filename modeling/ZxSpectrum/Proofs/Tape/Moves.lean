import ZxSpectrum.Proofs.Tape.BlockByBlock
import ZxSpectrum.Proofs.Tape.Journal

namespace ZxSpectrum

/-! What each operation of the deck can do, one statement for each. -/

namespace Player

/-- The player has been started with a block to play. -/
def Started (player : Player) : Prop :=
  player.position.isSome ∧ player.blocks ≠ []

theorem started_start {player next : Player} (nonempty : player.blocks ≠ []) {tact : Nat}
    (starts : player.start tact = some next) : next.Started := by
  rcases Option.bind_eq_some_iff.mp starts with ⟨position, -, starts⟩
  cases starts
  exact ⟨rfl, nonempty⟩

theorem Started.nextBlock {player next : Player} (started : player.Started) {tact : Nat}
    (advanced : player.nextBlock tact = some next) : next.Started := by
  unfold Player.nextBlock at advanced
  split at advanced
  · rcases Option.bind_eq_some_iff.mp advanced with ⟨position, -, advanced⟩
    cases advanced
    exact ⟨rfl, started.2⟩
  · cases advanced
    exact started

theorem Started.ear {player next : Player} (started : player.Started) {tact : Nat}
    {level : Bool} (heard : player.ear tact = some (level, next)) : next.Started := by
  unfold Player.ear at heard
  split at heard
  · cases heard
    exact started
  · rcases Option.bind_eq_some_iff.mp heard with ⟨position, -, heard⟩
    cases heard
    exact ⟨rfl, started.2⟩

end Player

namespace TapeDeck

variable {ρ : Type} {deck next : TapeDeck ρ} {tact : Nat}

theorem fastLoad_cases {registers after : Registers} {memory left : Memory}
    (loaded : deck.fastLoad tact registers memory = some (next, after, left)) :
    next = deck ∨ ∃ player advanced, deck.session = .load player ∧
      player.nextBlock tact = some advanced ∧
      next = { deck with session := .load advanced }.notify .fastLoadCompleted := by
  unfold fastLoad at loaded
  cases session : deck.session with
  | passive | save lastEdge saved =>
      simp [session] at loaded
      exact Or.inl loaded.1.symm
  | load player =>
      simp only [session] at loaded
      split at loaded
      · rcases Option.bind_eq_some_iff.mp loaded with ⟨advanced, moved, loaded⟩
        cases loaded
        exact Or.inr ⟨player, advanced, rfl, moved, rfl⟩
      · cases loaded
        exact Or.inl rfl

theorem ear_cases {level : Bool} (heard : deck.ear tact = some (level, next)) :
    next = deck ∨ ∃ player advanced, deck.session = .load player ∧
      player.ear tact = some (level, advanced) ∧
      next = { deck with session := .load advanced } := by
  unfold ear at heard
  cases session : deck.session with
  | passive | save lastEdge saved =>
      simp [session] at heard
      exact Or.inl heard.2.symm
  | load player =>
      simp only [session] at heard
      rcases Option.bind_eq_some_iff.mp heard with ⟨⟨level, advanced⟩, moved, heard⟩
      cases heard
      exact Or.inr ⟨player, advanced, rfl, moved, rfl⟩

variable [TapeProvider ρ]

theorem consulted_of_none (missing : deck.provider = none) : deck.consulted = deck := by
  rcases deck with ⟨provider, session, recorder, line, events, observers⟩
  cases missing
  rfl

theorem consulted_of_some {provider : ρ} (inserted : deck.provider = some provider) :
    deck.consulted = { deck with provider := some (TapeProvider.content provider).2 } := by
  simp [consulted, inserted]

theorem enterLoad_cases (entered : deck.enterLoad tact = some next) :
    next = deck.consulted ∨ ∃ player, player.Started ∧
      next = { deck.consulted with session := .load player }.notify .enteredLoadMode := by
  cases inserted : deck.provider with
  | none =>
      simp only [enterLoad, inserted] at entered
      cases entered
      exact Or.inl (consulted_of_none inserted).symm
  | some provider =>
      simp only [enterLoad, inserted] at entered
      rw [consulted_of_some inserted]
      split at entered
      · split at entered
        · split_ifs at entered with empty
          · cases entered
            exact Or.inl rfl
          · rcases Option.bind_eq_some_iff.mp entered with ⟨player, starts, entered⟩
            cases entered
            exact Or.inr ⟨player, Player.started_start empty starts, rfl⟩
        · cases entered
          exact Or.inl rfl
      · cases entered
        exact Or.inl rfl

theorem updateMode_cases {pc : UInt16} (updated : deck.updateMode pc tact = some next) :
    next = deck ∨
      deck.session = .passive ∧ (deck.enterLoad tact = some next ∨ next = deck.enterSave tact) ∨
      (∃ player, deck.session = .load player ∧ next = deck.leaveLoad) ∨
      ∃ lastEdge saved, deck.session = .save lastEdge saved ∧ next = deck.leaveSave := by
  unfold updateMode at updated
  cases session : deck.session with
  | passive =>
      simp only [session] at updated
      split_ifs at updated with waits saves
      · exact Or.inr (Or.inl ⟨rfl, Or.inl updated⟩)
      · cases updated
        exact Or.inr (Or.inl ⟨rfl, Or.inr rfl⟩)
      · cases updated
        exact Or.inl rfl
  | load player =>
      simp only [session] at updated
      split_ifs at updated with leaves
      · cases updated
        exact Or.inr (Or.inr (Or.inl ⟨player, rfl, rfl⟩))
      · cases updated
        exact Or.inl rfl
  | save lastEdge saved =>
      simp only [session] at updated
      split_ifs at updated with leaves
      · cases updated
        exact Or.inr (Or.inr (Or.inr ⟨lastEdge, saved, rfl, rfl⟩))
      · cases updated
        exact Or.inl rfl

theorem hear_cases {level : Bool} (heard : deck.hear level tact = some next) :
    next = deck ∨ ∃ lastEdge saved recorder blocks, deck.session = .save lastEdge saved ∧
      next = ⟨deck.provider.map (storeAll saved blocks), .save tact (saved + blocks.length),
        recorder, level, deck.events, deck.observers⟩ := by
  rcases deck with ⟨provider, session, recorder, line, events, observers⟩
  cases session with
  | passive | load player =>
      cases heard
      exact Or.inl rfl
  | save lastEdge saved =>
      simp only [hear] at heard
      split_ifs at heard with same
      · cases heard
        exact Or.inl rfl
      · rcases Option.bind_eq_some_iff.mp heard with ⟨⟨recorder, block⟩, fed, heard⟩
        cases block with
        | none =>
            cases heard
            refine Or.inr ⟨lastEdge, saved, recorder, [], rfl, ?_⟩
            cases provider <;> rfl
        | some block =>
            cases heard
            exact Or.inr ⟨lastEdge, saved, recorder, [block], rfl, rfl⟩

end TapeDeck

end ZxSpectrum
