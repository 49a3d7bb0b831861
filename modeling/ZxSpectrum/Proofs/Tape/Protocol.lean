import ZxSpectrum.Proofs.Tape.Account
import ZxSpectrum.Proofs.Tape.SaveSession

namespace ZxSpectrum.TapeDeck

variable {ρ : Type}

/-! Each operation of the deck keeps the account. It is one move at most, but for an instruction at
which the ROM waits: there the session may begin before its first block is loaded. -/

section Operations

variable [TapeProvider ρ] {taken : List TapeEvent} {start deck next : TapeDeck (Journal ρ)}

theorem asks_storeAll {blocks : List (List UInt8)} {naming : List TapeCall}
    (named : IsNaming blocks naming) (provider : Option (Journal ρ))
    (more : List (List UInt8)) :
    ∃ renamed added, IsNaming (blocks ++ more) renamed ∧
      (WholeSession.save renamed (blocks ++ more)).requests =
        (WholeSession.save naming blocks).requests ++ added ∧
      ∀ journal ∈ provider,
        (storeAll blocks.length more journal).saveCalls = journal.saveCalls ++ added := by
  have saves : (more.map TapeCall.save).filter (· ≠ .content) = more.map .save := by simp
  cases blocks with
  | nil =>
      cases named
      obtain ⟨renamed, named, calls⟩ : ∃ renamed, IsNaming more renamed ∧
          ∀ journal ∈ provider, (storeAll 0 more journal).calls =
            journal.calls ++ renamed ++ more.map .save := by
        cases provider with
        | none =>
            rcases exists_isNaming more with ⟨renamed, named⟩
            exact ⟨renamed, named, by simp⟩
        | some journal =>
            rcases calls_storeAll more journal with ⟨renamed, named, calls⟩
            exact ⟨renamed, named, by simpa using calls⟩
      refine ⟨renamed, renamed ++ more.map .save, named, by simp [WholeSession.requests], ?_⟩
      intro journal inserted
      rw [Journal.saveCalls, List.length_nil, calls journal inserted, List.filter_append,
        List.filter_append, filter_naming named, saves, List.append_assoc]
      rfl
  | cons first blocks =>
      refine ⟨naming, more.map .save, named, by simp [WholeSession.requests], ?_⟩
      intro journal inserted
      rw [Journal.saveCalls, List.length_cons, calls_storeAll_later, List.filter_append, saves]
      rfl

omit [TapeProvider ρ] in
theorem Orderly.fastLoad (orderly : Orderly start taken deck) {tact : Nat}
    {registers after : Registers} {memory left : Memory}
    (loaded : deck.fastLoad tact registers memory = some (next, after, left)) :
    Orderly start taken next := by
  rcases fastLoad_cases loaded with rfl | ⟨player, advanced, loads, moved, rfl⟩
  · exact orderly
  · rcases orderly.of_load loads with ⟨started, earlier, blocks, accounted⟩
    have same := (Adds.refl deck).withSession (.load advanced)
    have oneMore : (WholeSession.load (blocks + 1)).opening =
        (WholeSession.load blocks).opening ++ [.fastLoadCompleted] := by
      simp [WholeSession.opening, List.replicate_succ']
    have within := Within.load (blocks + 1) (started.nextBlock moved)
    exact accounted.continues (same.notify .fastLoadCompleted) within oneMore rfl

omit [TapeProvider ρ] in
theorem Orderly.ear (orderly : Orderly start taken deck) {tact : Nat} {level : Bool}
    (heard : deck.ear tact = some (level, next)) : Orderly start taken next := by
  rcases ear_cases heard with rfl | ⟨player, advanced, loads, moved, rfl⟩
  · exact orderly
  · rcases orderly.of_load loads with ⟨started, earlier, blocks, accounted⟩
    have same := (Adds.refl deck).withSession (.load advanced)
    exact accounted.quiet same (.load blocks (started.ear moved))

theorem Orderly.hear (orderly : Orderly start taken deck) {tact : Nat} {level : Bool}
    (heard : deck.hear level tact = some next) : Orderly start taken next := by
  rcases hear_cases heard with rfl | ⟨lastEdge, saved, recorder, more, saves, rfl⟩
  · exact orderly
  · rcases orderly.of_save saves with ⟨earlier, naming, blocks, rfl, named, accounted⟩
    rcases asks_storeAll named deck.provider more with ⟨renamed, added, named, requests, asks⟩
    have within := Within.save tact named
    rw [List.length_append] at within
    have silent : (WholeSession.save renamed (blocks ++ more)).opening =
        (WholeSession.save naming blocks).opening ++ [] := rfl
    exact accounted.continues (adds_of_map _ asks rfl rfl rfl) within silent requests

theorem Orderly.enterLoad (orderly : Orderly start taken deck) (passive : deck.session = .passive)
    {tact : Nat} (entered : deck.enterLoad tact = some next) : Orderly start taken next := by
  rcases orderly.of_passive passive with ⟨earlier, accounted⟩
  rcases enterLoad_cases entered with rfl | ⟨player, started, rfl⟩
  · exact accounted.quiet (adds_consulted deck) accounted.within
  · have entered := ((adds_consulted deck).withSession (.load player)).notify .enteredLoadMode
    have within := Within.load 0 started
    exact accounted.begins (.load 0) entered within

theorem Orderly.updateMode (orderly : Orderly start taken deck) {pc : UInt16} {tact : Nat}
    (updated : deck.updateMode pc tact = some next) : Orderly start taken next := by
  rcases updateMode_cases updated with
    rfl | ⟨passive, entered | rfl⟩ | ⟨player, loads, rfl⟩ | ⟨lastEdge, saved, saves, rfl⟩
  · exact orderly
  · exact orderly.enterLoad passive entered
  · rcases orderly.of_passive passive with ⟨earlier, accounted⟩
    have unnamed : IsNaming [] [] := rfl
    have within := Within.save tact unnamed
    exact accounted.begins (.save [] []) (adds_enterSave deck tact) within
  · rcases orderly.of_load loads with ⟨started, earlier, blocks, accounted⟩
    exact accounted.ends (adds_leaveLoad deck) rfl
  · rcases orderly.of_save saves with ⟨earlier, naming, blocks, -, named, accounted⟩
    exact accounted.ends (adds_leaveSave deck) rfl

theorem Orderly.follow (orderly : Orderly start taken deck) {fast : Bool} {tact : Nat}
    {registers after : Registers} {memory left : Memory}
    (followed : deck.follow fast tact registers memory = some (next, after, left)) :
    Orderly start taken next := by
  rcases Option.bind_eq_some_iff.mp followed with ⟨middle, updated, followed⟩
  have orderly := orderly.updateMode updated
  split_ifs at followed with loads
  · exact orderly.fastLoad followed
  · cases followed
    exact orderly

theorem Orderly.take (orderly : Orderly start taken deck) {input : DeckInput}
    (taking : deck.take input = some next) : Orderly start taken next := by
  cases input with
  | write level tact => exact orderly.hear taking
  | instruction fast tact registers memory =>
      rcases Option.map_eq_some_iff.mp taking with ⟨⟨deck, after, left⟩, followed, rfl⟩
      exact orderly.follow followed

end Operations

/-! The deck is used from outside by the processor, and by those who take its events. -/

inductive DeckAction
  | input (input : DeckInput)
  | listen (tact : Nat)
  | takeEvents

section Runs

variable [TapeProvider ρ]

def act : List TapeEvent × TapeDeck (Journal ρ) → DeckAction →
    Option (List TapeEvent × TapeDeck (Journal ρ))
  | (taken, deck), .input input => (deck.take input).map fun deck => (taken, deck)
  | (taken, deck), .listen tact => (deck.ear tact).map fun (_, deck) => (taken, deck)
  | (taken, deck), .takeEvents => some (taken ++ deck.takeEvents.1, deck.takeEvents.2)

def actAll (deck : TapeDeck (Journal ρ)) (actions : List DeckAction) :
    Option (List TapeEvent × TapeDeck (Journal ρ)) :=
  actions.foldlM act ([], deck)

variable {taken later : List TapeEvent} {start deck next : TapeDeck (Journal ρ)}

theorem Orderly.act (orderly : Orderly start taken deck) {action : DeckAction}
    (acted : act (taken, deck) action = some (later, next)) : Orderly start later next := by
  cases action with
  | input input =>
      rcases Option.map_eq_some_iff.mp acted with ⟨deck, taking, same⟩
      cases same
      exact orderly.take taking
  | listen tact =>
      rcases Option.map_eq_some_iff.mp acted with ⟨⟨level, deck⟩, heard, same⟩
      cases same
      exact orderly.ear heard
  | takeEvents =>
      cases acted
      rcases orderly with ⟨earlier, current, accounted⟩
      refine ⟨earlier, current, accounted.within, accounted.wellFormed, ?_, ?_, accounted.calls⟩
      · simp [takeEvents, accounted.events]
      · simp [takeEvents, accounted.observers]

theorem orderly_foldlM {actions : List DeckAction} (orderly : Orderly start taken deck)
    (run : actions.foldlM TapeDeck.act (taken, deck) = some (later, next)) :
    Orderly start later next := by
  induction actions generalizing taken deck with
  | nil =>
      cases run
      exact orderly
  | cons action actions induction =>
      rw [List.foldlM_cons] at run
      rcases Option.bind_eq_some_iff.mp run with ⟨⟨between, middle⟩, first, run⟩
      exact induction (orderly.act first) run

/-! A new deck can give an account, and every action keeps it. -/

def fresh (provider : Option ρ) (observers : Nat) : TapeDeck (Journal ρ) where
  provider := provider.map fun provider => { provider }
  observers := List.replicate observers []

omit [TapeProvider ρ] in
theorem orderly_fresh (provider : Option ρ) (observers : Nat) :
    Orderly (fresh provider observers) [] (fresh provider observers) := by
  refine ⟨[], none, .passive, by simp, rfl, ?_, ?_⟩
  · simp [fresh]
  · cases provider <;> simp [fresh, Journal.saveCalls, WholeSession.asked]

omit [TapeProvider ρ] in
theorem Accounted.mode_eq {earlier : List WholeSession} {current : Option WholeSession}
    (accounted : Accounted start taken deck earlier current) :
    deck.mode = (taken ++ deck.events).foldl TapeMode.after .passive := by
  have within := accounted.within
  rw [accounted.events, WholeSession.foldl_after_told, mode]
  generalize deck.session = session at within
  cases within <;> rfl

/-! Tapes that cannot be played. They are asked for, and nothing else happens. -/

def Unplayable (content : Except Error (Option (List UInt8))) : Prop :=
  ∀ image blocks, content = .ok (some image) → Player.blocksOfImage image = .ok blocks →
    blocks = []

theorem enterLoad_unplayable {σ : Type} [TapeProvider σ] {deck : TapeDeck σ}
    (unplayable : ∀ provider ∈ deck.provider, Unplayable (TapeProvider.content provider).1)
    (tact : Nat) : deck.enterLoad tact = some deck.consulted := by
  cases inserted : deck.provider with
  | none => simp [enterLoad, inserted, consulted_of_none]
  | some provider =>
      have unplayable := unplayable provider inserted
      rw [consulted_of_some inserted]
      simp only [enterLoad, inserted]
      split
      case h_1 image content =>
        cases blocks : Player.blocksOfImage image with
        | error error => simp [Player.ofImage, blocks, Except.map]
        | ok tape =>
            have empty : tape = [] := unplayable image tape content blocks
            simp [Player.ofImage, blocks, empty, Except.map]
      case h_2 => rfl

theorem follow_unplayable {σ : Type} [TapeProvider σ] {deck : TapeDeck σ}
    (passive : deck.session = .passive)
    (unplayable : ∀ provider ∈ deck.provider, Unplayable (TapeProvider.content provider).1)
    {registers : Registers} (waits : registers.pc = Loader.waitAddress) (fast : Bool) (tact : Nat)
    (memory : Memory) :
    deck.follow fast tact registers memory = some (deck.consulted, registers, memory) := by
  have still : deck.consulted.loading = false := by
    simp [loading, mode, consulted, passive]
  simp [follow, updateMode, passive, waits, enterLoad_unplayable unplayable, still]

/-- However the deck is used, its player is started with a block to play exactly while it loads;
it tells everyone of sessions one after another, which tell its mode; and it asks its provider to
save in sessions that name a tape at most once, after a header that comes first. A tape that cannot
be played changes nothing. -/
theorem actAll_follows_protocol {provider : Option ρ} {observers : Nat}
    {actions : List DeckAction}
    (run : (fresh provider observers).actAll actions = some (taken, deck)) :
    (deck.mode = .load ↔ deck.player?.isSome) ∧
      (∀ player ∈ deck.player?, player.position.isSome ∧ player.blocks ≠ []) ∧
      deck.mode = (taken ++ deck.events).foldl TapeMode.after .passive ∧
      deck.observers = List.replicate observers (taken ++ deck.events) ∧
      deck.provider.isSome = provider.isSome ∧
      (∃ sessions : List WholeSession, (∀ session ∈ sessions, session.WellFormed) ∧
        taken ++ deck.events <+: sessions.flatMap WholeSession.events ∧
        ∀ journal ∈ deck.provider, journal.saveCalls <+: sessions.flatMap WholeSession.calls) ∧
      (deck.session = .passive →
        (∀ journal ∈ deck.provider, Unplayable (TapeProvider.content journal).1) →
        ∀ fast tact registers memory, registers.pc = Loader.waitAddress →
          deck.follow fast tact registers memory = some (deck.consulted, registers, memory)) := by
  rcases orderly_foldlM (orderly_fresh provider observers) run with ⟨earlier, current, accounted⟩
  refine ⟨?_, ?_, accounted.mode_eq, ?_, ?_, ?_, ?_⟩
  · cases session : deck.session <;> simp [mode, player?, session]
  · intro player plays
    cases session : deck.session with
    | passive | save lastEdge saved => simp [player?, session] at plays
    | load loaded =>
        simp [player?, session] at plays
        cases plays
        exact (Orderly.of_load ⟨earlier, current, accounted⟩ session).1
  · rw [accounted.observers]
    simp [fresh]
  · have isSome := congrArg Option.isSome accounted.calls
    simpa [fresh] using isSome
  · refine ⟨earlier ++ current.toList, accounted.wellFormed_all, ?_, ?_⟩
    · rw [accounted.events]
      exact WholeSession.told_isPrefix earlier current
    · intro journal inserted
      rw [accounted.saveCalls_eq inserted]
      exact WholeSession.asked_isPrefix earlier current
  · intro passive unplayable fast tact registers memory waits
    exact follow_unplayable passive unplayable waits fast tact memory

end Runs

def loadAndSave : List DeckAction :=
  [.input (.instruction true 20 { pc := Loader.waitAddress } Memory.empty), .listen 30, .takeEvents,
    .input (.instruction true 40 { pc := errorAddress } Memory.empty),
    .input (.instruction false 50 { pc := saveAddress } Memory.empty), .input (.write true 60)]

def shelfOfTwoBlocks : TapeShelf where
  image := some imageOfTwoBlocks

theorem actAll_follows_protocol_loadAndSave :
    ∃ taken deck, (fresh (some shelfOfTwoBlocks) 2).actAll loadAndSave = some (taken, deck) ∧
      (taken ++ deck.events).foldl TapeMode.after .passive = .save ∧
      deck.observers = List.replicate 2 (taken ++ deck.events) ∧
      ∃ sessions : List WholeSession, (∀ session ∈ sessions, session.WellFormed) ∧
        taken ++ deck.events <+: sessions.flatMap WholeSession.events ∧
        ∀ journal ∈ deck.provider, journal.saveCalls <+: sessions.flatMap WholeSession.calls := by
  have runs : ((fresh (some shelfOfTwoBlocks) 2).actAll loadAndSave).map (·.2.mode) =
      some .save := by decide +kernel
  rcases Option.map_eq_some_iff.mp runs with ⟨⟨taken, deck⟩, run, saving⟩
  rcases actAll_follows_protocol run with ⟨-, -, mode, observers, -, sessions, -⟩
  exact ⟨taken, deck, run, mode.symm.trans saving, observers, sessions⟩

end ZxSpectrum.TapeDeck
