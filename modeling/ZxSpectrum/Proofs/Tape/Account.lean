import ZxSpectrum.Proofs.Tape.Moves

namespace ZxSpectrum

/-! Whatever the processor does, the deck goes through sessions one after another. Each session is
told to the observers from its beginning to its end, and so are its blocks to the provider. -/

inductive WholeSession
  /-- Some blocks are loaded at once. -/
  | load (count : Nat)
  /-- Some blocks are saved, after the calls that name the tape. -/
  | save (naming : List TapeCall) (blocks : List (List UInt8))

namespace WholeSession

/-- The tape is named at most once, after a header that is saved first. -/
def WellFormed : WholeSession → Prop
  | load _ => True
  | save naming blocks => IsNaming blocks naming

def opening : WholeSession → List TapeEvent
  | load count => .enteredLoadMode :: List.replicate count .fastLoadCompleted
  | save _ _ => [.enteredSaveMode]

def closing : WholeSession → List TapeEvent
  | load _ => [.leftLoadMode, .loadCompleted]
  | save _ _ => [.leftSaveMode]

def events (session : WholeSession) : List TapeEvent :=
  session.opening ++ session.closing

def requests : WholeSession → List TapeCall
  | load _ => []
  | save naming blocks => .create :: naming ++ blocks.map .save

def release : WholeSession → List TapeCall
  | load _ => []
  | save _ _ => [.finalize]

def calls (session : WholeSession) : List TapeCall :=
  session.requests ++ session.release

/-! Sessions one after another, and the mode to which their events lead. -/

def told (earlier : List WholeSession) (current : Option WholeSession) : List TapeEvent :=
  earlier.flatMap events ++ current.toList.flatMap opening

def asked (earlier : List WholeSession) (current : Option WholeSession) : List TapeCall :=
  earlier.flatMap calls ++ current.toList.flatMap requests

theorem told_isPrefix (earlier : List WholeSession) (current : Option WholeSession) :
    told earlier current <+: (earlier ++ current.toList).flatMap events := by
  cases current <;> simp [told, events]

theorem asked_isPrefix (earlier : List WholeSession) (current : Option WholeSession) :
    asked earlier current <+: (earlier ++ current.toList).flatMap calls := by
  cases current <;> simp [asked, calls]

end WholeSession

/-- The mode to which an event leads. -/
def TapeMode.after (mode : TapeMode) : TapeEvent → TapeMode
  | .enteredLoadMode => .load
  | .enteredSaveMode => .save
  | .leftLoadMode | .leftSaveMode => .passive
  | .loadCompleted | .fastLoadCompleted => mode

namespace WholeSession

def mode : WholeSession → TapeMode
  | load _ => .load
  | save _ _ => .save

theorem foldl_after_opening (session : WholeSession) :
    session.opening.foldl TapeMode.after .passive = session.mode := by
  cases session with
  | save naming blocks => rfl
  | load count =>
      have stays : (List.replicate count .fastLoadCompleted).foldl TapeMode.after .load =
          .load := by
        induction count with
        | zero => rfl
        | succ count induction => exact induction
      exact stays

theorem foldl_after_events (session : WholeSession) :
    session.events.foldl TapeMode.after .passive = .passive := by
  rw [events, List.foldl_append, foldl_after_opening]
  cases session <;> rfl

theorem foldl_after_told (earlier : List WholeSession) (current : Option WholeSession) :
    (told earlier current).foldl TapeMode.after .passive = (current.map mode).getD .passive := by
  induction earlier with
  | nil => cases current <;> simp [told, foldl_after_opening]
  | cons session earlier induction =>
      have first : told (session :: earlier) current = session.events ++ told earlier current := by
        simp [told]
      rw [first, List.foldl_append, foldl_after_events, induction]

end WholeSession

def Journal.saveCalls {ρ : Type} (journal : Journal ρ) : List TapeCall :=
  journal.calls.filter (· ≠ .content)

/-! Naming a tape is no call for its content, and blocks can always be named. -/

theorem filter_naming {blocks : List (List UInt8)} {naming : List TapeCall}
    (named : IsNaming blocks naming) : naming.filter (· ≠ .content) = naming := by
  cases blocks with
  | nil =>
      cases named
      rfl
  | cons first blocks =>
      rw [IsNaming] at named
      split_ifs at named
      · rcases named with ⟨name, -, rfl⟩
        rfl
      · cases named
        rfl

theorem exists_isNaming (blocks : List (List UInt8)) : ∃ naming, IsNaming blocks naming := by
  cases blocks with
  | nil => exact ⟨[], rfl⟩
  | cons first blocks =>
      simp only [IsNaming]
      split_ifs
      · exact ⟨_, _, TapeDeck.isHeaderName_headerName first, rfl⟩
      · exact ⟨[], rfl⟩

namespace TapeDeck

variable {ρ : Type}

/-! What the deck tells and asks for on the way to another deck. -/

structure Adds (deck next : TapeDeck (Journal ρ)) (events : List TapeEvent)
    (calls : List TapeCall) : Prop where
  tells : next.events = deck.events ++ events
  tellsAll : next.observers = deck.observers.map (· ++ events)
  asks : next.provider.map Journal.saveCalls = deck.provider.map (·.saveCalls ++ calls)

section Handlers

variable {deck next : TapeDeck (Journal ρ)} {calls : List TapeCall}

theorem adds_of_map (request : Journal ρ → Journal ρ)
    (asks : ∀ journal ∈ deck.provider,
      (request journal).saveCalls = journal.saveCalls ++ calls)
    (provider : next.provider = deck.provider.map request) (events : next.events = deck.events)
    (observers : next.observers = deck.observers) : Adds deck next [] calls := by
  refine ⟨by simp [events], by simp [observers], ?_⟩
  rw [provider, Option.map_map]
  exact Option.map_congr asks

theorem Adds.refl (deck : TapeDeck (Journal ρ)) : Adds deck deck [] [] := by
  refine ⟨?_, ?_, ?_⟩ <;> simp

theorem Adds.withSession {events : List TapeEvent} (adds : Adds deck next events calls)
    (session : TapeSession) : Adds deck { next with session } events calls :=
  ⟨adds.tells, adds.tellsAll, adds.asks⟩

theorem Adds.notify {events : List TapeEvent} (adds : Adds deck next events calls)
    (event : TapeEvent) : Adds deck (next.notify event) (events ++ [event]) calls where
  tells := by simp [TapeDeck.notify, adds.tells]
  tellsAll := by simp [TapeDeck.notify, adds.tellsAll]
  asks := adds.asks

theorem adds_leaveLoad (deck : TapeDeck (Journal ρ)) :
    Adds deck deck.leaveLoad [.leftLoadMode, .loadCompleted] [] := by
  have still := (Adds.refl deck).withSession .passive
  exact (still.notify .leftLoadMode).notify .loadCompleted

variable [TapeProvider ρ]

theorem adds_consulted (deck : TapeDeck (Journal ρ)) : Adds deck deck.consulted [] [] := by
  have asks (journal : Journal ρ) :
      (TapeProvider.content journal).2.saveCalls = journal.saveCalls ++ [] := by
    simp [TapeProvider.content, Journal.pass, Journal.saveCalls]
  exact adds_of_map _ (fun journal _ => asks journal) rfl rfl rfl

theorem adds_enterSave (deck : TapeDeck (Journal ρ)) (tact : Nat) :
    Adds deck (deck.enterSave tact) [.enteredSaveMode] [.create] := by
  have asks (journal : Journal ρ) :
      (TapeProvider.create journal).2.saveCalls = journal.saveCalls ++ [.create] := by
    simp [TapeProvider.create, Journal.pass, Journal.saveCalls]
  have created : Adds deck
      { deck with
        provider := deck.provider.map fun journal => (TapeProvider.create journal).2
        session := .save tact 0
        recorder := {} } [] [.create] :=
    adds_of_map _ (fun journal _ => asks journal) rfl rfl rfl
  exact created.notify _

theorem adds_leaveSave (deck : TapeDeck (Journal ρ)) :
    Adds deck deck.leaveSave [.leftSaveMode] [.finalize] := by
  have asks (journal : Journal ρ) :
      (TapeProvider.finalize journal).2.saveCalls = journal.saveCalls ++ [.finalize] := by
    simp [TapeProvider.finalize, Journal.pass, Journal.saveCalls]
  have finished : Adds deck
      { deck with
        provider := deck.provider.map fun journal => (TapeProvider.finalize journal).2
        session := .passive } [] [.finalize] :=
    adds_of_map _ (fun journal _ => asks journal) rfl rfl rfl
  exact finished.notify _

end Handlers

/-! The whole session of which the deck has had a part, and the account of all its sessions. -/

inductive Within : TapeSession → Option WholeSession → Prop
  | passive : Within .passive none
  | load {player : Player} (count : Nat) (started : player.Started) :
      Within (.load player) (some (.load count))
  | save (lastEdge : Nat) {naming : List TapeCall} {blocks : List (List UInt8)}
      (named : IsNaming blocks naming) :
      Within (.save lastEdge blocks.length) (some (.save naming blocks))

theorem Within.wellFormed {state : TapeSession} {session : WholeSession}
    (within : Within state (some session)) : session.WellFormed := by
  cases within with
  | load blocks started => trivial
  | save lastEdge named => exact named

/-- All that the deck has told and asked for since its start are some whole sessions and a part of
another. -/
structure Accounted (start : TapeDeck (Journal ρ)) (taken : List TapeEvent)
    (deck : TapeDeck (Journal ρ)) (earlier : List WholeSession) (current : Option WholeSession) :
    Prop where
  within : Within deck.session current
  wellFormed : ∀ session ∈ earlier, session.WellFormed
  events : taken ++ deck.events = WholeSession.told earlier current
  observers : deck.observers = start.observers.map fun _ => taken ++ deck.events
  calls : deck.provider.map Journal.saveCalls =
    start.provider.map fun _ => WholeSession.asked earlier current

def Orderly (start : TapeDeck (Journal ρ)) (taken : List TapeEvent)
    (deck : TapeDeck (Journal ρ)) : Prop :=
  ∃ earlier current, Accounted start taken deck earlier current

theorem Accounted.wellFormed_all {start deck : TapeDeck (Journal ρ)} {taken : List TapeEvent}
    {earlier : List WholeSession} {current : Option WholeSession}
    (accounted : Accounted start taken deck earlier current) :
    ∀ session ∈ earlier ++ current.toList, session.WellFormed := by
  intro session member
  rcases List.mem_append.mp member with before | last
  · exact accounted.wellFormed session before
  · cases Option.mem_toList.mp last
    exact accounted.within.wellFormed

theorem Accounted.saveCalls_eq {start deck : TapeDeck (Journal ρ)} {taken : List TapeEvent}
    {earlier : List WholeSession} {current : Option WholeSession}
    (accounted : Accounted start taken deck earlier current) {journal : Journal ρ}
    (inserted : journal ∈ deck.provider) :
    journal.saveCalls = WholeSession.asked earlier current := by
  have calls := accounted.calls
  rw [Option.mem_def.mp inserted] at calls
  rcases Option.map_eq_some_iff.mp calls.symm with ⟨before, -, same⟩
  exact same.symm

section Accounts

variable {taken : List TapeEvent} {start deck next : TapeDeck (Journal ρ)}
  {earlier : List WholeSession} {session other : WholeSession}

theorem Accounted.orderly {sessions : List WholeSession} {current before : Option WholeSession}
    {events : List TapeEvent} {calls : List TapeCall}
    (accounted : Accounted start taken deck earlier before) (adds : Adds deck next events calls)
    (within : Within next.session current)
    (wellFormed : ∀ session ∈ sessions, session.WellFormed)
    (told : WholeSession.told sessions current = WholeSession.told earlier before ++ events)
    (asked : WholeSession.asked sessions current = WholeSession.asked earlier before ++ calls) :
    Orderly start taken next := by
  refine ⟨sessions, current, within, wellFormed, ?_, ?_, ?_⟩
  · rw [adds.tells, ← List.append_assoc, accounted.events, told]
  · rw [adds.tellsAll, accounted.observers, adds.tells]
    simp
  · have appended := congrArg (Option.map (· ++ calls)) accounted.calls
    rw [Option.map_map, Option.map_map] at appended
    rw [adds.asks, asked]
    exact appended

theorem Accounted.quiet {current : Option WholeSession}
    (accounted : Accounted start taken deck earlier current) (adds : Adds deck next [] [])
    (within : Within next.session current) : Orderly start taken next :=
  accounted.orderly adds within accounted.wellFormed (by simp) (by simp)

theorem Accounted.begins (accounted : Accounted start taken deck earlier none)
    (session : WholeSession) (adds : Adds deck next session.opening session.requests)
    (within : Within next.session (some session)) : Orderly start taken next := by
  apply accounted.orderly adds within accounted.wellFormed
  · simp [WholeSession.told]
  · simp [WholeSession.asked]

theorem Accounted.continues {events : List TapeEvent} {calls : List TapeCall}
    (accounted : Accounted start taken deck earlier (some session))
    (adds : Adds deck next events calls) (within : Within next.session (some other))
    (tells : other.opening = session.opening ++ events)
    (asks : other.requests = session.requests ++ calls) : Orderly start taken next := by
  apply accounted.orderly adds within accounted.wellFormed
  · simp [WholeSession.told, tells]
  · simp [WholeSession.asked, asks]

theorem Accounted.ends (accounted : Accounted start taken deck earlier (some session))
    (adds : Adds deck next session.closing session.release)
    (passive : next.session = .passive) : Orderly start taken next := by
  have within : Within next.session none := passive ▸ .passive
  apply accounted.orderly adds within accounted.wellFormed_all
  · simp [WholeSession.told, WholeSession.events]
  · simp [WholeSession.asked, WholeSession.calls]

/-! The session that the deck is in decides which account it is. -/

theorem Orderly.of_passive (orderly : Orderly start taken deck)
    (passive : deck.session = .passive) : ∃ earlier, Accounted start taken deck earlier none := by
  rcases orderly with ⟨earlier, current, accounted⟩
  have within := accounted.within
  rw [passive] at within
  cases within
  exact ⟨earlier, accounted⟩

theorem Orderly.of_load (orderly : Orderly start taken deck) {player : Player}
    (loads : deck.session = .load player) :
    player.Started ∧
      ∃ earlier blocks, Accounted start taken deck earlier (some (.load blocks)) := by
  rcases orderly with ⟨earlier, current, accounted⟩
  have within := accounted.within
  rw [loads] at within
  cases within with
  | load blocks started => exact ⟨started, earlier, blocks, accounted⟩

theorem Orderly.of_save (orderly : Orderly start taken deck) {lastEdge saved : Nat}
    (saves : deck.session = .save lastEdge saved) :
    ∃ earlier naming blocks, saved = blocks.length ∧ IsNaming blocks naming ∧
      Accounted start taken deck earlier (some (.save naming blocks)) := by
  rcases orderly with ⟨earlier, current, accounted⟩
  have within := accounted.within
  rw [saves] at within
  cases within with
  | save lastEdge named => exact ⟨earlier, _, _, rfl, named, accounted⟩

end Accounts

end TapeDeck

end ZxSpectrum
