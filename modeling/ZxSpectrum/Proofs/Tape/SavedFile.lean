import ZxSpectrum.Proofs.Tape.FolderFiles
import ZxSpectrum.Proofs.Tape.Records
import ZxSpectrum.Proofs.Tape.SaveSession
import ZxSpectrum.Tape.Folder

namespace ZxSpectrum

/-! What a save session leaves in a folder. The folder keeps a record of every block that the
recorder completes, if it fits, and the end of the session writes the records to a file. A block
that a glitch has cut short is among them, and such a file cannot be read again. -/

namespace TapeFolder

/-- The end of a session writes a file: something has been saved and nothing goes wrong. -/
def WritesFile (folder : TapeFolder) : Prop :=
  folder.buffer ≠ [] ∧ folder.finalize.1 = .ok ()

theorem writesFile_iff {folder : TapeFolder} :
    folder.WritesFile ↔ folder.buffer ≠ [] ∧ folder.Provided := by
  refine and_congr_right fun saved => ⟨fun succeeded => ?_, fun provided => ?_⟩
  · by_contra refused
    rcases finalize_of_not_provided saved refused with ⟨error, storage, failed, -⟩
    exact nomatch (congrArg Prod.fst failed).symm.trans succeeded
  · rcases finalize_of_provided saved provided with ⟨next, finished, -⟩
    rw [finished]

theorem read_finalize {folder : TapeFolder} (writes : folder.WritesFile) :
    folder.finalize.2.storage.read folder.outputPath = .ok folder.buffer := by
  rcases writesFile_iff.mp writes with ⟨saved, provided⟩
  rcases finalize_of_provided saved provided with ⟨next, finished, stores⟩
  rw [finished]
  exact stores.read

theorem files_finalize {folder : TapeFolder} (idle : ¬folder.WritesFile) :
    folder.finalize.2.storage.files = folder.storage.files := by
  by_cases saved : folder.buffer = []
  · rw [finalize, if_pos saved]
  · have refused : ¬folder.Provided := fun provided => idle (writesFile_iff.mpr ⟨saved, provided⟩)
    rcases finalize_of_not_provided saved refused with ⟨error, storage, failed, same⟩
    rw [failed]
    exact same

theorem buffer_store_of_fits {block : List UInt8} (fits : Tap.Fits block) (first : Bool)
    (folder : TapeFolder) :
    (TapeDeck.store block first folder).buffer =
      folder.buffer ++
        (UInt8.ofNat block.length :: UInt8.ofNat (block.length / 256) :: block) := by
  have saves (folder : TapeFolder) : (save block folder).2.buffer =
      folder.buffer ++
        (UInt8.ofNat block.length :: UInt8.ofNat (block.length / 256) :: block) :=
    congrArg (·.2.buffer) (save_of_fits fits folder)
  unfold TapeDeck.store
  split <;> exact saves _

theorem buffer_store_of_not_fits {block : List UInt8} (long : ¬Tap.Fits block) (first : Bool)
    (folder : TapeFolder) : (TapeDeck.store block first folder).buffer = folder.buffer := by
  have drops (folder : TapeFolder) : (save block folder).2.buffer = folder.buffer :=
    congrArg (·.2.buffer) (save_of_not_fits long folder)
  unfold TapeDeck.store
  split <;> exact drops _

theorem buffer_storeAll (saved : Nat) (blocks : List (List UInt8)) (folder : TapeFolder) :
    ∃ image,
      Tap.encode ((Tap.fitting blocks).map Tap.Block.mk) = .ok image ∧
        (TapeDeck.storeAll saved blocks folder).buffer = folder.buffer ++ image := by
  induction blocks generalizing saved folder with
  | nil => exact ⟨[], rfl, (List.append_nil _).symm⟩
  | cons block blocks induction =>
      rcases induction (saved + 1) (TapeDeck.store block (saved = 0) folder) with
        ⟨image, encoded, buffer⟩
      rw [TapeDeck.storeAll, buffer]
      by_cases fits : Tap.Fits block
      · rw [Tap.fitting_cons_of_fits fits, List.map_cons, Tap.encode_cons fits encoded,
          buffer_store_of_fits fits, List.append_assoc]
        exact ⟨_, rfl, rfl⟩
      · rw [Tap.fitting_cons_of_not_fits fits, buffer_store_of_not_fits fits]
        exact ⟨image, encoded, rfl⟩

end TapeFolder

namespace TapeDeck

variable {ρ : Type} [TapeProvider ρ]

/-! A session at the deck, and what it hands to its provider. -/

theorem feedAll_of_hearEdges {saved lastEdge : Nat} {tacts : List Nat} {recorder : Recorder}
    {provider : ρ} {line : Bool} {events : List TapeEvent} {observers : List (List TapeEvent)}
    {final : TapeDeck ρ}
    (heard : hearEdges ⟨some provider, .save lastEdge saved, recorder, line, events, observers⟩
      tacts = some final) :
    ∃ blocks last,
      recorder.feedAll ((Signal.intervals lastEdge tacts).map Pulse.classify) =
        some (blocks, last) ∧
      final.provider = some (storeAll saved blocks provider) := by
  cases fed : recorder.feedAll ((Signal.intervals lastEdge tacts).map Pulse.classify) with
  | some result =>
      rcases result with ⟨blocks, last⟩
      rcases hearEdges_of_feedAll saved fed provider line events observers with
        ⟨session, level, known⟩
      rw [known] at heard
      cases heard
      exact ⟨blocks, last, rfl, rfl⟩
  | none =>
      -- A recorder that gives up makes the deck give up at the same edge.
      exfalso
      induction tacts generalizing lastEdge saved recorder provider line with
      | nil => exact nomatch fed
      | cons tact tacts induction =>
          have change : (!line) ≠ line := by simp
          rw [Signal.intervals, List.map_cons, Recorder.feedAll_cons] at fed
          rw [hearEdges, List.foldlM_cons] at heard
          cases first : recorder.feed (Pulse.classify (tact - lastEdge)) with
          | none => simp [hear, change, first] at heard
          | some result =>
              rcases result with ⟨next, block⟩
              rw [hear_of_feed first] at heard
              apply induction heard
              cases rest : next.feedAll ((Signal.intervals tact tacts).map Pulse.classify) with
              | none => rfl
              | some result => simp [first, rest] at fed

theorem mode_takeAll {deck final : TapeDeck ρ} {inputs : List DeckInput}
    (saving : deck.mode = .save) (stays : deck.StaysSaving inputs)
    (run : deck.takeAll inputs = some final) : final.mode = .save := by
  induction inputs generalizing deck with
  | nil =>
      cases run
      exact saving
  | cons input inputs induction =>
      rw [takeAll, List.foldlM_cons] at run
      rcases Option.bind_eq_some_iff.mp run with ⟨next, taken, run⟩
      have continues := stays next taken
      exact induction continues.1 continues.2 run

theorem take_of_leaves {deck : TapeDeck ρ} (saving : deck.mode = .save) {tact : Nat}
    {registers : Registers} (leaves : registers.pc = errorAddress) (fast : Bool)
    (memory : Memory) :
    deck.take (.instruction fast tact registers memory) = some deck.leaveSave := by
  rcases session_of_mode saving with ⟨lastEdge, saved, session⟩
  simp [take, follow, updateMode, session, leaves, leaveSave, notify, loading, mode]

theorem take_eq_leaveSave {deck ended : TapeDeck ρ} {input : DeckInput}
    (saving : deck.mode = .save) (ends : deck.take input = some ended)
    (finished : ended.mode ≠ .save) : ended = deck.leaveSave := by
  cases input with
  | write level tact => exact absurd (mode_and_line_of_hear saving ends).1 finished
  | instruction fast tact registers memory =>
      rcases session_of_mode saving with ⟨lastEdge, saved, session⟩
      by_cases leaves : registers.pc = errorAddress ∨ silence < tact - lastEdge
      · have left : deck.take (.instruction fast tact registers memory) = some deck.leaveSave := by
          simp [take, follow, updateMode, session, leaves, leaveSave, notify, loading, mode]
        exact Option.some.inj (ends.symm.trans left)
      · have stayed : deck.take (.instruction fast tact registers memory) = some deck := by
          simp [take, follow, updateMode, session, leaves, loading, mode]
        cases Option.some.inj (ends.symm.trans stayed)
        exact absurd saving finished

theorem provider_of_session {before : TapeDeck ρ} {provider : ρ}
    (inserted : before.provider = some provider) {start : Nat} {inputs : List DeckInput}
    {saving ended : TapeDeck ρ} {last : DeckInput}
    (run : (before.enterSave start).takeAll inputs = some saving)
    (stays : (before.enterSave start).StaysSaving inputs)
    (ends : saving.take last = some ended) (finished : ended.mode ≠ .save) :
    ∃ recorded recorder,
      Recorder.feedAll {} ((Signal.intervals start (DeckInput.edges before.line inputs)).map
        Pulse.classify) = some (recorded, recorder) ∧
      saving.provider = some (storeAll 0 recorded (TapeProvider.create provider).2) ∧
      ended.provider =
        some (TapeProvider.finalize (storeAll 0 recorded (TapeProvider.create provider).2)).2 := by
  rcases before with ⟨_, session, recorder, line, events, observers⟩
  cases inserted
  have heard := (takeAll_eq_hearEdges rfl stays).symm.trans run
  rcases feedAll_of_hearEdges heard with ⟨recorded, recorder, fed, provided⟩
  have closed : ended.provider =
      saving.provider.map fun provider => (TapeProvider.finalize provider).2 := by
    rw [take_eq_leaveSave (mode_takeAll rfl stays run) ends finished]
    rfl
  rw [provided] at closed
  exact ⟨recorded, recorder, fed, provided, closed⟩

/-- The blocks of a session end up in the folder that finishes its file, each with its record if
it fits. -/
theorem folder_of_session {before : TapeDeck TapeFolder} {folder : TapeFolder}
    (inserted : before.provider = some folder) {start : Nat} {inputs : List DeckInput}
    {saving ended : TapeDeck TapeFolder} {last : DeckInput}
    (run : (before.enterSave start).takeAll inputs = some saving)
    (stays : (before.enterSave start).StaysSaving inputs)
    (ends : saving.take last = some ended) (finished : ended.mode ≠ .save) :
    ∃ recorded recorder session,
      Recorder.feedAll {} ((Signal.intervals start (DeckInput.edges before.line inputs)).map
        Pulse.classify) = some (recorded, recorder) ∧
      saving.provider = some session ∧ ended.provider = some session.finalize.2 ∧
      Tap.encode ((Tap.fitting recorded).map Tap.Block.mk) = .ok session.buffer := by
  rcases provider_of_session inserted run stays ends finished with
    ⟨recorded, recorder, fed, provided, closed⟩
  let created : TapeFolder := (TapeProvider.create folder).2
  rcases TapeFolder.buffer_storeAll 0 recorded created with ⟨image, encoded, buffer⟩
  exact ⟨recorded, recorder, _, fed, provided, closed, buffer ▸ encoded⟩

/-- A session whose blocks fit writes them one after another, and the file gives them back
exactly if each of them has room for a flag and a checksum. Else the reader refuses the whole file
at the first block that has not. -/
theorem parse_file_of_session {before : TapeDeck TapeFolder} {folder : TapeFolder}
    (inserted : before.provider = some folder) {start : Nat} {inputs : List DeckInput}
    {saving ended : TapeDeck TapeFolder} {last : DeckInput}
    (run : (before.enterSave start).takeAll inputs = some saving)
    (stays : (before.enterSave start).StaysSaving inputs)
    (ends : saving.take last = some ended) (finished : ended.mode ≠ .save) :
    ∃ recorded recorder session after,
      Recorder.feedAll {} ((Signal.intervals start (DeckInput.edges before.line inputs)).map
        Pulse.classify) = some (recorded, recorder) ∧
      saving.provider = some session ∧ ended.provider = some after ∧
      (¬session.WritesFile → after.storage.files = session.storage.files) ∧
      (session.WritesFile → ∃ file, after.storage.read session.outputPath = .ok file ∧
        (∀ parsed, Tap.parse file = .ok parsed ↔
          (∀ block ∈ Tap.fitting recorded, Tap.Readable block) ∧
            parsed = (Tap.fitting recorded).map Tap.Block.mk) ∧
        ∀ front short back, Tap.fitting recorded = front ++ short :: back →
          (∀ block ∈ front, Tap.Readable block) → ¬Tap.Readable short →
            Tap.parse file =
              .error (.recordTooShort (Tap.recordsLength front) short.length)) := by
  rcases folder_of_session inserted run stays ends finished with
    ⟨recorded, recorder, session, fed, kept, closed, encoded⟩
  refine ⟨recorded, recorder, session, _, fed, kept, closed, TapeFolder.files_finalize, ?_⟩
  intro writes
  refine ⟨session.buffer, TapeFolder.read_finalize writes, Tap.parse_encode_eq_ok_iff encoded, ?_⟩
  intro front short back split readable unreadable
  rw [split] at encoded
  exact Tap.parse_encode_short encoded readable unreadable

/-! Two sessions into an empty folder at the top of the tree. The first saves a whole block. In
the second one a block of a single byte follows, as when the signal ends early. -/

def topFolder (buffer : List UInt8) : TapeFolder where
  storage := { home := [], directories := ∅ }
  outputDirectory := ⟨["", ""]⟩
  buffer

theorem writesFile_topFolder {buffer : List UInt8} (saved : buffer ≠ []) :
    (topFolder buffer).WritesFile := by
  have provided : (topFolder buffer).Provided := Storage.provides_bare (by cbv)
  exact TapeFolder.writesFile_iff.mpr ⟨saved, provided⟩

def savingToTop : TapeDeck TapeFolder :=
  enterSave { provider := some (topFolder []) } 0

def errorRestart : DeckInput :=
  .instruction false 0 { pc := errorAddress } Memory.empty

def wholeBlock : SavedBlock where
  gap := 0
  bytes := [0xFF, 0xFF]
  nonempty := by decide
  pause := 0
  block := _
  standard := rfl

def cutBlock : SavedBlock where
  gap := 0
  bytes := [0xFF]
  nonempty := by decide
  pause := 0
  block := _
  standard := rfl

def savesToTop (saves : List SavedBlock) : List DeckInput :=
  DeckInput.toggles false (SavedBlock.edges 0 saves)

theorem staysSaving_savesToTop (saves : List SavedBlock) :
    savingToTop.StaysSaving (savesToTop saves) :=
  staysSaving_of_writes rfl fun _ member => DeckInput.write_of_mem_toggles member

theorem exists_savesToTop (saves : List SavedBlock) :
    ∃ saving recorder, savingToTop.takeAll (savesToTop saves) = some saving ∧
      Recorder.feedAll {} ((Signal.intervals 0 (DeckInput.edges false (savesToTop saves))).map
        Pulse.classify) = some (saves.map SavedBlock.bytes, recorder) ∧
      saving.provider = some (storeAll 0 (saves.map SavedBlock.bytes) (topFolder [])) ∧
      saving.take errorRestart = some saving.leaveSave := by
  have edges : DeckInput.edges false (savesToTop saves) = SavedBlock.edges 0 saves :=
    DeckInput.edges_toggles false _
  rcases Recorder.feedAll_edges false edges with ⟨recorder, fed⟩
  rcases hearEdges_of_feedAll 0 fed (topFolder []) false [.enteredSaveMode] [] with
    ⟨session, level, heard⟩
  have run := (takeAll_eq_hearEdges rfl (staysSaving_savesToTop saves)).trans heard
  have saving := mode_takeAll rfl (staysSaving_savesToTop saves) run
  exact ⟨_, recorder, run, fed, rfl, take_of_leaves saving rfl false Memory.empty⟩

theorem parse_file_of_session_wholeBlock :
    ∃ saving ended after file,
      savingToTop.takeAll (savesToTop [wholeBlock]) = some saving ∧
      saving.take errorRestart = some ended ∧ ended.provider = some after ∧
      after.storage.read ⟨["", "saved.tap"]⟩ = .ok file ∧
      Tap.parse file = .ok [⟨[0xFF, 0xFF]⟩] := by
  rcases exists_savesToTop [wholeBlock] with ⟨saving, _, run, fed, provided, ends⟩
  rcases parse_file_of_session rfl run (staysSaving_savesToTop _) ends nofun with
    ⟨recorded, _, session, after, fedAgain, kept, closed, -, file⟩
  cases fed.symm.trans fedAgain
  have stored : storeAll 0 [[0xFF, 0xFF]] (topFolder []) = topFolder [2, 0, 0xFF, 0xFF] := rfl
  cases (provided.trans (congrArg some stored)).symm.trans kept
  rcases file (writesFile_topFolder (List.cons_ne_nil _ _)) with ⟨file, read, parse, -⟩
  refine ⟨saving, _, after, file, run, ends, closed, read, (parse _).mpr ⟨by decide, rfl⟩⟩

/-- Every block of the second session fits a record, and the file of the session is refused. -/
theorem session_with_unreadable_file :
    ∃ saving ended after file recorder,
      savingToTop.takeAll (savesToTop [wholeBlock, cutBlock]) = some saving ∧
      Recorder.feedAll {}
        ((Signal.intervals 0 (DeckInput.edges false (savesToTop [wholeBlock, cutBlock]))).map
          Pulse.classify) = some ([[0xFF, 0xFF], [0xFF]], recorder) ∧
      saving.take errorRestart = some ended ∧ ended.provider = some after ∧
      after.storage.read ⟨["", "saved.tap"]⟩ = .ok file ∧
      Tap.parse file = .error (.recordTooShort 4 1) := by
  rcases exists_savesToTop [wholeBlock, cutBlock] with ⟨saving, recorder, run, fed, provided, ends⟩
  rcases folder_of_session rfl run (staysSaving_savesToTop _) ends nofun with
    ⟨recorded, _, session, fedAgain, kept, closed, encoded⟩
  cases fed.symm.trans fedAgain
  have stored : storeAll 0 [[0xFF, 0xFF], [0xFF]] (topFolder []) =
      topFolder [2, 0, 0xFF, 0xFF, 1, 0, 0xFF] := rfl
  cases (provided.trans (congrArg some stored)).symm.trans kept
  refine ⟨saving, _, _, _, recorder, run, fed, ends, closed,
    TapeFolder.read_finalize (writesFile_topFolder (List.cons_ne_nil _ _)), ?_⟩
  let front : List (List UInt8) := [[0xFF, 0xFF]]
  have records : Tap.encode ((front ++ [[0xFF]]).map Tap.Block.mk) = .ok _ := encoded
  exact Tap.parse_encode_short records (by decide) (by decide)

end TapeDeck

end ZxSpectrum
