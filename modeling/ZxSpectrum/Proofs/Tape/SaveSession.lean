import ZxSpectrum.Proofs.Tape.Journal
import ZxSpectrum.Proofs.Tape.Reception
import ZxSpectrum.Tape.Shelf

namespace ZxSpectrum

/-! While a program saves, the deck is told of every write to its line and of every instruction.
Only the changes of the line matter, and they carry the blocks. -/

inductive DeckInput
  | write (level : Bool) (tact : Nat)
  | instruction (fast : Bool) (tact : Nat) (registers : Registers) (memory : Memory)

namespace DeckInput

/-! The edges of a line, and the times between them. -/

def edges : Bool → List DeckInput → List Nat
  | _, [] => []
  | level, .write next tact :: inputs =>
    if next = level then edges level inputs else tact :: edges next inputs
  | level, .instruction _ _ _ _ :: inputs => edges level inputs

def toggles (level : Bool) : List Nat → List DeckInput
  | [] => []
  | tact :: tacts => .write (!level) tact :: toggles (!level) tacts

theorem edges_toggles (level : Bool) (tacts : List Nat) :
    edges level (toggles level tacts) = tacts := by
  induction tacts generalizing level with
  | nil => rfl
  | cons tact tacts induction =>
      have change : (!level) ≠ level := by simp
      rw [toggles, edges, if_neg change, induction]

theorem write_of_mem_toggles {level : Bool} {tacts : List Nat} {input : DeckInput}
    (member : input ∈ toggles level tacts) : ∃ level tact, input = .write level tact := by
  induction tacts generalizing level with
  | nil => exact nomatch member
  | cons tact tacts induction =>
      rcases List.mem_cons.mp member with rfl | later
      · exact ⟨_, _, rfl⟩
      · exact induction later

/-- A wrong idea of the level before adds one edge or hides one, and the first write ends it. -/
theorem edges_not (level : Bool) (inputs : List DeckInput) :
    edges (!level) inputs = edges level inputs ∨
      (∃ tact, edges (!level) inputs = tact :: edges level inputs) ∨
      ∃ tact, edges level inputs = tact :: edges (!level) inputs := by
  induction inputs with
  | nil => exact Or.inl rfl
  | cons input inputs induction =>
      cases input with
      | instruction fast tact registers memory => exact induction
      | write next tact =>
          cases level <;> cases next
          · exact Or.inr (Or.inl ⟨tact, rfl⟩)
          · exact Or.inr (Or.inr ⟨tact, rfl⟩)
          · exact Or.inr (Or.inr ⟨tact, rfl⟩)
          · exact Or.inr (Or.inl ⟨tact, rfl⟩)

end DeckInput

namespace Signal

def pulseEnds (start : Nat) : List Nat → List Nat
  | [] => []
  | width :: widths => (start + width) :: pulseEnds (start + width) widths

def intervals (last : Nat) : List Nat → List Nat
  | [] => []
  | tact :: tacts => (tact - last) :: intervals tact tacts

theorem intervals_pulseEnds (start : Nat) (widths later : List Nat) :
    intervals start (pulseEnds start widths ++ later) =
      widths ++ intervals (start + widths.sum) later := by
  induction widths generalizing start with
  | nil => rfl
  | cons width widths induction =>
      rw [pulseEnds, List.cons_append, intervals, induction, Nat.add_sub_cancel_left,
        List.sum_cons, Nat.add_assoc]
      rfl

theorem intervals_pulseEnds_cons (last start width : Nat) (widths later : List Nat) :
    intervals last (pulseEnds start (width :: widths) ++ later) =
      (start + width - last) :: widths ++ intervals (start + (width :: widths).sum) later := by
  rw [pulseEnds, List.cons_append, intervals, intervals_pulseEnds, List.sum_cons, Nat.add_assoc]
  rfl

end Signal

/-! The blocks that a program saves. -/

structure SavedBlock where
  /-- The silence before its first pulse, in tacts. -/
  gap : Nat
  bytes : List UInt8
  nonempty : bytes ≠ []
  /-- The silence after its last pulse, in milliseconds. It is not waited for. -/
  pause : Nat
  block : TapeBlock
  standard : TapeBlock.standard bytes pause = some block

namespace SavedBlock

theorem widths_block_eq (saved : SavedBlock) :
    ∃ pilots, Recorder.requiredPilotPulses + 1 < pilots ∧ pilots ≤ 8063 ∧
      saved.block.widths = Signal.blockPulses (pilots + 1) saved.bytes := by
  have least := TapeBlock.le_pilotPulses saved.bytes
  have most := TapeBlock.pilotPulses_le saved.bytes
  refine ⟨TapeBlock.pilotPulses saved.bytes - 1, ?_, by omega, ?_⟩
  · unfold Recorder.requiredPilotPulses
    omega
  · rw [TapeBlock.widths_of_standard saved.standard, Nat.sub_add_cancel (by omega)]
    rfl

def edges (start : Nat) : List SavedBlock → List Nat
  | [] => []
  | saved :: later =>
    Signal.pulseEnds (start + saved.gap) saved.block.widths
      ++ edges (start + saved.gap + saved.block.widths.sum) later

end SavedBlock

namespace Recorder

/-! The pulse before the first edge of a block has any length, and so has one that a wrong idea of
the line adds. Such a pulse costs at most some pilot pulses. -/

/-- The recorder has heard at most some pilot pulses. -/
def Early (most : Nat) : Recorder → Prop
  | ⟨.idle, _⟩ | ⟨.lost, _⟩ => True
  | ⟨.pilot, count⟩ => count ≤ most
  | _ => False

theorem Early.heardPilots_le {most : Nat} {recorder : Recorder} (early : recorder.Early most) :
    recorder.heardPilots ≤ most := by
  rcases recorder with ⟨phase, count⟩
  cases phase with
  | pilot => exact early
  | idle | sync1 | sync2 | data | lost => exact Nat.zero_le most

theorem feed_early {most : Nat} {recorder : Recorder} (early : recorder.Early most)
    (few : most < requiredPilotPulses) (pulse : Pulse) :
    ∃ next, recorder.feed pulse = some (next, none) ∧ next.Early (most + 1) := by
  have started (count : Nat) (phase : RecorderPhase)
      (outside : phase = .idle ∨ phase = .lost) :
      ∃ next, feed ⟨phase, count⟩ pulse = some (next, none) ∧ next.Early (most + 1) := by
    rcases outside with rfl | rfl <;> cases pulse
    case inl.pilot | inr.pilot => exact ⟨⟨.pilot, 1⟩, rfl, Nat.le_add_left 1 most⟩
    all_goals exact ⟨⟨.lost, count⟩, rfl, trivial⟩
  rcases recorder with ⟨phase, count⟩
  cases phase with
  | idle => exact started count _ (Or.inl rfl)
  | lost => exact started count _ (Or.inr rfl)
  | pilot =>
      have low : count ≤ most := early
      cases pulse with
      | pilot =>
          unfold requiredPilotPulses at few
          exact ⟨_, feed_anotherPilot (by omega), Nat.succ_le_succ low⟩
      | sync1 =>
          have unsynchronised : ¬ requiredPilotPulses ≤ count :=
            Nat.not_le_of_lt (Nat.lt_of_le_of_lt low few)
          exact ⟨⟨.lost, count⟩, by simp [feed, unsynchronised], trivial⟩
      | unknown | zero | one | sync2 | closing | tooShort | tooLong =>
          exact ⟨⟨.lost, count⟩, rfl, trivial⟩
  | sync1 | sync2 | data => exact early.elim

theorem feedAll_delayed {most : Nat} {recorder : Recorder} (early : recorder.Early most)
    (few : most < requiredPilotPulses) (width : Nat) {pilots : Nat}
    (enough : requiredPilotPulses < pilots) (bounded : pilots ≤ 8063) {bytes : List UInt8}
    (nonempty : bytes ≠ []) :
    ∃ count, recorder.feedAll ((width :: Signal.blockPulses pilots bytes).map Pulse.classify) =
      some ([bytes], ⟨.idle, count⟩) := by
  rcases feed_early early few (Pulse.classify width) with ⟨next, fed, early⟩
  have heard := early.heardPilots_le
  have room : next.heardPilots + pilots < 2 ^ 32 := by
    unfold requiredPilotPulses at few
    omega
  rcases feedAll_ofBlock next enough room nonempty with ⟨count, middle, data, closed⟩
  refine ⟨count, ?_⟩
  rw [List.map_cons, Pulse.map_classify_blockPulses]
  exact feedAll_cons_of_feed fed
    (feedAll_append data (feedAll_cons_of_feed closed (feedAll_nil _)))

theorem feedAll_intervals {most : Nat} {recorder : Recorder} (early : recorder.Early most)
    (few : most < requiredPilotPulses) (last start : Nat) {pilots : Nat}
    (enough : requiredPilotPulses < pilots) (bounded : pilots ≤ 8063) {bytes : List UInt8}
    (nonempty : bytes ≠ []) (later : List Nat) :
    ∃ count, ∀ {blocks : List (List UInt8)} {final : Recorder},
      feedAll ⟨.idle, count⟩
        ((Signal.intervals (start + (Signal.blockPulses (pilots + 1) bytes).sum) later).map
          Pulse.classify) = some (blocks, final) →
      recorder.feedAll
        ((Signal.intervals last
          (Signal.pulseEnds start (Signal.blockPulses (pilots + 1) bytes) ++ later)).map
            Pulse.classify) = some (bytes :: blocks, final) := by
  have tone : Signal.blockPulses (pilots + 1) bytes =
      PulseWidth.pilot :: Signal.blockPulses pilots bytes := rfl
  rcases feedAll_delayed early few (start + PulseWidth.pilot - last) enough bounded nonempty with
    ⟨count, block⟩
  refine ⟨count, ?_⟩
  intro blocks final rest
  rw [tone] at rest ⊢
  rw [Signal.intervals_pulseEnds_cons, List.map_append]
  exact feedAll_append block rest

/-! Blocks one after another. Nothing is lost if the first edge of all is not heard, so they arrive
whatever the level of the line was believed to be. -/

theorem feedAll_blocks {most : Nat} {recorder : Recorder} (early : recorder.Early most)
    (few : most < requiredPilotPulses) (last start : Nat) (saves : List SavedBlock) :
    ∃ final,
      recorder.feedAll
        ((Signal.intervals last (SavedBlock.edges start saves)).map Pulse.classify) =
          some (saves.map SavedBlock.bytes, final) := by
  induction saves generalizing most recorder last start with
  | nil => exact ⟨recorder, rfl⟩
  | cons saved saves induction =>
      -- Only the gap lengthens the first pulse: the recorder is idle after every block.
      rcases saved.widths_block_eq with ⟨pilots, enough, bounded, widths⟩
      rw [SavedBlock.edges, widths]
      rcases feedAll_intervals early few last (start + saved.gap) (Nat.lt_of_succ_lt enough) bounded
        saved.nonempty (SavedBlock.edges _ saves) with ⟨count, prepend⟩
      have idle : Early 0 ⟨.idle, count⟩ := trivial
      rcases induction idle (by decide) _ _ with ⟨final, rest⟩
      exact ⟨final, prepend rest⟩

theorem feedAll_blocks_tail {most : Nat} {recorder : Recorder} (early : recorder.Early most)
    (few : most < requiredPilotPulses) (last start : Nat) {saves : List SavedBlock} {tact : Nat}
    {heard : List Nat} (edges : SavedBlock.edges start saves = tact :: heard) :
    ∃ final,
      recorder.feedAll ((Signal.intervals last heard).map Pulse.classify) =
        some (saves.map SavedBlock.bytes, final) := by
  cases saves with
  | nil => exact nomatch edges
  | cons saved saves =>
      rcases saved.widths_block_eq with ⟨pilots, enough, bounded, widths⟩
      rw [SavedBlock.edges, widths] at edges
      rcases Nat.exists_eq_add_one_of_ne_zero (Nat.ne_of_gt (Nat.zero_lt_of_lt enough)) with
        ⟨others, rfl⟩
      cases edges
      rcases feedAll_intervals early few last (start + saved.gap + PulseWidth.pilot)
        (Nat.lt_of_succ_lt_succ enough) (Nat.le_of_succ_le bounded) saved.nonempty
        (SavedBlock.edges _ saves) with ⟨count, prepend⟩
      have idle : Early 0 ⟨.idle, count⟩ := trivial
      rcases feedAll_blocks idle (by decide) _ _ saves with ⟨final, rest⟩
      exact ⟨final, prepend rest⟩

theorem feedAll_edges (line : Bool) {level : Bool} {inputs : List DeckInput} {start : Nat}
    {saves : List SavedBlock}
    (edges : DeckInput.edges level inputs = SavedBlock.edges start saves) :
    ∃ final,
      feedAll {} ((Signal.intervals start (DeckInput.edges line inputs)).map Pulse.classify) =
        some (saves.map SavedBlock.bytes, final) := by
  have idle : Early 0 {} := trivial
  have right : DeckInput.edges line inputs = DeckInput.edges level inputs → ∃ final,
      feedAll {} ((Signal.intervals start (DeckInput.edges line inputs)).map Pulse.classify) =
        some (saves.map SavedBlock.bytes, final) := by
    intro same
    rw [same, edges]
    exact feedAll_blocks idle (by decide) start start saves
  by_cases believed : line = level
  · subst line
    exact right rfl
  · cases Bool.eq_not.mpr believed
    -- An added edge cuts the first pulse in two, and a hidden one joins the first two pulses.
    rcases DeckInput.edges_not level inputs with same | ⟨tact, added⟩ | ⟨tact, hidden⟩
    · exact right same
    · rcases feed_early idle (by decide) (Pulse.classify (tact - start)) with ⟨next, fed, early⟩
      rcases feedAll_blocks early (by decide) tact start saves with ⟨final, rest⟩
      refine ⟨final, ?_⟩
      rw [added, edges]
      exact feedAll_cons_of_feed fed rest
    · exact feedAll_blocks_tail idle (by decide) start start (edges.symm.trans hidden)

end Recorder

namespace TapeDeck

variable {ρ : Type}

theorem session_of_mode {deck : TapeDeck ρ} (saving : deck.mode = .save) :
    ∃ lastEdge saved, deck.session = .save lastEdge saved := by
  unfold mode at saving
  cases session : deck.session with
  | passive => simp [session] at saving
  | load player => simp [session] at saving
  | save lastEdge saved => exact ⟨lastEdge, saved, rfl⟩

variable [TapeProvider ρ]

def take (deck : TapeDeck ρ) : DeckInput → Option (TapeDeck ρ)
  | .write level tact => deck.hear level tact
  | .instruction fast tact registers memory =>
    (deck.follow fast tact registers memory).map fun (deck, _, _) => deck

def takeAll (deck : TapeDeck ρ) (inputs : List DeckInput) : Option (TapeDeck ρ) :=
  inputs.foldlM take deck

/-- None of some inputs ends the session. -/
def StaysSaving (deck : TapeDeck ρ) : List DeckInput → Prop
  | [] => True
  | input :: inputs =>
    ∀ next, deck.take input = some next → next.mode = .save ∧ next.StaysSaving inputs

def hearEdges (deck : TapeDeck ρ) (tacts : List Nat) : Option (TapeDeck ρ) :=
  tacts.foldlM (fun deck tact => deck.hear (!deck.line) tact) deck

/-! A write of the level that the line has already and an instruction after which the session
goes on leave the deck as it is. -/

theorem hear_line (deck : TapeDeck ρ) (tact : Nat) : deck.hear deck.line tact = some deck := by
  rcases deck with ⟨provider, session, recorder, line, events, observers⟩
  cases session <;> simp [hear]

theorem mode_and_line_of_hear {deck next : TapeDeck ρ} (saving : deck.mode = .save)
    {level : Bool} {tact : Nat} (heard : deck.hear level tact = some next) :
    next.mode = .save ∧ next.line = level := by
  rcases session_of_mode saving with ⟨lastEdge, saved, session⟩
  rcases deck with ⟨provider, _, recorder, line, events, observers⟩
  cases session
  simp only [hear] at heard
  split_ifs at heard with same
  · cases heard
    exact ⟨rfl, same.symm⟩
  · rcases Option.bind_eq_some_iff.mp heard with ⟨⟨recorder, block⟩, fed, heard⟩
    cases block with
    | none =>
        cases heard
        exact ⟨rfl, rfl⟩
    | some block =>
        cases heard
        exact ⟨rfl, rfl⟩

theorem staysSaving_of_writes {deck : TapeDeck ρ} (saving : deck.mode = .save)
    {inputs : List DeckInput}
    (writes : ∀ input ∈ inputs, ∃ level tact, input = .write level tact) :
    deck.StaysSaving inputs := by
  induction inputs generalizing deck with
  | nil => trivial
  | cons input inputs induction =>
      intro next taken
      rcases writes input List.mem_cons_self with ⟨level, tact, rfl⟩
      have continues := (mode_and_line_of_hear saving taken).1
      exact ⟨continues, induction continues fun other member =>
        writes other (List.mem_cons_of_mem _ member)⟩

theorem take_instruction {deck : TapeDeck ρ} (saving : deck.mode = .save) (fast : Bool)
    (tact : Nat) (registers : Registers) (memory : Memory)
    (stays : ∀ next, deck.take (.instruction fast tact registers memory) = some next →
      next.mode = .save) :
    deck.take (.instruction fast tact registers memory) = some deck := by
  rcases session_of_mode saving with ⟨lastEdge, saved, session⟩
  by_cases ends : registers.pc = errorAddress ∨ silence < tact - lastEdge
  · have left : deck.take (.instruction fast tact registers memory) = some deck.leaveSave := by
      simp [take, follow, updateMode, session, ends, leaveSave, notify, loading, mode]
    have passive : deck.leaveSave.mode = .passive := rfl
    have other := stays _ left
    rw [passive] at other
    exact nomatch other
  · simp [take, follow, updateMode, session, ends, loading, mode]

theorem takeAll_eq_hearEdges {deck : TapeDeck ρ} (saving : deck.mode = .save)
    {inputs : List DeckInput} (stays : deck.StaysSaving inputs) :
    deck.takeAll inputs = deck.hearEdges (DeckInput.edges deck.line inputs) := by
  induction inputs generalizing deck with
  | nil => rfl
  | cons input inputs induction =>
      cases input with
      | instruction fast tact registers memory =>
          have unchanged := take_instruction saving fast tact registers memory
            fun next taken => (stays next taken).1
          have rest := induction saving (stays deck unchanged).2
          rw [takeAll, List.foldlM_cons, unchanged]
          exact rest
      | write level tact =>
          by_cases same : level = deck.line
          · subst level
            have unchanged : deck.take (.write deck.line tact) = some deck := deck.hear_line tact
            have rest := induction saving (stays deck unchanged).2
            rw [takeAll, List.foldlM_cons, unchanged, DeckInput.edges, if_pos rfl]
            exact rest
          · have change : level = !deck.line := Bool.eq_not.mpr same
            rw [takeAll, List.foldlM_cons, DeckInput.edges, if_neg same, hearEdges,
              List.foldlM_cons, ← change]
            cases heard : deck.hear level tact with
            | none => simp [take, heard]
            | some next =>
                have continues := stays next heard
                have rest := induction continues.1 continues.2
                rw [(mode_and_line_of_hear saving heard).2] at rest
                rw [take, heard]
                exact rest

/-! What the edges mean is up to the recorder. -/

theorem hear_of_feed {lastEdge saved tact : Nat} {recorder next : Recorder}
    {block : Option (List UInt8)}
    (fed : recorder.feed (Pulse.classify (tact - lastEdge)) = some (next, block)) (provider : ρ)
    (line : Bool) (events : List TapeEvent) (observers : List (List TapeEvent)) :
    hear ⟨some provider, .save lastEdge saved, recorder, line, events, observers⟩ (!line) tact =
      some ⟨some (storeAll saved block.toList provider),
        .save tact (saved + block.toList.length), next, !line, events, observers⟩ := by
  have change : (!line) ≠ line := by simp
  simp only [hear, if_neg change, fed]
  cases block <;> rfl

theorem hearEdges_of_feedAll (saved : Nat) {tacts : List Nat} {lastEdge : Nat}
    {recorder final : Recorder} {blocks : List (List UInt8)}
    (fed : recorder.feedAll ((Signal.intervals lastEdge tacts).map Pulse.classify) =
      some (blocks, final)) (provider : ρ) (line : Bool) (events : List TapeEvent)
    (observers : List (List TapeEvent)) :
    ∃ session level,
      hearEdges ⟨some provider, .save lastEdge saved, recorder, line, events, observers⟩ tacts =
        some ⟨some (storeAll saved blocks provider), session, final, level, events, observers⟩ := by
  induction tacts generalizing lastEdge saved recorder blocks provider line with
  | nil =>
      cases fed
      exact ⟨_, line, rfl⟩
  | cons tact tacts induction =>
      rw [Signal.intervals, List.map_cons, Recorder.feedAll_cons] at fed
      rcases Option.bind_eq_some_iff.mp fed with ⟨⟨next, block⟩, first, fed⟩
      rcases Option.bind_eq_some_iff.mp fed with ⟨⟨later, last⟩, rest, fed⟩
      cases fed
      rcases induction _ rest (storeAll saved block.toList provider) (!line) with
        ⟨session, level, heard⟩
      refine ⟨session, level, ?_⟩
      rw [hearEdges, List.foldlM_cons, hear_of_feed first, storeAll_append]
      exact heard

/-- A program that saves blocks makes the deck create a tape, name it after a header at the start
and save every block once, in order and whole. -/
theorem calls_takeAll_enterSave {before : TapeDeck (Journal ρ)} {journal : Journal ρ}
    (inserted : before.provider = some journal) {start : Nat} {level : Bool}
    {inputs : List DeckInput} {saves : List SavedBlock}
    (edges : DeckInput.edges level inputs = SavedBlock.edges start saves)
    (stays : (before.enterSave start).StaysSaving inputs) :
    ∃ final provider naming, (before.enterSave start).takeAll inputs = some final ∧
      final.provider = some provider ∧ IsNaming (saves.map SavedBlock.bytes) naming ∧
      provider.calls = journal.calls ++ [.create] ++ naming
        ++ saves.map fun saved => .save saved.bytes := by
  rcases before with ⟨_, session, recorder, line, events, observers⟩
  cases inserted
  rcases Recorder.feedAll_edges line edges with ⟨recorded, fed⟩
  let created : Journal ρ := (TapeProvider.create journal).2
  rcases hearEdges_of_feedAll 0 fed created line _ _ with ⟨session, level, heard⟩
  rcases calls_storeAll (saves.map SavedBlock.bytes) created with ⟨naming, named, calls⟩
  refine ⟨_, _, naming, (takeAll_eq_hearEdges rfl stays).trans heard, rfl, named, ?_⟩
  rw [calls, List.map_map]
  rfl

def headerOfAb : SavedBlock where
  gap := 5000
  bytes := [0, 0, 0x20, 0x61, 0x62] ++ List.replicate 7 0x20 ++ List.replicate 7 0
  nonempty := by decide
  pause := 0
  block := _
  standard := rfl

/-! A deck that takes the line to be high, and a program that finds it low. -/

def mistakenDeck : TapeDeck (Journal TapeShelf) where
  provider := some { provider := {} }
  line := true

def savesOfAb : List DeckInput :=
  .instruction false 120 {} Memory.empty :: .write false 150
    :: DeckInput.toggles false (SavedBlock.edges 100 [headerOfAb])

theorem calls_takeAll_enterSave_headerOfAb :
    ∃ final provider, (mistakenDeck.enterSave 100).takeAll savesOfAb = some final ∧
      final.provider = some provider ∧
      provider.calls = [.create, .setName "ab", .save headerOfAb.bytes] := by
  have edges : DeckInput.edges false savesOfAb = SavedBlock.edges 100 [headerOfAb] :=
    DeckInput.edges_toggles _ _
  have stays : (mistakenDeck.enterSave 100).StaysSaving savesOfAb := by
    intro next taken
    have unchanged : (mistakenDeck.enterSave 100).take
        (.instruction false 120 {} Memory.empty) = some (mistakenDeck.enterSave 100) := rfl
    cases unchanged.symm.trans taken
    refine ⟨rfl, staysSaving_of_writes rfl ?_⟩
    intro input member
    rcases List.mem_cons.mp member with rfl | later
    · exact ⟨_, _, rfl⟩
    · exact DeckInput.write_of_mem_toggles later
  rcases calls_takeAll_enterSave rfl edges stays with
    ⟨final, provider, naming, run, kept, named, calls⟩
  refine ⟨final, provider, run, kept, ?_⟩
  rcases named with ⟨name, isName, rfl⟩
  have ab : name = "ab" := String.toList_inj.mp (Text.Trimmed.eq_trim isName)
  rw [calls, ab]
  rfl

end TapeDeck

end ZxSpectrum
