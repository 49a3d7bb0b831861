import ZxSpectrum.Proofs.Tape.Waveform
import ZxSpectrum.Tape.Player

namespace ZxSpectrum

/-! A player that has been started follows the waveform of its tape, whatever tacts it is asked
about on the way. The place on the tape is viewed as the stretches that lie ahead, each with one
level of the line. To seek is to drop the stretches that are over. -/

/-- A time in which the line keeps its level: a pulse or a pause, up to the tact at which it ends,
with a number of blocks left after its own. -/
structure Stretch where
  level : Bool
  ends : Nat
  blocksLeft : Nat

namespace Stretch

/-! The stretches of pulses, of the rest of a block, and of blocks one after another. -/

def ofPulses (blocksLeft : Nat) (high : Bool) (start : Nat) : List Nat → List Stretch
  | [] => []
  | width :: later =>
    ⟨high, start + width, blocksLeft⟩ :: ofPulses blocksLeft (!high) (start + width) later

def ofBlocks (start : Nat) : List TapeBlock → List Stretch
  | [] => []
  | block :: later =>
    ofPulses later.length true start block.widths
      ++ ⟨false, start + block.widths.sum + block.pause, later.length⟩
      :: ofBlocks (start + block.widths.sum + block.pause) later

def ofRest (block : TapeBlock) (later : List TapeBlock) (high : Bool) (start : Nat)
    (widths : List Nat) : List Stretch :=
  ofPulses later.length high start widths
    ++ ⟨false, start + widths.sum + block.pause, later.length⟩
    :: ofBlocks (start + widths.sum + block.pause) later

theorem ofBlocks_cons (block : TapeBlock) (later : List TapeBlock) (start : Nat) :
    ofBlocks start (block :: later) = ofRest block later true start block.widths :=
  rfl

/-! Every end of a stretch can be held by a 64-bit counter, also when the first stretches are
dropped. -/

def Fit (stretches : List Stretch) : Prop :=
  ∀ stretch ∈ stretches, stretch.ends < 2 ^ 64

theorem Fit.long_ends {stretch : Stretch} {later : List Stretch} (fit : Fit (stretch :: later)) :
    Bound.long stretch.ends = some stretch.ends :=
  Bound.long_eq_some_iff.mpr ⟨fit stretch List.mem_cons_self, rfl⟩

theorem Fit.later {stretch : Stretch} {later : List Stretch} (fit : Fit (stretch :: later)) :
    Fit later :=
  fun other member => fit other (List.mem_cons_of_mem _ member)

theorem Fit.left {front back : List Stretch} (fit : Fit (front ++ back)) : Fit front :=
  fun other member => fit other (List.mem_append_left _ member)

theorem Fit.right {front back : List Stretch} (fit : Fit (front ++ back)) : Fit back :=
  fun other member => fit other (List.mem_append_right _ member)

theorem Fit.dropWhile {stretches : List Stretch} (fit : Fit stretches) (passed : Stretch → Bool) :
    Fit (stretches.dropWhile passed) :=
  fun other member => fit other (List.dropWhile_subset passed member)

theorem dropWhile_dropWhile (stretches : List Stretch) {earlier tact : Nat}
    (ordered : earlier ≤ tact) :
    (stretches.dropWhile (·.ends ≤ earlier)).dropWhile (·.ends ≤ tact) =
      stretches.dropWhile (·.ends ≤ tact) := by
  induction stretches with
  | nil => rfl
  | cons stretch later induction =>
      by_cases passed : stretch.ends ≤ earlier
      · have overLater : stretch.ends ≤ tact := Nat.le_trans passed ordered
        rw [List.dropWhile_cons_of_pos (by simpa using passed),
          List.dropWhile_cons_of_pos (by simpa using overLater), induction]
      · rw [List.dropWhile_cons_of_neg (by simpa using passed)]

end Stretch

namespace TapePosition

/-- The stretches ahead of a place on the tape, the current one first. -/
def timeline : TapePosition → List Stretch
  | .playing block later (.pulse high widths) ends =>
    ⟨high, ends, later.length⟩ :: Stretch.ofRest block later (!high) ends widths
  | .playing _ later .pause ends =>
    ⟨false, ends, later.length⟩ :: Stretch.ofBlocks ends later
  | .ended => []

namespace PulseSearch

def timeline (blocksLeft : Nat) : PulseSearch → List Stretch
  | .within high later ends =>
    ⟨high, ends, blocksLeft⟩ :: Stretch.ofPulses blocksLeft (!high) ends later
  | .over _ => []

def finish : PulseSearch → Nat
  | .within _ later ends => ends + later.sum
  | .over since => since

end PulseSearch

theorem seekPulse_timeline (tact blocksLeft : Nat) (high : Bool) (widths : List Nat)
    (start : Nat) (fit : Stretch.Fit (Stretch.ofPulses blocksLeft high start widths)) :
    ∃ search, seekPulse tact high widths start = some search ∧
      search.finish = start + widths.sum ∧
      search.timeline blocksLeft =
        (Stretch.ofPulses blocksLeft high start widths).dropWhile (·.ends ≤ tact) := by
  induction widths generalizing high start with
  | nil => exact ⟨.over start, rfl, rfl, rfl⟩
  | cons width later induction =>
      rw [Stretch.ofPulses] at fit ⊢
      have ends := fit.long_ends
      by_cases inside : tact < start + width
      · refine ⟨.within high later (start + width), ?_, ?_, ?_⟩
        · simp [seekPulse, ends, inside]
        · simp [PulseSearch.finish, Nat.add_assoc]
        · rw [List.dropWhile_cons_of_neg (by simpa using inside)]
          rfl
      · rcases induction (!high) (start + width) fit.later with ⟨search, found, finish, ahead⟩
        refine ⟨search, ?_, ?_, ?_⟩
        · simp [seekPulse, ends, inside, found]
        · rw [finish, List.sum_cons, Nat.add_assoc]
        · rw [ahead, List.dropWhile_cons_of_pos (by simpa using inside)]

/-! The search drops the stretches that are over, first pulses and then pauses and blocks. -/

def seekBlocks (tact start : Nat) : List TapeBlock → Option TapePosition
  | [] => some .ended
  | block :: later => seekFrom tact later block true block.widths start

theorem seekFrom_eq (tact : Nat) (later : List TapeBlock) (block : TapeBlock) (high : Bool)
    (widths : List Nat) (start : Nat) :
    seekFrom tact later block high widths start = (do
      match ← seekPulse tact high widths start with
      | .within high widths ends => return .playing block later (.pulse high widths) ends
      | .over since =>
        let ends ← Bound.long (since + block.pause)
        if tact < ends then return .playing block later .pause ends
        else seekBlocks tact ends later) := by
  rw [seekFrom.eq_def]
  dsimp only
  rcases seekPulse tact high widths start with _ | _ | _
  · rfl
  · rfl
  · cases later <;> rfl

theorem seekFrom_timeline_of_seekBlocks {tact : Nat} {later : List TapeBlock}
    (onward : ∀ start, Stretch.Fit (Stretch.ofBlocks start later) →
      ∃ next, seekBlocks tact start later = some next ∧
        next.timeline = (Stretch.ofBlocks start later).dropWhile (·.ends ≤ tact))
    (block : TapeBlock) (high : Bool) (widths : List Nat) (start : Nat)
    (fit : Stretch.Fit (Stretch.ofRest block later high start widths)) :
    ∃ next, seekFrom tact later block high widths start = some next ∧
      next.timeline =
        (Stretch.ofRest block later high start widths).dropWhile (·.ends ≤ tact) := by
  rcases seekPulse_timeline tact later.length high widths start fit.left with
    ⟨search, found, finish, ahead⟩
  rw [seekFrom_eq, found, Stretch.ofRest, List.dropWhile_append, ← ahead]
  rcases search with ⟨level, rest, ends⟩ | ⟨since⟩
  · refine ⟨_, rfl, ?_⟩
    have later : ends + rest.sum = start + widths.sum := finish
    simp [timeline, PulseSearch.timeline, Stretch.ofRest, later]
  · have since_eq : since = start + widths.sum := finish
    have fitPause := fit.right
    have ends := fitPause.long_ends
    simp only [PulseSearch.timeline, List.isEmpty_nil, if_true, since_eq]
    by_cases inside : tact < start + widths.sum + block.pause
    · refine ⟨.playing block later .pause (start + widths.sum + block.pause), ?_, ?_⟩
      · simp [ends, inside]
      · rw [List.dropWhile_cons_of_neg (by simpa using inside)]
        rfl
    · rcases onward _ fitPause.later with ⟨next, reached, ahead⟩
      refine ⟨next, ?_, ?_⟩
      · simp [ends, inside, reached]
      · rw [ahead, List.dropWhile_cons_of_pos (by simpa using inside)]

theorem seekBlocks_timeline (tact : Nat) (blocks : List TapeBlock) (start : Nat)
    (fit : Stretch.Fit (Stretch.ofBlocks start blocks)) :
    ∃ next, seekBlocks tact start blocks = some next ∧
      next.timeline = (Stretch.ofBlocks start blocks).dropWhile (·.ends ≤ tact) := by
  induction blocks generalizing start with
  | nil => exact ⟨.ended, rfl, rfl⟩
  | cons block later induction =>
      exact seekFrom_timeline_of_seekBlocks induction block true block.widths start fit

/-- Seeking drops the stretches that are over, and it never fails on a tape whose ends all fit. -/
theorem seek_timeline (tact : Nat) (position : TapePosition)
    (fit : Stretch.Fit position.timeline) :
    ∃ next, position.seek tact = some next ∧
      next.timeline = position.timeline.dropWhile (·.ends ≤ tact) := by
  cases position with
  | ended => exact ⟨.ended, rfl, rfl⟩
  | playing block later head ends =>
      by_cases inside : tact < ends
      · refine ⟨.playing block later head ends, by simp [seek, inside], ?_⟩
        cases head <;> simp [timeline, inside]
      · have passed : ends ≤ tact := Nat.le_of_not_lt inside
        cases head with
        | pulse high widths =>
            rcases seekFrom_timeline_of_seekBlocks (seekBlocks_timeline tact later) block (!high)
              widths ends fit.later with ⟨next, reached, ahead⟩
            refine ⟨next, by simp [seek, inside, reached], ?_⟩
            rw [ahead, timeline, List.dropWhile_cons_of_pos (by simpa using passed)]
        | pause =>
            rcases seekBlocks_timeline tact later ends fit.later with ⟨next, reached, ahead⟩
            refine ⟨next, ?_, ?_⟩
            · rw [← reached]
              cases later <;> simp [seek, seekBlocks, inside]
            · rw [ahead, timeline, List.dropWhile_cons_of_pos (by simpa using passed)]

theorem enter_timeline (start : Nat) (blocks : List TapeBlock)
    (fit : Stretch.Fit (Stretch.ofBlocks start blocks)) :
    ∃ position, enter start blocks = some position ∧
      position.timeline = Stretch.ofBlocks start blocks := by
  cases blocks with
  | nil => exact ⟨.ended, rfl, rfl⟩
  | cons block later =>
      rw [Stretch.ofBlocks_cons] at fit ⊢
      cases widths : block.widths with
      | nil =>
          rw [widths, Stretch.ofRest, Stretch.ofPulses, List.nil_append] at fit
          have ends := fit.long_ends
          rw [List.sum_nil, Nat.add_zero] at ends
          exact ⟨.playing block later .pause (start + block.pause),
            by simp [enter, widths, ends], rfl⟩
      | cons width rest =>
          rw [widths, Stretch.ofRest, Stretch.ofPulses] at fit
          have ends := fit.long_ends
          refine ⟨.playing block later (.pulse true rest) (start + width),
            by simp [enter, widths, ends], ?_⟩
          simp [timeline, Stretch.ofRest, Stretch.ofPulses, Nat.add_assoc]

end TapePosition

/-! ## The stretch of a tact -/

namespace Stretch

theorem ofPulses_dropWhile_of_sum_le {tact : Nat} (blocksLeft : Nat) (high : Bool)
    {widths : List Nat} {start : Nat} (late : start + widths.sum ≤ tact) :
    (ofPulses blocksLeft high start widths).dropWhile (·.ends ≤ tact) = [] := by
  induction widths generalizing high start with
  | nil => rfl
  | cons width later induction =>
      rw [List.sum_cons] at late
      have passed : start + width ≤ tact := by omega
      rw [ofPulses, List.dropWhile_cons_of_pos (by simpa using passed)]
      exact induction (!high) (by omega)

theorem ofPulses_dropWhile_of_lt {tact : Nat} (blocksLeft : Nat) (high : Bool)
    {widths : List Nat} {start : Nat} (begun : start ≤ tact)
    (current : tact < start + widths.sum) :
    ∃ ends later, (ofPulses blocksLeft high start widths).dropWhile (·.ends ≤ tact) =
      ⟨decide (Waveform.InPulse high widths start tact), ends, blocksLeft⟩ :: later := by
  induction widths generalizing high start with
  | nil =>
      rw [List.sum_nil] at current
      omega
  | cons width later induction =>
      rw [List.sum_cons] at current
      rw [ofPulses]
      by_cases passed : start + width ≤ tact
      · rcases induction (!high) passed (by omega) with ⟨ends, rest, ahead⟩
        refine ⟨ends, rest, ?_⟩
        have past : ¬tact < start + width := Nat.not_lt_of_le passed
        rw [List.dropWhile_cons_of_pos (by simpa using passed), ahead]
        simp [Waveform.inPulse_cons, past]
      · have inside : tact < start + width := Nat.lt_of_not_le passed
        refine ⟨start + width, ofPulses blocksLeft (!high) (start + width) later, ?_⟩
        rw [List.dropWhile_cons_of_neg (by simpa using passed)]
        simp [Waveform.inPulse_cons, begun, inside, Waveform.not_inPulse_of_lt inside]

theorem blocksLeft_of_mem_ofPulses {blocksLeft : Nat} {high : Bool} {start : Nat}
    {widths : List Nat} {stretch : Stretch}
    (member : stretch ∈ ofPulses blocksLeft high start widths) :
    stretch.blocksLeft = blocksLeft := by
  induction widths generalizing high start with
  | nil => cases member
  | cons width later induction =>
      rcases List.mem_cons.mp member with equal | member
      · rw [equal]
      · exact induction member

theorem blocksLeft_lt_of_mem_ofBlocks {start : Nat} {blocks : List TapeBlock}
    {stretch : Stretch} (member : stretch ∈ ofBlocks start blocks) :
    stretch.blocksLeft < blocks.length := by
  induction blocks generalizing start with
  | nil => cases member
  | cons block later induction =>
      rw [List.length_cons]
      rcases List.mem_append.mp member with member | member
      · rw [blocksLeft_of_mem_ofPulses member]
        exact Nat.lt_succ_self _
      · rcases List.mem_cons.mp member with equal | member
        · rw [equal]
          exact Nat.lt_succ_self _
        · exact Nat.lt_succ_of_lt (induction member)

theorem ends_le_of_mem_ofPulses {blocksLeft : Nat} {high : Bool} {start : Nat}
    {widths : List Nat} {stretch : Stretch}
    (member : stretch ∈ ofPulses blocksLeft high start widths) :
    stretch.ends ≤ start + widths.sum := by
  induction widths generalizing high start with
  | nil => cases member
  | cons width later induction =>
      rw [List.sum_cons]
      rcases List.mem_cons.mp member with equal | member
      · rw [equal]
        exact Nat.add_le_add_left (Nat.le_add_right _ _) _
      · have bound := induction member
        omega

theorem ends_le_of_mem_ofBlocks {start : Nat} {blocks : List TapeBlock} {stretch : Stretch}
    (member : stretch ∈ ofBlocks start blocks) :
    stretch.ends ≤ Waveform.finish (blocks.map TapeBlock.signal) start := by
  induction blocks generalizing start with
  | nil => cases member
  | cons block later induction =>
      rw [List.map_cons, Waveform.finish_cons]
      have bound := Waveform.start_le_finish (later.map TapeBlock.signal)
        (start + block.signal.duration)
      have duration : block.signal.duration = block.widths.sum + block.pause := rfl
      rcases List.mem_append.mp member with member | member
      · have early := ends_le_of_mem_ofPulses member
        omega
      · rcases List.mem_cons.mp member with equal | member
        · rw [equal]
          dsimp only
          omega
        · rw [Nat.add_assoc, ← duration] at member
          exact induction member

theorem fit_ofBlocks {start : Nat} {blocks : List TapeBlock}
    (fits : Waveform.finish (blocks.map TapeBlock.signal) start < 2 ^ 64) :
    Fit (ofBlocks start blocks) :=
  fun _ member => Nat.lt_of_le_of_lt (ends_le_of_mem_ofBlocks member) fits

end Stretch

/-! What a player tells in the first stretch that is not over is what the waveform says. -/

def TapeReading.ofStretch (count : Nat) : Option Stretch → TapeReading
  | some stretch => ⟨stretch.level, count - stretch.blocksLeft - 1, false⟩
  | none => ⟨false, count, true⟩

theorem TapeReading.ofStretch_succ {count : Nat} {stretch : Option Stretch}
    (within : ∀ member ∈ stretch, member.blocksLeft < count) :
    ofStretch (count + 1) stretch =
      let reading := ofStretch count stretch
      { reading with index := reading.index + 1 } := by
  cases stretch with
  | none => rfl
  | some stretch =>
      have bound := within stretch rfl
      have index : count + 1 - stretch.blocksLeft - 1 = count - stretch.blocksLeft - 1 + 1 := by
        omega
      simp [ofStretch, index]

theorem TapeReading.ofStretch_head? (blocks : List TapeBlock) {start tact : Nat}
    (begun : start ≤ tact) :
    ofStretch blocks.length
        ((Stretch.ofBlocks start blocks).dropWhile (·.ends ≤ tact)).head? =
      Waveform.reading (blocks.map TapeBlock.signal) start tact := by
  induction blocks generalizing start with
  | nil => exact (Waveform.reading_nil begun).symm
  | cons block later induction =>
      have duration : start + block.signal.duration = start + block.widths.sum + block.pause :=
        (Nat.add_assoc _ _ _).symm
      rw [List.map_cons, List.length_cons, Stretch.ofBlocks, ← duration,
        List.dropWhile_append]
      by_cases passed : start + block.signal.duration ≤ tact
      · have pulsesOver : start + block.widths.sum ≤ tact := by omega
        rw [Waveform.reading_cons_of_le passed, ← induction passed,
          Stretch.ofPulses_dropWhile_of_sum_le _ _ pulsesOver]
        simp only [List.isEmpty_nil, if_true]
        rw [List.dropWhile_cons_of_pos (by simpa using passed)]
        apply ofStretch_succ
        intro stretch first
        exact Stretch.blocksLeft_lt_of_mem_ofBlocks
          (List.dropWhile_subset _ (List.mem_of_mem_head? first))
      · have current : tact < start + block.signal.duration := Nat.lt_of_not_le passed
        rw [Waveform.reading_cons_of_lt current]
        by_cases silent : start + block.widths.sum ≤ tact
        · have pulses : ¬Waveform.InPulse true block.widths start tact :=
            Waveform.not_inPulse_of_sum_le silent
          rw [Stretch.ofPulses_dropWhile_of_sum_le _ _ silent]
          simp only [List.isEmpty_nil, if_true]
          rw [List.dropWhile_cons_of_neg (by simpa using passed)]
          simp [ofStretch, TapeBlock.signal, pulses]
        · rcases Stretch.ofPulses_dropWhile_of_lt later.length true begun
            (Nat.lt_of_not_le silent) with ⟨ends, rest, ahead⟩
          have first : later.length + 1 - later.length - 1 = 0 := by omega
          rw [ahead, List.isEmpty_cons, if_neg Bool.false_ne_true, List.cons_append,
            List.head?_cons, ofStretch, first]
          rfl

namespace Player

/-! A player that is asked about one tact after another. -/

def listen (player : Player) : List Nat → Option (List TapeReading)
  | [] => some []
  | tact :: tacts => do
    let (level, player) ← player.ear tact
    let readings ← player.listen tacts
    return ⟨level, player.index, player.atEnd⟩ :: readings

theorem reading_eq_ofStretch (blocks : List TapeBlock) (position : TapePosition) :
    (⟨position.level, index ⟨blocks, some position⟩, atEnd ⟨blocks, some position⟩⟩ :
        TapeReading) =
      .ofStretch blocks.length position.timeline.head? := by
  cases position with
  | ended => rfl
  | playing block later head ends => cases head <;> rfl

theorem listen_eq_map (blocks : List TapeBlock) {tacts : List Nat}
    (ordered : tacts.Pairwise (· ≤ ·)) (position : TapePosition)
    (fit : Stretch.Fit position.timeline) :
    listen ⟨blocks, some position⟩ tacts = some (tacts.map fun tact =>
      .ofStretch blocks.length (position.timeline.dropWhile (·.ends ≤ tact)).head?) := by
  induction tacts generalizing position with
  | nil => rfl
  | cons tact tacts induction =>
      rcases List.pairwise_cons.mp ordered with ⟨first, later⟩
      rcases position.seek_timeline tact fit with ⟨next, reached, ahead⟩
      have heard : ear ⟨blocks, some position⟩ tact =
          some (next.level, ⟨blocks, some next⟩) := by
        simp [ear, reached]
      have rest := induction later next (ahead ▸ fit.dropWhile _)
      -- Dropping what is over at this tact does not change what is ahead at the later ones.
      have same : ∀ other ∈ tacts, next.timeline.dropWhile (·.ends ≤ other) =
          position.timeline.dropWhile (·.ends ≤ other) := by
        intro other member
        rw [ahead, Stretch.dropWhile_dropWhile _ (first other member)]
      rw [List.map_congr_left fun other member => by rw [same other member]] at rest
      rw [listen, heard, List.map_cons, ← ahead, ← reading_eq_ofStretch]
      simp [rest]

theorem start_listen (player : Player) (start : Nat)
    (fits : Waveform.finish (player.blocks.map TapeBlock.signal) start < 2 ^ 64) :
    ∃ started, player.start start = some started ∧
      ∀ tacts, (start :: tacts).Pairwise (· ≤ ·) →
        started.listen tacts =
          some (tacts.map (Waveform.reading (player.blocks.map TapeBlock.signal) start)) := by
  have fit := Stretch.fit_ofBlocks fits
  rcases TapePosition.enter_timeline start player.blocks fit with ⟨position, entered, ahead⟩
  refine ⟨⟨player.blocks, some position⟩, by simp [Player.start, entered], ?_⟩
  intro tacts ordered
  rcases List.pairwise_cons.mp ordered with ⟨begun, ordered⟩
  rw [listen_eq_map _ ordered position (ahead ▸ fit), ahead]
  congr 1
  apply List.map_congr_left
  intro tact member
  exact TapeReading.ofStretch_head? player.blocks (begun tact member)

/-- A player of recordings follows the waveform of their signals. It never fails while the
counter of tacts can hold the end of the tape, and what it tells at a tact depends on that tact
alone, not on the tacts about which it was asked before. -/
theorem listen_follows_waveform (recordings : List Recording) (player : Player)
    (playable : recordings.mapM Recording.block = some player.blocks) (start : Nat)
    (fits : Waveform.finish (recordings.map Recording.signal) start < 2 ^ 64) :
    ∃ started, player.start start = some started ∧
      ∀ tacts, (start :: tacts).Pairwise (· ≤ ·) →
        started.listen tacts =
          some (tacts.map (Waveform.reading (recordings.map Recording.signal) start)) := by
  rw [← Recording.signals_blocks playable] at fits ⊢
  exact player.start_listen start fits

/-- A tone, a pause of no length, a pulse of no width before a wider one, and three bits of a
second byte: the hypotheses hold, so the player follows the waveform. -/
theorem listen_follows_waveform_mixed :
    let recordings : List Recording :=
      [.image (.pureTone 100 3), .image (.pause 0), .image (.pulseSequence [0, 50]),
        .image (.pureData 855 1710 3 1 [0xA5, 0x40])]
    let blocks : List TapeBlock :=
      [{ segments := [.tone 100 3] }, { segments := [], pause := 0 },
        { segments := [.pulses [0, 50]] },
        { segments := [.data 855 1710 3 [0xA5, 0x40]], pause := 3500 }]
    let signals := recordings.map Recording.signal
    recordings.mapM Recording.block = some blocks ∧ Waveform.finish signals 7 < 2 ^ 64 ∧
      ∃ started, Player.start ⟨blocks, none⟩ 7 = some started ∧
        ∀ tacts, (7 :: tacts).Pairwise (· ≤ ·) →
          started.listen tacts = some (tacts.map (Waveform.reading signals 7)) :=
  ⟨rfl, by decide, listen_follows_waveform _ ⟨_, none⟩ rfl 7 (by decide)⟩

end Player

end ZxSpectrum
