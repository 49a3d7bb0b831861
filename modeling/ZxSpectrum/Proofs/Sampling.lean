import ZxSpectrum.Number.Bound
import ZxSpectrum.Proofs.Beeper

namespace ZxSpectrum.Beeper

/-! The samples of a frame, one by one. Samples are filled in late, at the next change of the level
or at the end of the frame, and yet each one has the level that was in force at its tact. -/

inductive FrameEvent
  /-- The level is taken from the tape from now on, or from the program. -/
  | select (fromTape : Bool)
  /-- A level from one of the two sources at a frame tact. -/
  | hear (fromTape level : Bool) (tact : Nat)

structure LevelChange where
  tact : Nat
  level : Bool

/-- The levels that come from the source that is listened to. -/
def accepted : (fromTape : Bool) → List FrameEvent → List LevelChange
  | _, [] => []
  | _, .select fromTape :: events => accepted fromTape events
  | selected, .hear fromTape level tact :: events =>
    if fromTape = selected then ⟨tact, level⟩ :: accepted selected events
    else accepted selected events

def act (beeper : Beeper) : FrameEvent → Beeper
  | .select fromTape => { beeper with fromTape }
  | .hear fromTape level tact => beeper.hear fromTape level tact

def actAll (beeper : Beeper) (events : List FrameEvent) : Beeper :=
  events.foldl act beeper

/-- The level in force at a tact: that of the last change up to there, or else the one before all of
them. -/
def levelAt (before : Bool) (changes : List LevelChange) (tact : Nat) : Bool :=
  ((changes.filter (·.tact ≤ tact)).getLast?.map LevelChange.level).getD before

def sampleOf (beeper : Beeper) (level : Bool) : UInt32 :=
  if level then beeper.volume else 0

theorem levelAt_concat_of_le {change : LevelChange} {tact : Nat} (passed : change.tact ≤ tact)
    (before : Bool) (changes : List LevelChange) :
    levelAt before (changes ++ [change]) tact = change.level := by
  simp [levelAt, passed]

theorem levelAt_concat_of_lt {change : LevelChange} {tact : Nat} (ahead : tact < change.tact)
    (before : Bool) (changes : List LevelChange) :
    levelAt before (changes ++ [change]) tact = levelAt before changes tact := by
  simp [levelAt, Nat.not_le.mpr ahead]

/-! What one filling adds. -/

section Fill

variable (clock sampleRate bound : Nat) (value : UInt32)

/-- The loop that fills in samples, with its product in 64 bits. It goes on while there is room and
the next sample belongs to a tact before the bound. -/
inductive Fills (limit : Nat) : Array UInt32 → Array UInt32 → Prop
  | full {samples : Array UInt32} : limit ≤ samples.size → Fills limit samples samples
  | reached {samples : Array UInt32} {product : Nat} :
    samples.size < limit → Bound.long (samples.size * clock) = some product →
      bound ≤ product / sampleRate → Fills limit samples samples
  | push {samples filled : Array UInt32} {product : Nat} :
    samples.size < limit → Bound.long (samples.size * clock) = some product →
      product / sampleRate < bound → Fills limit (samples.push value) filled →
      Fills limit samples filled

theorem fills_fill {limit : Nat} (fits : ∀ index < limit, index * clock < UInt64.size)
    (samples : Array UInt32) :
    Fills clock sampleRate bound value limit samples
      (fill clock sampleRate bound value (limit - samples.size) samples) := by
  induction room : limit - samples.size generalizing samples with
  | zero => exact .full (by omega)
  | succ room induction =>
      have more : samples.size < limit := by omega
      have product := Bound.long_eq_some_iff.mpr ⟨fits _ more, rfl⟩
      rw [fill]
      split_ifs with before
      · refine .push more product before (induction _ ?_)
        rw [Array.size_push]
        omega
      · exact .reached more product (Nat.not_lt.mp before)

end Fill

/-- Filling up to a tact comes to an end, and all of its products fit 64 bits. -/
def FillsUntil (beeper : Beeper) (tact : Nat) (filled : Array UInt32) : Prop :=
  ∃ product, Bound.long (beeper.frameTacts * beeper.sampleRate) = some product ∧
    Fills beeper.clock beeper.sampleRate tact beeper.value (product / beeper.clock) beeper.samples
      filled

theorem fillsUntil {beeper : Beeper} (clock_pos : 0 < beeper.clock)
    (rate : beeper.sampleRate < UInt32.size) (tacts : beeper.frameTacts < UInt32.size)
    (tact : Nat) : beeper.FillsUntil tact (beeper.fillUntil tact).samples := by
  have whole : beeper.frameTacts * beeper.sampleRate < UInt64.size :=
    Nat.mul_lt_mul'' tacts rate
  refine ⟨_, Bound.long_eq_some_iff.mpr ⟨whole, rfl⟩, fills_fill _ _ _ _ ?_ _⟩
  intro index inFrame
  have within : index * beeper.clock ≤ beeper.frameTacts * beeper.sampleRate :=
    (Nat.le_div_iff_mul_le clock_pos).mp (Nat.le_of_lt inFrame)
  exact Nat.lt_of_le_of_lt within whole

theorem make_actAll (beeper : Beeper) (events : List FrameEvent) :
    (beeper.actAll events).make = beeper.make := by
  induction events generalizing beeper with
  | nil => rfl
  | cons event events induction =>
      rw [actAll, List.foldl_cons, ← actAll, induction]
      cases event with
      | select => rfl
      | hear fromTape level tact => exact make_hear fromTape level tact

/-! A frame up to some changes of the level. The samples of the tacts before the latest change are
there, and no others. -/

structure Sampled (before : Bool) (changes : List LevelChange) (beeper : Beeper) : Prop where
  tuned : beeper.Tuned
  present (tact : Nat) : (∀ change ∈ changes, change.tact ≤ tact) →
    levelAt before changes tact = beeper.level
  passed : ∀ index < beeper.samples.size, ∃ change ∈ changes,
    beeper.sampleTact index < change.tact
  ahead : ∀ index < beeper.samplesPerFrame, beeper.samples.size ≤ index →
    ∀ change ∈ changes, change.tact ≤ beeper.sampleTact index
  filled : ∀ index < beeper.samples.size, beeper.samples[index]? =
    some (beeper.sampleOf (levelAt before changes (beeper.sampleTact index)))

theorem sampleTact_of_make {beeper other : Beeper} (same : other.make = beeper.make)
    (index : Nat) : other.sampleTact index = beeper.sampleTact index :=
  congrArg (fun make : Make => index * make.clock / make.sampleRate) same

theorem sampleOf_of_make {beeper other : Beeper} (same : other.make = beeper.make)
    (level : Bool) : other.sampleOf level = beeper.sampleOf level :=
  congrArg (fun make : Make => if level then make.volume else 0) same

theorem sampleTact_mono (beeper : Beeper) {earlier later : Nat} (order : earlier ≤ later) :
    beeper.sampleTact earlier ≤ beeper.sampleTact later :=
  Nat.div_le_div_right (Nat.mul_le_mul_right _ order)

/-! What each event of a frame adds to the samples. -/

theorem exists_fillUntil (beeper : Beeper) (tact : Nat) :
    ∃ count ≤ beeper.samplesPerFrame - beeper.samples.size,
      (beeper.fillUntil tact).samples =
        beeper.samples ++ Array.replicate count (beeper.sampleOf beeper.level) ∧
      (∀ index, beeper.samples.size ≤ index → index < beeper.samples.size + count →
        beeper.sampleTact index < tact) ∧
      (count < beeper.samplesPerFrame - beeper.samples.size →
        tact ≤ beeper.sampleTact (beeper.samples.size + count)) :=
  exists_fill beeper.clock beeper.sampleRate tact beeper.value _ beeper.samples

namespace Sampled

variable {before : Bool} {changes : List LevelChange} {beeper : Beeper}

theorem newFrame (sampleRate_pos : 0 < beeper.sampleRate) (clock_pos : 0 < beeper.clock) :
    Sampled beeper.level [] beeper.newFrame where
  tuned := ⟨sampleRate_pos, clock_pos, Nat.zero_le _⟩
  present _ _ := rfl
  passed _ none := absurd none (Nat.not_lt_zero _)
  ahead _ _ _ _ none := absurd none List.not_mem_nil
  filled _ none := absurd none (Nat.not_lt_zero _)

theorem filled_fillUntil (sampled : Sampled before changes beeper) (tact : Nat) {index : Nat}
    (within : index < (beeper.fillUntil tact).samples.size) :
    (beeper.fillUntil tact).samples[index]? =
      some (beeper.sampleOf (levelAt before changes (beeper.sampleTact index))) := by
  rcases exists_fillUntil beeper tact with ⟨count, most, all, -, -⟩
  rw [all, Array.size_append, Array.size_replicate] at within
  rw [all]
  rcases Nat.lt_or_ge index beeper.samples.size with old | new
  · rw [Array.getElem?_append_left old, sampled.filled index old]
  · have inFrame : index < beeper.samplesPerFrame := by omega
    rw [Array.getElem?_append_right new, sampled.present _ (sampled.ahead index inFrame new),
      Array.getElem?_replicate, if_pos (by omega)]

theorem hear (sampled : Sampled before changes beeper) {change : LevelChange}
    (latest : ∀ earlier ∈ changes, earlier.tact ≤ change.tact) :
    Sampled before (changes ++ [change])
      { beeper.fillUntil change.tact with level := change.level } := by
  rcases exists_fillUntil beeper change.tact with ⟨count, most, all, inside, ended⟩
  have size : (beeper.fillUntil change.tact).samples.size = beeper.samples.size + count := by
    rw [all, Array.size_append, Array.size_replicate]
  -- All samples that are there after filling belong to tacts before the change, the old ones
  -- since they were before some change already.
  have passed : ∀ index < beeper.samples.size + count, beeper.sampleTact index < change.tact := by
    intro index within
    rcases Nat.lt_or_ge index beeper.samples.size with old | new
    · rcases sampled.passed index old with ⟨earlier, member, less⟩
      exact Nat.lt_of_lt_of_le less (latest earlier member)
    · exact inside index new within
  have filling := sampled.tuned.fillUntil change.tact
  refine ⟨⟨filling.sampleRate_pos, filling.clock_pos, filling.fits⟩, ?_, ?_, ?_, ?_⟩
  · intro tact ahead
    exact levelAt_concat_of_le (ahead change (by simp)) before changes
  · intro index within
    exact ⟨change, by simp, passed index (size ▸ within)⟩
  · intro index inFrame later other member
    change index < beeper.samplesPerFrame at inFrame
    replace later : beeper.samples.size + count ≤ index := size ▸ later
    rcases List.mem_append.mp member with old | new
    · exact sampled.ahead index inFrame (by omega) other old
    · rw [List.mem_singleton.mp new]
      exact Nat.le_trans (ended (by omega)) (beeper.sampleTact_mono later)
  · intro index within
    have right := sampled.filled_fillUntil change.tact within
    rwa [← levelAt_concat_of_lt (passed index (size ▸ within))] at right

theorem actAll (sampled : Sampled before changes beeper) {events : List FrameEvent}
    (ordered : (changes ++ accepted beeper.fromTape events).Pairwise (·.tact ≤ ·.tact)) :
    Sampled before (changes ++ accepted beeper.fromTape events) (beeper.actAll events) := by
  induction events generalizing changes beeper with
  | nil =>
      rw [accepted, List.append_nil]
      exact sampled
  | cons event events induction =>
      cases event with
      | select fromTape =>
          have selected : Sampled before changes { beeper with fromTape } :=
            ⟨⟨sampled.tuned.sampleRate_pos, sampled.tuned.clock_pos, sampled.tuned.fits⟩,
              sampled.present, sampled.passed, sampled.ahead, sampled.filled⟩
          exact induction selected ordered
      | hear fromTape level tact =>
          rw [Beeper.actAll, List.foldl_cons, act, Beeper.hear]
          rw [accepted] at ordered ⊢
          split_ifs at ordered ⊢ with heard
          · rw [List.append_cons] at ordered ⊢
            have latest : ∀ earlier ∈ changes, earlier.tact ≤ tact := by
              intro earlier member
              have front := (List.pairwise_append.mp ordered).1
              exact (List.pairwise_append.mp front).2.2 earlier member ⟨tact, level⟩ (by simp)
            have next : Sampled before (changes ++ [⟨tact, level⟩])
                { beeper.fillUntil tact with level } := sampled.hear latest
            exact induction next ordered
          · exact induction sampled ordered

theorem completeFrame (sampled : Sampled before changes beeper) {index : Nat}
    (inFrame : index < beeper.samplesPerFrame) :
    beeper.completeFrame.1.samples[index]? =
      some (beeper.sampleOf (levelAt before changes (beeper.sampleTact index))) := by
  apply sampled.filled_fillUntil beeper.frameTacts
  have whole := size_completeFrame sampled.tuned
  exact whole ▸ inFrame

end Sampled

/-! A beeper as it is made. Rates of 32 bits are used as they are, but for a zero. -/

theorem bounds_of_make {rate clock frameTacts volume : UInt32} {beeper : Beeper}
    (made : beeper.make = (create rate.toNat clock.toNat frameTacts.toNat volume).make) :
    0 < beeper.sampleRate ∧ beeper.sampleRate < UInt32.size ∧ 0 < beeper.clock ∧
      beeper.frameTacts < UInt32.size := by
  have sampleRate : beeper.sampleRate = max 1 rate.toNat := congrArg Make.sampleRate made
  have ticks : beeper.clock = max 1 clock.toNat := congrArg Make.clock made
  have tacts : beeper.frameTacts = frameTacts.toNat := congrArg Make.frameTacts made
  rw [sampleRate, ticks, tacts]
  exact ⟨Nat.lt_of_lt_of_le Nat.one_pos (Nat.le_max_left _ _),
    Nat.max_lt.mpr ⟨by decide, rate.toNat_lt⟩,
    Nat.lt_of_lt_of_le Nat.one_pos (Nat.le_max_left _ _), frameTacts.toNat_lt⟩

/-- A frame of a beeper in any state, with any events whose accepted levels come in the order of
their tacts. In the end the buffer has one sample for each of its tacts, and the sample is that of
the level in force there: of the last accepted change up to this tact, or else of the level at the
start. Wherever samples are filled in, the loop ends and its products fit 64 bits. -/
theorem completeFrame_samples {rate clock frameTacts volume : UInt32} {beeper : Beeper}
    (made : beeper.make = (create rate.toNat clock.toNat frameTacts.toNat volume).make)
    {events : List FrameEvent}
    (ordered : (accepted beeper.fromTape events).Pairwise (·.tact ≤ ·.tact)) :
    let complete := (beeper.newFrame.actAll events).completeFrame.1
    complete.samples.size = frameTacts.toNat * max 1 rate.toNat / max 1 clock.toNat ∧
      (∀ index < complete.samples.size, complete.samples[index]? =
        some (if levelAt beeper.level (accepted beeper.fromTape events)
            (index * max 1 clock.toNat / max 1 rate.toNat) then volume else 0)) ∧
      ∀ earlier later, events = earlier ++ later → ∀ tact,
        (beeper.newFrame.actAll earlier).FillsUntil tact
          ((beeper.newFrame.actAll earlier).fillUntil tact).samples := by
  intro complete
  have madeAfter (events : List FrameEvent) : (beeper.newFrame.actAll events).make =
      (create rate.toNat clock.toNat frameTacts.toNat volume).make :=
    (make_actAll beeper.newFrame events).trans made
  have sampled : Sampled beeper.level (accepted beeper.fromTape events)
      (beeper.newFrame.actAll events) := by
    rcases bounds_of_make made with ⟨rate_pos, -, clock_pos, -⟩
    exact (Sampled.newFrame rate_pos clock_pos).actAll ordered
  have size : complete.samples.size = (beeper.newFrame.actAll events).samplesPerFrame :=
    size_completeFrame sampled.tuned
  refine ⟨size.trans (samplesPerFrame_of_make (madeAfter events)), ?_, ?_⟩
  · intro index within
    have right := sampled.completeFrame (size ▸ within)
    rwa [sampleOf_of_make (madeAfter events), sampleTact_of_make (madeAfter events)] at right
  · rintro earlier later - tact
    rcases bounds_of_make (madeAfter earlier) with ⟨-, word, clock_pos, tacts⟩
    exact fillsUntil clock_pos word tacts tact

/-- A change at the tact of the third sample, a level from the source that is not listened to, and one
from it after it has been selected. -/
theorem completeFrame_samples_twoSources :
    let beeper := create 10 100 70 1
    let events : List FrameEvent :=
      [.hear false true 20, .hear true false 15, .select true, .hear true false 50]
    (accepted beeper.fromTape events).Pairwise (·.tact ≤ ·.tact) ∧
      (beeper.newFrame.actAll events).completeFrame.1.samples = #[0, 0, 1, 1, 1, 0, 0] := by
  intro beeper events
  have made : beeper.make = (create (10 : UInt32).toNat (100 : UInt32).toNat (70 : UInt32).toNat
    1).make := rfl
  have ordered : (accepted beeper.fromTape events).Pairwise (·.tact ≤ ·.tact) := by decide
  rcases completeFrame_samples made ordered with ⟨size, samples, -⟩
  refine ⟨ordered, ?_⟩
  apply Array.ext_getElem?
  intro index
  rcases Nat.lt_or_ge index 7 with within | beyond
  · rw [samples index (size ▸ within)]
    interval_cases index <;> rfl
  · rw [Array.getElem?_eq_none (size ▸ beyond), Array.getElem?_eq_none beyond]

end ZxSpectrum.Beeper
