import Mathlib
import ZxSpectrum.Beeper

namespace ZxSpectrum.Beeper

/-! The samples of a frame. There is room for as many as belong to the tacts of a frame, and when
the frame is complete there are that many. -/

structure Make where
  sampleRate : Nat
  clock : Nat
  frameTacts : Nat
  volume : UInt32

def make (beeper : Beeper) : Make :=
  ⟨beeper.sampleRate, beeper.clock, beeper.frameTacts, beeper.volume⟩

theorem samplesPerFrame_of_make {beeper other : Beeper} (same : other.make = beeper.make) :
    other.samplesPerFrame = beeper.samplesPerFrame :=
  congrArg (fun make : Make => make.frameTacts * make.sampleRate / make.clock) same

/-- The rates are positive, and there are no more samples than belong to a frame. -/
structure Tuned (beeper : Beeper) : Prop where
  sampleRate_pos : 0 < beeper.sampleRate
  clock_pos : 0 < beeper.clock
  fits : beeper.samples.size ≤ beeper.samplesPerFrame

/-! The samples of a frame belong to its tacts. They are added while their tacts are before a bound,
and as long as there is room. -/

theorem sampleTact_lt {beeper : Beeper} (tuned : beeper.Tuned) {index : Nat}
    (inFrame : index < beeper.samplesPerFrame) : beeper.sampleTact index < beeper.frameTacts := by
  have whole : (index + 1) * beeper.clock ≤ beeper.frameTacts * beeper.sampleRate :=
    (Nat.le_div_iff_mul_le tuned.clock_pos).mp inFrame
  have clock_pos := tuned.clock_pos
  rw [sampleTact, Nat.div_lt_iff_lt_mul tuned.sampleRate_pos]
  rw [Nat.succ_mul] at whole
  omega

section Fill

variable (clock sampleRate bound : Nat) (value : UInt32)

theorem exists_fill (room : Nat) (samples : Array UInt32) :
    ∃ count ≤ room,
      fill clock sampleRate bound value room samples = samples ++ Array.replicate count value ∧
      (∀ index, samples.size ≤ index → index < samples.size + count →
        index * clock / sampleRate < bound) ∧
      (count < room → bound ≤ (samples.size + count) * clock / sampleRate) := by
  induction room generalizing samples with
  | zero => exact ⟨0, Nat.le_refl 0, by simp [fill], by omega, by omega⟩
  | succ room induction =>
      rw [fill]
      split_ifs with before
      · rcases induction (samples.push value) with ⟨count, most, filled, inside, ended⟩
        rw [Array.size_push] at inside ended
        refine ⟨count + 1, Nat.succ_le_succ most, ?_, ?_, ?_⟩
        · rw [filled, Array.push_eq_append, Array.append_assoc, Array.replicate_succ']
        · intro index least less
          rcases Nat.eq_or_lt_of_le least with rfl | later
          · exact before
          · exact inside index later (by omega)
        · intro more
          rw [← Nat.add_assoc, Nat.add_right_comm]
          exact ended (Nat.lt_of_succ_lt_succ more)
      · exact ⟨0, Nat.zero_le _, by simp, by omega, fun _ => Nat.not_lt.mp before⟩

theorem size_fill_le (room : Nat) (samples : Array UInt32) :
    (fill clock sampleRate bound value room samples).size ≤ samples.size + room := by
  rcases exists_fill clock sampleRate bound value room samples with ⟨count, most, filled, -⟩
  rw [filled, Array.size_append, Array.size_replicate]
  exact Nat.add_le_add_left most _

theorem size_fill {room : Nat} {samples : Array UInt32}
    (before : ∀ index < samples.size + room, index * clock / sampleRate < bound) :
    (fill clock sampleRate bound value room samples).size = samples.size + room := by
  rcases exists_fill clock sampleRate bound value room samples with
    ⟨count, most, filled, -, ended⟩
  have whole : count = room := by
    by_contra partly
    have less := Nat.lt_of_le_of_ne most partly
    exact absurd (before _ (Nat.add_lt_add_left less _)) (Nat.not_lt.mpr (ended less))
  rw [filled, Array.size_append, Array.size_replicate, whole]

end Fill

/-! What happens to a beeper in a frame. -/

section Frame

variable {beeper : Beeper}

theorem make_fillUntil (tact : Nat) : (beeper.fillUntil tact).make = beeper.make :=
  rfl

theorem Tuned.fillUntil (tuned : beeper.Tuned) (tact : Nat) : (beeper.fillUntil tact).Tuned where
  sampleRate_pos := tuned.sampleRate_pos
  clock_pos := tuned.clock_pos
  fits := by
    have fits := tuned.fits
    have filled := size_fill_le beeper.clock beeper.sampleRate tact beeper.value
      (beeper.samplesPerFrame - beeper.samples.size) beeper.samples
    rw [Nat.add_sub_cancel' fits] at filled
    exact filled

theorem make_hear (fromTape level : Bool) (tact : Nat) :
    (beeper.hear fromTape level tact).make = beeper.make := by
  rw [hear]
  split <;> rfl

theorem Tuned.hear (tuned : beeper.Tuned) (fromTape level : Bool) (tact : Nat) :
    (beeper.hear fromTape level tact).Tuned := by
  rw [Beeper.hear]
  split
  · have filled := tuned.fillUntil tact
    exact ⟨filled.sampleRate_pos, filled.clock_pos, filled.fits⟩
  · exact tuned

theorem Tuned.newFrame (tuned : beeper.Tuned) : beeper.newFrame.Tuned where
  sampleRate_pos := tuned.sampleRate_pos
  clock_pos := tuned.clock_pos
  fits := Nat.zero_le _

theorem Tuned.completeFrame (tuned : beeper.Tuned) : beeper.completeFrame.1.Tuned :=
  tuned.fillUntil beeper.frameTacts

/-- A complete frame has all its samples. -/
theorem size_completeFrame (tuned : beeper.Tuned) :
    beeper.completeFrame.1.samples.size = beeper.samplesPerFrame := by
  have inFrame := Nat.add_sub_cancel' tuned.fits
  have before : ∀ index < beeper.samples.size + (beeper.samplesPerFrame - beeper.samples.size),
      index * beeper.clock / beeper.sampleRate < beeper.frameTacts := by
    intro index within
    rw [inFrame] at within
    exact sampleTact_lt tuned within
  have filled := size_fill beeper.clock beeper.sampleRate beeper.frameTacts beeper.value before
  exact filled.trans inFrame

end Frame

theorem tuned_create (sampleRate clock frameTacts : Nat) (volume : UInt32) :
    (create sampleRate clock frameTacts volume).Tuned where
  sampleRate_pos := Nat.lt_of_lt_of_le Nat.one_pos (Nat.le_max_left _ _)
  clock_pos := Nat.lt_of_lt_of_le Nat.one_pos (Nat.le_max_left _ _)
  fits := Nat.zero_le _

end ZxSpectrum.Beeper
