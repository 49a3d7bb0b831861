import ZxSpectrum.Proofs.Raster.DisplayArea

namespace ZxSpectrum

/-! Waiting for the video circuit. The delays of the display part of a line repeat every eight
tacts and lead to a tact without a delay; the two fetches in the border continue the pattern to the
left, so that it begins two tacts before the display part. -/

namespace ContentionPattern

theorem delay_mod (pattern : ContentionPattern) (tact : Nat) :
    pattern.delay (tact % 8) = pattern.delay tact := by
  simp only [delay, Nat.mod_mod]

theorem delay_le (pattern : ContentionPattern) (tact : Nat) : pattern.delay tact ≤ 7 := by
  have delays : ∀ step < 8, pattern.delay step ≤ 7 := by
    cases pattern <;> decide
  rw [← delay_mod]
  exact delays _ (Nat.mod_lt _ (by decide))

theorem delay_after_delay (pattern : ContentionPattern) (tact : Nat) :
    pattern.delay (tact + pattern.delay tact) = 0 := by
  have delays : ∀ step < 8, pattern.delay (step + pattern.delay step) = 0 := by
    cases pattern <;> decide
  have ends := delays (tact % 8) (Nat.mod_lt _ (by decide))
  rwa [delay_mod, ← delay_mod, Nat.mod_add_mod, delay_mod] at ends

end ContentionPattern

namespace Raster

variable {raster : Raster} {line column : Nat}

theorem contention_le (raster : Raster) (line column : Nat) :
    raster.contention line column ≤ 7 := by
  rw [contention]
  split
  · exact Nat.zero_le 7
  · exact Nat.zero_le 7
  · exact ContentionPattern.delay_le _ _
  · exact ContentionPattern.delay_le _ _
  · exact ContentionPattern.delay_le _ _

theorem contention_of_showsCell (shows : (raster.phase line column).showsCell) :
    raster.contention line column =
      raster.geometry.contention.delay (column - raster.geometry.borderLeftTime) := by
  rw [contention]
  cases phase : raster.phase line column
  case blank | border | borderFetchPixels | borderFetchAttribute =>
    rw [phase] at shows
    exact absurd shows (by decide)
  all_goals rfl

/-! The delays of a displayed line, with the prefetch times of the 48K machine. -/

theorem contention_eq (pixels : raster.geometry.pixelPrefetchTime = 2)
    (attributes : raster.geometry.attributePrefetchTime = 1) :
    raster.contention line column =
      if raster.geometry.ShowsDisplay line ∧ raster.geometry.borderLeftTime ≤ column + 2 ∧
          column < raster.displayEnd then
        raster.geometry.contention.delay (column + 8 - raster.geometry.borderLeftTime)
      else 0 := by
  by_cases shown : raster.geometry.ShowsDisplay line
  case neg =>
    rw [if_neg fun inside => shown inside.1,
      contention_off_display (off_display_of_not_showsDisplay shown column)]
  by_cases inDisplay : raster.InDisplay column
  · have before : raster.geometry.borderLeftTime ≤ column := inDisplay.1
    have place : column + 8 - raster.geometry.borderLeftTime =
        column - raster.geometry.borderLeftTime + 8 := by omega
    rw [if_pos ⟨shown, by omega, inDisplay.2⟩,
      contention_of_showsCell (showsCell_phase_iff.mpr ⟨shown, inDisplay⟩), place,
      ← ContentionPattern.delay_mod, ← ContentionPattern.delay_mod _ (_ + 8), Nat.add_mod_right]
  by_cases inLine : column < raster.geometry.visibleTime
  case neg =>
    have past : ¬column < raster.displayEnd := by
      rw [Geometry.visibleTime] at inLine
      rw [displayEnd]
      omega
    rw [if_neg fun inside => past inside.2.2, contention,
      phase_of_hidden fun visible => inLine visible.2.2]
  rcases (visible_and_onDisplay_iff inLine).mpr shown with ⟨visible, onDisplay⟩
  rw [contention, phase_beside visible onDisplay inDisplay, pixels, attributes]
  rw [InDisplay] at inDisplay
  by_cases first : column + 2 = raster.geometry.borderLeftTime
  · have place : column + 8 - raster.geometry.borderLeftTime = 6 := by omega
    rw [if_pos first, if_pos ⟨shown, by omega, by rw [displayEnd]; omega⟩, place]
  by_cases second : column + 1 = raster.geometry.borderLeftTime
  · have place : column + 8 - raster.geometry.borderLeftTime = 7 := by omega
    rw [if_neg first, if_pos second, if_pos ⟨shown, by omega, by rw [displayEnd]; omega⟩, place]
  rw [if_neg first, if_neg second, if_neg (by omega)]

theorem contention_after_wait (pixels : raster.geometry.pixelPrefetchTime = 2)
    (attributes : raster.geometry.attributePrefetchTime = 1) :
    raster.contention line (column + raster.contention line column) = 0 := by
  by_cases inside : raster.geometry.ShowsDisplay line ∧
      raster.geometry.borderLeftTime ≤ column + 2 ∧ column < raster.displayEnd
  · rw [contention_eq pixels attributes, contention_eq pixels attributes, if_pos inside]
    split
    · have place (wait : Nat) : column + wait + 8 - raster.geometry.borderLeftTime =
          column + 8 - raster.geometry.borderLeftTime + wait := by omega
      rw [place, ContentionPattern.delay_after_delay]
    · rfl
  · have none : raster.contention line column = 0 := by
      rw [contention_eq pixels attributes, if_neg inside]
    rw [none, Nat.add_zero, none]

/-- A wait ends on the line on which it began, if seven tacts of the line lie outside the left
border and the display part. -/
theorem column_add_contention_lt (pixels : raster.geometry.pixelPrefetchTime = 2)
    (attributes : raster.geometry.attributePrefetchTime = 1)
    (apart : raster.displayEnd + 7 ≤ raster.geometry.lineTime)
    (inLine : column < raster.geometry.lineTime) :
    column + raster.contention line column < raster.geometry.lineTime := by
  -- a place with a delay lies before the end of the display part, all others do not wait
  have short := raster.contention_le line column
  have delay : raster.contention line column = _ := contention_eq pixels attributes
  split at delay <;> omega

end Raster

namespace Geometry

def shortLine : Geometry :=
  { oneLine with nonVisibleBorderRightTime := 7 }

theorem shortLine_fits : (Timing.ofGeometry shortLine).isSome := by
  decide +kernel

end Geometry

/-! Tacts are counted on from frame to frame. -/

namespace Timing

theorem slotAt_frames_add (timing : Timing) (frames tact : Nat) :
    timing.slotAt (frames * timing.frameTacts + tact) = timing.slotAt tact := by
  have same : (frames * timing.frameTacts + tact) % timing.raster.frameTacts =
      tact % timing.raster.frameTacts := by
    rw [frameTacts, Nat.mul_comm, Nat.mul_add_mod]
  simp only [slotAt, same]

theorem slotAt_mod (timing : Timing) (tact : Nat) :
    timing.slotAt (tact % timing.frameTacts) = timing.slotAt tact := by
  rw [← timing.slotAt_frames_add (tact / timing.frameTacts), Nat.div_add_mod']

theorem exists_place (timing : Timing) (tact : Nat) :
    ∃ frames, ∃ line < timing.geometry.rasterLines, ∃ column < timing.geometry.lineTime,
      tact = frames * timing.frameTacts + timing.raster.tactAt line column := by
  have inFrame := Nat.mod_lt tact timing.raster.frameTacts_pos
  refine ⟨tact / timing.frameTacts, timing.raster.line (tact % timing.frameTacts),
    Raster.line_lt_rasterLines inFrame, timing.raster.column (tact % timing.frameTacts),
    timing.raster.column_lt_lineTime _, ?_⟩
  rw [Raster.tactAt_line_column, Nat.div_add_mod']

theorem contentionAt_place {timing : Timing} {line column : Nat}
    (inFrame : line < timing.geometry.rasterLines) (inLine : column < timing.geometry.lineTime)
    (frames : Nat) :
    timing.contentionAt (frames * timing.frameTacts + timing.raster.tactAt line column) =
      timing.raster.contention line column := by
  rw [contentionAt, slotAt_frames_add, slotAt_tactAt inFrame inLine, Raster.slot_contention]

theorem contentionAt_le (timing : Timing) (tact : Nat) : timing.contentionAt tact ≤ 7 := by
  rcases timing.exists_place tact with ⟨frames, line, inFrame, column, inLine, rfl⟩
  rw [contentionAt_place inFrame inLine]
  exact timing.raster.contention_le line column

theorem delay?_eq_some {timing : Timing} {tact : Nat} (fits : tact < UInt32.size) :
    timing.delay? tact = some (timing.contentionAt tact) := by
  rw [delay?, Bound.word_eq_some_iff.mpr ⟨fits, rfl⟩, Option.map_some]

/-- After a wait there is no delay any more, wherever in its frame and in whichever frame the wait
ends. Neither the width of the left border nor that of the display matters. -/
theorem no_delay_after_wait {geometry : Geometry} {timing : Timing}
    (built : ofGeometry geometry = some timing) (pixels : geometry.pixelPrefetchTime = 2)
    (attributes : geometry.attributePrefetchTime = 1)
    (apart : geometry.borderLeftTime + geometry.displayLineTime + 7 ≤ geometry.lineTime)
    {tact : Nat} (fits : tact + 7 < UInt32.size) :
    ∃ wait ≤ 7, timing.delay? tact = some wait ∧ timing.delay? (tact + wait) = some 0 := by
  have used : timing.raster.geometry.pixelPrefetchTime = 2 ∧
      timing.raster.geometry.attributePrefetchTime = 1 ∧
      timing.raster.displayEnd + 7 ≤ timing.raster.geometry.lineTime := by
    have same : timing.raster.geometry = geometry.used := geometry_of_ofGeometry built
    rw [Raster.displayEnd, same, Geometry.used]
    split
    · exact ⟨pixels, attributes, apart⟩
    · decide
  rcases used with ⟨pixels, attributes, apart⟩
  have short := timing.contentionAt_le tact
  refine ⟨timing.contentionAt tact, short, delay?_eq_some (by omega), ?_⟩
  rw [delay?_eq_some (by omega)]
  rcases timing.exists_place tact with ⟨frames, line, inFrame, column, inLine, rfl⟩
  -- the wait ends on its line and so in its frame, where the law of a single line applies
  have sameLine : column + timing.raster.contention line column < timing.geometry.lineTime :=
    Raster.column_add_contention_lt pixels attributes apart inLine
  rw [contentionAt_place inFrame inLine, Nat.add_assoc, Raster.tactAt, Nat.add_assoc,
    ← Raster.tactAt, contentionAt_place inFrame sameLine,
    Raster.contention_after_wait pixels attributes]

theorem no_delay_after_wait_shortLine :
    ∃ timing, ofGeometry .shortLine = some timing ∧ timing.delay? 100 = some 6 ∧
      timing.delay? 106 = some 0 := by
  rcases Option.isSome_iff_exists.mp Geometry.shortLine_fits with ⟨timing, built⟩
  have delay : (ofGeometry .shortLine).map (fun timing => timing.delay? 100) = some (some 6) := by
    decide +kernel
  rw [built] at delay
  replace delay : timing.delay? 100 = some 6 := Option.some.inj delay
  rcases no_delay_after_wait built rfl rfl (by decide) (by decide : 100 + 7 < UInt32.size) with
    ⟨wait, -, waits, ends⟩
  have six : wait = 6 := Option.some.inj (waits.symm.trans delay)
  rw [six] at ends
  exact ⟨timing, built, delay, ends⟩

end Timing

end ZxSpectrum
