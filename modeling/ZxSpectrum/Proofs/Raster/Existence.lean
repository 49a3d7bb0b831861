import ZxSpectrum.Proofs.Raster.PortAccess

namespace ZxSpectrum

/-! Which frames have a timing. The addresses of the fetches have to fit their counters, and the
display part must not end at the first tact of a line: the two tacts before its end are told apart
by a subtraction that has no result there. -/

namespace Phase

theorem lead_le (phase : Phase) : phase.lead ≤ 4 := by
  cases phase <;> decide

end Phase

namespace Raster

variable {raster : Raster} {line column : Nat}

/-- All that is computed for the fetches of a frame fits its counters. -/
def FetchesFit (raster : Raster) : Prop :=
  ∀ line column,
    ((raster.phase line column).fetchesPixels →
        raster.PixelAddressFits line (column + (raster.phase line column).lead)) ∧
      ((raster.phase line column).fetchesAttribute →
        raster.AttributeAddressFits line (column + (raster.phase line column).lead))

theorem slotFits_iff (indices : raster.geometry.pixelCount < UInt32.size)
    (fetches : raster.FetchesFit) :
    raster.SlotFits line column ↔
      (raster.geometry.ShowsDisplay line → raster.InDisplay column → 2 ≤ raster.displayEnd) := by
  constructor
  · intro fits shown inDisplay
    rcases (visible_and_onDisplay_iff (column_lt_of_inDisplay inDisplay)).mpr shown with
      ⟨visible, onDisplay⟩
    exact (fits visible).2.1 ⟨onDisplay, inDisplay⟩
  · intro long visible
    have index := Nat.lt_trans (Nat.lt_of_succ_lt (pixelIndex_lt visible)) indices
    refine ⟨index, fun ⟨onDisplay, inDisplay⟩ => ?_, fetches line column⟩
    exact long ((visible_and_onDisplay_iff visible.2.2).mp ⟨visible, onDisplay⟩) inDisplay

theorem Visible.inFrame (visible : raster.Visible line column) :
    line < raster.geometry.rasterLines ∧ column < raster.geometry.lineTime := by
  refine ⟨visible.2.1.trans_le (Nat.le_add_right _ _), visible.2.2.trans_le ?_⟩
  rw [Geometry.lineTime, Nat.add_assoc]
  exact Nat.le_add_right _ _

end Raster

namespace Timing

theorem slotFits_place (timing : Timing) (line column : Nat) :
    timing.raster.SlotFits line column := by
  intro visible
  rcases visible.inFrame with ⟨inFrame, inLine⟩
  have fits := timing.slotFits _ (Raster.tactAt_lt_frameTacts inFrame inLine)
  rw [Raster.SlotFitsAt, Raster.line_tactAt inLine, Raster.column_tactAt inLine] at fits
  exact fits visible

theorem exists_ofRaster_iff (raster : Raster) :
    (∃ timing, ofRaster raster = some timing) ↔ ∀ line column, raster.SlotFits line column := by
  constructor
  · rintro ⟨timing, built⟩
    rw [← raster_of_ofRaster built]
    exact timing.slotFits_place
  · intro fits
    refine ⟨_, dif_pos ?_⟩
    rw [Nat.all_eq_finRange_all, List.all_eq_true]
    exact fun tact _ => decide_eq_true (fits (raster.line tact) (raster.column tact))

theorem exists_ofRaster_iff_displayEnd {raster : Raster}
    (indices : raster.geometry.pixelCount < UInt32.size) (fetches : raster.FetchesFit) :
    (∃ timing, ofRaster raster = some timing) ↔
      (0 < raster.geometry.displayedLines → 0 < raster.geometry.displayLineTime →
        2 ≤ raster.displayEnd) := by
  simp only [exists_ofRaster_iff, Raster.slotFits_iff indices fetches]
  constructor
  · intro fits lines tacts
    exact fits raster.geometry.firstDisplayLine raster.geometry.borderLeftTime
      ⟨Nat.le_refl _, Nat.lt_add_of_pos_right lines⟩ ⟨Nat.le_refl _, Nat.lt_add_of_pos_right tacts⟩
  · intro long line column shown inDisplay
    exact long (Nat.pos_of_lt_add_right (shown.1.trans_lt shown.2))
      (Nat.pos_of_lt_add_right (inDisplay.1.trans_lt inDisplay.2))

end Timing

namespace Raster

variable {raster : Raster} {line column : Nat}

/-! Where fetches happen: within the display part, or so many tacts before it as the prefetch time
says. -/

theorem place_of_fetch (raster : Raster) (line column : Nat) :
    ((raster.phase line column).fetchesPixels →
        raster.OnDisplay line ∧
          (raster.InDisplay column ∨ (raster.phase line column).lead = 0 ∧
            column + raster.geometry.pixelPrefetchTime = raster.geometry.borderLeftTime)) ∧
      ((raster.phase line column).fetchesAttribute →
        raster.OnDisplay line ∧
          (raster.InDisplay column ∨ (raster.phase line column).lead = 0 ∧
            column + raster.geometry.attributePrefetchTime = raster.geometry.borderLeftTime)) := by
  by_cases shown : raster.Visible line column ∧ raster.OnDisplay line
  case neg =>
    have idle := not_fetches_off_display shown
    exact ⟨fun fetches => absurd fetches idle.1, fun fetches => absurd fetches idle.2⟩
  rcases shown with ⟨visible, onDisplay⟩
  by_cases inDisplay : raster.InDisplay column
  case pos => exact ⟨fun _ => ⟨onDisplay, .inl inDisplay⟩, fun _ => ⟨onDisplay, .inl inDisplay⟩⟩
  rw [phase_beside visible onDisplay inDisplay]
  split_ifs with pixels attributes
  · exact ⟨fun _ => ⟨onDisplay, .inr ⟨rfl, pixels⟩⟩, fun fetches => absurd fetches (by decide)⟩
  · exact ⟨fun fetches => absurd fetches (by decide), fun _ => ⟨onDisplay, .inr ⟨rfl, attributes⟩⟩⟩
  · exact ⟨fun fetches => absurd fetches (by decide), fun fetches => absurd fetches (by decide)⟩

end Raster

/-! In a frame of moderate size the fetches stay far below the bounds of their counters. -/

/-- The lines and tacts of a frame are counted in 28 bits, and the two fetches ahead of the display
part fall into the left border. The other measures follow: lines of any kind are raster lines, and
times are parts of a line. -/
structure Geometry.Moderate (geometry : Geometry) : Prop where
  rasterLines_lt : geometry.rasterLines < 2 ^ 28
  lineTime_lt : geometry.lineTime < 2 ^ 28
  frameTacts_lt : geometry.frameTacts < 2 ^ 28
  pixelPrefetchTime_le : geometry.pixelPrefetchTime ≤ geometry.borderLeftTime
  attributePrefetchTime_le : geometry.attributePrefetchTime ≤ geometry.borderLeftTime

namespace Raster

variable {raster : Raster} {line column : Nat}

theorem row_lt_of_moderate (moderate : raster.geometry.Moderate)
    (onDisplay : raster.OnDisplay line) : raster.row line < 2 ^ 28 := by
  have lines := moderate.rasterLines_lt
  rw [OnDisplay, Geometry.lastDisplayLine] at onDisplay
  rw [Geometry.rasterLines, Geometry.visibleLinesEnd] at lines
  rw [row]
  omega

theorem fetchFits_of_moderate (moderate : raster.geometry.Moderate)
    (onDisplay : raster.OnDisplay line) {lead ahead : Nat} (short : lead ≤ 4)
    (early : ahead ≤ raster.geometry.borderLeftTime)
    (place : raster.InDisplay column ∨
      lead = 0 ∧ column + ahead = raster.geometry.borderLeftTime) :
    raster.FetchFits line (column + lead) ahead ∧
      raster.pixelColumn (column + lead) ahead < 2 ^ 30 := by
  have time := moderate.lineTime_lt
  rw [InDisplay, displayEnd] at place
  rw [Geometry.lineTime, Geometry.visibleTime] at time
  rw [FetchFits, pixelColumn, show UInt32.size = 4294967296 from rfl]
  refine ⟨⟨onDisplay.1, ?_, ?_, ?_⟩, ?_⟩ <;> omega

theorem attributeOffset_lt {row pixelColumn : Nat} (rowLt : row < 2 ^ 28)
    (columnLt : pixelColumn < 2 ^ 30) : attributeOffset row pixelColumn < 2 ^ 31 := by
  rw [attributeOffset, show UInt32.size = 4294967296 from rfl]
  apply Nat.or_lt_two_pow <;> omega

theorem fetchesFit_of_moderate (moderate : raster.geometry.Moderate) : raster.FetchesFit := by
  intro line column
  have short := (raster.phase line column).lead_le
  refine ⟨fun fetches => ?_, fun fetches => ?_⟩
  · rcases (raster.place_of_fetch line column).1 fetches with ⟨onDisplay, place⟩
    exact (fetchFits_of_moderate moderate onDisplay short moderate.pixelPrefetchTime_le place).1
  · rcases (raster.place_of_fetch line column).2 fetches with ⟨onDisplay, place⟩
    rcases fetchFits_of_moderate moderate onDisplay short moderate.attributePrefetchTime_le place
      with ⟨fits, columnLt⟩
    have offset := attributeOffset_lt (row_lt_of_moderate moderate onDisplay) columnLt
    refine ⟨fits, ?_⟩
    rw [show UInt32.size = 4294967296 from rfl]
    omega

theorem exists_ofGeometry {geometry : Geometry} (proportionsFit : geometry.ProportionsFit)
    (frameFits : geometry.FrameFits) : ∃ raster, Raster.ofGeometry geometry = some raster := by
  rw [Raster.ofGeometry, dif_pos proportionsFit]
  split <;> exact ⟨_, rfl⟩

end Raster

namespace Geometry

variable {geometry : Geometry}

theorem Moderate.used (moderate : geometry.Moderate) : geometry.used.Moderate := by
  rw [Geometry.used]
  split
  · exact moderate
  · constructor <;> decide

theorem Moderate.proportionsFit (moderate : geometry.Moderate) : geometry.ProportionsFit := by
  have lines := moderate.rasterLines_lt
  have time := moderate.lineTime_lt
  rw [rasterLines, visibleLinesEnd, firstDisplayLine] at lines
  rw [lineTime] at time
  constructor <;> rw [show UInt32.size = 4294967296 from rfl]
  · rw [screenLines]
    omega
  · rw [Raster.screenWidth_eq]
    omega
  · rw [lineTime]
    omega
  · rw [rasterLines, visibleLinesEnd, firstDisplayLine]
    omega

theorem Moderate.frameFits (moderate : geometry.Moderate) : geometry.FrameFits := by
  have frame := moderate.frameTacts_lt
  have time := moderate.lineTime_lt
  have display : geometry.firstDisplayLine * geometry.lineTime ≤ geometry.frameTacts := by
    apply Nat.mul_le_mul_right
    rw [rasterLines, visibleLinesEnd]
    omega
  have screen : geometry.firstVisibleLine * geometry.lineTime ≤
      geometry.firstDisplayLine * geometry.lineTime :=
    Nat.mul_le_mul_right _ (Nat.le_add_right _ _)
  have left : geometry.borderLeftTime ≤ geometry.lineTime := by
    rw [lineTime, visibleTime]
    omega
  constructor <;> rw [show UInt32.size = 4294967296 from rfl]
  · omega
  · rw [firstDisplayPixelTact]
    omega
  · rw [firstScreenPixelTact]
    omega

theorem Moderate.pixelCount_lt (moderate : geometry.Moderate) :
    geometry.pixelCount < UInt32.size := by
  have frame := moderate.frameTacts_lt
  have width : geometry.screenWidth ≤ 2 * geometry.lineTime := by
    rw [Raster.screenWidth_eq, lineTime]
    omega
  have lines : geometry.screenLines ≤ geometry.rasterLines := by
    rw [screenLines, rasterLines, visibleLinesEnd, firstDisplayLine]
    omega
  calc geometry.pixelCount
    _ ≤ 2 * geometry.lineTime * geometry.rasterLines := Nat.mul_le_mul width lines
    _ = 2 * geometry.frameTacts := by rw [frameTacts, Nat.mul_assoc, Nat.mul_comm geometry.lineTime]
    _ < UInt32.size := by
      rw [show UInt32.size = 4294967296 from rfl]
      omega

theorem degenerate_used_iff (geometry : Geometry) :
    (0 < geometry.used.displayedLines → 0 < geometry.used.displayLineTime →
        2 ≤ geometry.used.borderLeftTime + geometry.used.displayLineTime) ↔
      ¬(geometry.borderLeftTime = 0 ∧ geometry.displayLineTime = 1 ∧
        0 < geometry.displayedLines) := by
  rw [used]
  split
  · omega
  · next empty =>
      -- an empty frame has no lines or no tacts and so shows nothing that could be too short
      refine iff_of_true (by decide) fun tooShort => empty ?_
      rcases tooShort with ⟨-, time, lines⟩
      constructor
      · rw [displayedLines] at lines
        rw [rasterLines, visibleLinesEnd]
        split at lines <;> omega
      · rw [lineTime, visibleTime]
        omega

def narrow (displayLineTime : Nat) : Geometry :=
  { oneLine with
    borderLeftTime := 0
    displayLineTime
    nonVisibleBorderRightTime := 0
    pixelPrefetchTime := 0
    attributePrefetchTime := 0 }

end Geometry

/-! Asking for delays. -/

namespace Timing

theorem ioContention?_le (timing : Timing) {tact : Nat} (fits : tact + 31 < UInt32.size)
    (even contended : Bool) :
    ∃ delay ≤ 28, timing.ioContention? tact even contended = some delay :=
  ⟨_, timing.waited_le_of_prefix tact (List.prefix_refl _),
    timing.ioContention?_of_fits (by omega) even contended⟩

/-- A moderate geometry has a timing, unless it shows a display part of a single tact at the very
left. Delays can then be asked for at all tacts up to the end of the counter, less the longest
access with its waits. -/
theorem exists_timing_iff {geometry : Geometry} (moderate : geometry.Moderate) :
    ((∃ timing, ofGeometry geometry = some timing) ↔
        ¬(geometry.borderLeftTime = 0 ∧ geometry.displayLineTime = 1 ∧
          0 < geometry.displayedLines)) ∧
      ∀ timing, ofGeometry geometry = some timing → ∀ tact < UInt32.size - 1 - 64,
        timing.slotAt tact = timing.raster.slotAt (tact % timing.frameTacts) ∧
          timing.delay? tact = some (timing.contentionAt tact) ∧
          ∀ even contended,
            ∃ delay ≤ 28, timing.ioContention? tact even contended = some delay := by
  constructor
  · rcases Raster.exists_ofGeometry moderate.proportionsFit moderate.frameFits with ⟨raster, found⟩
    have same := Raster.geometry_of_ofGeometry found
    have moderateUsed := moderate.used
    rw [← same] at moderateUsed
    have built : (∃ timing, ofGeometry geometry = some timing) ↔
        ∃ timing, ofRaster raster = some timing := by
      rw [ofGeometry, found]
      rfl
    rw [built, exists_ofRaster_iff_displayEnd moderateUsed.pixelCount_lt
      (Raster.fetchesFit_of_moderate moderateUsed), Raster.displayEnd, same,
      Geometry.degenerate_used_iff]
  · intro timing built tact early
    rw [show UInt32.size = 4294967296 from rfl] at early
    have fits : tact + 31 < UInt32.size := by
      rw [show UInt32.size = 4294967296 from rfl]
      omega
    refine ⟨?_, delay?_eq_some (by omega), fun even contended =>
      timing.ioContention?_le fits even contended⟩
    rw [← timing.slotAt_eq (Nat.mod_lt tact timing.raster.frameTacts_pos), timing.slotAt_mod]

theorem exists_timing_iff_twoTacts :
    (Geometry.narrow 2).Moderate ∧
      ∃ timing, ofGeometry (.narrow 2) = some timing ∧
        timing.delay? 4294967230 = some (timing.contentionAt 4294967230) ∧
        ∃ delay ≤ 28, timing.ioContention? 4294967230 false true = some delay := by
  have moderate : (Geometry.narrow 2).Moderate := by
    constructor <;> decide
  rcases exists_timing_iff moderate with ⟨some, delays⟩
  rcases some.mpr (by decide) with ⟨timing, built⟩
  rcases delays timing built 4294967230 (by decide) with ⟨-, delay, inputOutput⟩
  exact ⟨moderate, timing, built, delay, inputOutput false true⟩

/-- A display part of a single tact without a left border is the one that has no timing. -/
theorem no_timing_oneTact :
    (Geometry.narrow 1).Moderate ∧ Geometry.narrow 1 = (Geometry.narrow 1).used ∧
      ofGeometry (.narrow 1) = none :=
  ⟨by constructor <;> decide, by decide, by decide +kernel⟩

end Timing

end ZxSpectrum
