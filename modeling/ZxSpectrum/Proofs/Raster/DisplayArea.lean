import ZxSpectrum.Proofs.Machine.Building
import ZxSpectrum.Proofs.Raster.Rendering

namespace ZxSpectrum

/-! Where a frame shows the display: on the lines that its geometry gives to the display, between
the left and the right border. The exception is a display without lines at the very top of the
frame, whose last line is counted as the first line of the frame. -/

/-- The geometry that is used for one: that of the 48K machine if its frames would be empty. -/
def Geometry.used (geometry : Geometry) : Geometry :=
  if 0 < geometry.rasterLines ∧ 0 < geometry.lineTime then geometry else .spectrum48K

theorem Raster.geometry_of_ofGeometry {geometry : Geometry} {raster : Raster}
    (found : Raster.ofGeometry geometry = some raster) : raster.geometry = geometry.used := by
  rw [ofGeometry] at found
  rw [Geometry.used]
  split_ifs at found ⊢ <;> cases found <;> rfl

namespace Timing

theorem raster_of_ofRaster {raster : Raster} {timing : Timing}
    (built : ofRaster raster = some timing) : timing.raster = raster := by
  rw [ofRaster] at built
  split at built
  · cases built
    rfl
  · cases built

theorem geometry_of_ofGeometry {geometry : Geometry} {timing : Timing}
    (built : ofGeometry geometry = some timing) : timing.geometry = geometry.used := by
  rcases Option.bind_eq_some_iff.mp built with ⟨raster, found, made⟩
  rw [Timing.geometry, raster_of_ofRaster made, Raster.geometry_of_ofGeometry found]

theorem slots_toList (timing : Timing) :
    timing.slots.toList = (List.range timing.frameTacts).map timing.slotAt := by
  apply List.ext_getElem
  · rw [Vector.length_toList, List.length_map, List.length_range]
    rfl
  · intro tact inFrame _
    rw [Vector.length_toList] at inFrame
    rw [Vector.getElem_toList, List.getElem_map, List.getElem_range, timing.slotAt_eq inFrame,
      timing.slots_eq]

theorem slotAt_tactAt {timing : Timing} {line column : Nat}
    (inFrame : line < timing.geometry.rasterLines) (inLine : column < timing.geometry.lineTime) :
    timing.slotAt (timing.raster.tactAt line column) = timing.raster.slot line column := by
  rw [timing.slotAt_eq (Raster.tactAt_lt_frameTacts inFrame inLine), Raster.slotAt,
    Raster.line_tactAt inLine, Raster.column_tactAt inLine]

end Timing

/-! The lines of the display. -/

/-- The lines that show the display. A display without lines takes up the first line of the frame
if it lies there and that line is a visible one. -/
def Geometry.displayedLines (geometry : Geometry) : Nat :=
  if geometry.firstDisplayLine = 0 ∧ geometry.displayLines = 0 ∧ 0 < geometry.borderBottomLines then
    1
  else geometry.displayLines

def Geometry.ShowsDisplay (geometry : Geometry) (line : Nat) : Prop :=
  geometry.firstDisplayLine ≤ line ∧ line < geometry.firstDisplayLine + geometry.displayedLines

instance (geometry : Geometry) (line : Nat) : Decidable (geometry.ShowsDisplay line) :=
  inferInstanceAs (Decidable (_ ∧ _))

namespace Phase

def showsCell : Phase → Bool
  | .blank | .border | .borderFetchPixels | .borderFetchAttribute => false
  | .first | .firstFetchPixels | .firstFetchAttribute | .second | .secondFetchPixels
  | .secondFetchAttribute => true

theorem showsCell_ofDisplayTact (tact : Nat) (last : Bool) :
    (ofDisplayTact tact last).showsCell := by
  unfold ofDisplayTact
  split <;> rfl

end Phase

namespace Raster

variable {raster : Raster} {line column : Nat}

theorem visible_and_onDisplay_iff (inLine : column < raster.geometry.visibleTime) :
    raster.Visible line column ∧ raster.OnDisplay line ↔ raster.geometry.ShowsDisplay line := by
  rw [Visible, OnDisplay, Geometry.ShowsDisplay, Geometry.lastDisplayLine, Geometry.visibleLinesEnd,
    Geometry.displayedLines]
  have above : raster.geometry.firstVisibleLine ≤ raster.geometry.firstDisplayLine :=
    Nat.le_add_right _ _
  -- an empty display at the top is the one case in which the last line is not before the first
  split <;> omega

theorem column_lt_of_inDisplay (inDisplay : raster.InDisplay column) :
    column < raster.geometry.visibleTime := by
  rw [InDisplay, displayEnd] at inDisplay
  rw [Geometry.visibleTime]
  omega

theorem showsCell_phase_iff :
    (raster.phase line column).showsCell ↔
      raster.geometry.ShowsDisplay line ∧ raster.InDisplay column := by
  by_cases visible : raster.Visible line column
  · rw [← visible_and_onDisplay_iff visible.2.2]
    by_cases onDisplay : raster.OnDisplay line
    · by_cases inDisplay : raster.InDisplay column
      · rw [phase_inside visible onDisplay inDisplay]
        exact iff_of_true (Phase.showsCell_ofDisplayTact _ _) ⟨⟨visible, onDisplay⟩, inDisplay⟩
      · rw [phase_beside visible onDisplay inDisplay]
        refine iff_of_false ?_ fun inside => inDisplay inside.2
        split_ifs <;> decide
    · rw [phase_above_or_below visible onDisplay]
      exact iff_of_false (by decide) fun inside => onDisplay inside.1.2
  · rw [phase_of_hidden visible]
    refine iff_of_false (by decide) fun ⟨shown, inDisplay⟩ => visible ?_
    exact ((visible_and_onDisplay_iff (column_lt_of_inDisplay inDisplay)).mpr shown).1

/-! Off the display there is nothing but blanking and border, without fetches and delays. -/

theorem phase_off_display (elsewhere : ¬(raster.Visible line column ∧ raster.OnDisplay line)) :
    raster.phase line column = .blank ∨ raster.phase line column = .border := by
  by_cases visible : raster.Visible line column
  · exact .inr (phase_above_or_below visible fun onDisplay => elsewhere ⟨visible, onDisplay⟩)
  · exact .inl (phase_of_hidden visible)

theorem not_fetches_off_display
    (elsewhere : ¬(raster.Visible line column ∧ raster.OnDisplay line)) :
    ¬(raster.phase line column).fetchesPixels ∧ ¬(raster.phase line column).fetchesAttribute := by
  rcases phase_off_display elsewhere with blank | border
  · rw [blank]
    decide
  · rw [border]
    decide

theorem contention_off_display
    (elsewhere : ¬(raster.Visible line column ∧ raster.OnDisplay line)) :
    raster.contention line column = 0 := by
  rw [contention]
  rcases phase_off_display elsewhere with blank | border
  · rw [blank]
  · rw [border]

theorem off_display_of_not_showsDisplay (elsewhere : ¬raster.geometry.ShowsDisplay line)
    (column : Nat) : ¬(raster.Visible line column ∧ raster.OnDisplay line) :=
  fun shown => elsewhere ((visible_and_onDisplay_iff shown.1.2.2).mp shown)

theorem slot_contention (raster : Raster) (line column : Nat) :
    (raster.slot line column).contention = raster.contention line column := by
  rw [slot]
  split
  · next blank => rw [contention, blank]
  · rfl

theorem card_tacts_in_rectangle (raster : Raster) {top lines left tacts : Nat}
    (inFrame : top + lines ≤ raster.geometry.rasterLines)
    (inLine : left + tacts ≤ raster.geometry.lineTime) :
    ((Finset.range raster.frameTacts).filter fun tact =>
        (top ≤ raster.line tact ∧ raster.line tact < top + lines) ∧
          left ≤ raster.column tact ∧ raster.column tact < left + tacts).card =
      lines * tacts := by
  have places : (Finset.Ico top (top + lines) ×ˢ Finset.Ico left (left + tacts)).card =
      lines * tacts := by
    rw [Finset.card_product, Nat.card_Ico, Nat.card_Ico, Nat.add_sub_cancel_left,
      Nat.add_sub_cancel_left]
  rw [← places]
  refine Finset.card_nbij' (fun tact => (raster.line tact, raster.column tact))
    (fun place => raster.tactAt place.1 place.2) ?_ ?_ ?_ ?_
  · intro tact inside
    simpa using (Finset.mem_filter.mp inside).2
  · rintro ⟨line, column⟩ inside
    have place : (top ≤ line ∧ line < top + lines) ∧ left ≤ column ∧ column < left + tacts := by
      simpa using inside
    have short : column < raster.geometry.lineTime := by omega
    have lines : line < raster.geometry.rasterLines := by omega
    have tact := tactAt_lt_frameTacts lines short
    simpa [line_tactAt short, column_tactAt short, tact] using place
  · intro tact _
    exact raster.tactAt_line_column tact
  · rintro ⟨line, column⟩ inside
    have place : (top ≤ line ∧ line < top + lines) ∧ left ≤ column ∧ column < left + tacts := by
      simpa using inside
    have short : column < raster.geometry.lineTime := by omega
    exact Prod.ext (line_tactAt short) (column_tactAt short)

end Raster

/-! The timing of a frame, place by place. -/

namespace Geometry

def noDisplay : Geometry :=
  { oneLine with displayLines := 0, borderBottomLines := 1 }

theorem noDisplay_fits : (Timing.ofGeometry noDisplay).isSome := by
  decide +kernel

def bordered : Geometry :=
  { oneLine with borderTopLines := 1, displayLines := 2, borderBottomLines := 1 }

theorem bordered_fits : (Timing.ofGeometry bordered).isSome := by
  decide +kernel

end Geometry

namespace Timing

theorem countP_showsCell (timing : Timing) :
    timing.slots.toList.countP (fun slot => slot.phase.showsCell) =
      timing.geometry.displayedLines * timing.geometry.displayLineTime := by
  have inFrame : timing.geometry.firstDisplayLine + timing.geometry.displayedLines ≤
      timing.geometry.rasterLines := by
    rw [Geometry.displayedLines, Geometry.rasterLines, Geometry.visibleLinesEnd]
    split <;> omega
  have inLine : timing.geometry.borderLeftTime + timing.geometry.displayLineTime ≤
      timing.geometry.lineTime := by
    rw [Geometry.lineTime, Geometry.visibleTime]
    omega
  rw [← timing.raster.card_tacts_in_rectangle inFrame inLine, slots_toList, List.countP_map,
    List.countP_eq_length_filter, ← List.toFinset_card_of_nodup (List.nodup_range.filter _),
    List.toFinset_filter, List.toFinset_range]
  congr 1
  apply Finset.filter_congr
  intro tact inFrame
  rw [Function.comp_apply, timing.slotAt_eq (Finset.mem_range.mp inFrame), Raster.slotAt,
    Raster.slot_phase, Raster.showsCell_phase_iff]
  rfl

/-- A tact shows two pixels of the display exactly at the places of the displayed lines between the
borders, and these are as many tacts as the display is large. On all other lines nothing is delayed
and nothing is fetched. -/
theorem display_fills_area {geometry : Geometry} {timing : Timing}
    (built : ofGeometry geometry = some timing) :
    timing.geometry = geometry.used ∧
      (∀ line < timing.geometry.rasterLines, ∀ column < timing.geometry.lineTime,
        let slot := timing.slotAt (timing.raster.tactAt line column)
        (slot.phase.showsCell ↔
            timing.geometry.ShowsDisplay line ∧ timing.geometry.borderLeftTime ≤ column ∧
              column < timing.geometry.borderLeftTime + timing.geometry.displayLineTime) ∧
          (¬timing.geometry.ShowsDisplay line →
            slot.contention = 0 ∧ ¬slot.phase.fetchesPixels ∧ ¬slot.phase.fetchesAttribute)) ∧
      timing.slots.toList.countP (fun slot => slot.phase.showsCell) =
        timing.geometry.displayedLines * timing.geometry.displayLineTime := by
  refine ⟨geometry_of_ofGeometry built, fun line inFrame column inLine => ?_,
    timing.countP_showsCell⟩
  simp only [slotAt_tactAt inFrame inLine, Raster.slot_phase, Raster.slot_contention]
  refine ⟨Raster.showsCell_phase_iff, fun elsewhere => ?_⟩
  have offDisplay := Raster.off_display_of_not_showsDisplay elsewhere column
  exact ⟨Raster.contention_off_display offDisplay, Raster.not_fetches_off_display offDisplay⟩

/-- Of four lines the middle ones show the display, for eight tacts each. -/
theorem display_fills_area_bordered :
    ∃ timing, ofGeometry .bordered = some timing ∧
      (timing.slotAt (timing.raster.tactAt 2 10)).phase.showsCell ∧
      ¬(timing.slotAt (timing.raster.tactAt 2 11)).phase.showsCell ∧
      (timing.slotAt (timing.raster.tactAt 3 2)).contention = 0 ∧
      timing.slots.toList.countP (fun slot => slot.phase.showsCell) = 2 * 8 := by
  rcases Option.isSome_iff_exists.mp Geometry.bordered_fits with ⟨timing, built⟩
  rcases display_fills_area built with ⟨used, places, count⟩
  rw [show Geometry.bordered.used = .bordered by decide] at used
  rw [used] at places count
  have inside := places 2 (by decide) 10 (by decide)
  have outside := places 2 (by decide) 11 (by decide)
  have below := places 3 (by decide) 2 (by decide)
  refine ⟨timing, built, inside.1.mpr (by decide), fun shows => ?_, (below.2 (by decide)).1, count⟩
  exact absurd (outside.1.mp shows) (by decide)

/-- A display without lines at the top of the frame is shown there on a line, with its fetches and
its delays. -/
theorem display_shown_without_lines :
    ∃ timing, ofGeometry .noDisplay = some timing ∧
      let slot := timing.slotAt (timing.raster.tactAt 0 3)
      timing.geometry.firstDisplayLine = 0 ∧ timing.geometry.displayLines = 0 ∧
        slot.phase.showsCell ∧ slot.phase.fetchesPixels ∧ slot.contention = 5 ∧
        timing.slots.toList.countP (fun slot => slot.phase.showsCell) = 8 := by
  exact ⟨(ofGeometry .noDisplay).get Geometry.noDisplay_fits, (Option.some_get _).symm,
    by decide +kernel⟩

end Timing

end ZxSpectrum
