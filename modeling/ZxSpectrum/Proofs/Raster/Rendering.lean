import ZxSpectrum.Proofs.Raster.Pipeline

namespace ZxSpectrum

/-! A frame that is drawn from its first tact to its last shows the picture, in however many calls
it is drawn. What the pixels and the held bytes were before does not matter: every pixel is drawn
once, and every line fetches its first cell before it shows it. -/

/-! Every slot of a drawable frame has its values in range, so that its timing exists. -/

namespace Raster

variable {raster : Raster} {line column : Nat}

theorem fetch_place (drawable : raster.geometry.Drawable) (onDisplay : raster.OnDisplay line)
    (fetches : (raster.phase line column).fetchesPixels ∨
      (raster.phase line column).fetchesAttribute) :
    column + (raster.phase line column).lead + 4 ≤ raster.displayEnd ∧
      ((raster.phase line column).fetchesPixels → raster.geometry.borderLeftTime ≤
        column + (raster.phase line column).lead + raster.geometry.pixelPrefetchTime) ∧
      ((raster.phase line column).fetchesAttribute → raster.geometry.borderLeftTime ≤
        column + (raster.phase line column).lead + raster.geometry.attributePrefetchTime) := by
  have long := drawable.displayLineTime_pos
  have whole := drawable.eight_dvd_displayLineTime
  by_cases inDisplay : raster.InDisplay column
  · rcases exists_groupTact drawable inDisplay with ⟨group, step, isGroup, early, rfl⟩
    rw [phase_groupTact drawable onDisplay isGroup early] at fetches ⊢
    by_cases another : raster.IsGroup (group + 1)
    all_goals
      rw [IsGroup] at isGroup another
      rw [displayEnd, groupTact]
      interval_cases step <;>
        simp [Phase.ofDisplayTact, Phase.fetchesPixels, Phase.fetchesAttribute, Phase.lead,
          IsGroup, another] at fetches ⊢ <;>
        omega
  · by_cases visible : raster.Visible line column
    · rw [phase_beside visible onDisplay inDisplay] at fetches ⊢
      rw [displayEnd]
      split_ifs at fetches ⊢ <;>
        simp [Phase.fetchesPixels, Phase.fetchesAttribute, Phase.lead] at fetches ⊢ <;>
        omega
    · rw [phase_of_hidden visible] at fetches
      simp [Phase.fetchesPixels, Phase.fetchesAttribute] at fetches

theorem fetchFits (drawable : raster.geometry.Drawable) (onDisplay : raster.OnDisplay line)
    {tact ahead : Nat} (inLine : tact + 4 ≤ raster.displayEnd) (short : ahead ≤ 3)
    (reaches : raster.geometry.borderLeftTime ≤ tact + ahead) :
    raster.FetchFits line tact ahead ∧ raster.pixelColumn tact ahead / 8 < 2 ^ 5 := by
  have time := raster.proportionsFit.lineTime_lt
  have shortLine := drawable.displayLineTime_le
  rw [displayEnd] at inLine
  rw [Geometry.lineTime, Geometry.visibleTime] at time
  rw [FetchFits, pixelColumn, show UInt32.size = 4294967296 from rfl] at *
  refine ⟨⟨onDisplay.1, ?_, reaches, ?_⟩, ?_⟩ <;> omega

theorem pixelIndex_lt (visible : raster.Visible line column) :
    raster.pixelIndex line column + 1 < raster.geometry.pixelCount := by
  rcases visible with ⟨firstLine, lastLine, inLine⟩
  have row : line - raster.geometry.firstVisibleLine + 1 ≤ raster.geometry.screenLines := by
    rw [Geometry.visibleLinesEnd, Geometry.firstDisplayLine] at lastLine
    rw [Geometry.screenLines]
    omega
  have x : 2 * column + 1 < raster.geometry.screenWidth := by
    simp only [Geometry.screenWidth, Geometry.borderLeftPixels, Geometry.displayWidth,
      Geometry.borderRightPixels, Geometry.visibleTime] at *
    omega
  have whole := Nat.mul_le_mul_right raster.geometry.screenWidth row
  rw [Nat.add_mul, Nat.one_mul] at whole
  rw [pixelIndex, Geometry.pixelCount, Nat.mul_comm raster.geometry.screenWidth]
  omega

theorem slotFits (drawable : raster.geometry.Drawable) : raster.SlotFits line column := by
  intro visible
  have index := Nat.lt_trans (Nat.lt_of_succ_lt (pixelIndex_lt visible)) drawable.pixelCount_lt
  by_cases onDisplay : raster.OnDisplay line
  · have place := @fetch_place raster line column drawable onDisplay
    refine ⟨index, fun _ => ?_, fun fetches => ?_, fun fetches => ?_⟩
    · have long := drawable.displayLineTime_pos
      have whole := drawable.eight_dvd_displayLineTime
      rw [displayEnd]
      omega
    · rcases place (.inl fetches) with ⟨inLine, reaches, -⟩
      exact (fetchFits drawable onDisplay inLine drawable.pixelPrefetchTime_mem.2
        (reaches fetches)).1
    · rcases place (.inr fetches) with ⟨inLine, -, reaches⟩
      rcases fetchFits drawable onDisplay inLine drawable.attributePrefetchTime_mem.2
        (reaches fetches) with ⟨fits, inRow⟩
      have row := row_lt drawable onDisplay
      refine ⟨fits, ?_⟩
      rw [attributeOffset_eq row inRow rfl, show UInt32.size = 4294967296 from rfl]
      omega
  · rw [phase_above_or_below visible onDisplay]
    exact ⟨index, fun inside => absurd inside.1 onDisplay,
      fun fetches => absurd fetches Bool.false_ne_true,
      fun fetches => absurd fetches Bool.false_ne_true⟩

end Raster

theorem Geometry.Drawable.exists_timing {geometry : Geometry} (drawable : geometry.Drawable) :
    ∃ timing, Timing.ofGeometry geometry = some timing ∧ timing.geometry = geometry := by
  have someLine : 0 < geometry.rasterLines := by
    have := drawable.displayLines_pos
    simp only [Geometry.rasterLines, Geometry.visibleLinesEnd]
    omega
  have someTime : 0 < geometry.lineTime := by
    have := drawable.displayLineTime_pos
    simp only [Geometry.lineTime, Geometry.visibleTime]
    omega
  have raster : Raster.ofGeometry geometry =
      some ⟨geometry, drawable.proportionsFit, drawable.frameFits, someLine, someTime⟩ := by
    rw [Raster.ofGeometry, dif_pos drawable.proportionsFit, dif_pos ⟨someLine, someTime⟩,
      dif_pos drawable.frameFits]
  rw [Timing.ofGeometry, raster, Option.bind_eq_bind, Option.bind_some, Timing.ofRaster]
  refine ⟨_, dif_pos ?_, rfl⟩
  rw [Nat.all_eq_finRange_all, List.all_eq_true]
  exact fun tact _ => decide_eq_true (Raster.slotFits drawable)

/-! Each pixel belongs to one tact, which draws it and its neighbour. -/

namespace Raster

variable {raster : Raster}

def tactAt (raster : Raster) (line column : Nat) : Nat :=
  line * raster.geometry.lineTime + column

theorem line_tactAt {line column : Nat} (inLine : column < raster.geometry.lineTime) :
    raster.line (raster.tactAt line column) = line := by
  rw [Raster.line, tactAt, Nat.mul_comm, Nat.mul_add_div raster.lineTime_pos,
    Nat.div_eq_of_lt inLine, Nat.add_zero]

theorem column_tactAt {line column : Nat} (inLine : column < raster.geometry.lineTime) :
    raster.column (raster.tactAt line column) = column := by
  rw [Raster.column, tactAt, Nat.mul_comm, Nat.mul_add_mod, Nat.mod_eq_of_lt inLine]

theorem tactAt_line_column (raster : Raster) (tact : Nat) :
    raster.tactAt (raster.line tact) (raster.column tact) = tact :=
  Nat.div_add_mod' tact raster.geometry.lineTime

theorem line_lt_rasterLines {tact : Nat} (inFrame : tact < raster.frameTacts) :
    raster.line tact < raster.geometry.rasterLines :=
  (Nat.div_lt_iff_lt_mul raster.lineTime_pos).mpr inFrame

theorem column_lt_lineTime (raster : Raster) (tact : Nat) :
    raster.column tact < raster.geometry.lineTime :=
  Nat.mod_lt tact raster.lineTime_pos

theorem tactAt_lt_frameTacts {line column : Nat} (inFrame : line < raster.geometry.rasterLines)
    (inLine : column < raster.geometry.lineTime) :
    raster.tactAt line column < raster.frameTacts := by
  apply (Nat.div_lt_iff_lt_mul raster.lineTime_pos).mp
  rw [← Raster.line, line_tactAt inLine]
  exact inFrame

def tactOf (raster : Raster) (index : Nat) : Nat :=
  (raster.geometry.firstVisibleLine + index / raster.geometry.screenWidth) *
      raster.geometry.lineTime +
    index % raster.geometry.screenWidth / 2

theorem screenWidth_eq (geometry : Geometry) : geometry.screenWidth = 2 * geometry.visibleTime := by
  simp only [Geometry.screenWidth, Geometry.borderLeftPixels, Geometry.displayWidth,
    Geometry.borderRightPixels, Geometry.visibleTime]
  omega

theorem place_of_pixel {index : Nat} (inside : index < raster.geometry.pixelCount) :
    raster.line (raster.tactOf index) =
        raster.geometry.firstVisibleLine + index / raster.geometry.screenWidth ∧
      raster.column (raster.tactOf index) = index % raster.geometry.screenWidth / 2 ∧
      raster.Visible (raster.line (raster.tactOf index)) (raster.column (raster.tactOf index)) := by
  have width := screenWidth_eq raster.geometry
  have positive : 0 < raster.geometry.screenWidth := by
    rw [Geometry.pixelCount] at inside
    exact Nat.pos_of_mul_pos_right (Nat.zero_lt_of_lt inside)
  have x := Nat.mod_lt index positive
  have y : index / raster.geometry.screenWidth < raster.geometry.screenLines :=
    Nat.div_lt_of_lt_mul inside
  have inLine : index % raster.geometry.screenWidth / 2 < raster.geometry.lineTime := by
    rw [Geometry.lineTime]
    omega
  have line : raster.line (raster.tactOf index) =
      raster.geometry.firstVisibleLine + index / raster.geometry.screenWidth :=
    line_tactAt inLine
  have column : raster.column (raster.tactOf index) = index % raster.geometry.screenWidth / 2 :=
    column_tactAt inLine
  refine ⟨line, column, ?_⟩
  rw [line, column]
  refine ⟨Nat.le_add_right _ _, ?_, by omega⟩
  rw [Geometry.visibleLinesEnd, Geometry.firstDisplayLine, Nat.add_assoc, Nat.add_assoc]
  rw [Geometry.screenLines, Nat.add_assoc] at y
  exact Nat.add_lt_add_left y _

theorem pixel_of_place {index : Nat} (inside : index < raster.geometry.pixelCount) :
    index = raster.pixelIndex (raster.line (raster.tactOf index))
        (raster.column (raster.tactOf index)) +
      index % raster.geometry.screenWidth % 2 := by
  rcases place_of_pixel inside with ⟨line, column, -⟩
  have parts := Nat.div_add_mod index raster.geometry.screenWidth
  rw [pixelIndex, line, column, Nat.add_sub_cancel_left,
    Nat.mul_comm (index / raster.geometry.screenWidth)]
  omega

theorem pixelIndex_place {line column : Nat} (visible : raster.Visible line column) {offset : Nat}
    (inTact : offset < 2) :
    (raster.pixelIndex line column + offset) / raster.geometry.screenWidth =
        line - raster.geometry.firstVisibleLine ∧
      (raster.pixelIndex line column + offset) % raster.geometry.screenWidth =
        2 * column + offset := by
  have inLine : 2 * column + offset < raster.geometry.screenWidth := by
    rw [screenWidth_eq]
    have := visible.2.2
    omega
  rw [pixelIndex, Nat.mul_comm, Nat.add_assoc]
  constructor
  · rw [Nat.mul_add_div (Nat.zero_lt_of_lt inLine), Nat.div_eq_of_lt inLine, Nat.add_zero]
  · rw [Nat.mul_add_mod, Nat.mod_eq_of_lt inLine]

theorem phase_ne_blank (raster : Raster) {line column : Nat}
    (visible : raster.Visible line column) : raster.phase line column ≠ .blank := by
  have display (tact : Nat) (last : Bool) : Phase.ofDisplayTact tact last ≠ .blank := by
    unfold Phase.ofDisplayTact
    split <;> decide
  rw [phase, if_neg (not_not.mpr visible)]
  split_ifs
  case pos => exact display _ _
  all_goals decide

theorem tactOf_lt {index : Nat} (inside : index < raster.geometry.pixelCount) :
    raster.tactOf index < raster.frameTacts := by
  rcases place_of_pixel inside with ⟨-, -, -, inFrame, -⟩
  have lines : raster.line (raster.tactOf index) < raster.geometry.rasterLines :=
    inFrame.trans_le (Nat.le_add_right _ _)
  exact (Nat.div_lt_iff_lt_mul raster.lineTime_pos).mp lines

theorem place_succ (raster : Raster) (tact : Nat) :
    raster.column (tact + 1) = 0 ∨
      raster.line (tact + 1) = raster.line tact ∧
        raster.column (tact + 1) = raster.column tact + 1 := by
  have positive := raster.lineTime_pos
  have parts := Nat.div_add_mod tact raster.geometry.lineTime
  have short := Nat.mod_lt tact positive
  rw [line, line, column, column]
  by_cases last : tact % raster.geometry.lineTime + 1 = raster.geometry.lineTime
  · left
    have whole : tact + 1 = raster.geometry.lineTime * (tact / raster.geometry.lineTime + 1) := by
      rw [Nat.mul_add, Nat.mul_one]
      omega
    rw [whole, Nat.mul_mod_right]
  · right
    have split : tact + 1 = raster.geometry.lineTime * (tact / raster.geometry.lineTime) +
        (tact % raster.geometry.lineTime + 1) := by omega
    have next : tact % raster.geometry.lineTime + 1 < raster.geometry.lineTime := by omega
    constructor
    · rw [split, Nat.mul_add_div positive, Nat.div_eq_of_lt next, Nat.add_zero]
    · rw [split, Nat.mul_add_mod, Nat.mod_eq_of_lt next]

end Raster

/-! The invariant of drawing. -/

section Drawing

variable {timing : Timing} {memory : UInt16 → UInt8} {border : UInt8} {flash : Bool} {tact : Nat}
  {canvas : Canvas timing.geometry.pixelCount}

/-- The pixels of the tacts before this one are those of the picture, and the circuit holds what
it has to show next. -/
structure Drawn (timing : Timing) (memory : UInt16 → UInt8) (border : UInt8) (flash : Bool)
    (tact : Nat) (canvas : Canvas timing.geometry.pixelCount) : Prop where
  pixels : ∀ (index : Nat) (inside : index < timing.geometry.pixelCount),
    timing.raster.tactOf index < tact →
      canvas.pixels[index] = timing.geometry.pictureAt memory border flash
        (index / timing.geometry.screenWidth) (index % timing.geometry.screenWidth)
  held : timing.raster.OnDisplay (timing.raster.line tact) →
    Holds timing.raster memory (timing.raster.row (timing.raster.line tact))
      (timing.raster.column tact) canvas.held

theorem Timing.slotAt_eq (inFrame : tact < timing.frameTacts) :
    timing.slotAt tact = timing.raster.slotAt tact := by
  have same : tact % timing.raster.frameTacts = tact := Nat.mod_eq_of_lt inFrame
  rw [slotAt, Vector.get_eq_getElem, timing.slots_eq]
  simp only [same]

theorem Canvas.draw_slot_held (canvas : Canvas size) (raster : Raster) (tact : Nat) :
    (canvas.draw (raster.slotAt tact) border flash memory).held =
      heldAfter raster memory (raster.line tact) (raster.column tact) canvas.held := by
  have only (held : HeldCells) (slot : Slot) : fetch held slot memory =
      fetch held { phase := slot.phase, fetchAddress := slot.fetchAddress } memory := by
    rcases slot with ⟨phase, contention, address, index⟩
    cases phase <;> rfl
  rw [draw_held, only, Raster.slotAt, Raster.slot_phase, Raster.slot_fetchAddress, heldAfter]

theorem Canvas.draw_slot_pixels (canvas : Canvas size) {raster : Raster}
    (visible : raster.Visible (raster.line tact) (raster.column tact)) :
    let index := raster.pixelIndex (raster.line tact) (raster.column tact)
    let colours := canvas.held.shown border flash
      (raster.phase (raster.line tact) (raster.column tact))
    (canvas.draw (raster.slotAt tact) border flash memory).pixels =
      (canvas.pixels.setIfInBounds index colours.1).setIfInBounds (index + 1) colours.2 := by
  have drawn := raster.phase_ne_blank visible
  have index : (raster.slot (raster.line tact) (raster.column tact)).pixelIndex =
      raster.pixelIndex (raster.line tact) (raster.column tact) := by
    rw [Raster.slot, if_neg drawn]
  rw [draw_pixels, Raster.slotAt, Raster.slot_phase, if_neg drawn, index]

theorem Canvas.draw_slot_blank (canvas : Canvas size) {raster : Raster}
    (hidden : ¬raster.Visible (raster.line tact) (raster.column tact)) :
    (canvas.draw (raster.slotAt tact) border flash memory).pixels = canvas.pixels := by
  rw [draw_pixels, Raster.slotAt, Raster.slot_phase, Raster.phase_of_hidden hidden, if_pos rfl]

theorem Drawn.pixels_succ (drawable : timing.geometry.Drawable)
    (drawn : Drawn timing memory border flash tact canvas) {index : Nat}
    (inside : index < timing.geometry.pixelCount)
    (before : timing.raster.tactOf index < tact + 1) :
    (canvas.draw (timing.raster.slotAt tact) border flash memory).pixels[index] =
      timing.geometry.pictureAt memory border flash (index / timing.geometry.screenWidth)
        (index % timing.geometry.screenWidth) := by
  by_cases visible : timing.raster.Visible (timing.raster.line tact) (timing.raster.column tact)
  · have shown := shown_eq_picture drawable border flash visible drawn.held
    have place (offset : Nat) (inTact : offset < 2) := Raster.pixelIndex_place visible inTact
    simp only [Canvas.draw_slot_pixels canvas visible, shown, Vector.getElem_setIfInBounds]
    split_ifs with right left
    · rw [← right, Timing.geometry, (place 1 (by decide)).1, (place 1 (by decide)).2]
    · rw [← left]
      exact congrArg₂ _ (place 0 (by decide)).1.symm (place 0 (by decide)).2.symm
    · apply drawn.pixels
      have other : timing.raster.tactOf index ≠ tact := by
        rintro rfl
        have := Raster.pixel_of_place inside
        omega
      omega
  · simp only [Canvas.draw_slot_blank canvas visible]
    apply drawn.pixels
    have other : timing.raster.tactOf index ≠ tact := by
      rintro rfl
      exact visible (Raster.place_of_pixel inside).2.2
    omega

theorem Drawn.succ (drawable : timing.geometry.Drawable) (inFrame : tact < timing.frameTacts)
    (drawn : Drawn timing memory border flash tact canvas) :
    Drawn timing memory border flash (tact + 1)
      (canvas.draw (timing.slotAt tact) border flash memory) := by
  rw [Timing.slotAt_eq inFrame]
  refine ⟨fun index inside before => drawn.pixels_succ drawable inside before, fun onDisplay => ?_⟩
  rw [Canvas.draw_slot_held]
  rcases timing.raster.place_succ tact with start | ⟨line, column⟩
  · rw [start]
    exact .lineStart drawable _
  · rw [line] at onDisplay ⊢
    rw [column]
    exact (drawn.held onDisplay).succ drawable onDisplay

theorem Drawn.start (drawable : timing.geometry.Drawable)
    (canvas : Canvas timing.geometry.pixelCount) : Drawn timing memory border flash 0 canvas := by
  refine ⟨fun index _ before => absurd before (Nat.not_lt_zero _), fun _ => ?_⟩
  rw [Raster.column, Nat.zero_mod]
  exact .lineStart drawable _

theorem Drawn.drawSpan (drawable : timing.geometry.Drawable) {count : Nat}
    (inFrame : tact + count ≤ timing.frameTacts)
    (drawn : Drawn timing memory border flash tact canvas) :
    Drawn timing memory border flash (tact + count)
      (canvas.drawSpan timing border flash memory count tact) := by
  induction count generalizing tact canvas with
  | zero => exact drawn
  | succ count induction =>
      rw [← Nat.add_assoc, Nat.add_right_comm]
      exact induction (by omega) (drawn.succ drawable (by omega))

theorem Drawn.pixels_eq_picture
    (drawn : Drawn timing memory border flash timing.frameTacts canvas) :
    canvas.pixels.toArray = timing.geometry.picture memory border flash := by
  apply Array.ext
  · rw [Geometry.picture, Array.size_ofFn, canvas.pixels.size_toArray]
  · intro index inside _
    rw [canvas.pixels.size_toArray] at inside
    rw [Vector.getElem_toArray, drawn.pixels index inside (Raster.tactOf_lt inside)]
    simp only [Geometry.picture, Array.getElem_ofFn]

end Drawing

/-! Calls that draw a frame piece by piece. -/

/-- The calls draw the tacts from one on to a bound, each from where the one before stopped. A
call is given by its first and last tact. -/
def Consecutive : Nat → List (Nat × Nat) → Nat → Prop
  | tact, [], bound => tact = bound
  | tact, (first, last) :: calls, bound =>
    first = tact ∧ first ≤ last ∧ Consecutive (last + 1) calls bound

theorem Consecutive.le : ∀ {tact bound : Nat} {calls : List (Nat × Nat)},
    Consecutive tact calls bound → tact ≤ bound
  | _, _, [], consecutive => Nat.le_of_eq consecutive
  | _, _, (first, last) :: _, ⟨start, forward, later⟩ => by
      have := later.le
      omega

namespace Screen

def renderAll (screen : Screen) (memory : UInt16 → UInt8) (calls : List (Nat × Nat)) : Screen :=
  calls.foldl (fun screen call => screen.render call.1 call.2 memory) screen

theorem render_eq (screen : Screen) {first last : Nat} (forward : first ≤ last)
    (inFrame : last < screen.timing.frameTacts) (memory : UInt16 → UInt8) :
    screen.render first last memory = screen.drawRange first (last + 1) memory := by
  have kept : min last (screen.timing.frameTacts - 1) = last := by omega
  rw [render, kept, if_pos forward]

theorem drawn_renderAll {timing : Timing} (drawable : timing.geometry.Drawable)
    {memory : UInt16 → UInt8} {border : UInt8} {flash : Bool} {flashFrames : Nat}
    {suppressed : Bool} {calls : List (Nat × Nat)} {tact : Nat}
    {canvas : Canvas timing.geometry.pixelCount}
    (consecutive : Consecutive tact calls timing.frameTacts)
    (drawn : Drawn timing memory border flash tact canvas) :
    ∃ after : Canvas timing.geometry.pixelCount,
      renderAll ⟨timing, canvas, border, flash, flashFrames, suppressed⟩ memory calls =
          ⟨timing, after, border, flash, flashFrames, suppressed⟩ ∧
        Drawn timing memory border flash timing.frameTacts after := by
  induction calls generalizing tact canvas with
  | nil =>
      cases consecutive
      exact ⟨canvas, rfl, drawn⟩
  | cons call calls induction =>
      rcases call with ⟨first, last⟩
      rcases consecutive with ⟨rfl, forward, later⟩
      have inFrame : last < timing.frameTacts := later.le
      have span : first + (last + 1 - first) = last + 1 := by omega
      have next := drawn.drawSpan drawable (span.trans_le inFrame)
      rw [span] at next
      rcases induction later next with ⟨after, calls, drawn⟩
      refine ⟨after, ?_, drawn⟩
      have one := render_eq ⟨timing, canvas, border, flash, flashFrames, suppressed⟩ forward
        inFrame memory
      rw [renderAll, List.foldl_cons, one]
      exact calls

/-- A drawable frame has a screen, and drawing one frame on any screen shows the picture. -/
theorem renderAll_eq_picture {geometry : Geometry} (drawable : geometry.Drawable) :
    (∃ screen, Timing.ofGeometry geometry >>= ofTiming = some screen ∧
        screen.timing.geometry = geometry) ∧
      ∀ (screen : Screen) (memory : UInt16 → UInt8) (calls : List (Nat × Nat)),
        screen.timing.geometry = geometry → Consecutive 0 calls geometry.frameTacts →
          (screen.renderAll memory calls).pixels =
            geometry.picture memory screen.border screen.flash := by
  constructor
  · rcases drawable.exists_timing with ⟨timing, found, rfl⟩
    rw [found, Option.bind_eq_bind, Option.bind_some, ofTiming, if_pos drawable.pixelCount_lt]
    exact ⟨_, rfl, rfl⟩
  · rintro ⟨timing, canvas, border, flash, flashFrames, suppressed⟩ memory calls rfl consecutive
    rcases drawn_renderAll drawable consecutive (.start drawable canvas) with ⟨after, calls, drawn⟩
    rw [calls]
    exact drawn.pixels_eq_picture

/-- Three calls draw a frame of the 48K machine whose only set pixel is the first of the display:
it is shown in bright red, forty-eight lines down and forty-eight pixels in. -/
theorem renderAll_eq_picture_spectrum48K :
    let memory : UInt16 → UInt8 := fun address => if address = 0x4000 then 0x80 else 0x42
    let calls := [(0, 14335), (14336, 14336), (14337, 69887)]
    Geometry.spectrum48K.Drawable ∧ Consecutive 0 calls Geometry.spectrum48K.frameTacts ∧
      ∃ screen, Timing.ofGeometry .spectrum48K >>= ofTiming = some screen ∧
        (screen.renderAll memory calls).pixels =
            Geometry.spectrum48K.picture memory screen.border screen.flash ∧
          (screen.renderAll memory calls).pixels[48 * 352 + 48]? = some 10 := by
  intro memory calls
  have drawable : Geometry.spectrum48K.Drawable := by
    constructor <;> decide
  have consecutive : Consecutive 0 calls Geometry.spectrum48K.frameTacts := by
    refine ⟨rfl, by decide, rfl, by decide, rfl, by decide, rfl⟩
  rcases renderAll_eq_picture drawable with ⟨⟨screen, found, geometry⟩, drawn⟩
  have pixels := drawn screen memory calls geometry consecutive
  refine ⟨drawable, consecutive, screen, found, pixels, ?_⟩
  have corner : displayPixel memory screen.flash 0 0 = 10 := by
    cases screen.flash <;> decide
  rw [pixels, ← corner, ← Geometry.pictureAt_display .spectrum48K memory screen.border screen.flash
    (by decide : 0 < 192) (by decide : 0 < 256)]
  exact Geometry.getElem?_picture _ _ _ _ (by decide) (by decide)

end Screen

end ZxSpectrum
