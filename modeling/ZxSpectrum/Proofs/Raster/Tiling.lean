import ZxSpectrum.Proofs.Raster.Existence

namespace ZxSpectrum

/-! The tacts of a frame that draw tile its picture: from one to the next the pixels follow each
other without a gap and without an overlap, two at a time. -/

namespace Raster

variable {raster : Raster}

theorem even_pixelIndex (raster : Raster) (line column : Nat) :
    Even (raster.pixelIndex line column) := by
  rw [pixelIndex, screenWidth_eq]
  exact ((even_two_mul _).mul_left _).add (even_two_mul column)

theorem even_pixelCount (geometry : Geometry) : Even geometry.pixelCount := by
  rw [Geometry.pixelCount, screenWidth_eq]
  exact (even_two_mul _).mul_right _

theorem pixelIndex_lt_pixelIndex {tact later : Nat} (before : tact < later)
    (visible : raster.Visible (raster.line tact) (raster.column tact)) :
    raster.pixelIndex (raster.line tact) (raster.column tact) <
      raster.pixelIndex (raster.line later) (raster.column later) := by
  have lines : raster.line tact ≤ raster.line later := Nat.div_le_div_right (Nat.le_of_lt before)
  rcases Nat.eq_or_lt_of_le lines with sameLine | above
  · have columns : raster.column tact < raster.column later := by
      have place := raster.tactAt_line_column tact
      have placeLater := raster.tactAt_line_column later
      rw [tactAt, sameLine] at place
      rw [tactAt] at placeLater
      omega
    rw [pixelIndex, pixelIndex, sameLine]
    omega
  · have inLine : 2 * raster.column tact < raster.geometry.screenWidth := by
      rw [screenWidth_eq]
      exact Nat.mul_lt_mul_of_pos_left visible.2.2 Nat.two_pos
    have rows : raster.line tact - raster.geometry.firstVisibleLine + 1 ≤
        raster.line later - raster.geometry.firstVisibleLine := by
      have := visible.1
      omega
    have pixels := Nat.mul_le_mul_right raster.geometry.screenWidth rows
    rw [Nat.add_mul, Nat.one_mul] at pixels
    rw [pixelIndex, pixelIndex]
    omega

theorem pixelIndex_tactOf {index : Nat} (inside : index < raster.geometry.pixelCount)
    (even : Even index) :
    raster.pixelIndex (raster.line (raster.tactOf index)) (raster.column (raster.tactOf index)) =
      index := by
  have place := pixel_of_place inside
  have left : index % raster.geometry.screenWidth % 2 = 0 := by
    rw [Nat.mod_mod_of_dvd _ (screenWidth_eq raster.geometry ▸ Nat.dvd_mul_right 2 _)]
    exact Nat.even_iff.mp even
  omega

end Raster

/-! The order of the places that are drawn. -/

namespace Timing

def drawingTacts (timing : Timing) : Set Nat :=
  {tact | tact < timing.frameTacts ∧ (timing.slotAt tact).phase ≠ .blank}

variable {timing : Timing} {tact : Nat}

theorem mem_drawingTacts_iff :
    tact ∈ timing.drawingTacts ↔
      tact < timing.frameTacts ∧
        timing.raster.Visible (timing.raster.line tact) (timing.raster.column tact) := by
  refine and_congr_right fun inFrame => ?_
  rw [timing.slotAt_eq inFrame, Raster.slotAt, Raster.slot_phase]
  refine ⟨fun drawn => ?_, fun visible => timing.raster.phase_ne_blank visible⟩
  by_contra hidden
  exact drawn (Raster.phase_of_hidden hidden)

theorem pixelIndex_of_mem (drawing : tact ∈ timing.drawingTacts) :
    (timing.slotAt tact).pixelIndex =
      timing.raster.pixelIndex (timing.raster.line tact) (timing.raster.column tact) := by
  rcases mem_drawingTacts_iff.mp drawing with ⟨inFrame, visible⟩
  rw [timing.slotAt_eq inFrame, Raster.slotAt, Raster.slot,
    if_neg (timing.raster.phase_ne_blank visible)]

theorem strictMonoOn_pixelIndex (timing : Timing) :
    StrictMonoOn (fun tact => (timing.slotAt tact).pixelIndex) timing.drawingTacts := by
  intro tact drawing later drawingLater before
  dsimp only
  rw [pixelIndex_of_mem drawing, pixelIndex_of_mem drawingLater]
  exact Raster.pixelIndex_lt_pixelIndex before (mem_drawingTacts_iff.mp drawing).2

theorem bijOn_pixelIndex (timing : Timing) :
    Set.BijOn (fun tact => (timing.slotAt tact).pixelIndex) timing.drawingTacts
      {index | Even index ∧ index + 2 ≤ timing.geometry.pixelCount} := by
  refine ⟨fun tact drawing => ?_, timing.strictMonoOn_pixelIndex.injOn, fun index inside => ?_⟩
  · have visible := (mem_drawingTacts_iff.mp drawing).2
    dsimp only
    rw [pixelIndex_of_mem drawing]
    exact ⟨timing.raster.even_pixelIndex _ _, Raster.pixelIndex_lt visible⟩
  · rcases inside with ⟨even, inside⟩
    replace inside : index < timing.raster.geometry.pixelCount := Nat.lt_of_succ_lt inside
    have drawing : timing.raster.tactOf index ∈ timing.drawingTacts :=
      mem_drawingTacts_iff.mpr ⟨Raster.tactOf_lt inside, (Raster.place_of_pixel inside).2.2⟩
    refine ⟨timing.raster.tactOf index, drawing, ?_⟩
    dsimp only
    rw [pixelIndex_of_mem drawing, Raster.pixelIndex_tactOf inside even]

end Timing

/-! The pixels that drawing sets, one after another. -/

def Slot.drawn (slot : Slot) : List Nat :=
  if slot.phase = .blank then [] else [slot.pixelIndex, slot.pixelIndex + 1]

namespace Canvas

def strokes (canvas : Canvas size) (slot : Slot) (border : UInt8) (flash : Bool) :
    List (Nat × UInt8) :=
  let colours := canvas.held.shown border flash slot.phase
  slot.drawn.zip [colours.1, colours.2]

def spanStrokes (timing : Timing) (border : UInt8) (flash : Bool) (memory : UInt16 → UInt8) :
    (count first : Nat) → Canvas size → List (Nat × UInt8)
  | 0, _, _ => []
  | count + 1, first, canvas =>
    canvas.strokes (timing.slotAt first) border flash ++
      spanStrokes timing border flash memory count (first + 1)
        (canvas.draw (timing.slotAt first) border flash memory)

def paintStrokes (pixels : Vector UInt8 size) (strokes : List (Nat × UInt8)) : Vector UInt8 size :=
  strokes.foldl (fun pixels stroke => pixels.setIfInBounds stroke.1 stroke.2) pixels

variable {timing : Timing} {border : UInt8} {flash : Bool} {memory : UInt16 → UInt8}

theorem draw_pixels_eq_paintStrokes (canvas : Canvas size) (slot : Slot) :
    (canvas.draw slot border flash memory).pixels =
      paintStrokes canvas.pixels (canvas.strokes slot border flash) := by
  rw [draw_pixels, strokes, Slot.drawn]
  split <;> rfl

theorem map_fst_strokes (canvas : Canvas size) (slot : Slot) :
    (canvas.strokes slot border flash).map Prod.fst = slot.drawn := by
  rw [strokes, Slot.drawn]
  split <;> rfl

/-- Drawing changes the pixels by its strokes and in no other way. -/
theorem drawSpan_pixels (count first : Nat) (canvas : Canvas size) :
    (canvas.drawSpan timing border flash memory count first).pixels =
      paintStrokes canvas.pixels (canvas.spanStrokes timing border flash memory count first) := by
  induction count generalizing first canvas with
  | zero => rfl
  | succ count induction =>
      rw [drawSpan, induction, draw_pixels_eq_paintStrokes, spanStrokes, paintStrokes,
        paintStrokes, paintStrokes, List.foldl_append]

theorem map_fst_spanStrokes (count first : Nat) (canvas : Canvas size) :
    (canvas.spanStrokes timing border flash memory count first).map Prod.fst =
      (List.range' first count).flatMap fun tact => (timing.slotAt tact).drawn := by
  induction count generalizing first canvas with
  | zero => rfl
  | succ count induction =>
      rw [spanStrokes, List.map_append, map_fst_strokes, induction, List.range'_succ,
        List.flatMap_cons]

end Canvas

namespace Timing

variable {timing : Timing} {tact : Nat}

theorem drawn_of_not_mem (inFrame : tact < timing.frameTacts) (idle : tact ∉ timing.drawingTacts) :
    (timing.slotAt tact).drawn = [] :=
  if_pos (not_not.mp fun drawn => idle ⟨inFrame, drawn⟩)

theorem drawn_of_mem (drawing : tact ∈ timing.drawingTacts) :
    (timing.slotAt tact).drawn =
      [(timing.slotAt tact).pixelIndex, (timing.slotAt tact).pixelIndex + 1] :=
  if_neg drawing.2

theorem mem_drawn_iff (inFrame : tact < timing.frameTacts) {index : Nat} :
    index ∈ (timing.slotAt tact).drawn ↔
      tact ∈ timing.drawingTacts ∧
        (index = (timing.slotAt tact).pixelIndex ∨
          index = (timing.slotAt tact).pixelIndex + 1) := by
  by_cases drawing : tact ∈ timing.drawingTacts
  · simp [drawn_of_mem drawing, drawing]
  · simp [drawn_of_not_mem inFrame drawing, drawing]

theorem drawn_lt_drawn {later : Nat} (before : tact < later) (inFrame : later < timing.frameTacts)
    {index next : Nat} (drawn : index ∈ (timing.slotAt tact).drawn)
    (drawnLater : next ∈ (timing.slotAt later).drawn) : index < next := by
  rw [mem_drawn_iff (before.trans inFrame)] at drawn
  rw [mem_drawn_iff inFrame] at drawnLater
  have onwards := timing.strictMonoOn_pixelIndex drawn.1 drawnLater.1 before
  have even := (timing.bijOn_pixelIndex.mapsTo drawn.1).1
  have evenLater := (timing.bijOn_pixelIndex.mapsTo drawnLater.1).1
  rw [Nat.even_iff] at even evenLater
  dsimp only at onwards even evenLater
  omega

theorem lt_pixelCount_of_drawn (inFrame : tact < timing.frameTacts) {index : Nat}
    (drawn : index ∈ (timing.slotAt tact).drawn) : index < timing.geometry.pixelCount := by
  rw [mem_drawn_iff inFrame] at drawn
  have inside := (timing.bijOn_pixelIndex.mapsTo drawn.1).2
  omega

theorem exists_drawn {index : Nat} (inside : index < timing.geometry.pixelCount) :
    ∃ tact < timing.frameTacts, index ∈ (timing.slotAt tact).drawn := by
  have whole := Raster.even_pixelCount timing.geometry
  -- the tact that draws the left pixel of a pair draws the right one as well
  have left : index - index % 2 ∈ {left | Even left ∧ left + 2 ≤ timing.geometry.pixelCount} := by
    rw [Nat.even_iff] at whole
    refine ⟨Nat.even_iff.mpr ?_, ?_⟩ <;> omega
  rcases timing.bijOn_pixelIndex.surjOn left with ⟨tact, drawing, place⟩
  refine ⟨tact, drawing.1, (mem_drawn_iff drawing.1).mpr ⟨drawing, ?_⟩⟩
  dsimp only at place
  omega

/-- The tacts of a frame draw all pixels of the picture, in their order. -/
theorem flatMap_drawn (timing : Timing) :
    (List.range timing.frameTacts).flatMap (fun tact => (timing.slotAt tact).drawn) =
      List.range timing.geometry.pixelCount := by
  have ordered : ((List.range timing.frameTacts).flatMap
      fun tact => (timing.slotAt tact).drawn).Pairwise (· < ·) := by
    apply List.pairwise_flatMap.mpr
    constructor
    · intro tact _
      rw [Slot.drawn]
      split <;> simp
    · refine List.pairwise_lt_range.imp_of_mem fun _ inFrame before => ?_
      exact fun index drawn next drawnLater =>
        drawn_lt_drawn before (List.mem_range.mp inFrame) drawn drawnLater
  apply ordered.sortedLT.eq_of_mem_iff (List.sortedLT_range _)
  intro index
  simp only [List.mem_flatMap, List.mem_range]
  constructor
  · rintro ⟨tact, inFrame, drawn⟩
    exact lt_pixelCount_of_drawn inFrame drawn
  · exact exists_drawn

theorem lt_pixelCount_of_mem_spanStrokes {canvas : Canvas timing.geometry.pixelCount}
    {border : UInt8} {flash : Bool} {memory : UInt16 → UInt8} {count first : Nat}
    {stroke : Nat × UInt8}
    (painted : stroke ∈ canvas.spanStrokes timing border flash memory count first) :
    stroke.1 < timing.geometry.pixelCount := by
  have drawn := List.mem_map_of_mem (f := Prod.fst) painted
  rw [Canvas.map_fst_spanStrokes, List.mem_flatMap] at drawn
  rcases drawn with ⟨tact, -, drawn⟩
  rw [← timing.slotAt_mod] at drawn
  exact lt_pixelCount_of_drawn (Nat.mod_lt tact timing.raster.frameTacts_pos) drawn

end Timing

/-! Which geometries have a timing that does so. -/

theorem Raster.eq_of_geometry {raster other : Raster} (same : raster.geometry = other.geometry) :
    raster = other := by
  cases raster
  cases other
  cases same
  rfl

/-- All that is computed for the fetches of a geometry's frames fits its counters; a frame without
tacts has no fetches. -/
def Geometry.FetchesFit (geometry : Geometry) : Prop :=
  ∀ raster : Raster, raster.geometry = geometry → raster.FetchesFit

theorem Geometry.Moderate.fetchesFit {geometry : Geometry} (moderate : geometry.Moderate) :
    geometry.FetchesFit := by
  rintro raster rfl
  exact Raster.fetchesFit_of_moderate moderate

namespace Timing

theorem fetchesFit (timing : Timing) : timing.raster.FetchesFit := by
  intro line column
  by_cases visible : timing.raster.Visible line column
  · exact (timing.slotFits_place line column visible).2.2
  · have idle := Raster.not_fetches_off_display fun shown => visible shown.1
    exact ⟨fun fetches => absurd fetches idle.1, fun fetches => absurd fetches idle.2⟩

theorem exists_ofGeometry_iff {geometry : Geometry} (proportionsFit : geometry.ProportionsFit)
    (frameFits : geometry.FrameFits) (indices : geometry.pixelCount < UInt32.size)
    (long : 2 ≤ geometry.borderLeftTime + geometry.displayLineTime) :
    (∃ timing, ofGeometry geometry = some timing) ↔ geometry.FetchesFit := by
  constructor
  · rintro ⟨timing, built⟩ raster rfl
    have same : timing.raster.geometry = raster.geometry := by
      rw [← Timing.geometry, geometry_of_ofGeometry built, Geometry.used,
        if_pos ⟨raster.rasterLines_pos, raster.lineTime_pos⟩]
    rw [← Raster.eq_of_geometry same]
    exact timing.fetchesFit
  · intro fetches
    rcases Raster.exists_ofGeometry proportionsFit frameFits with ⟨raster, found⟩
    have same := Raster.geometry_of_ofGeometry found
    have drawable : raster.geometry.pixelCount < UInt32.size ∧ raster.FetchesFit ∧
        2 ≤ raster.displayEnd := by
      rw [Raster.displayEnd]
      rw [Geometry.used] at same
      split at same
      · exact ⟨same ▸ indices, fetches raster same, same ▸ long⟩
      · -- an empty frame is replaced by that of the 48K machine, whatever its fetches would be
        have moderate : Geometry.spectrum48K.Moderate := by
          constructor <;> decide
        rw [same]
        exact ⟨by decide, moderate.fetchesFit raster same, by decide⟩
    rw [ofGeometry, found]
    exact (exists_ofRaster_iff_displayEnd drawable.1 drawable.2.1).mpr fun _ _ => drawable.2.2

/-- A frame has a timing exactly if its fetches fit. Its tacts that draw then do so at the even
places of the picture, each at the next one. Drawing sets no pixel outside the picture, and drawing
a frame sets each of its pixels once. -/
theorem frame_tiles_picture {geometry : Geometry} (proportionsFit : geometry.ProportionsFit)
    (frameFits : geometry.FrameFits) (indices : geometry.pixelCount < UInt32.size)
    (long : 2 ≤ geometry.borderLeftTime + geometry.displayLineTime) :
    ((∃ timing, ofGeometry geometry = some timing) ↔ geometry.FetchesFit) ∧
      ∀ timing, ofGeometry geometry = some timing →
        timing.geometry = geometry.used ∧
        timing.slots.toList.length = timing.geometry.frameTacts ∧
        StrictMonoOn (fun tact => (timing.slotAt tact).pixelIndex) timing.drawingTacts ∧
        Set.BijOn (fun tact => (timing.slotAt tact).pixelIndex) timing.drawingTacts
          {index | Even index ∧ index + 2 ≤ timing.geometry.pixelCount} ∧
        ∀ (canvas : Canvas timing.geometry.pixelCount) (border : UInt8) (flash : Bool)
            (memory : UInt16 → UInt8),
          (∀ count first,
            (canvas.drawSpan timing border flash memory count first).pixels =
                Canvas.paintStrokes canvas.pixels
                  (canvas.spanStrokes timing border flash memory count first) ∧
              ∀ stroke ∈ canvas.spanStrokes timing border flash memory count first,
                stroke.1 < timing.geometry.pixelCount) ∧
          (canvas.spanStrokes timing border flash memory timing.frameTacts 0).map Prod.fst =
            List.range timing.geometry.pixelCount := by
  refine ⟨exists_ofGeometry_iff proportionsFit frameFits indices long, fun timing built => ?_⟩
  refine ⟨geometry_of_ofGeometry built, timing.slots.length_toList,
    timing.strictMonoOn_pixelIndex, timing.bijOn_pixelIndex, fun canvas border flash memory => ?_⟩
  constructor
  · intro count first
    exact ⟨Canvas.drawSpan_pixels count first canvas,
      fun stroke painted => lt_pixelCount_of_mem_spanStrokes painted⟩
  · rw [Canvas.map_fst_spanStrokes, ← List.range_eq_range']
    exact timing.flatMap_drawn

theorem frame_tiles_picture_bordered :
    Geometry.bordered.FetchesFit ∧
      ∃ timing, ofGeometry .bordered = some timing ∧ timing.geometry.pixelCount = 88 ∧
        ∀ canvas : Canvas timing.geometry.pixelCount,
          (canvas.spanStrokes timing 7 false (fun _ => 0) timing.frameTacts 0).map Prod.fst =
            List.range timing.geometry.pixelCount := by
  have moderate : Geometry.bordered.Moderate := by
    constructor <;> decide
  rcases frame_tiles_picture moderate.proportionsFit moderate.frameFits moderate.pixelCount_lt
    (by decide) with ⟨exists_iff, tiles⟩
  rcases exists_iff.mpr moderate.fetchesFit with ⟨timing, built⟩
  rcases tiles timing built with ⟨used, -, -, -, draws⟩
  refine ⟨moderate.fetchesFit, timing, built, ?_, fun canvas => (draws canvas 7 false _).2⟩
  rw [used]
  decide

/-- The sums of tact and prefetch time of a frame fit their counters, but twice such a sum, the
pixel column, does not, and the frame has no timing. -/
theorem no_timing_farPrefetch :
    let geometry := { Geometry.oneLine with pixelPrefetchTime := 2 ^ 31 }
    geometry.ProportionsFit ∧ geometry.FrameFits ∧ geometry.pixelCount < UInt32.size ∧
      2 ≤ geometry.borderLeftTime + geometry.displayLineTime ∧
      (∀ column < geometry.lineTime, ∀ lead ≤ 4,
        column + lead + geometry.pixelPrefetchTime < UInt32.size ∧
          column + lead + geometry.attributePrefetchTime < UInt32.size) ∧
      ofGeometry geometry = none := by
  decide +kernel

end Timing

end ZxSpectrum
