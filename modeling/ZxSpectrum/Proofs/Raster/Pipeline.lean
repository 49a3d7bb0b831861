import ZxSpectrum.Proofs.Raster.Picture

namespace ZxSpectrum

/-! The circuit as a pipeline. Each cell of a display line is fetched some tacts before it is
shown; the bytes held at a tact are those of the cells that are still to be shown there. -/

/-- The frame is one that the circuit can draw: its measures fit their counters, the display has
rows and whole pairs of cells that have addresses, and the two fetches ahead of a line do not fall
together and are not too early for the line. -/
structure Geometry.Drawable (geometry : Geometry) : Prop where
  proportionsFit : geometry.ProportionsFit
  frameFits : geometry.FrameFits
  pixelCount_lt : geometry.pixelCount < UInt32.size
  displayLines_pos : 1 ≤ geometry.displayLines
  displayLines_le : geometry.displayLines ≤ 192
  displayLineTime_pos : 0 < geometry.displayLineTime
  eight_dvd_displayLineTime : 8 ∣ geometry.displayLineTime
  displayLineTime_le : geometry.displayLineTime ≤ 128
  pixelPrefetchTime_mem : 1 ≤ geometry.pixelPrefetchTime ∧ geometry.pixelPrefetchTime ≤ 3
  pixelPrefetchTime_le : geometry.pixelPrefetchTime ≤ geometry.borderLeftTime
  attributePrefetchTime_mem :
    1 ≤ geometry.attributePrefetchTime ∧ geometry.attributePrefetchTime ≤ 3
  attributePrefetchTime_le : geometry.attributePrefetchTime ≤ geometry.borderLeftTime
  prefetchTimes_ne : geometry.pixelPrefetchTime ≠ geometry.attributePrefetchTime

/-! What a tact does to the held bytes and which colours it shows, by its phase alone. -/

namespace HeldCells

def moved (held : HeldCells) : Phase → HeldCells
  | .blank | .border | .borderFetchPixels | .borderFetchAttribute => held
  | .first | .firstFetchPixels | .firstFetchAttribute =>
    { held with firstPixels := held.firstPixels <<< 2 }
  | .second | .secondFetchPixels | .secondFetchAttribute =>
    { held with secondPixels := held.secondPixels <<< 2 }

def topColours (bitmap attributes : UInt8) (flash : Bool) : UInt8 × UInt8 :=
  (pixelColour (bitmap &&& 0x80 ≠ 0) attributes flash,
    pixelColour (bitmap &&& 0x40 ≠ 0) attributes flash)

def shown (held : HeldCells) (border : UInt8) (flash : Bool) : Phase → UInt8 × UInt8
  | .blank | .border | .borderFetchPixels | .borderFetchAttribute => (border, border)
  | .first | .firstFetchPixels | .firstFetchAttribute =>
    topColours held.firstPixels held.firstAttribute flash
  | .second | .secondFetchPixels | .secondFetchAttribute =>
    topColours held.secondPixels held.secondAttribute flash

end HeldCells

theorem Canvas.draw_held (canvas : Canvas size) (slot : Slot) (border : UInt8) (flash : Bool)
    (memory : UInt16 → UInt8) :
    (canvas.draw slot border flash memory).held =
      fetch (canvas.held.moved slot.phase) slot memory := by
  rcases slot with ⟨phase, contention, address, index⟩
  cases phase <;> rfl

theorem Canvas.draw_pixels (canvas : Canvas size) (slot : Slot) (border : UInt8) (flash : Bool)
    (memory : UInt16 → UInt8) :
    (canvas.draw slot border flash memory).pixels =
      if slot.phase = .blank then canvas.pixels
      else
        let colours := canvas.held.shown border flash slot.phase
        (canvas.pixels.setIfInBounds slot.pixelIndex colours.1).setIfInBounds (slot.pixelIndex + 1)
          colours.2 := by
  rcases slot with ⟨phase, contention, address, index⟩
  cases phase <;> rfl

namespace Raster

variable {raster : Raster}

/-! The phase at a place, by where the place lies. -/

section Places

variable {line column : Nat}

theorem phase_of_hidden (hidden : ¬raster.Visible line column) :
    raster.phase line column = .blank := by
  rw [phase, if_pos hidden]

theorem phase_above_or_below (visible : raster.Visible line column)
    (elsewhere : ¬raster.OnDisplay line) : raster.phase line column = .border := by
  rw [phase, if_neg (not_not.mpr visible), if_pos elsewhere]

theorem phase_inside (visible : raster.Visible line column) (onDisplay : raster.OnDisplay line)
    (inDisplay : raster.InDisplay column) :
    raster.phase line column =
      .ofDisplayTact (column - raster.geometry.borderLeftTime)
        (raster.displayEnd - 2 ≤ column) := by
  rw [phase, if_neg (not_not.mpr visible), if_neg (not_not.mpr onDisplay), if_pos inDisplay]

theorem phase_beside (visible : raster.Visible line column) (onDisplay : raster.OnDisplay line)
    (outside : ¬raster.InDisplay column) :
    raster.phase line column =
      if column + raster.geometry.pixelPrefetchTime = raster.geometry.borderLeftTime then
        .borderFetchPixels
      else if column + raster.geometry.attributePrefetchTime = raster.geometry.borderLeftTime then
        .borderFetchAttribute
      else .border := by
  rw [phase, if_neg (not_not.mpr visible), if_neg (not_not.mpr onDisplay), if_neg outside]

end Places

/-! Where the phases of a frame lie. The display part of a line is divided into groups of eight
tacts, in which two cells are shown. -/

theorem onDisplay_iff (drawable : raster.geometry.Drawable) {line : Nat} :
    raster.OnDisplay line ↔
      raster.geometry.firstDisplayLine ≤ line ∧
        line < raster.geometry.firstDisplayLine + raster.geometry.displayLines := by
  have positive := drawable.displayLines_pos
  rw [OnDisplay, Geometry.lastDisplayLine]
  omega

theorem visible_of_onDisplay (drawable : raster.geometry.Drawable) {line column : Nat}
    (onDisplay : raster.OnDisplay line) (before : column < raster.displayEnd) :
    raster.Visible line column := by
  rw [onDisplay_iff drawable] at onDisplay
  simp only [Visible, Geometry.visibleLinesEnd, Geometry.firstDisplayLine, Geometry.visibleTime,
    displayEnd] at *
  omega

def groupTact (raster : Raster) (group step : Nat) : Nat :=
  raster.geometry.borderLeftTime + 8 * group + step

def IsGroup (raster : Raster) (group : Nat) : Prop :=
  8 * (group + 1) ≤ raster.geometry.displayLineTime

instance (raster : Raster) (group : Nat) : Decidable (raster.IsGroup group) :=
  inferInstanceAs (Decidable (_ ≤ _))

theorem inDisplay_groupTact {group step : Nat} (isGroup : raster.IsGroup group)
    (early : step < 8) : raster.InDisplay (raster.groupTact group step) := by
  rw [IsGroup] at isGroup
  rw [InDisplay, groupTact, displayEnd]
  omega

theorem exists_groupTact (drawable : raster.geometry.Drawable) {column : Nat}
    (inDisplay : raster.InDisplay column) :
    ∃ group step, raster.IsGroup group ∧ step < 8 ∧ column = raster.groupTact group step := by
  rcases drawable.eight_dvd_displayLineTime with ⟨groups, time⟩
  rw [InDisplay, displayEnd] at inDisplay
  refine ⟨(column - raster.geometry.borderLeftTime) / 8,
    (column - raster.geometry.borderLeftTime) % 8, ?_, Nat.mod_lt _ (by decide), ?_⟩
  · rw [IsGroup]
    omega
  · rw [groupTact]
    omega

theorem phase_groupTact (drawable : raster.geometry.Drawable) {line group step : Nat}
    (onDisplay : raster.OnDisplay line) (isGroup : raster.IsGroup group) (early : step < 8) :
    raster.phase line (raster.groupTact group step) =
      .ofDisplayTact step (decide (6 ≤ step ∧ ¬raster.IsGroup (group + 1))) := by
  have inDisplay := inDisplay_groupTact isGroup early
  have visible := visible_of_onDisplay drawable onDisplay inDisplay.2
  have last : (raster.displayEnd - 2 ≤ raster.groupTact group step) =
      (6 ≤ step ∧ ¬raster.IsGroup (group + 1)) := by
    rcases drawable.eight_dvd_displayLineTime with ⟨groups, time⟩
    rw [IsGroup] at isGroup
    rw [displayEnd, groupTact, IsGroup]
    apply propext
    omega
  have elapsed : (raster.groupTact group step - raster.geometry.borderLeftTime) % 8 = step % 8 := by
    rw [groupTact]
    omega
  rw [phase_inside visible onDisplay inDisplay]
  simp only [last, Phase.ofDisplayTact, elapsed]

theorem phase_border (drawable : raster.geometry.Drawable) {line column : Nat}
    (onDisplay : raster.OnDisplay line) (before : column < raster.geometry.borderLeftTime) :
    raster.phase line column =
      if column + raster.geometry.pixelPrefetchTime = raster.geometry.borderLeftTime then
        .borderFetchPixels
      else if column + raster.geometry.attributePrefetchTime = raster.geometry.borderLeftTime then
        .borderFetchAttribute
      else .border := by
  have visible : raster.Visible line column := by
    apply visible_of_onDisplay drawable onDisplay
    rw [displayEnd]
    omega
  exact phase_beside visible onDisplay fun inside => Nat.not_le.mpr before inside.1

/-! Which cell a fetch is for. -/

/-- The line tact, with the lead of the fetch, lies so far into the line that a fetch made this
many tacts ahead is for the cell. -/
def Awaits (raster : Raster) (cell ahead tact : Nat) : Prop :=
  raster.geometry.borderLeftTime + 4 * cell ≤ tact + ahead ∧
    tact + ahead < raster.geometry.borderLeftTime + 4 * cell + 4

theorem Awaits.pixelColumn {cell ahead tact : Nat} (awaits : raster.Awaits cell ahead tact) :
    raster.pixelColumn tact ahead / 8 = cell := by
  rw [Awaits] at awaits
  rw [Raster.pixelColumn]
  omega

theorem row_lt (drawable : raster.geometry.Drawable) {line : Nat}
    (onDisplay : raster.OnDisplay line) : raster.row line < 2 ^ 8 := by
  have few := drawable.displayLines_le
  rw [onDisplay_iff drawable] at onDisplay
  rw [row]
  omega

theorem pixelAddress_eq (drawable : raster.geometry.Drawable) {line tact cell : Nat}
    (onDisplay : raster.OnDisplay line) (cellLt : cell < 32)
    (awaits : raster.Awaits cell raster.geometry.pixelPrefetchTime tact) :
    raster.pixelAddress line tact = bitmapAddress (raster.row line) cell :=
  interleave_eq (row_lt drawable onDisplay) cellLt awaits.pixelColumn

theorem attributeAddress_eq (drawable : raster.geometry.Drawable) {line tact cell : Nat}
    (onDisplay : raster.OnDisplay line) (cellLt : cell < 32)
    (awaits : raster.Awaits cell raster.geometry.attributePrefetchTime tact) :
    raster.attributeAddress line tact = ZxSpectrum.attributeAddress (raster.row line) cell := by
  rw [attributeAddress, attributeOffset_eq (row_lt drawable onDisplay) cellLt awaits.pixelColumn,
    ← Nat.add_assoc]
  rfl

/-! The four fetches of a group: two for its second cell and two for the first cell of the next
group. -/

section GroupFetches

variable {line group : Nat}

theorem cells_lt (drawable : raster.geometry.Drawable) (isGroup : raster.IsGroup group) :
    2 * group + 1 < 32 := by
  have short := drawable.displayLineTime_le
  rw [IsGroup] at isGroup
  omega

theorem fetchAddress_firstFetchPixels (drawable : raster.geometry.Drawable)
    (onDisplay : raster.OnDisplay line) (isGroup : raster.IsGroup group) :
    raster.fetchAddress .firstFetchPixels line (raster.groupTact group 0) =
      bitmapAddress (raster.row line) (2 * group + 1) := by
  apply pixelAddress_eq drawable onDisplay (cells_lt drawable isGroup)
  have early := drawable.pixelPrefetchTime_mem
  rw [Awaits, groupTact, Phase.lead]
  omega

theorem fetchAddress_firstFetchAttribute (drawable : raster.geometry.Drawable)
    (onDisplay : raster.OnDisplay line) (isGroup : raster.IsGroup group) :
    raster.fetchAddress .firstFetchAttribute line (raster.groupTact group 1) =
      ZxSpectrum.attributeAddress (raster.row line) (2 * group + 1) := by
  apply attributeAddress_eq drawable onDisplay (cells_lt drawable isGroup)
  have early := drawable.attributePrefetchTime_mem
  rw [Awaits, groupTact, Phase.lead]
  omega

theorem fetchAddress_secondFetchPixels (drawable : raster.geometry.Drawable)
    (onDisplay : raster.OnDisplay line) (nextIsGroup : raster.IsGroup (group + 1)) :
    raster.fetchAddress .secondFetchPixels line (raster.groupTact group 6) =
      bitmapAddress (raster.row line) (2 * (group + 1)) := by
  apply pixelAddress_eq drawable onDisplay (Nat.lt_of_succ_lt (cells_lt drawable nextIsGroup))
  have early := drawable.pixelPrefetchTime_mem
  rw [Awaits, groupTact, Phase.lead]
  omega

theorem fetchAddress_secondFetchAttribute (drawable : raster.geometry.Drawable)
    (onDisplay : raster.OnDisplay line) (nextIsGroup : raster.IsGroup (group + 1)) :
    raster.fetchAddress .secondFetchAttribute line (raster.groupTact group 7) =
      ZxSpectrum.attributeAddress (raster.row line) (2 * (group + 1)) := by
  apply attributeAddress_eq drawable onDisplay (Nat.lt_of_succ_lt (cells_lt drawable nextIsGroup))
  have early := drawable.attributePrefetchTime_mem
  rw [Awaits, groupTact, Phase.lead]
  omega

end GroupFetches

theorem slot_phase (raster : Raster) (line column : Nat) :
    (raster.slot line column).phase = raster.phase line column := by
  rw [slot]
  split
  · next blank => exact blank.symm
  · rfl

theorem slot_fetchAddress (raster : Raster) (line column : Nat) :
    (raster.slot line column).fetchAddress =
      raster.fetchAddress (raster.phase line column) line column := by
  rw [slot]
  split
  · next blank => rw [blank]; rfl
  · rfl

end Raster

/-! The held bytes, before the tact at a place of a display line. -/

/-- In the left border the bytes of the first cell are held once they have been fetched. -/
structure HeldAhead (raster : Raster) (memory : UInt16 → UInt8) (row column : Nat)
    (held : HeldCells) : Prop where
  firstPixels :
    raster.geometry.borderLeftTime < column + raster.geometry.pixelPrefetchTime →
      held.firstPixels = memory (bitmapAddress row 0)
  firstAttribute :
    raster.geometry.borderLeftTime < column + raster.geometry.attributePrefetchTime →
      held.firstAttribute = memory (attributeAddress row 0)

/-- In a group the first cell is held until its four tacts are over, the second one from its
fetches on, and before the last tact also the bitmap byte that the next group starts with. -/
structure HeldInGroup (raster : Raster) (memory : UInt16 → UInt8) (row group step : Nat)
    (held : HeldCells) : Prop where
  firstPixels : step < 4 →
    held.firstPixels = rolled (memory (bitmapAddress row (2 * group))) step
  firstAttribute : step < 4 → held.firstAttribute = memory (attributeAddress row (2 * group))
  secondPixels : 1 ≤ step →
    held.secondPixels = rolled (memory (bitmapAddress row (2 * group + 1))) (step - 4)
  secondAttribute : 2 ≤ step →
    held.secondAttribute = memory (attributeAddress row (2 * group + 1))
  nextPixels : step = 7 → raster.IsGroup (group + 1) →
    held.firstPixels = memory (bitmapAddress row (2 * (group + 1)))

/-- Nothing is asked of the held bytes in the right border and in blanking. -/
structure Holds (raster : Raster) (memory : UInt16 → UInt8) (row column : Nat) (held : HeldCells) :
    Prop where
  ahead : column ≤ raster.geometry.borderLeftTime → HeldAhead raster memory row column held
  inGroup : ∀ group step, raster.IsGroup group → step < 8 → column = raster.groupTact group step →
    HeldInGroup raster memory row group step held

section Steps

variable {raster : Raster} {memory : UInt16 → UInt8} {line group step : Nat} {held : HeldCells}

theorem Holds.lineStart (drawable : raster.geometry.Drawable) (row : Nat) :
    Holds raster memory row 0 held := by
  have pixelsInLine := drawable.pixelPrefetchTime_le
  have attributesInLine := drawable.attributePrefetchTime_le
  have pixelsEarly := drawable.pixelPrefetchTime_mem
  refine ⟨fun _ => ⟨fun late => ?_, fun late => ?_⟩, fun group step _ _ place => ?_⟩
  · omega
  · omega
  · rw [Raster.groupTact] at place
    omega

def heldAfter (raster : Raster) (memory : UInt16 → UInt8) (line column : Nat) (held : HeldCells) :
    HeldCells :=
  let phase := raster.phase line column
  Canvas.fetch (held.moved phase)
    { phase, fetchAddress := raster.fetchAddress phase line column } memory

theorem heldAhead_succ (drawable : raster.geometry.Drawable) (onDisplay : raster.OnDisplay line)
    {column : Nat} (before : column < raster.geometry.borderLeftTime)
    (holds : HeldAhead raster memory (raster.row line) column held) :
    HeldAhead raster memory (raster.row line) (column + 1)
      (heldAfter raster memory line column held) := by
  have different := drawable.prefetchTimes_ne
  have phase := Raster.phase_border drawable onDisplay before
  split_ifs at phase with pixelsNow attributeNow
  all_goals rw [heldAfter, phase]
  · have awaits : raster.Awaits 0 raster.geometry.pixelPrefetchTime column := by
      rw [Raster.Awaits]
      omega
    have arrives := Raster.pixelAddress_eq drawable onDisplay (by decide) awaits
    exact ⟨fun _ => congrArg memory arrives, fun late => holds.firstAttribute (by omega)⟩
  · have awaits : raster.Awaits 0 raster.geometry.attributePrefetchTime column := by
      rw [Raster.Awaits]
      omega
    have arrives := Raster.attributeAddress_eq drawable onDisplay (by decide) awaits
    exact ⟨fun late => holds.firstPixels (by omega), fun _ => congrArg memory arrives⟩
  · exact ⟨fun late => holds.firstPixels (by omega), fun late => holds.firstAttribute (by omega)⟩

theorem heldInGroup_succ (drawable : raster.geometry.Drawable) (onDisplay : raster.OnDisplay line)
    (isGroup : raster.IsGroup group) (early : step < 7)
    (holds : HeldInGroup raster memory (raster.row line) group step held) :
    HeldInGroup raster memory (raster.row line) group (step + 1)
      (heldAfter raster memory line (raster.groupTact group step) held) := by
  have phase := Raster.phase_groupTact drawable onDisplay isGroup (Nat.lt_succ_of_lt early)
  have moves {byte other : UInt8} (same : byte = other) : byte <<< 2 = other <<< 2 := by rw [same]
  rcases holds with ⟨firstPixels, firstAttribute, secondPixels, secondAttribute, -⟩
  rw [heldAfter, phase]
  interval_cases step
  case «0» =>
      have arrives := Raster.fetchAddress_firstFetchPixels drawable onDisplay isGroup
      exact ⟨fun _ => moves (firstPixels (by decide)), fun _ => firstAttribute (by decide),
        fun _ => congrArg memory arrives, nofun, nofun⟩
  case «1» =>
      have arrives := Raster.fetchAddress_firstFetchAttribute drawable onDisplay isGroup
      exact ⟨fun _ => moves (firstPixels (by decide)), fun _ => firstAttribute (by decide),
        fun _ => secondPixels (by decide), fun _ => congrArg memory arrives, nofun⟩
  case «2» =>
      exact ⟨fun _ => moves (firstPixels (by decide)), fun _ => firstAttribute (by decide),
        fun _ => secondPixels (by decide), fun _ => secondAttribute (by decide), nofun⟩
  case «3» =>
      exact ⟨nofun, nofun, fun _ => secondPixels (by decide), fun _ => secondAttribute (by decide),
        nofun⟩
  case «4» =>
      exact ⟨nofun, nofun, fun _ => moves (secondPixels (by decide)),
        fun _ => secondAttribute (by decide), nofun⟩
  case «5» =>
      exact ⟨nofun, nofun, fun _ => moves (secondPixels (by decide)),
        fun _ => secondAttribute (by decide), nofun⟩
  case «6» =>
      by_cases another : raster.IsGroup (group + 1)
      · have arrives := Raster.fetchAddress_secondFetchPixels drawable onDisplay another
        rw [decide_eq_false fun last => last.2 another]
        exact ⟨nofun, nofun, fun _ => moves (secondPixels (by decide)),
          fun _ => secondAttribute (by decide), fun _ _ => congrArg memory arrives⟩
      · rw [decide_eq_true ⟨by decide, another⟩]
        exact ⟨nofun, nofun, fun _ => moves (secondPixels (by decide)),
          fun _ => secondAttribute (by decide), fun _ next => absurd next another⟩

theorem heldInGroup_next (drawable : raster.geometry.Drawable) (onDisplay : raster.OnDisplay line)
    (isGroup : raster.IsGroup group) (another : raster.IsGroup (group + 1))
    (holds : HeldInGroup raster memory (raster.row line) group 7 held) :
    HeldInGroup raster memory (raster.row line) (group + 1) 0
      (heldAfter raster memory line (raster.groupTact group 7) held) := by
  have phase := Raster.phase_groupTact drawable onDisplay isGroup (by decide : 7 < 8)
  have arrives := Raster.fetchAddress_secondFetchAttribute drawable onDisplay another
  rw [decide_eq_false fun last => last.2 another] at phase
  rw [heldAfter, phase]
  exact ⟨fun _ => holds.nextPixels rfl another, fun _ => congrArg memory arrives, nofun, nofun,
    nofun⟩

theorem HeldAhead.heldInGroup (drawable : raster.geometry.Drawable) {row : Nat}
    (holds : HeldAhead raster memory row raster.geometry.borderLeftTime held) :
    HeldInGroup raster memory row 0 0 held := by
  have pixelsEarly := drawable.pixelPrefetchTime_mem
  have attributesEarly := drawable.attributePrefetchTime_mem
  exact ⟨fun _ => holds.firstPixels (by omega), fun _ => holds.firstAttribute (by omega), nofun,
    nofun, nofun⟩

theorem Holds.succ (drawable : raster.geometry.Drawable) (onDisplay : raster.OnDisplay line)
    {column : Nat} (holds : Holds raster memory (raster.row line) column held) :
    Holds raster memory (raster.row line) (column + 1)
      (heldAfter raster memory line column held) := by
  have ahead (inBorder : column < raster.geometry.borderLeftTime) :=
    heldAhead_succ drawable onDisplay inBorder (holds.ahead (Nat.le_of_lt inBorder))
  refine ⟨ahead, fun group step isGroup early place => ?_⟩
  cases step with
  | succ step =>
      have before : column = raster.groupTact group step := Nat.succ.inj place
      subst before
      exact heldInGroup_succ drawable onDisplay isGroup (by omega)
        (holds.inGroup group step isGroup (by omega) rfl)
  | zero =>
      cases group with
      | zero =>
          have start : column + 1 = raster.geometry.borderLeftTime := place
          have held := ahead (Nat.lt_of_succ_le (Nat.le_of_eq start))
          rw [start] at held
          exact held.heldInGroup drawable
      | succ group =>
          have before : column = raster.groupTact group 7 := by
            rw [Raster.groupTact] at place ⊢
            omega
          subst before
          have isGroupBefore : raster.IsGroup group := by
            rw [Raster.IsGroup] at isGroup ⊢
            omega
          exact heldInGroup_next drawable onDisplay isGroupBefore isGroup
            (holds.inGroup group 7 isGroupBefore (by decide) rfl)

end Steps

/-! What is shown is the picture. -/

section Shown

variable {raster : Raster} {memory : UInt16 → UInt8} {line group step : Nat} {held : HeldCells}

theorem topColours_rolled (memory : UInt16 → UInt8) (flash : Bool) (row cell : Nat) {tacts : Nat}
    (early : tacts < 4) :
    HeldCells.topColours (rolled (memory (bitmapAddress row cell)) tacts)
        (memory (attributeAddress row cell)) flash =
      (displayPixel memory flash row (8 * cell + 2 * tacts),
        displayPixel memory flash row (8 * cell + 2 * tacts + 1)) := by
  have leftCell : (8 * cell + 2 * tacts) / 8 = cell := by omega
  have leftBit : 7 - (8 * cell + 2 * tacts) % 8 = 7 - 2 * tacts := by omega
  have rightCell : (8 * cell + 2 * tacts + 1) / 8 = cell := by omega
  have rightBit : 7 - (8 * cell + 2 * tacts + 1) % 8 = 6 - 2 * tacts := by omega
  rcases rolled_bits (memory (bitmapAddress row cell)) early with ⟨left, right⟩
  simp only [HeldCells.topColours, displayPixel, leftCell, leftBit, rightCell, rightBit,
    pixelColour_eq, left, right]

theorem shown_groupTact (border : UInt8) (flash last : Bool) {row : Nat} (early : step < 8)
    (holds : HeldInGroup raster memory row group step held) :
    held.shown border flash (.ofDisplayTact step last) =
      (displayPixel memory flash row (16 * group + 2 * step),
        displayPixel memory flash row (16 * group + 2 * step + 1)) := by
  by_cases firstCell : step < 4
  · have shown : held.shown border flash (.ofDisplayTact step last) =
        HeldCells.topColours held.firstPixels held.firstAttribute flash := by
      interval_cases step <;> rfl
    have place : 16 * group + 2 * step = 8 * (2 * group) + 2 * step := by omega
    rw [shown, holds.firstPixels firstCell, holds.firstAttribute firstCell, place,
      topColours_rolled memory flash row _ firstCell]
  · have shown : held.shown border flash (.ofDisplayTact step last) =
        HeldCells.topColours held.secondPixels held.secondAttribute flash := by
      interval_cases step <;> first | omega | (cases last <;> rfl)
    have place : 16 * group + 2 * step = 8 * (2 * group + 1) + 2 * (step - 4) := by omega
    rw [shown, holds.secondPixels (by omega), holds.secondAttribute (by omega), place,
      topColours_rolled memory flash row _ (by omega)]

theorem onPaper_iff (drawable : raster.geometry.Drawable) {column x : Nat}
    (visible : raster.Visible line column) (inTact : x / 2 = column) :
    raster.geometry.OnPaper (line - raster.geometry.firstVisibleLine) x ↔
      raster.OnDisplay line ∧ raster.InDisplay column := by
  rw [Raster.onDisplay_iff drawable]
  simp only [Raster.Visible, Raster.InDisplay, Raster.displayEnd, Geometry.OnPaper,
    Geometry.firstDisplayLine, Geometry.borderLeftPixels, Geometry.displayWidth] at *
  omega

theorem shown_eq_picture (drawable : raster.geometry.Drawable) (border : UInt8) (flash : Bool)
    {column : Nat} (visible : raster.Visible line column)
    (holds : raster.OnDisplay line → Holds raster memory (raster.row line) column held) :
    let y := line - raster.geometry.firstVisibleLine
    held.shown border flash (raster.phase line column) =
      (raster.geometry.pictureAt memory border flash y (2 * column),
        raster.geometry.pictureAt memory border flash y (2 * column + 1)) := by
  intro y
  have left := onPaper_iff drawable visible (by omega : 2 * column / 2 = column)
  have right := onPaper_iff drawable visible (by omega : (2 * column + 1) / 2 = column)
  by_cases inside : raster.OnDisplay line ∧ raster.InDisplay column
  · rcases inside with ⟨onDisplay, inDisplay⟩
    rcases Raster.exists_groupTact drawable inDisplay with ⟨group, step, isGroup, early, rfl⟩
    have held := (holds onDisplay).inGroup group step isGroup early rfl
    have row : y - raster.geometry.borderTopLines = raster.row line := by
      rw [Raster.row, Geometry.firstDisplayLine, Nat.sub_add_eq]
    have x : 2 * raster.groupTact group step - raster.geometry.borderLeftPixels =
        16 * group + 2 * step := by
      rw [Raster.groupTact, Geometry.borderLeftPixels]
      omega
    have next : 2 * raster.groupTact group step + 1 - raster.geometry.borderLeftPixels =
        16 * group + 2 * step + 1 := by
      rw [Raster.groupTact, Geometry.borderLeftPixels]
      omega
    rw [Geometry.pictureAt, Geometry.pictureAt, if_pos (left.mpr ⟨onDisplay, inDisplay⟩),
      if_pos (right.mpr ⟨onDisplay, inDisplay⟩), row, x, next,
      Raster.phase_groupTact drawable onDisplay isGroup early]
    exact shown_groupTact border flash _ early held
  · rw [Geometry.pictureAt, Geometry.pictureAt, if_neg (inside ∘ left.mp),
      if_neg (inside ∘ right.mp)]
    by_cases onDisplay : raster.OnDisplay line
    · rw [Raster.phase_beside visible onDisplay fun inDisplay => inside ⟨onDisplay, inDisplay⟩]
      split_ifs <;> rfl
    · rw [Raster.phase_above_or_below visible onDisplay]
      rfl

end Shown

end ZxSpectrum
