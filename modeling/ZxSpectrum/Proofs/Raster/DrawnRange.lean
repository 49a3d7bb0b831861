import ZxSpectrum.Proofs.Raster.DisplayArea

namespace ZxSpectrum

/-! Which tacts a range of the frame draws. A range that runs forwards draws those of its tacts that
the frame has, and one that runs backwards goes round the end of the frame. A forward range that
lies wholly past the frame draws the whole frame, however: once its last tact has been moved into
the frame, it runs backwards. -/

namespace Timing

/-- The tacts of the frame from one to another, in order. When they run backwards, the rest of the
frame comes first and then its start. -/
def tactsBetween (timing : Timing) (first last : Nat) : List Nat :=
  let frame := List.range timing.frameTacts
  if first ≤ last then frame.filter fun tact => first ≤ tact ∧ tact ≤ last
  else frame.filter (first ≤ ·) ++ frame.filter (· ≤ last)

theorem filter_range_eq_range' {size first bound : Nat} {inside : Nat → Bool} (fits : bound ≤ size)
    (inside_iff : ∀ tact < size, inside tact ↔ first ≤ tact ∧ tact < bound) :
    (List.range size).filter inside = List.range' first (bound - first) := by
  have ordered : ((List.range size).filter inside).SortedLT :=
    (List.pairwise_lt_range.filter inside).sortedLT
  apply ordered.eq_of_mem_iff (List.sortedLT_range' _ _ Nat.one_ne_zero)
  intro tact
  rw [List.mem_filter, List.mem_range, List.mem_range'_1]
  constructor
  · rintro ⟨short, within⟩
    have := (inside_iff tact short).mp within
    omega
  · intro within
    exact ⟨by omega, (inside_iff tact (by omega)).mpr (by omega)⟩

variable {timing : Timing} {first last : Nat}

theorem tactsBetween_forwards (forwards : first ≤ last) :
    timing.tactsBetween first last =
      List.range' first (min (last + 1) timing.frameTacts - first) := by
  rw [tactsBetween, if_pos forwards]
  apply filter_range_eq_range' (Nat.min_le_right _ _)
  intro tact short
  rw [decide_eq_true_iff]
  omega

theorem tactsBetween_backwards (backwards : last < first) :
    timing.tactsBetween first last =
      List.range' first (timing.frameTacts - first) ++
        List.range' 0 (min (last + 1) timing.frameTacts) := by
  rw [tactsBetween, if_neg (Nat.not_le_of_lt backwards)]
  congr 1
  · apply filter_range_eq_range' (Nat.le_refl _)
    intro tact short
    rw [decide_eq_true_iff]
    omega
  · apply filter_range_eq_range' (Nat.min_le_right _ _)
    intro tact short
    rw [decide_eq_true_iff]
    omega

theorem nodup_tactsBetween (timing : Timing) (first last : Nat) :
    (timing.tactsBetween first last).Nodup := by
  rcases Nat.lt_or_ge last first with backwards | forwards
  · rw [tactsBetween_backwards backwards, List.nodup_append']
    refine ⟨List.nodup_range', List.nodup_range', fun tact tail head => ?_⟩
    rw [List.mem_range'_1] at tail head
    omega
  · rw [tactsBetween_forwards forwards]
    exact List.nodup_range'

end Timing

namespace Canvas

variable {timing : Timing} {border : UInt8} {flash : Bool} {memory : UInt16 → UInt8}

/-! Drawing tact after tact, from memory as it is now. -/

def drawTacts (timing : Timing) (border : UInt8) (flash : Bool) (memory : UInt16 → UInt8)
    (tacts : List Nat) (canvas : Canvas size) : Canvas size :=
  tacts.foldl (fun canvas tact => canvas.draw (timing.slotAt tact) border flash memory) canvas

theorem drawSpan_eq_drawTacts (count first : Nat) (canvas : Canvas size) :
    canvas.drawSpan timing border flash memory count first =
      canvas.drawTacts timing border flash memory (List.range' first count) := by
  induction count generalizing first canvas with
  | zero => rfl
  | succ count induction =>
      rw [drawSpan, induction, List.range'_succ]
      rfl

end Canvas

namespace Screen

def drawTacts (screen : Screen) (memory : UInt16 → UInt8) (tacts : List Nat) : Screen :=
  { screen with
    canvas := screen.canvas.drawTacts screen.timing screen.border screen.flash memory tacts }

theorem drawTacts_append (screen : Screen) (memory : UInt16 → UInt8) (tacts later : List Nat) :
    screen.drawTacts memory (tacts ++ later) =
      (screen.drawTacts memory tacts).drawTacts memory later := by
  rw [drawTacts, Canvas.drawTacts, List.foldl_append]
  rfl

theorem drawRange_eq_drawTacts (screen : Screen) (first bound : Nat) (memory : UInt16 → UInt8) :
    screen.drawRange first bound memory =
      screen.drawTacts memory (List.range' first (bound - first)) := by
  rw [drawRange, drawTacts, Canvas.drawSpan_eq_drawTacts]

/-! The tacts that a range draws, also when it is cut in two. -/

def drawnBetween (timing : Timing) (first last : Nat) : List Nat :=
  if timing.frameTacts ≤ first ∧ first ≤ last then List.range timing.frameTacts
  else timing.tactsBetween first last

theorem render_eq_drawTacts (screen : Screen) (first last : Nat) (memory : UInt16 → UInt8) :
    screen.render first last memory =
      screen.drawTacts memory (drawnBetween screen.timing first last) := by
  have frame : 0 < screen.timing.frameTacts := screen.timing.raster.frameTacts_pos
  have bound : min last (screen.timing.frameTacts - 1) + 1 =
      min (last + 1) screen.timing.frameTacts := by omega
  rw [render, bound]
  split
  · next inFrame =>
      rw [drawRange_eq_drawTacts, drawnBetween, if_neg (by omega),
        Timing.tactsBetween_forwards (by omega)]
  · next outside =>
      rw [drawRange_eq_drawTacts, drawRange_eq_drawTacts, ← drawTacts_append, drawnBetween]
      split
      · next past =>
          have tail : screen.timing.frameTacts - first = 0 := by omega
          have head : min (last + 1) screen.timing.frameTacts - 0 = screen.timing.frameTacts := by
            omega
          rw [tail, head, List.range_eq_range']
          rfl
      · rw [Timing.tactsBetween_backwards (by omega)]
        rfl

/-- A range cut after a tact that is not the frame's last draws what it drew in one piece. Cut
later, its second part lies past the frame. -/
theorem drawnBetween_append {timing : Timing} {first middle last : Nat} (start : first ≤ middle)
    (before : middle < last) :
    drawnBetween timing first middle ++ drawnBetween timing (middle + 1) last =
      drawnBetween timing first last ++
        if middle + 1 < timing.frameTacts then [] else List.range timing.frameTacts := by
  have forwards : first ≤ last := by omega
  by_cases inFrame : middle + 1 < timing.frameTacts
  · have cut : middle + 1 = first + (middle + 1 - first) := by omega
    have lengths : middle + 1 - first + (min (last + 1) timing.frameTacts - (middle + 1)) =
        min (last + 1) timing.frameTacts - first := by omega
    have joined := List.range'_append_1 (s := first) (m := middle + 1 - first)
      (n := min (last + 1) timing.frameTacts - (middle + 1))
    rw [← cut, lengths] at joined
    rw [if_pos inFrame, List.append_nil, drawnBetween, drawnBetween, drawnBetween,
      if_neg (by omega), if_neg (by omega), if_neg (by omega),
      Timing.tactsBetween_forwards start, Timing.tactsBetween_forwards before,
      Timing.tactsBetween_forwards forwards, min_eq_left (Nat.le_of_lt inFrame), joined]
  · have rest : drawnBetween timing (middle + 1) last = List.range timing.frameTacts :=
      if_pos ⟨Nat.not_lt.mp inFrame, before⟩
    have same : drawnBetween timing first middle = drawnBetween timing first last := by
      rw [drawnBetween, drawnBetween, Timing.tactsBetween_forwards start,
        Timing.tactsBetween_forwards forwards, min_eq_right (Nat.not_lt.mp inFrame),
        min_eq_right (by omega)]
      simp only [start, forwards]
    rw [if_neg inFrame, rest, same]

/-- A range draws its tacts of the frame in order, each once, unless it runs forwards and lies
wholly past the frame: then it draws the whole frame. So with the same memory a forward range can be cut in
two after any tact of the frame but the last; after that one and those past the frame, the second
part draws a frame too many. -/
theorem render_draws_tactsBetween (screen : Screen) (memory : UInt16 → UInt8) (first last : Nat) :
    let timing := screen.timing
    (timing.tactsBetween first last).Nodup ∧
      screen.render first last memory =
        screen.drawTacts memory
          (if timing.frameTacts ≤ first ∧ first ≤ last then List.range timing.frameTacts
          else timing.tactsBetween first last) ∧
      ∀ middle, first ≤ middle → middle < last →
        (screen.render first middle memory).render (middle + 1) last memory =
          if middle + 1 < timing.frameTacts then screen.render first last memory
          else (screen.render first last memory).drawTacts memory
            (List.range timing.frameTacts) := by
  intro timing
  refine ⟨timing.nodup_tactsBetween first last, screen.render_eq_drawTacts first last memory,
    fun middle start before => ?_⟩
  have same : (screen.drawTacts memory (drawnBetween timing first middle)).timing = timing := rfl
  rw [render_eq_drawTacts screen first middle, render_eq_drawTacts, same, ← drawTacts_append,
    drawnBetween_append start before, drawTacts_append, ← render_eq_drawTacts]
  split <;> rfl

theorem render_draws_tactsBetween_oneLine :
    2 ≤ 6 ∧ 6 < 30 ∧ ∃ screen,
      Timing.ofGeometry .oneLine >>= ofTiming = some screen ∧
        screen.timing.tactsBetween 2 30 = (List.range 20).drop 2 ∧
        (screen.render 2 6 fun _ => 0x55).render 7 30 (fun _ => 0x55) =
          screen.render 2 30 fun _ => 0x55 := by
  let screen := Option.get _ Geometry.oneLine_fits
  have found : Timing.ofGeometry .oneLine >>= ofTiming = some screen := (Option.some_get _).symm
  obtain ⟨tacts, inFrame⟩ : screen.timing.tactsBetween 2 30 = (List.range 20).drop 2 ∧
      6 + 1 < screen.timing.frameTacts := by
    decide +kernel
  rcases render_draws_tactsBetween screen (fun _ => 0x55) 2 30 with ⟨-, -, cut⟩
  have whole := cut 6 (by decide) (by decide)
  rw [if_pos inFrame] at whole
  exact ⟨by decide, by decide, screen, found, tacts, whole⟩

/-- A range past the frame has no tacts, and yet it draws: on a black screen the first pixel becomes
white. Nor can a range be cut after the last tact of the frame. -/
theorem render_draws_pastFrame :
    let screen := Option.get _ Geometry.oneLine_fits
    let memory : UInt16 → UInt8 := fun _ => 0
    screen.timing.tactsBetween 20 25 = [] ∧
      (screen.drawTacts memory []).pixels[0]? = some 0 ∧
      (screen.render 20 25 memory).pixels[0]? = some 7 ∧
      ((screen.render 15 19 memory).render 20 25 memory).pixels ≠
        (screen.render 15 25 memory).pixels := by
  decide +kernel

end Screen

end ZxSpectrum
