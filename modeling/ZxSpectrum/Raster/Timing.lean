import ZxSpectrum.Number.Bound
import ZxSpectrum.Raster.Address

namespace ZxSpectrum

/-! What the video circuit does at each tact of a frame. The display part of a line repeats a
pattern of eight tacts: the circuit shows two pixels a tact from the cell it holds while it
fetches the bitmap and attribute bytes of the next one. Two more fetches, in the left border,
load the first cell of a line. -/

inductive Phase
  /-- Blanking or sync: nothing is drawn. -/
  | blank
  /-- Two border pixels. -/
  | border
  /-- Two border pixels, and the first bitmap byte of the line is fetched. -/
  | borderFetchPixels
  /-- Two border pixels, and the first attribute byte of the line is fetched. -/
  | borderFetchAttribute
  /-- Two pixels of the first held cell. -/
  | first
  /-- Two pixels of the first cell, and the bitmap byte of the second is fetched. -/
  | firstFetchPixels
  /-- Two pixels of the first cell, and the attribute byte of the second is fetched. -/
  | firstFetchAttribute
  /-- Two pixels of the second held cell. -/
  | second
  /-- Two pixels of the second cell, and the bitmap byte of the first is fetched. -/
  | secondFetchPixels
  /-- Two pixels of the second cell, and the attribute byte of the first is fetched. -/
  | secondFetchAttribute
deriving DecidableEq

namespace Phase

def label : Phase → String
  | .blank => "None"
  | .border => "Border"
  | .borderFetchPixels => "BorderFetchPixel"
  | .borderFetchAttribute => "BorderFetchPixelAttr"
  | .first => "DisplayB1"
  | .firstFetchPixels => "DisplayB1FetchB2"
  | .firstFetchAttribute => "DisplayB1FetchA2"
  | .second => "DisplayB2"
  | .secondFetchPixels => "DisplayB2FetchB1"
  | .secondFetchAttribute => "DisplayB2FetchA1"

def all : List Phase :=
  [.blank, .border, .borderFetchPixels, .borderFetchAttribute, .first, .firstFetchPixels,
    .firstFetchAttribute, .second, .secondFetchPixels, .secondFetchAttribute]

theorem mem_all (phase : Phase) : phase ∈ all := by
  cases phase <;> decide

def fetchesPixels : Phase → Bool
  | .borderFetchPixels | .firstFetchPixels | .secondFetchPixels => true
  | _ => false

def fetchesAttribute : Phase → Bool
  | .borderFetchAttribute | .firstFetchAttribute | .secondFetchAttribute => true
  | _ => false

/-- How many tacts later the fetched cell would be due if it were the first of its line. -/
def lead : Phase → Nat
  | .firstFetchPixels => 4
  | .firstFetchAttribute => 3
  | .secondFetchPixels => 2
  | .secondFetchAttribute => 1
  | _ => 0

/-- The phase of a tact of the display part of a line. The last two tacts fetch nothing. -/
def ofDisplayTact (tact : Nat) (last : Bool) : Phase :=
  match tact % 8, last with
  | 0, _ => .firstFetchPixels
  | 1, _ => .firstFetchAttribute
  | 2, _ | 3, _ => .first
  | 6, false => .secondFetchPixels
  | 7, false => .secondFetchAttribute
  | _, _ => .second

end Phase

/-! The slots of a frame, one for each tact. -/

structure Slot where
  phase : Phase := .blank
  /-- The tacts by which a contended access at this tact is delayed. -/
  contention : Nat := 0
  /-- The address of the fetched byte; zero in phases without a fetch. -/
  fetchAddress : UInt16 := 0
  /-- The place in the picture of the first of the two pixels drawn. -/
  pixelIndex : Nat := 0
deriving DecidableEq

namespace Slot

def pixelAddress (slot : Slot) : UInt16 :=
  if slot.phase.fetchesPixels then slot.fetchAddress else 0

def attributeAddress (slot : Slot) : UInt16 :=
  if slot.phase.fetchesAttribute then slot.fetchAddress else 0

end Slot

namespace Raster

/-! Where a place of the frame lies: whether pixels are drawn there, and whether they are pixels of
the display. -/

def Visible (raster : Raster) (line column : Nat) : Prop :=
  raster.geometry.firstVisibleLine ≤ line ∧ line < raster.geometry.visibleLinesEnd ∧
    column < raster.geometry.visibleTime

instance (raster : Raster) (line column : Nat) : Decidable (raster.Visible line column) :=
  inferInstanceAs (Decidable (_ ∧ _))

def OnDisplay (raster : Raster) (line : Nat) : Prop :=
  raster.geometry.firstDisplayLine ≤ line ∧ line ≤ raster.geometry.lastDisplayLine

instance (raster : Raster) (line : Nat) : Decidable (raster.OnDisplay line) :=
  inferInstanceAs (Decidable (_ ∧ _))

def displayEnd (raster : Raster) : Nat :=
  raster.geometry.borderLeftTime + raster.geometry.displayLineTime

def InDisplay (raster : Raster) (column : Nat) : Prop :=
  raster.geometry.borderLeftTime ≤ column ∧ column < raster.displayEnd

instance (raster : Raster) (column : Nat) : Decidable (raster.InDisplay column) :=
  inferInstanceAs (Decidable (_ ∧ _))

def phase (raster : Raster) (line column : Nat) : Phase :=
  let geometry := raster.geometry
  if ¬raster.Visible line column then .blank
  else if ¬raster.OnDisplay line then .border
  else if raster.InDisplay column then
    .ofDisplayTact (column - geometry.borderLeftTime) (raster.displayEnd - 2 ≤ column)
  else if column + geometry.pixelPrefetchTime = geometry.borderLeftTime then .borderFetchPixels
  else if column + geometry.attributePrefetchTime = geometry.borderLeftTime then
    .borderFetchAttribute
  else .border

/-- The delay of a contended access at a place of the frame. The two fetches in the border
delay as the last two tacts of the pattern do. -/
def contention (raster : Raster) (line column : Nat) : Nat :=
  match raster.phase line column with
  | .blank | .border => 0
  | .borderFetchPixels => raster.geometry.contention.delay 6
  | .borderFetchAttribute => raster.geometry.contention.delay 7
  | _ => raster.geometry.contention.delay (column - raster.geometry.borderLeftTime)

def pixelIndex (raster : Raster) (line column : Nat) : Nat :=
  (line - raster.geometry.firstVisibleLine) * raster.geometry.screenWidth + 2 * column

/-! What is fetched at a place, and its slot. -/

def fetchAddress (raster : Raster) (phase : Phase) (line column : Nat) : UInt16 :=
  if phase.fetchesPixels then raster.pixelAddress line (column + phase.lead)
  else if phase.fetchesAttribute then raster.attributeAddress line (column + phase.lead)
  else 0

def slot (raster : Raster) (line column : Nat) : Slot :=
  let phase := raster.phase line column
  if phase = .blank then {}
  else
    { phase
      contention := raster.contention line column
      fetchAddress := raster.fetchAddress phase line column
      pixelIndex := raster.pixelIndex line column }

/-! Slots without an intermediate value out of range. -/

def SlotFits (raster : Raster) (line column : Nat) : Prop :=
  raster.Visible line column →
    raster.pixelIndex line column < UInt32.size ∧
      (raster.OnDisplay line ∧ raster.InDisplay column → 2 ≤ raster.displayEnd) ∧
      ((raster.phase line column).fetchesPixels →
        raster.PixelAddressFits line (column + (raster.phase line column).lead)) ∧
      ((raster.phase line column).fetchesAttribute →
        raster.AttributeAddressFits line (column + (raster.phase line column).lead))

instance (raster : Raster) (line column : Nat) : Decidable (raster.SlotFits line column) :=
  inferInstanceAs (Decidable (_ → _))

def slotAt (raster : Raster) (tact : Nat) : Slot :=
  raster.slot (raster.line tact) (raster.column tact)

def SlotFitsAt (raster : Raster) (tact : Nat) : Prop :=
  raster.SlotFits (raster.line tact) (raster.column tact)

instance (raster : Raster) (tact : Nat) : Decidable (raster.SlotFitsAt tact) :=
  inferInstanceAs (Decidable (raster.SlotFits _ _))

end Raster

/-! The timing of a frame is the table of its slots, which is looked up past the end of the frame as
well. -/

structure Timing where
  raster : Raster
  slots : Vector Slot raster.frameTacts
  slots_eq : ∀ (tact : Nat) (inFrame : tact < raster.frameTacts),
    slots[tact] = raster.slotAt tact
  slotFits : ∀ tact < raster.frameTacts, raster.SlotFitsAt tact

namespace Timing

def ofRaster (raster : Raster) : Option Timing :=
  if fits : Nat.all raster.frameTacts (fun tact _ => raster.SlotFitsAt tact) then
    some
      { raster
        slots := Vector.ofFn fun tact => raster.slotAt tact
        slots_eq := by simp
        slotFits := by
          rw [Nat.all_eq_finRange_all] at fits
          simpa [Fin.forall_iff] using fits }
  else none

def ofGeometry (geometry : Geometry) : Option Timing :=
  Raster.ofGeometry geometry >>= ofRaster

def geometry (timing : Timing) : Geometry :=
  timing.raster.geometry

def frameTacts (timing : Timing) : Nat :=
  timing.raster.frameTacts

def slotAt (timing : Timing) (tact : Nat) : Slot :=
  timing.slots.get ⟨tact % timing.raster.frameTacts, Nat.mod_lt _ timing.raster.frameTacts_pos⟩

/-! Delays, each of which a 32-bit counter has to hold. -/

def contentionAt (timing : Timing) (tact : Nat) : Nat :=
  (timing.slotAt tact).contention

def delay? (timing : Timing) (tact : Nat) : Option Nat :=
  (Bound.word tact).map timing.contentionAt

/-- The delay of an input or output cycle that starts at a tact.

| port in contended page | even port | cycle              |
|------------------------|-----------|--------------------|
| no                     | no        | N:4                |
| no                     | yes       | N:1, C:3           |
| yes                    | yes       | C:1, C:3           |
| yes                    | no        | C:1, C:1, C:1, C:1 |

Before each part marked C the access waits for the delay of the tact it has reached. -/
def ioContention? (timing : Timing) (tact : Nat) (even contended : Bool) : Option Nat :=
  match contended, even with
  | false, false => some 0
  | false, true => timing.delay? (tact + 1)
  | true, true => do
    let wait ← timing.delay? tact
    let more ← timing.delay? (tact + 1 + wait)
    return wait + more
  | true, false =>
    [0, 1, 2, 3].foldlM (fun wait cycle => do
      let more ← timing.delay? (tact + cycle + wait)
      return wait + more) 0

end Timing

end ZxSpectrum
