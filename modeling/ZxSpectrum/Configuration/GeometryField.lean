import ZxSpectrum.Configuration

namespace ZxSpectrum

/-! The numbers of a geometry under the names and in the places that they have in a
configuration. -/

structure GeometryField where
  /-- Where the number stands in a section without names. -/
  place : Nat
  name : String
  get : Geometry → Nat
  set : Nat → Geometry → Geometry

namespace GeometryField

/-- All of them. The contention pattern stands in the place that is left out. -/
def all : List GeometryField :=
  [⟨0, "vertical_sync_lines", (·.verticalSyncLines),
      fun value geometry => { geometry with verticalSyncLines := value }⟩,
    ⟨1, "non_visible_border_top_lines", (·.nonVisibleBorderTopLines),
      fun value geometry => { geometry with nonVisibleBorderTopLines := value }⟩,
    ⟨2, "border_top_lines", (·.borderTopLines),
      fun value geometry => { geometry with borderTopLines := value }⟩,
    ⟨3, "display_lines", (·.displayLines),
      fun value geometry => { geometry with displayLines := value }⟩,
    ⟨4, "border_bottom_lines", (·.borderBottomLines),
      fun value geometry => { geometry with borderBottomLines := value }⟩,
    ⟨5, "non_visible_border_bottom_lines", (·.nonVisibleBorderBottomLines),
      fun value geometry => { geometry with nonVisibleBorderBottomLines := value }⟩,
    ⟨6, "horizontal_blanking_time", (·.horizontalBlankingTime),
      fun value geometry => { geometry with horizontalBlankingTime := value }⟩,
    ⟨7, "border_left_time", (·.borderLeftTime),
      fun value geometry => { geometry with borderLeftTime := value }⟩,
    ⟨8, "display_line_time", (·.displayLineTime),
      fun value geometry => { geometry with displayLineTime := value }⟩,
    ⟨9, "border_right_time", (·.borderRightTime),
      fun value geometry => { geometry with borderRightTime := value }⟩,
    ⟨10, "non_visible_border_right_time", (·.nonVisibleBorderRightTime),
      fun value geometry => { geometry with nonVisibleBorderRightTime := value }⟩,
    ⟨11, "pixel_data_prefetch_time", (·.pixelPrefetchTime),
      fun value geometry => { geometry with pixelPrefetchTime := value }⟩,
    ⟨12, "attribute_data_prefetch_time", (·.attributePrefetchTime),
      fun value geometry => { geometry with attributePrefetchTime := value }⟩,
    ⟨13, "interrupt_tact", (·.interruptTact),
      fun value geometry => { geometry with interruptTact := value }⟩,
    ⟨15, "refresh_rate", (·.refreshRate),
      fun value geometry => { geometry with refreshRate := value }⟩]

theorem get_set (field : GeometryField) (mem : field ∈ all) (value : Nat) (geometry : Geometry) :
    field.get (field.set value geometry) = value := by
  simp only [all, List.mem_cons, List.not_mem_nil, or_false] at mem
  rcases mem with rfl | rfl | rfl | rfl | rfl | rfl | rfl | rfl | rfl | rfl | rfl | rfl | rfl |
    rfl | rfl <;> rfl

end GeometryField

def ContentionPattern.name : ContentionPattern → String
  | .ula => "ula"
  | .gateArray => "gate-array"

def ContentionPattern.ofName : String → Option ContentionPattern
  | "ula" => some .ula
  | "gate-array" => some .gateArray
  | _ => none

theorem ContentionPattern.ofName_name (pattern : ContentionPattern) :
    ofName pattern.name = some pattern := by
  cases pattern <;> rfl

end ZxSpectrum
