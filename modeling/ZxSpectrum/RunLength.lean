namespace ZxSpectrum

/-! The run-length form of a sequence: its values, each with the number of times that it stands
in a row. -/

abbrev RunLength (α : Type) := List (α × Nat)

namespace RunLength

def expand (runs : RunLength α) : List α :=
  runs.flatMap fun (value, count) => List.replicate count value

/-- Puts one more value after runs that are listed from the last to the first. -/
def extend [BEq α] (runs : RunLength α) (value : α) : RunLength α :=
  match runs with
  | (last, count) :: earlier =>
    if last == value then (last, count + 1) :: earlier else (value, 1) :: runs
  | [] => [(value, 1)]

def ofArray [BEq α] (values : Array α) : RunLength α :=
  (values.foldl extend []).reverse

theorem expand_reverse_extend [BEq α] [LawfulBEq α] (runs : RunLength α) (value : α) :
    expand (extend runs value).reverse = expand runs.reverse ++ [value] := by
  match runs with
  | [] => simp [extend, expand]
  | (last, count) :: earlier =>
    by_cases same : last = value
    · simp [extend, expand, same, List.replicate_succ']
    · simp [extend, expand, same]

theorem expand_ofArray [BEq α] [LawfulBEq α] (values : Array α) :
    expand (ofArray values) = values.toList := by
  have extended (values : List α) (runs : RunLength α) :
      expand (values.foldl extend runs).reverse = expand runs.reverse ++ values := by
    induction values generalizing runs with
    | nil => simp
    | cons value values induction => simp [induction, expand_reverse_extend]
  simpa [ofArray, expand] using extended values.toList []

end RunLength

end ZxSpectrum
