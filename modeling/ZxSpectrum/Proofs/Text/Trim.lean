import Mathlib.Data.List.TakeWhile
import ZxSpectrum.Text.Blank

namespace ZxSpectrum.Text

/-! Trimming takes the white space from both ends of a text, and nothing else. -/

/-- What is left of a text without the white space around it. -/
structure Trimmed (text trimmed : List Char) : Prop where
  around : ∃ front back, text = front ++ trimmed ++ back ∧
    (∀ character ∈ front, isBlank character = true) ∧
    ∀ character ∈ back, isBlank character = true
  first : ∀ character ∈ trimmed.head?, isBlank character = false
  last : ∀ character ∈ trimmed.getLast?, isBlank character = false

theorem isBlank_head_dropWhile (text : List Char) :
    ∀ character ∈ (text.dropWhile isBlank).head?, isBlank character = false := by
  intro character member
  have stops := List.head?_dropWhile_not isBlank text
  rw [Option.mem_def.mp member] at stops
  exact stops

theorem dropWhile_isBlank_of_head {text : List Char}
    (first : ∀ character ∈ text.head?, isBlank character = false) :
    text.dropWhile isBlank = text := by
  cases text with
  | nil => rfl
  | cons character text =>
      have visible := first character rfl
      exact List.dropWhile_cons_of_neg (by simp [visible])

theorem trimmed_trim (text : List Char) : Trimmed text (trim text) := by
  let later := text.dropWhile isBlank
  let back := (later.reverse.takeWhile isBlank).reverse
  have middle : later = trim text ++ back := by
    have parts : later.reverse.takeWhile isBlank ++ later.reverse.dropWhile isBlank =
        later.reverse := List.takeWhile_append_dropWhile
    rw [← List.reverse_reverse later, ← parts, List.reverse_append]
    rfl
  have whole : text = text.takeWhile isBlank ++ trim text ++ back := by
    rw [List.append_assoc, ← middle]
    exact List.takeWhile_append_dropWhile.symm
  refine ⟨⟨_, back, whole, ?_, ?_⟩, ?_, ?_⟩
  · intro character member
    exact List.mem_takeWhile_imp member
  · intro character member
    exact List.mem_takeWhile_imp (List.mem_reverse.mp member)
  · intro character member
    apply isBlank_head_dropWhile text
    have head : later.head? = some character := by
      rw [middle, List.head?_append, Option.mem_def.mp member]
      rfl
    exact head
  · intro character member
    apply isBlank_head_dropWhile later.reverse
    rw [← List.getLast?_reverse]
    exact member

theorem Trimmed.length_le {text trimmed : List Char} (holds : Trimmed text trimmed) :
    trimmed.length ≤ text.length := by
  rcases holds.around with ⟨front, back, rfl, -, -⟩
  rw [List.length_append, List.length_append]
  omega

theorem Trimmed.eq_trim {text trimmed : List Char} (holds : Trimmed text trimmed) :
    trimmed = trim text := by
  rcases holds.around with ⟨front, back, rfl, blankFront, blankBack⟩
  have blankReversed : ∀ character ∈ back.reverse, isBlank character = true := by
    intro character member
    exact blankBack character (List.mem_reverse.mp member)
  rw [trim, List.append_assoc, List.dropWhile_append_of_pos blankFront]
  cases trimmed with
  | nil =>
      have none : back.dropWhile isBlank = [] := List.dropWhile_eq_nil_iff.mpr blankBack
      rw [List.nil_append, none]
      rfl
  | cons start rest =>
      have visible : (start :: rest ++ back).dropWhile isBlank = start :: rest ++ back :=
        dropWhile_isBlank_of_head holds.first
      have lastFirst : ∀ character ∈ (start :: rest).reverse.head?,
          isBlank character = false := by
        rw [List.head?_reverse]
        exact holds.last
      rw [visible, List.reverse_append, List.dropWhile_append_of_pos blankReversed,
        dropWhile_isBlank_of_head lastFirst, List.reverse_reverse]

end ZxSpectrum.Text
