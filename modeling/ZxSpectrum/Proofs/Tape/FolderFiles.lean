import ZxSpectrum.Proofs.StoredFiles
import ZxSpectrum.Proofs.Tape.Records
import ZxSpectrum.Tape.Folder

namespace ZxSpectrum

/-! The file of a save session. Its name is made of plain characters, whatever the tape is called,
and it is the only file that the end of the session changes. -/

namespace TapeFolder

def IsPlain (character : Char) : Prop :=
  ('a' ≤ character ∧ character ≤ 'z') ∨ ('A' ≤ character ∧ character ≤ 'Z') ∨
    ('0' ≤ character ∧ character ≤ '9') ∨ character = '-' ∨ character = '_'

instance (character : Char) : Decidable (IsPlain character) :=
  inferInstanceAs (Decidable (_ ∨ _))

theorem keeps_iff {character : Char} : keeps character = true ↔ IsPlain character := by
  unfold keeps IsPlain Char.isAlphanum Char.isAlpha Char.isUpper Char.isLower Char.isDigit
  simp only [Bool.or_eq_true, Bool.and_eq_true, decide_eq_true_eq, Char.le_def]
  tauto

def plain (character : Char) : Char :=
  if IsPlain character then character else '_'

theorem isPlain_plain (character : Char) : IsPlain (plain character) := by
  unfold plain
  split_ifs with own
  · exact own
  · decide

theorem stem_of_unnamed {name : Option String} (unnamed : name = none ∨ name = some "") :
    stem name = "saved" := by
  rcases unnamed with rfl | rfl <;> rfl

theorem stem_of_named {name : String} (named : name ≠ "") :
    stem (some name) = String.ofList (name.toList.map plain) := by
  have same : (fun character => if keeps character then character else '_') = plain := by
    funext character
    simp only [plain, keeps_iff]
  have characters : name.toList ≠ [] := fun none => named (String.toList_eq_nil_iff.mp none)
  simp [stem, same, characters]

/-- The stem of every file name is made of plain characters, and is as long as the tape's name. -/
theorem stem_cases (name : Option String) :
    stem name = "saved" ∨
      ∃ given, name = some given ∧ given ≠ "" ∧
        stem name = String.ofList (given.toList.map plain) := by
  rcases name with _ | given
  · exact .inl rfl
  · by_cases empty : given = ""
    · exact .inl (stem_of_unnamed (.inr (congrArg some empty)))
    · exact .inr ⟨given, rfl, empty, stem_of_named empty⟩

/-- The stem of a file name that leads nowhere else. -/
structure PlainStem (stem : String) : Prop where
  nonempty : stem ≠ ""
  plain : ∀ character ∈ stem.toList, IsPlain character

theorem plainStem_stem (name : Option String) : PlainStem (stem name) := by
  rcases stem_cases name with saved | ⟨given, -, nonempty, named⟩
  · rw [saved]
    have letters : "saved".toList.all keeps = true := by decide
    exact ⟨by decide, fun character member => keeps_iff.mp (List.all_eq_true.mp letters _ member)⟩
  · rw [named]
    constructor
    · intro empty
      apply nonempty
      have characters := congrArg String.toList empty
      simpa using characters
    · intro character member
      rw [String.toList_ofList] at member
      rcases List.mem_map.mp member with ⟨own, -, rfl⟩
      exact isPlain_plain own

theorem length_stem_le {name : Option String} {bound : Nat} (room : 5 ≤ bound)
    (short : ∀ given ∈ name, given.length ≤ bound) : (stem name).length ≤ bound := by
  rcases stem_cases name with saved | ⟨given, rfl, -, named⟩
  · rw [saved]
    exact room
  · rw [named, String.length_ofList, List.length_map, String.length_toList]
    exact short given rfl

theorem save_of_fits {block : List UInt8} (fits : Tap.Fits block) (folder : TapeFolder) :
    folder.save block =
      (.ok (), { folder with buffer := folder.buffer ++ Tap.recordOf block }) := by
  rw [save, Tap.record_of_fits fits]
  rfl

theorem save_of_not_fits {block : List UInt8} (long : ¬Tap.Fits block) (folder : TapeFolder) :
    folder.save block = (.error (.tap (.blockTooLong block.length)), folder) := by
  rw [save, Tap.record_of_not_fits long]

/-! What the end of a session does on the host. -/

def Provided (folder : TapeFolder) : Prop :=
  folder.storage.Provides folder.outputDirectory folder.outputPath

/-- Where the host provides a place for it, the file is written into the output directory. -/
theorem finalize_of_provided {folder : TapeFolder} (saved : folder.buffer ≠ [])
    (provided : folder.Provided) :
    ∃ next, folder.finalize = (.ok (), { folder with storage := next, buffer := [] }) ∧
      Storage.StoresIn folder.outputDirectory (stem folder.name ++ ".tap") folder.buffer
        folder.storage next := by
  have creates := Storage.Provides.creates provided
  rcases Storage.Provides.exists_write provided folder.buffer with ⟨next, stored, stores⟩
  refine ⟨next, ?_, stores⟩
  rw [finalize, if_neg saved]
  rcases made : folder.storage.createDirectories folder.outputDirectory with ⟨outcome, storage⟩
  rw [made] at creates stored
  cases creates
  have stored : folder.written storage = .ok next := stored
  simp only [stored]

theorem finalize_of_not_provided {folder : TapeFolder} (saved : folder.buffer ≠ [])
    (refused : ¬folder.Provided) :
    ∃ error storage, folder.finalize = (.error error, { folder with storage }) ∧
      storage.files = folder.storage.files := by
  have kept := Storage.keepsFiles_createDirectories folder.outputDirectory folder.storage
  rw [finalize, if_neg saved]
  rcases made : folder.storage.createDirectories folder.outputDirectory with ⟨outcome, storage⟩
  rw [made] at kept
  cases outcome with
  | error error => exact ⟨error, storage, rfl, kept.files_eq⟩
  | ok =>
      cases stored : folder.written storage with
      | error error => exact ⟨error, storage, by simp only [stored], kept.files_eq⟩
      | ok next =>
          have creates : (folder.storage.createDirectories folder.outputDirectory).1 = .ok () := by
            rw [made]
          have written : (folder.storage.createDirectories folder.outputDirectory).2.write
              folder.outputPath folder.buffer = .ok next := by
            rw [made]
            exact stored
          exact absurd (Storage.provides_of_write creates written) refused

end TapeFolder

end ZxSpectrum
