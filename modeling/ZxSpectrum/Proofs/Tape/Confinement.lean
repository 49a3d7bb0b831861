import ZxSpectrum.Proofs.Tape.FolderCalls
import ZxSpectrum.Proofs.Tape.SavedFile

namespace ZxSpectrum

/-! What a tape is called cannot make its file lie anywhere but in the output directory, whether the
name comes from a caller or from the bytes of a header. -/

namespace TapeFolder

/-- The path leads to an entry of a directory. The text of the entry is not cut into pieces, and
does not lead to the directory itself or to the enclosing one. -/
structure Confined (directory : Path) (stem : String) (path : Path) : Prop where
  joined : path = directory.join (stem ++ ".tap")
  single : Path.ofString (stem ++ ".tap") = ⟨[stem ++ ".tap"]⟩
  named : Path.isName (stem ++ ".tap") = true
  plain : PlainStem stem

theorem ne_slash_of_isPlain {character : Char} (plain : IsPlain character) : character ≠ '/' := by
  rintro rfl
  exact absurd plain (by decide)

theorem ofString_stem {stem : String} (plain : PlainStem stem) :
    Path.ofString (stem ++ ".tap") = ⟨[stem ++ ".tap"]⟩ := by
  have whole : ∀ character ∈ (stem ++ ".tap").toList, decide (character = '/') = false := by
    intro character member
    rw [String.toList_append, List.mem_append] at member
    apply decide_eq_false
    rcases member with own | ending
    · exact ne_slash_of_isPlain (plain.plain character own)
    · rintro rfl
      exact absurd ending (by decide)
  rw [Path.ofString, String.splitToList_of_valid, List.splitOnP_eq_singleton whole,
    List.map_singleton, String.ofList_toList]

theorem isName_stem {stem : String} (plain : PlainStem stem) :
    Path.isName (stem ++ ".tap") = true := by
  have characters : 0 < stem.length := by
    rw [Nat.pos_iff_ne_zero, Ne, String.length_eq_zero_iff]
    exact plain.nonempty
  have long : 4 < (stem ++ ".tap").length := by
    rw [String.length_append]
    exact Nat.lt_add_of_pos_left characters
  have other (text : String) (short : text.length ≤ 4) : stem ++ ".tap" ≠ text := by
    intro same
    rw [same] at long
    exact absurd long (Nat.not_lt.mpr short)
  simp [Path.isName, Path.moves, other "" (by decide), other "." (by decide),
    other ".." (by decide)]

theorem confined_outputPath (folder : TapeFolder) :
    Confined folder.outputDirectory (stem folder.name) folder.outputPath where
  joined := rfl
  single := ofString_stem (plainStem_stem _)
  named := isName_stem (plainStem_stem _)
  plain := plainStem_stem _

/-! The end of a session stores one entry of the output directory at most. -/

theorem files_or_storesIn_finalize (folder : TapeFolder) :
    folder.finalize.2.storage.files = folder.storage.files ∨
      Storage.StoresIn folder.outputDirectory (stem folder.name ++ ".tap") folder.buffer
        folder.storage folder.finalize.2.storage := by
  by_cases writes : folder.WritesFile
  · rcases writesFile_iff.mp writes with ⟨saved, provided⟩
    rcases finalize_of_provided saved provided with ⟨next, finished, stores⟩
    rw [finished]
    exact .inr stores
  · exact .inl (files_finalize writes)

/-! What a session keeps of a folder: the storage, the directory, and a name that fits a header. -/

structure SameHost (before after : TapeFolder) : Prop where
  storage_eq : after.storage = before.storage
  outputDirectory_eq : after.outputDirectory = before.outputDirectory

theorem SameHost.trans {before folder after : TapeFolder} (first : SameHost before folder)
    (second : SameHost folder after) : SameHost before after :=
  ⟨second.storage_eq.trans first.storage_eq,
    second.outputDirectory_eq.trans first.outputDirectory_eq⟩

theorem sameHost_save (block : List UInt8) (folder : TapeFolder) :
    SameHost folder (save block folder).2 where
  storage_eq := storage_answer folder (.save block) nofun
  outputDirectory_eq := (effect_answer folder (.save block)).outputDirectory_eq

def ShortName (folder : TapeFolder) : Prop :=
  ∀ given ∈ folder.name, given.length ≤ 10

theorem ShortName.length_stem {folder : TapeFolder} (short : ShortName folder) :
    (stem folder.name).length ≤ 10 :=
  length_stem_le (by decide) short

theorem shortName_save {folder : TapeFolder} (short : ShortName folder) (block : List UInt8) :
    ShortName (save block folder).2 := by
  have same : (save block folder).2.name = folder.name :=
    (effect_answer folder (.save block)).name_eq
  rw [ShortName, same]
  exact short

end TapeFolder

namespace TapeDeck

open TapeFolder

theorem length_headerName (block : List UInt8) : (headerName block).length ≤ 10 := by
  have trimmed := (Text.trimmed_trim
    (((block.drop 2).take 10).map fun byte => Char.ofNat byte.toNat)).length_le
  rw [List.length_map] at trimmed
  rw [headerName, String.length_ofList]
  exact trimmed.trans (List.length_take_le _ _)

theorem sameHost_store (block : List UInt8) (first : Bool) (folder : TapeFolder) :
    SameHost folder (store block first folder) := by
  unfold store
  split
  · have named : SameHost folder (TapeProvider.setName (headerName block) folder) := ⟨rfl, rfl⟩
    exact named.trans (sameHost_save block _)
  · exact sameHost_save block folder

theorem shortName_setName (block : List UInt8) (folder : TapeFolder) :
    ShortName (TapeProvider.setName (headerName block) folder) := by
  rintro _ ⟨⟩
  exact length_headerName block

theorem shortName_store_of_header {block : List UInt8} (header : block.length = 19)
    (folder : TapeFolder) : ShortName (store block true folder) := by
  rw [store, if_pos ⟨rfl, header⟩]
  exact shortName_save (shortName_setName block folder) block

theorem shortName_store {folder : TapeFolder} (short : ShortName folder) (block : List UInt8)
    (first : Bool) : ShortName (store block first folder) := by
  unfold store
  split
  · exact shortName_save (shortName_setName block folder) block
  · exact shortName_save short block

theorem sameHost_storeAll (saved : Nat) (blocks : List (List UInt8)) (folder : TapeFolder) :
    SameHost folder (storeAll saved blocks folder) := by
  induction blocks generalizing saved folder with
  | nil => exact ⟨rfl, rfl⟩
  | cons block blocks induction => exact (sameHost_store block _ folder).trans (induction _ _)

theorem shortName_storeAll (saved : Nat) (blocks : List (List UInt8)) {folder : TapeFolder}
    (short : ShortName folder) : ShortName (storeAll saved blocks folder) := by
  induction blocks generalizing saved folder with
  | nil => exact short
  | cons block blocks induction => exact induction _ (shortName_store short block _)

/-- Whatever a tape is called, by a caller or by the header that a program saves first, its file
is an entry of the output directory under a plain name. A session writes no other file. -/
theorem saved_file_confined :
    (∀ (folder : TapeFolder) (name : String),
      ∃ stem, Confined folder.outputDirectory stem (TapeProvider.setName name folder).outputPath) ∧
    (∀ folder : TapeFolder, ∃ stem, Confined folder.outputDirectory stem folder.outputPath ∧
      (folder.finalize.2.storage.files = folder.storage.files ∨
        Storage.StoresIn folder.outputDirectory (stem ++ ".tap") folder.buffer folder.storage
          folder.finalize.2.storage)) ∧
    (∀ (folder : TapeFolder) (block : List UInt8),
      ∃ stem, Confined folder.outputDirectory stem (store block true folder).outputPath ∧
        (block.length = 19 → stem.length ≤ 10)) ∧
    ∀ {before : TapeDeck TapeFolder} {folder : TapeFolder}, before.provider = some folder →
      ∀ {start : Nat} {inputs : List DeckInput} {saving ended : TapeDeck TapeFolder}
        {last : DeckInput}, (before.enterSave start).takeAll inputs = some saving →
      (before.enterSave start).StaysSaving inputs → saving.take last = some ended →
      ended.mode ≠ .save →
      ∃ session after stem, saving.provider = some session ∧ ended.provider = some after ∧
        session.storage = folder.storage ∧
        Confined folder.outputDirectory stem session.outputPath ∧ stem.length ≤ 10 ∧
        (after.storage.files = folder.storage.files ∨
          Storage.StoresIn folder.outputDirectory (stem ++ ".tap") session.buffer folder.storage
            after.storage) := by
  refine ⟨?_, ?_, ?_, ?_⟩
  · intro folder name
    exact ⟨_, confined_outputPath (TapeProvider.setName name folder)⟩
  · intro folder
    exact ⟨_, confined_outputPath folder, files_or_storesIn_finalize folder⟩
  · intro folder block
    have confined := confined_outputPath (store block true folder)
    rw [(sameHost_store block true folder).outputDirectory_eq] at confined
    exact ⟨_, confined, fun header => (shortName_store_of_header header folder).length_stem⟩
  · intro before folder inserted start inputs saving ended last run stays ends finished
    rcases provider_of_session inserted run stays ends finished with
      ⟨recorded, -, -, provided, closed⟩
    let created : TapeFolder := (TapeProvider.create folder).2
    -- A name that was given before the session is gone, however long it was.
    have unnamed : ShortName created := nofun
    have begun : SameHost folder created := ⟨rfl, rfl⟩
    have same := begun.trans (sameHost_storeAll 0 recorded created)
    have confined := confined_outputPath (storeAll 0 recorded created)
    have files := files_or_storesIn_finalize (storeAll 0 recorded created)
    rw [same.outputDirectory_eq] at confined files
    rw [same.storage_eq] at files
    exact ⟨_, _, _, provided, closed, same.storage_eq, confined,
      (shortName_storeAll 0 recorded unnamed).length_stem, files⟩

/-! A header whose name would lead up the tree. -/

def climbingHeader : SavedBlock where
  gap := 0
  bytes := [0, 3] ++ [0x2E, 0x2E, 0x2F, 0x2E, 0x2E, 0x2F, 0x65, 0x76, 0x69, 0x6C] ++
    List.replicate 7 0
  nonempty := by decide
  pause := 0
  block := _
  standard := rfl

def climbingFolder : TapeFolder :=
  { topFolder (Tap.recordOf climbingHeader.bytes) with name := some "../../evil" }

theorem store_climbingHeader :
    store climbingHeader.bytes true (topFolder []) = climbingFolder := by
  have name : headerName climbingHeader.bytes = "../../evil" := by cbv
  rw [store, if_pos ⟨rfl, rfl⟩, name]
  exact congrArg Prod.snd (save_of_fits (by decide) _)

theorem outputPath_climbingFolder : climbingFolder.outputPath = ⟨["", "______evil.tap"]⟩ := by
  have name : fileName (some "../../evil") = "______evil.tap" := by cbv
  rw [outputPath, stem_append, ← name]
  rfl

theorem writesFile_climbingFolder : climbingFolder.WritesFile := by
  refine writesFile_iff.mpr ⟨List.cons_ne_nil _ _, ?_⟩
  rw [Provided, outputPath_climbingFolder]
  exact Storage.provides_bare (by cbv)

theorem saved_file_confined_climbingHeader :
    ∃ saving ended session after stem,
      savingToTop.takeAll (savesToTop [climbingHeader]) = some saving ∧
      saving.take errorRestart = some ended ∧ saving.provider = some session ∧
      session.name = some "../../evil" ∧ ended.provider = some after ∧
      Confined ⟨["", ""]⟩ stem session.outputPath ∧ stem.length ≤ 10 ∧
      after.storage.read ⟨["", "______evil.tap"]⟩ = .ok session.buffer := by
  rcases exists_savesToTop [climbingHeader] with ⟨saving, recorder, run, -, provided, ends⟩
  rcases saved_file_confined.2.2.2 rfl run (staysSaving_savesToTop _) ends nofun with
    ⟨session, after, stem, kept, closed, -, confined, short, -⟩
  have stored : storeAll 0 [climbingHeader.bytes] (topFolder []) = climbingFolder :=
    store_climbingHeader
  cases (provided.trans (congrArg some stored)).symm.trans kept
  have left : saving.leaveSave.provider = some climbingFolder.finalize.2 := by
    have finished : saving.leaveSave.provider =
        saving.provider.map fun provider => (TapeProvider.finalize provider).2 := rfl
    rw [finished, kept]
    rfl
  cases left.symm.trans closed
  refine ⟨saving, _, _, _, stem, run, ends, kept, rfl, closed, confined, short, ?_⟩
  rw [← outputPath_climbingFolder]
  exact read_finalize writesFile_climbingFolder

end TapeDeck

end ZxSpectrum
