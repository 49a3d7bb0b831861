import Mathlib
import ZxSpectrum.Proofs.Tape.FolderFiles
import ZxSpectrum.Proofs.Tape.Journal

namespace ZxSpectrum

/-! A folder takes calls in any order, and some of them fail. What it writes next can be told from
the calls and their answers. The blocks go back to where a file was last begun or written, but the
name goes back to where one was last begun. -/

structure AnsweredCall where
  call : TapeCall
  answer : Except Error Unit

namespace AnsweredCall

/-- A file is begun, without a name. -/
def begins : AnsweredCall → Bool
  | ⟨.create, _⟩ => true
  | _ => false

/-- What has been saved before goes into no later file, since one is begun or one has been
finished. A session that ends with nothing saved has nothing to settle. -/
def settles : AnsweredCall → Bool
  | ⟨.create, _⟩ => true
  | ⟨.finalize, .ok ()⟩ => true
  | _ => false

def acceptedBlock : AnsweredCall → Option (List UInt8)
  | ⟨.save block, .ok ()⟩ => some block
  | _ => none

def givenName : AnsweredCall → Option String
  | ⟨.setName name, _⟩ => some name
  | _ => none

variable {α : Type} {ends : AnsweredCall → Bool} {kept : AnsweredCall → Option α}
  {answered : AnsweredCall}

/-! What is kept of the calls after the last one of a kind. -/

def since (ends : AnsweredCall → Bool) (kept : AnsweredCall → Option α)
    (history : List AnsweredCall) : List α :=
  (history.rtakeWhile fun answered => !ends answered).filterMap kept

theorem since_concat_of_ends (history : List AnsweredCall) (ended : ends answered = true) :
    since ends kept (history ++ [answered]) = [] := by
  rw [since, List.rtakeWhile_concat_neg _ _ _ (by simp [ended])]
  rfl

theorem since_concat (history : List AnsweredCall) (continues : ends answered = false) :
    since ends kept (history ++ [answered]) =
      since ends kept history ++ (kept answered).toList := by
  have alone : [answered].filterMap kept = (kept answered).toList := by
    rw [List.filterMap_cons, List.filterMap_nil]
    cases kept answered <;> rfl
  rw [since, List.rtakeWhile_concat_pos _ _ _ (by simp [continues]), List.filterMap_append, alone,
    since]

/-- The blocks that have been accepted since a file was begun or finished. -/
def pending (history : List AnsweredCall) : List (List UInt8) :=
  since settles acceptedBlock history

/-- The name that was last given since a file was begun. -/
def currentName (history : List AnsweredCall) : Option String :=
  (since begins givenName history).getLast?

theorem pending_concat_of_settles (history : List AnsweredCall)
    (settled : answered.settles = true) :
    pending (history ++ [answered]) = [] :=
  since_concat_of_ends history settled

theorem pending_concat (history : List AnsweredCall) (unsettled : answered.settles = false) :
    pending (history ++ [answered]) = pending history ++ answered.acceptedBlock.toList :=
  since_concat history unsettled

theorem currentName_concat_of_begins (history : List AnsweredCall)
    (begun : answered.begins = true) :
    currentName (history ++ [answered]) = none := by
  rw [currentName, since_concat_of_ends history begun]
  rfl

theorem currentName_concat (history : List AnsweredCall) (continues : answered.begins = false) :
    currentName (history ++ [answered]) = answered.givenName.or (currentName history) := by
  rw [currentName, since_concat history continues, List.getLast?_append]
  cases answered.givenName <;> rfl

end AnsweredCall

namespace TapeProvider

variable {ρ : Type} [TapeProvider ρ]

/-! What a provider answers to calls one after another. -/

def answer (provider : ρ) : TapeCall → Except Error Unit × ρ
  | .content =>
    let (image, next) := TapeProvider.content provider
    (image.map fun _ => (), next)
  | .create => TapeProvider.create provider
  | .setName name => (.ok (), TapeProvider.setName name provider)
  | .save block => TapeProvider.save block provider
  | .finalize => TapeProvider.finalize provider

def answerNext (reached : List AnsweredCall × ρ) (call : TapeCall) : List AnsweredCall × ρ :=
  let (history, provider) := reached
  let (outcome, next) := answer provider call
  (history ++ [⟨call, outcome⟩], next)

def answerAll (provider : ρ) (calls : List TapeCall) : List AnsweredCall × ρ :=
  calls.foldl answerNext ([], provider)

theorem answerAll_concat (provider : ρ) (calls : List TapeCall) (call : TapeCall) :
    answerAll provider (calls ++ [call]) = answerNext (answerAll provider calls) call :=
  List.foldl_concat ..

theorem calls_answerAll (provider : ρ) (calls : List TapeCall) :
    (answerAll provider calls).1.map AnsweredCall.call = calls := by
  induction calls using List.reverseRecOn with
  | nil => rfl
  | append_singleton calls call induction =>
      rw [answerAll_concat, answerNext, List.map_append, induction]
      rfl

end TapeProvider

namespace TapeFolder

open AnsweredCall TapeProvider

/-! The file of a tape, and what a call does to the storage, the name and the records. -/

def fileName : Option String → String
  | none | some "" => "saved.tap"
  | some name => String.ofList (name.toList.map plain) ++ ".tap"

theorem stem_append (name : Option String) : stem name ++ ".tap" = fileName name := by
  unfold fileName
  split
  · rfl
  · rfl
  · rename_i name named
    rw [stem_of_named named]

theorem finalize_cases (folder : TapeFolder) :
    (∃ storage, folder.finalize = (.ok (), { folder with storage, buffer := [] })) ∨
      ∃ error storage, folder.finalize = (.error error, { folder with storage }) := by
  by_cases saved : folder.buffer = []
  · refine .inl ⟨folder.storage, ?_⟩
    rw [finalize, if_pos saved, ← saved]
  · by_cases provided : folder.Provided
    · rcases finalize_of_provided saved provided with ⟨next, finished, -⟩
      exact .inl ⟨next, finished⟩
    · rcases finalize_of_not_provided saved provided with ⟨error, storage, failed, -⟩
      exact .inr ⟨error, storage, failed⟩

theorem storage_answer (folder : TapeFolder) (call : TapeCall) (other : call ≠ .finalize) :
    (answer folder call).2.storage = folder.storage := by
  cases call with
  | finalize => exact absurd rfl other
  | save block =>
      by_cases fits : Tap.Fits block
      · exact congrArg (fun result => result.2.storage) (save_of_fits fits folder)
      · exact congrArg (fun result => result.2.storage) (save_of_not_fits fits folder)
  | content => rfl
  | create => rfl
  | setName name => rfl

structure Effect (answered : AnsweredCall) (before after : TapeFolder) : Prop where
  outputDirectory_eq : after.outputDirectory = before.outputDirectory
  name_eq : after.name = if answered.begins then none else answered.givenName.or before.name
  buffer_eq : after.buffer =
    if answered.settles then []
    else before.buffer ++ answered.acceptedBlock.toList.flatMap Tap.recordOf
  fits : ∀ block ∈ answered.acceptedBlock, Tap.Fits block

theorem effect_answer (folder : TapeFolder) (call : TapeCall) :
    Effect ⟨call, (answer folder call).1⟩ folder (answer folder call).2 := by
  cases call with
  | content => exact ⟨rfl, rfl, (List.append_nil _).symm, nofun⟩
  | create => exact ⟨rfl, rfl, rfl, nofun⟩
  | setName name => exact ⟨rfl, rfl, (List.append_nil _).symm, nofun⟩
  | save block =>
      change Effect ⟨_, (folder.save block).1⟩ folder (folder.save block).2
      by_cases fits : Tap.Fits block
      · rw [save_of_fits fits]
        refine ⟨rfl, rfl, ?_, ?_⟩
        · exact congrArg (folder.buffer ++ ·) (List.append_nil _).symm
        · rintro _ ⟨⟩
          exact fits
      · rw [save_of_not_fits fits]
        exact ⟨rfl, rfl, (List.append_nil _).symm, nofun⟩
  | finalize =>
      change Effect ⟨_, folder.finalize.1⟩ folder folder.finalize.2
      rcases finalize_cases folder with ⟨storage, finished⟩ | ⟨error, storage, failed⟩
      · rw [finished]
        exact ⟨rfl, rfl, rfl, nofun⟩
      · rw [failed]
        exact ⟨rfl, rfl, (List.append_nil _).symm, nofun⟩

/-! The folder is what some calls have made of it. -/

structure Reflects (directory : Path) (history : List AnsweredCall) (folder : TapeFolder) :
    Prop where
  outputDirectory_eq : folder.outputDirectory = directory
  name_eq : folder.name = currentName history
  buffer_eq : folder.buffer = (pending history).flatMap Tap.recordOf
  fits : ∀ block ∈ pending history, Tap.Fits block

theorem Reflects.concat {directory : Path} {history : List AnsweredCall} {answered : AnsweredCall}
    {before after : TapeFolder} (reflects : Reflects directory history before)
    (effect : Effect answered before after) :
    Reflects directory (history ++ [answered]) after where
  outputDirectory_eq := effect.outputDirectory_eq.trans reflects.outputDirectory_eq
  name_eq := by
    rw [effect.name_eq, reflects.name_eq]
    split
    · rename_i begun
      rw [currentName_concat_of_begins history begun]
    · rename_i continues
      rw [currentName_concat history (Bool.eq_false_iff.mpr continues)]
  buffer_eq := by
    rw [effect.buffer_eq, reflects.buffer_eq]
    split
    · rename_i settled
      rw [pending_concat_of_settles history settled, List.flatMap_nil]
    · rename_i unsettled
      rw [pending_concat history (Bool.eq_false_iff.mpr unsettled), List.flatMap_append]
  fits := by
    by_cases settled : answered.settles = true
    · rw [pending_concat_of_settles history settled]
      exact List.forall_mem_nil _
    · rw [pending_concat history (Bool.eq_false_iff.mpr settled), List.forall_mem_append]
      refine ⟨reflects.fits, fun block member => effect.fits block ?_⟩
      exact Option.mem_toList.mp member

theorem reflects_answerAll (storage : Storage) (input : Option Path) (directory : Path)
    (calls : List TapeCall) :
    let folder : TapeFolder := { storage, input, outputDirectory := directory }
    Reflects directory (answerAll folder calls).1 (answerAll folder calls).2 := by
  intro folder
  -- From the back, since it is the latest call that settles or adds something.
  induction calls using List.reverseRecOn with
  | nil => exact ⟨rfl, rfl, rfl, List.forall_mem_nil _⟩
  | append_singleton calls call induction =>
      rw [answerAll_concat]
      exact induction.concat (effect_answer _ call)

/-- Whatever a new folder has been asked for, the end of a session writes one file, under the name
that was last given since a file was begun, with the records of the blocks that were accepted
since one was begun or finished. Without such a block it writes nothing. A block that fits no
record is refused, and the folder stays as it was. -/
theorem finalize_after_calls {storage : Storage} {input : Option Path} {directory : Path}
    {calls : List TapeCall} {history : List AnsweredCall} {folder : TapeFolder}
    (asked : answerAll { storage, input, outputDirectory := directory } calls =
      (history, folder)) :
    history.map AnsweredCall.call = calls ∧
    folder.outputPath = directory.join (fileName (currentName history)) ∧
    (∀ block ∈ pending history, block.length ≤ 65535) ∧
    (pending history = [] → folder.finalize = (.ok (), folder)) ∧
    (pending history ≠ [] → folder.Provided →
      ∃ next, folder.finalize = (.ok (), { folder with storage := next, buffer := [] }) ∧
        Storage.StoresIn directory (fileName (currentName history))
          ((pending history).flatMap Tap.recordOf) folder.storage next) ∧
    (∀ block, block.length ≤ 65535 → (folder.save block).1 = .ok ()) ∧
    (∀ block, 65535 < block.length →
      folder.save block = (.error (.tap (.blockTooLong block.length)), folder)) ∧
    ∀ call, call ≠ .finalize → (answer folder call).2.storage = folder.storage := by
  have reflects := reflects_answerAll storage input directory calls
  have same := calls_answerAll (ρ := TapeFolder) { storage, input, outputDirectory := directory }
    calls
  simp only [asked] at reflects same
  rcases reflects with ⟨rfl, name_eq, buffer_eq, fits⟩
  have file : stem folder.name ++ ".tap" = fileName (currentName history) := by
    rw [stem_append, name_eq]
  refine ⟨same, congrArg folder.outputDirectory.join file, ?_, ?_, ?_, ?_, ?_, ?_⟩
  · intro block member
    exact Nat.le_of_lt_succ (fits block member)
  · intro nothing
    rw [nothing, List.flatMap_nil] at buffer_eq
    rw [finalize, if_pos buffer_eq]
  · intro some provided
    have saved : folder.buffer ≠ [] := by
      rcases List.exists_cons_of_ne_nil some with ⟨block, blocks, first⟩
      rw [buffer_eq, first]
      exact List.cons_ne_nil _ _
    rw [← file, ← buffer_eq]
    exact finalize_of_provided saved provided
  · intro block short
    rw [save_of_fits (Nat.lt_succ_of_le short)]
  · intro block long
    exact save_of_not_fits (Nat.not_lt.mpr long) folder
  · exact storage_answer folder

/-! A block of three bytes for a named file, and after it a block that fits no record. -/

def folderAtTop : TapeFolder where
  storage := .bare
  outputDirectory := ⟨["", ""]⟩

def folderOfMyGame : TapeFolder :=
  { folderAtTop with name := some "my game", buffer := [3, 0, 0xFF, 0xAA, 0x55] }

def callsForMyGame : List TapeCall :=
  [.create, .setName "my game", .save [0xFF, 0xAA, 0x55]]

theorem answerAll_callsForMyGame {long : List UInt8} (unfit : ¬Tap.Fits long) :
    answerAll folderAtTop (callsForMyGame ++ [.save long]) =
      ([⟨.create, .ok ()⟩, ⟨.setName "my game", .ok ()⟩, ⟨.save [0xFF, 0xAA, 0x55], .ok ()⟩,
        ⟨.save long, .error (.tap (.blockTooLong long.length))⟩], folderOfMyGame) := by
  have earlier : answerAll folderAtTop callsForMyGame =
      ([⟨.create, .ok ()⟩, ⟨.setName "my game", .ok ()⟩, ⟨.save [0xFF, 0xAA, 0x55], .ok ()⟩],
        folderOfMyGame) := rfl
  have refused : answer folderOfMyGame (.save long) =
      (.error (.tap (.blockTooLong long.length)), folderOfMyGame) :=
    save_of_not_fits unfit folderOfMyGame
  rw [answerAll_concat, earlier, TapeProvider.answerNext, refused]
  rfl

theorem finalize_after_calls_myGame :
    ∃ long history folder next, ¬Tap.Fits long ∧
      answerAll folderAtTop (callsForMyGame ++ [.save long]) = (history, folder) ∧
      pending history = [[0xFF, 0xAA, 0x55]] ∧ folder.Provided ∧
      folder.finalize = (.ok (), { folder with storage := next, buffer := [] }) ∧
      next.read ⟨["", "my_game.tap"]⟩ = .ok [3, 0, 0xFF, 0xAA, 0x55] := by
  have unfit : ∃ long : List UInt8, ¬Tap.Fits long :=
    ⟨List.replicate 65536 0, by rw [Tap.Fits, List.length_replicate]; exact Nat.lt_irrefl _⟩
  rcases unfit with ⟨long, unfit⟩
  have asked := answerAll_callsForMyGame unfit
  rcases finalize_after_calls asked with ⟨-, path, -, -, writes, -⟩
  have name : fileName (some "my game") = "my_game.tap" := by cbv
  have provided : folderOfMyGame.Provided := by
    have place : folderOfMyGame.outputPath = ⟨["", "my_game.tap"]⟩ := by
      rw [path, ← name]
      rfl
    rw [Provided, place]
    exact Storage.provides_bare (by cbv)
  rcases writes (List.cons_ne_nil _ _) provided with ⟨next, finished, stores⟩
  have stored : Storage.StoresIn ⟨["", ""]⟩ (fileName (some "my game"))
      [3, 0, 0xFF, 0xAA, 0x55] folderOfMyGame.storage next := stores
  rw [name] at stored
  exact ⟨long, _, _, next, unfit, asked, rfl, provided, finished, stored.read⟩

end TapeFolder

end ZxSpectrum
