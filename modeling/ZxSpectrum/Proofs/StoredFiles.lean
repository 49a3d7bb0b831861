import Mathlib
import ZxSpectrum.Storage

namespace ZxSpectrum.Storage

/-! What has been written to a path is read back from it, and no other file has changed. Making
directories leaves every file as it was. -/

theorem file?_append_of_absent {files : List (Place × List UInt8)} {place : Place}
    (absent : files.lookup place = none) (bytes : List UInt8) :
    (files ++ [(place, bytes)]).lookup place = some bytes := by
  rw [List.lookup_append, absent]
  simp

theorem lookup_filter_ne (files : List (Place × List UInt8)) (place : Place) :
    (files.filter (·.1 ≠ place)).lookup place = none := by
  rw [List.lookup_eq_none_iff]
  intro file member
  have other := (List.mem_filter.mp member).2
  exact bne_iff_ne.mpr (Ne.symm (of_decide_eq_true other))

theorem entry_eq_some {storage : Storage} {pieces : List String} {place : Place}
    (found : storage.entry pieces = some place) :
    ∃ front name directory, pieces = front ++ [name] ∧ storage.walk front = some directory ∧
      Path.isName name = true ∧ place = directory ++ [name] := by
  rcases Option.bind_eq_some_iff.mp found with ⟨name, last, found⟩
  rcases Option.bind_eq_some_iff.mp found with ⟨directory, walked, found⟩
  unfold entryIn at found
  split_ifs at found with named
  cases found
  rcases List.getLast?_eq_some_iff.mp last with ⟨front, rfl⟩
  rw [List.dropLast_concat] at walked
  exact ⟨front, name, directory, rfl, walked, named.1, rfl⟩

theorem walk_eq_none_of_entry {storage : Storage} {pieces : List String} {place : Place}
    (found : storage.entry pieces = some place) (file : storage.isDirectory place = false) :
    storage.walk pieces = none := by
  rcases entry_eq_some found with ⟨front, name, directory, rfl, walked, named, rfl⟩
  have followed : directory.follow name = directory ++ [name] := if_pos named
  unfold walk at walked ⊢
  rw [List.foldlM_append, walked]
  simp [enter, followed, file]

/-! A file at a place, and the files at others. -/

def put (storage : Storage) (place : Place) (bytes : List UInt8) : Storage :=
  { storage with files := storage.files.filter (·.1 ≠ place) ++ [(place, bytes)] }

theorem file?_put_self (storage : Storage) (place : Place) (bytes : List UInt8) :
    (storage.put place bytes).file? place = some bytes :=
  file?_append_of_absent (lookup_filter_ne storage.files place) bytes

theorem lookup_filter_of_ne (files : List (Place × List UInt8)) {place other : Place}
    (different : other ≠ place) :
    (files.filter (·.1 ≠ place)).lookup other = files.lookup other := by
  induction files with
  | nil => rfl
  | cons file files induction =>
      rcases file with ⟨own, bytes⟩
      by_cases dropped : own = place
      · subst dropped
        rw [List.filter_cons_of_neg (by simp), induction, List.lookup_cons,
          beq_eq_false_iff_ne.mpr different]
      · rw [List.filter_cons_of_pos (by simpa using dropped), List.lookup_cons, List.lookup_cons,
          induction]

theorem file?_put_of_ne (storage : Storage) {place other : Place} (different : other ≠ place)
    (bytes : List UInt8) : (storage.put place bytes).file? other = storage.file? other := by
  have single : List.lookup other [(place, bytes)] = none := by
    rw [List.lookup_cons, beq_eq_false_iff_ne.mpr different]
    rfl
  rw [file?, put, List.lookup_append, single, Option.or_none]
  exact lookup_filter_of_ne storage.files different

theorem write_eq_ok_iff {storage next : Storage} {path : Path} {bytes : List UInt8} :
    storage.write path bytes = .ok next ↔
      ∃ place, (storage.piecesOf path).bind storage.entry = some place ∧
        storage.isDirectory place = false ∧ next = storage.put place bytes := by
  unfold write
  constructor
  · intro written
    split at written
    · exact nomatch written
    · rename_i place located
      split_ifs at written with directory
      cases written
      exact ⟨place, located, Bool.eq_false_iff.mpr directory, rfl⟩
  · rintro ⟨place, located, free, rfl⟩
    simp [located, free, put]

theorem find_put {storage : Storage} {path : Path} {place : Place}
    (located : (storage.piecesOf path).bind storage.entry = some place)
    (free : storage.isDirectory place = false) (bytes : List UInt8) :
    (storage.put place bytes).find path = some place := by
  rcases Option.bind_eq_some_iff.mp located with ⟨pieces, cut, found⟩
  have cutAgain : (storage.put place bytes).piecesOf path = some pieces := cut
  have foundAgain : (storage.put place bytes).entry pieces = some place := found
  have notWalked : (storage.put place bytes).walk pieces = none :=
    walk_eq_none_of_entry foundAgain free
  simp [find, cutAgain, notWalked, foundAgain, file?_put_self]

/-! Making directories keeps the files. -/

structure KeepsFiles (before after : Storage) : Prop where
  files_eq : after.files = before.files
  home_eq : after.home = before.home

theorem KeepsFiles.trans {storage next last : Storage} (first : KeepsFiles storage next)
    (second : KeepsFiles next last) : KeepsFiles storage last :=
  ⟨second.files_eq.trans first.files_eq, second.home_eq.trans first.home_eq⟩

theorem keepsFiles_makeAt {storage next : Storage} {place : Place}
    (made : storage.makeAt place = some next) : KeepsFiles storage next := by
  unfold makeAt at made
  split_ifs at made
  cases made
  exact ⟨rfl, rfl⟩

theorem keepsFiles_makeDirectory {storage next : Storage} {path : Path}
    (made : storage.makeDirectory path = some next) : KeepsFiles storage next := by
  rcases Option.bind_eq_some_iff.mp made with ⟨pieces, -, made⟩
  rcases Option.bind_eq_some_iff.mp made with ⟨place, -, made⟩
  exact keepsFiles_makeAt made

theorem keepsFiles_makeMissing (place : Place) (pieces : List String) (storage : Storage) :
    KeepsFiles storage (makeMissing place pieces storage).2 := by
  induction pieces generalizing place storage with
  | nil => exact ⟨rfl, rfl⟩
  | cons piece rest induction =>
      rw [makeMissing]
      split
      · exact induction _ _
      · split
        · rename_i made
          rcases Option.bind_eq_some_iff.mp made with ⟨place, -, made⟩
          exact (keepsFiles_makeAt made).trans (induction _ _)
        · exact ⟨rfl, rfl⟩

theorem keepsFiles_createDirectories (path : Path) (storage : Storage) :
    KeepsFiles storage (createDirectories path storage).2 := by
  unfold createDirectories
  split
  · rename_i parents _ _
    have kept := keepsFiles_makeMissing [] parents storage
    split
    · rename_i missing
      rw [missing] at kept
      exact kept
    · rename_i missing
      rw [missing] at kept
      split
      · rename_i made
        exact kept.trans (keepsFiles_makeDirectory made)
      · exact kept
  · exact ⟨rfl, rfl⟩

theorem taken_of_createDirectories {path : Path} {storage : Storage}
    (made : (storage.createDirectories path).1 = .ok ()) :
    ((storage.createDirectories path).2.piecesOf path).isSome := by
  have same : (storage.createDirectories path).2.piecesOf path = storage.piecesOf path := by
    rw [piecesOf, piecesOf, (keepsFiles_createDirectories path storage).home_eq]
  rw [same]
  unfold createDirectories at made
  split at made
  · rename_i cut _
    rw [cut]
    rfl
  · exact nomatch made

/-! A file whose path has been joined from a directory and a name lies in the directory. -/

theorem walk_concat (storage : Storage) (front : List String) (piece : String) :
    storage.walk (front ++ [piece]) = (storage.walk front).bind (storage.enter · piece) := by
  rw [walk, List.foldlM_append]
  simp [walk]

theorem isDirectory_of_walk {storage : Storage} {pieces : List String} {place : Place}
    (walked : storage.walk pieces = some place) : storage.isDirectory place = true := by
  induction pieces using List.reverseRecOn with
  | nil =>
      cases walked
      rfl
  | append_singleton front piece _ =>
      rw [walk_concat] at walked
      rcases Option.bind_eq_some_iff.mp walked with ⟨before, -, entered⟩
      unfold enter at entered
      dsimp only at entered
      split_ifs at entered with directory
      cases entered
      exact directory

theorem walk_concat_empty {storage : Storage} {front : List String} {place : Place}
    (walked : storage.walk front = some place) : storage.walk (front ++ [""]) = some place := by
  have stays : Place.follow place "" = place := rfl
  rw [walk_concat, walked, Option.bind_some, enter, stays, isDirectory_of_walk walked]
  rfl

/-! Paths from the top of the tree on. -/

def fromTop (storage : Storage) (path : Path) : List String :=
  if path.isAbsolute then path.pieces else "" :: (storage.home ++ path.pieces)

theorem eq_fromTop_of_piecesOf {storage : Storage} {path : Path} {pieces : List String}
    (cut : storage.piecesOf path = some pieces) : pieces = storage.fromTop path := by
  unfold piecesOf at cut
  dsimp only at cut
  split_ifs at cut <;> cases cut <;> simp_all [fromTop]

theorem pieces_join (path : Path) (name : String) :
    ∃ front, (path.join name).pieces = front ++ [name] ∧
      (path.pieces = front ∧ front ≠ [""] ∨ path.pieces = front ++ [""]) := by
  unfold Path.join
  split_ifs with slash
  · rcases List.getLast?_eq_some_iff.mp slash with ⟨front, pieces⟩
    refine ⟨front, ?_, .inr pieces⟩
    rw [pieces, List.dropLast_concat]
  · refine ⟨path.pieces, rfl, .inl ⟨rfl, fun pieces => slash ?_⟩⟩
    rw [pieces]
    rfl

theorem isAbsolute_iff {path : Path} :
    path.isAbsolute = true ↔ ∃ piece rest, path.pieces = "" :: piece :: rest := by
  unfold Path.isAbsolute
  split
  · rename_i piece rest pieces
    exact iff_of_true rfl ⟨piece, rest, pieces⟩
  · rename_i other
    refine iff_of_false Bool.false_ne_true ?_
    rintro ⟨piece, rest, pieces⟩
    exact other piece rest pieces

theorem isAbsolute_join (path : Path) (name : String) :
    (path.join name).isAbsolute = path.isAbsolute := by
  rw [Bool.eq_iff_iff, isAbsolute_iff, isAbsolute_iff]
  rcases pieces_join path name with ⟨front, joined, ends⟩
  rw [joined]
  rcases ends with ⟨rfl, more⟩ | pieces
  · generalize path.pieces = pieces at more
    rcases pieces with _ | ⟨first, _ | ⟨second, rest⟩⟩
    · simp
    · simpa using more
    · simp
  · rw [pieces]
    rcases front with _ | ⟨first, _ | ⟨second, rest⟩⟩ <;> simp

theorem exists_fromTop_join (storage : Storage) (path : Path) (name : String) :
    ∃ front, storage.fromTop (path.join name) = front ++ [name] ∧
      (storage.fromTop path = front ∨ storage.fromTop path = front ++ [""]) := by
  rcases pieces_join path name with ⟨front, joined, ends⟩
  replace ends := ends.imp_left And.left
  unfold fromTop
  rw [isAbsolute_join, joined]
  split_ifs
  · exact ⟨front, rfl, ends⟩
  · refine ⟨"" :: (storage.home ++ front), by simp, ?_⟩
    rcases ends with pieces | pieces
    · exact .inl (by rw [pieces])
    · exact .inr (by rw [pieces, List.cons_append, List.append_assoc])

theorem place_of_join {storage : Storage} {directory : Path} {name : String} {place : Place}
    (taken : (storage.piecesOf directory).isSome)
    (located : (storage.piecesOf (directory.join name)).bind storage.entry = some place) :
    ∃ parent, (storage.piecesOf directory).bind storage.walk = some parent ∧
      place = parent ++ [name] := by
  rcases Option.isSome_iff_exists.mp taken with ⟨pieces, cut⟩
  rcases Option.bind_eq_some_iff.mp located with ⟨whole, cutWhole, found⟩
  rcases entry_eq_some found with ⟨front, last, parent, rfl, walked, -, rfl⟩
  rcases exists_fromTop_join storage directory name with ⟨before, joined, ends⟩
  rw [← eq_fromTop_of_piecesOf cutWhole] at joined
  rw [← eq_fromTop_of_piecesOf cut] at ends
  rcases List.append_inj' joined rfl with ⟨rfl, same⟩
  refine ⟨parent, ?_, congrArg (parent ++ ·) same⟩
  rw [cut, Option.bind_some]
  rcases ends with rfl | rfl
  · exact walked
  · exact walk_concat_empty walked

theorem find_of_walk {storage : Storage} {path : Path} {place : Place}
    (walked : (storage.piecesOf path).bind storage.walk = some place) :
    storage.find path = some place ∧ storage.isDirectory place = true := by
  rcases Option.bind_eq_some_iff.mp walked with ⟨pieces, cut, walked⟩
  refine ⟨?_, isDirectory_of_walk walked⟩
  simp [find, cut, walked]

/-! Hosts that provide for a directory. Which bytes are stored there makes no difference to them. -/

structure Provides (storage : Storage) (directory file : Path) : Prop where
  creates : (storage.createDirectories directory).1 = .ok ()
  stores : ∀ bytes, ∃ next, (storage.createDirectories directory).2.write file bytes = .ok next

theorem provides_of_write {storage next : Storage} {directory file : Path} {bytes : List UInt8}
    (creates : (storage.createDirectories directory).1 = .ok ())
    (written : (storage.createDirectories directory).2.write file bytes = .ok next) :
    storage.Provides directory file where
  creates := creates
  stores other := by
    rcases write_eq_ok_iff.mp written with ⟨place, located, free, -⟩
    exact ⟨_, write_eq_ok_iff.mpr ⟨place, located, free, rfl⟩⟩

/-- A file has got its bytes, and every other one is as before. -/
structure WritesOnly (place : Place) (bytes : List UInt8) (before after : Storage) : Prop where
  stored : after.file? place = some bytes
  others : ∀ other, other ≠ place → after.file? other = before.file? other

/-- The file that has got its bytes is an entry of a directory, where the path of the directory
leads. -/
def StoresIn (directory : Path) (name : String) (bytes : List UInt8) (before after : Storage) :
    Prop :=
  ∃ parent, after.find directory = some parent ∧ after.isDirectory parent = true ∧
    after.find (directory.join name) = some (parent ++ [name]) ∧
    WritesOnly (parent ++ [name]) bytes before after

theorem StoresIn.read {directory : Path} {name : String} {bytes : List UInt8}
    {before after : Storage} (stores : StoresIn directory name bytes before after) :
    after.read (directory.join name) = .ok bytes := by
  rcases stores with ⟨parent, -, -, found, written⟩
  simp only [Storage.read, found, written.stored]

/-- Where the host provides for it, bytes can be stored under a name in a directory. -/
theorem Provides.exists_write {storage : Storage} {directory : Path} {name : String}
    (provides : storage.Provides directory (directory.join name)) (bytes : List UInt8) :
    ∃ next,
      (storage.createDirectories directory).2.write (directory.join name) bytes = .ok next ∧
      StoresIn directory name bytes storage next := by
  rcases provides with ⟨creates, stores⟩
  have taken := taken_of_createDirectories creates
  have kept := keepsFiles_createDirectories directory storage
  rcases stores bytes with ⟨next, written⟩
  rcases write_eq_ok_iff.mp written with ⟨place, located, free, rfl⟩
  rcases place_of_join taken located with ⟨parent, walked, rfl⟩
  let made := (storage.createDirectories directory).2
  have walkedAgain : ((made.put (parent ++ [name]) bytes).piecesOf directory).bind
      (made.put (parent ++ [name]) bytes).walk = some parent := walked
  rcases find_of_walk walkedAgain with ⟨found, inside⟩
  refine ⟨_, written, parent, found, inside, find_put located free bytes,
    file?_put_self _ _ _, ?_⟩
  intro other different
  rw [file?_put_of_ne _ different, file?, file?, kept.files_eq]

/-! A tree with nothing in it takes files at its top. -/

def bare : Storage where
  home := []
  directories := ∅

theorem provides_bare {name : String}
    (located : (bare.piecesOf ⟨["", name]⟩).bind bare.entry = some [name]) :
    bare.Provides ⟨["", ""]⟩ ⟨["", name]⟩ := by
  have made : bare.createDirectories ⟨["", ""]⟩ = (.ok (), bare) := by cbv
  have free : bare.isDirectory [name] = false := by
    simp [bare, isDirectory]
  have created : (bare.createDirectories ⟨["", ""]⟩).1 = .ok () := congrArg Prod.fst made
  have written : (bare.createDirectories ⟨["", ""]⟩).2.write ⟨["", name]⟩ [] =
      .ok (bare.put [name] []) := by
    rw [made]
    exact write_eq_ok_iff.mpr ⟨[name], located, free, rfl⟩
  exact provides_of_write created written

end ZxSpectrum.Storage
