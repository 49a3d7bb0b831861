import ZxSpectrum.Proofs.Tape.Records

namespace ZxSpectrum.Tap

/-! Why an image is refused. The reader takes the records with which the image begins, as many as
there are. Where they end, and what comes after them, gives the error. -/

/-- A length and that many bytes of a block, which has room for a flag and a checksum. -/
def IsRecord (own block : List UInt8) : Prop :=
  ∃ low high, own = low :: high :: block ∧ block.length = storedLength low high ∧ Readable block

inductive Records : List UInt8 → List Block → Prop
  | empty : Records [] []
  | record {own block rest : List UInt8} {blocks : List Block} :
    IsRecord own block → Records rest blocks → Records (own ++ rest) (⟨block⟩ :: blocks)

/-- The longest part at the beginning of an image that consists of records. -/
structure LongestRecords (image front : List UInt8) : Prop where
  begins : front <+: image
  whole : ∃ blocks, Records front blocks
  longest : ∀ other blocks, other <+: image → Records other blocks → other.length ≤ front.length

theorem Records.append {front back : List UInt8} {earlier later : List Block}
    (first : Records front earlier) (second : Records back later) :
    Records (front ++ back) (earlier ++ later) := by
  induction first with
  | empty => exact second
  | record own _ induction =>
      rw [List.append_assoc]
      exact .record own induction

theorem exists_longestRecords (image : List UInt8) : ∃ front, LongestRecords image front := by
  classical
  let fronts := image.inits.toFinset.filter fun front => ∃ blocks, Records front blocks
  have start : [] ∈ fronts := by simpa [fronts] using ⟨[], Records.empty⟩
  rcases fronts.exists_max_image List.length ⟨[], start⟩ with ⟨front, member, longest⟩
  have parts : front <+: image ∧ ∃ blocks, Records front blocks := by simpa [fronts] using member
  refine ⟨front, parts.1, parts.2, ?_⟩
  intro other blocks begins records
  exact longest other (by simpa [fronts] using ⟨begins, blocks, records⟩)

/-! There is one longest row of records, and it ends where no record follows. -/

theorem IsRecord.eq_of_prefix {own other block otherBlock image : List UInt8}
    (record : IsRecord own block) (otherRecord : IsRecord other otherBlock)
    (begins : own <+: image) (otherBegins : other <+: image) : own = other := by
  rcases record with ⟨low, high, rfl, length, -⟩
  rcases otherRecord with ⟨otherLow, otherHigh, rfl, otherLength, -⟩
  rcases begins with ⟨rest, rfl⟩
  rcases otherBegins with ⟨otherRest, same⟩
  simp only [List.cons_append, List.cons.injEq] at same
  rcases same with ⟨rfl, rfl, same⟩
  rw [(List.append_inj same (otherLength.trans length.symm)).1]

theorem Records.length_le {front rest other : List UInt8} {blocks otherBlocks : List Block}
    (records : Records front blocks) (ended : ∀ own block, IsRecord own block → ¬own <+: rest)
    (begins : other <+: front ++ rest) (otherRecords : Records other otherBlocks) :
    other.length ≤ front.length := by
  induction records generalizing other otherBlocks with
  | empty =>
      cases otherRecords with
      | empty => exact Nat.le_refl _
      | record record _ => exact absurd ((List.prefix_append _ _).trans begins) (ended _ _ record)
  | @record own block later blocks record _ induction =>
      cases otherRecords with
      | empty => exact Nat.zero_le _
      | record otherRecord others =>
          have first : own <+: own ++ later ++ rest := by
            rw [List.append_assoc]
            exact List.prefix_append _ _
          have same := record.eq_of_prefix otherRecord first ((List.prefix_append _ _).trans begins)
          subst same
          rw [List.append_assoc, List.prefix_append_right_inj] at begins
          rw [List.length_append, List.length_append]
          exact Nat.add_le_add_left (induction begins others) _

theorem longestRecords_iff {front rest : List UInt8} :
    LongestRecords (front ++ rest) front ↔
      (∃ blocks, Records front blocks) ∧ ∀ own block, IsRecord own block → ¬own <+: rest := by
  constructor
  · rintro ⟨-, ⟨blocks, records⟩, longest⟩
    refine ⟨⟨blocks, records⟩, ?_⟩
    intro own block record begins
    have longer := records.append (.record record .empty)
    rw [List.append_nil] at longer
    have most := longest _ _ ((List.prefix_append_right_inj front).mpr begins) longer
    rcases record with ⟨low, high, rfl, -, -⟩
    rw [List.length_append, List.length_cons] at most
    omega
  · rintro ⟨⟨blocks, records⟩, ended⟩
    exact ⟨List.prefix_append _ _, ⟨blocks, records⟩,
      fun other others begins otherRecords => records.length_le ended begins otherRecords⟩

/-! The reader takes record after record. -/

theorem parseFrom_isRecord {own block : List UInt8} (record : IsRecord own block) (offset : Nat)
    (rest : List UInt8) :
    parseFrom offset (own ++ rest) =
      (parseFrom (offset + own.length) rest).map (⟨block⟩ :: ·) := by
  rcases record with ⟨low, high, rfl, length, readable⟩
  have size : (low :: high :: block).length = 2 + block.length := by
    rw [List.length_cons, List.length_cons]
    omega
  rw [parseFrom_lengthBytes length, if_pos readable, size]

theorem parseFrom_records {front : List UInt8} {blocks : List Block} (records : Records front blocks)
    (offset : Nat) (rest : List UInt8) :
    parseFrom offset (front ++ rest) =
      (parseFrom (offset + front.length) rest).map (blocks ++ ·) := by
  induction records generalizing offset with
  | empty =>
      have same : (fun later : List Block => [] ++ later) = id := rfl
      rw [same, Except.map_id]
      rfl
  | record own _ induction =>
      rw [List.append_assoc, parseFrom_isRecord own, induction, List.length_append, Nat.add_assoc]
      cases parseFrom _ rest <;> rfl

theorem parseFrom_of_not_prefix {low high : UInt8} {body : List UInt8}
    (ended : ∀ own block, IsRecord own block → ¬own <+: low :: high :: body) (offset : Nat) :
    parseFrom offset (low :: high :: body) =
      .error (if storedLength low high < 2 then .recordTooShort offset (storedLength low high)
        else .truncatedRecord offset (storedLength low high) body.length) := by
  rw [parseFrom, ← storedLength]
  split_ifs with short missing
  · rfl
  · simp only [List.length_take] at missing ⊢
    rw [Nat.min_eq_right (by omega)]
  · have whole : (body.take (storedLength low high)).length = storedLength low high :=
      Nat.le_antisymm (List.length_take_le _ _) (Nat.not_lt.mp missing)
    have readable : Readable (body.take (storedLength low high)) := by
      rw [Readable, whole]
      exact Nat.not_lt.mp short
    refine absurd ?_ (ended _ _ ⟨low, high, rfl, whole, readable⟩)
    simp [List.take_prefix]

/-- An image begins with a longest row of records. The reader succeeds exactly if nothing comes
after them, with their blocks. Otherwise the error is where they end: a single byte is no length, and
a length is too small or says more than what is left. -/
theorem parse_stops_after_records (image : List UInt8) :
    (∃ front, LongestRecords image front) ∧
      ∀ front rest, image = front ++ rest → LongestRecords image front →
        (∀ blocks, parse image = .ok blocks ↔ rest = [] ∧ Records front blocks) ∧
        (∀ last, rest = [last] → parse image = .error (.truncatedLength front.length)) ∧
        ∀ low high body, rest = low :: high :: body →
          parse image = .error
            (if storedLength low high < 2 then
              .recordTooShort front.length (storedLength low high)
            else .truncatedRecord front.length (storedLength low high) body.length) := by
  refine ⟨exists_longestRecords image, ?_⟩
  rintro front rest rfl longest
  rcases longestRecords_iff.mp longest with ⟨⟨blocks, records⟩, ended⟩
  have read {blocks : List Block} (records : Records front blocks) :
      parse (front ++ rest) = (parseFrom front.length rest).map (blocks ++ ·) := by
    rw [parse, parseFrom_records records, Nat.zero_add]
  have one {last : UInt8} (single : rest = [last]) :
      parse (front ++ rest) = .error (.truncatedLength front.length) := by
    rw [read records, single, parseFrom]
    rfl
  have more {low high : UInt8} {body : List UInt8} (several : rest = low :: high :: body) :
      parse (front ++ rest) = .error
        (if storedLength low high < 2 then .recordTooShort front.length (storedLength low high)
        else .truncatedRecord front.length (storedLength low high) body.length) := by
    subst several
    rw [read records, parseFrom_of_not_prefix ended]
    rfl
  refine ⟨fun parsed => ⟨?_, ?_⟩, fun last => one, fun low high body => more⟩
  · intro accepted
    rcases rest with _ | ⟨first, _ | ⟨second, body⟩⟩
    · rw [read records, parseFrom] at accepted
      have all : blocks ++ [] = parsed := Except.ok.inj accepted
      rw [List.append_nil] at all
      exact ⟨rfl, all ▸ records⟩
    · cases (one rfl).symm.trans accepted
    · cases (more rfl).symm.trans accepted
  · rintro ⟨rfl, records⟩
    rw [read records, parseFrom]
    simp [Except.map]

theorem parse_stops_after_records_cutBlock :
    LongestRecords [2, 0, 0xFF, 0xFF, 3, 0, 1] [2, 0, 0xFF, 0xFF] ∧
      parse [2, 0, 0xFF, 0xFF, 3, 0, 1] = .error (.truncatedRecord 4 3 1) := by
  have record : IsRecord [2, 0, 0xFF, 0xFF] [0xFF, 0xFF] := ⟨2, 0, rfl, rfl, by decide⟩
  have ended (own block : List UInt8) (another : IsRecord own block) : ¬own <+: [3, 0, 1] := by
    rcases another with ⟨low, high, rfl, length, -⟩
    simp only [List.cons_prefix_cons]
    rintro ⟨rfl, rfl, begins⟩
    have few := begins.length_le
    rw [length] at few
    exact absurd few (by decide)
  have longest : LongestRecords ([2, 0, 0xFF, 0xFF] ++ [3, 0, 1]) [2, 0, 0xFF, 0xFF] :=
    longestRecords_iff.mpr ⟨⟨_, .record record .empty⟩, ended⟩
  rcases parse_stops_after_records [2, 0, 0xFF, 0xFF, 3, 0, 1] with ⟨-, stops⟩
  exact ⟨longest, (stops _ _ rfl longest).2.2 3 0 [1] rfl⟩

end ZxSpectrum.Tap
