import Mathlib
import ZxSpectrum.Tape.Tap

namespace ZxSpectrum.Tap

/-! What a reader makes of records that were written one after another. The writer takes every
block whose length fits two bytes, but the reader wants room for a flag and a checksum, so that it
stops at the first shorter block. -/

/-- The block is short enough for the length of a record. -/
def Fits (bytes : List UInt8) : Prop :=
  bytes.length < 65536

instance (bytes : List UInt8) : Decidable (Fits bytes) :=
  inferInstanceAs (Decidable (_ < _))

/-- The block has room for a flag and a checksum. -/
def Readable (bytes : List UInt8) : Prop :=
  2 ≤ bytes.length

instance (bytes : List UInt8) : Decidable (Readable bytes) :=
  inferInstanceAs (Decidable (_ ≤ _))

def fitting (blocks : List (List UInt8)) : List (List UInt8) :=
  blocks.filter fun bytes => Fits bytes

theorem fitting_cons_of_fits {bytes : List UInt8} (fits : Fits bytes)
    (blocks : List (List UInt8)) : fitting (bytes :: blocks) = bytes :: fitting blocks :=
  List.filter_cons_of_pos (decide_eq_true fits)

theorem fitting_cons_of_not_fits {bytes : List UInt8} (long : ¬Fits bytes)
    (blocks : List (List UInt8)) : fitting (bytes :: blocks) = fitting blocks :=
  List.filter_cons_of_neg fun fits => long (of_decide_eq_true fits)

def recordsLength (blocks : List (List UInt8)) : Nat :=
  (blocks.map fun bytes => 2 + bytes.length).sum

theorem recordsLength_cons (bytes : List UInt8) (blocks : List (List UInt8)) :
    recordsLength (bytes :: blocks) = 2 + bytes.length + recordsLength blocks :=
  List.sum_cons

/-- The first of some blocks without a property, and the blocks before it. -/
def FirstWithout (holds : List UInt8 → Prop) (blocks front : List (List UInt8))
    (first : List UInt8) : Prop :=
  (∀ bytes ∈ front, holds bytes) ∧ ¬holds first ∧ ∃ back, blocks = front ++ first :: back

theorem exists_firstWithout {holds : List UInt8 → Prop} [DecidablePred holds]
    {blocks : List (List UInt8)} (some : ¬∀ bytes ∈ blocks, holds bytes) :
    ∃ front first, FirstWithout holds blocks front first := by
  induction blocks with
  | nil => exact absurd (List.forall_mem_nil holds) some
  | cons bytes blocks induction =>
      by_cases fine : holds bytes
      · rw [List.forall_mem_cons, not_and] at some
        rcases induction (some fine) with ⟨front, first, before, fails, back, split⟩
        refine ⟨bytes :: front, first, List.forall_mem_cons.mpr ⟨fine, before⟩, fails, back, ?_⟩
        rw [split, List.cons_append]
      · exact ⟨[], bytes, List.forall_mem_nil _, fine, blocks, rfl⟩

/-! The record of a block: its length in two bytes, the lower one first, and its bytes. -/

def recordOf (bytes : List UInt8) : List UInt8 :=
  UInt8.ofNat bytes.length :: UInt8.ofNat (bytes.length / 256) :: bytes

theorem record_of_fits {bytes : List UInt8} (fits : Fits bytes) :
    record ⟨bytes⟩ =
      .ok (UInt8.ofNat bytes.length :: UInt8.ofNat (bytes.length / 256) :: bytes) :=
  if_pos fits

theorem record_of_not_fits {bytes : List UInt8} (long : ¬Fits bytes) :
    record ⟨bytes⟩ = .error (.blockTooLong bytes.length) :=
  if_neg long

def storedLength (low high : UInt8) : Nat :=
  low.toNat + 256 * high.toNat

theorem toNat_lengthBytes {length : Nat} (fits : length < 65536) :
    (UInt8.ofNat length).toNat + 256 * (UInt8.ofNat (length / 256)).toNat = length := by
  rw [UInt8.toNat_ofNat', UInt8.toNat_ofNat']
  omega

theorem encode_cons {bytes : List UInt8} (fits : Fits bytes) {blocks : List Block}
    {image : List UInt8} (encoded : encode blocks = .ok image) :
    encode (⟨bytes⟩ :: blocks) =
      .ok (UInt8.ofNat bytes.length :: UInt8.ofNat (bytes.length / 256) :: bytes ++ image) := by
  rw [encode, record_of_fits fits, encoded]
  rfl

theorem fits_of_encode_cons {bytes : List UInt8} {blocks : List Block} {image : List UInt8}
    (encoded : encode (⟨bytes⟩ :: blocks) = .ok image) :
    Fits bytes ∧ ∃ rest, encode blocks = .ok rest ∧
      image = UInt8.ofNat bytes.length :: UInt8.ofNat (bytes.length / 256) :: bytes ++ rest := by
  by_cases fits : Fits bytes
  · cases later : encode blocks with
    | error error =>
        rw [encode, record_of_fits fits, later] at encoded
        exact nomatch encoded
    | ok rest =>
        rw [encode_cons fits later] at encoded
        cases encoded
        exact ⟨fits, rest, rfl, rfl⟩
  · rw [encode, record_of_not_fits fits] at encoded
    exact nomatch encoded

/-! After a length the reader takes the block or stops there. -/

theorem parseFrom_lengthBytes {low high : UInt8} {bytes : List UInt8}
    (length : bytes.length = storedLength low high) (offset : Nat) (rest : List UInt8) :
    parseFrom offset (low :: high :: bytes ++ rest) =
      if Readable bytes then
        (parseFrom (offset + (2 + bytes.length)) rest).map (⟨bytes⟩ :: ·)
      else .error (.recordTooShort offset bytes.length) := by
  rw [List.cons_append, List.cons_append, parseFrom, ← storedLength, ← length]
  have taken : (bytes ++ rest).take bytes.length = bytes := List.take_left
  have dropped : (bytes ++ rest).drop bytes.length = rest := List.drop_left
  rw [taken, dropped, if_neg (Nat.lt_irrefl bytes.length), Nat.add_assoc]
  by_cases readable : Readable bytes
  · rw [if_pos readable, if_neg (Nat.not_lt.mpr readable)]
  · rw [if_neg readable, if_pos (Nat.not_le.mp readable)]

theorem parseFrom_record {bytes : List UInt8} (fits : Fits bytes) (offset : Nat)
    (rest : List UInt8) :
    parseFrom offset
        (UInt8.ofNat bytes.length :: UInt8.ofNat (bytes.length / 256) :: bytes ++ rest) =
      if Readable bytes then
        (parseFrom (offset + (2 + bytes.length)) rest).map (⟨bytes⟩ :: ·)
      else .error (.recordTooShort offset bytes.length) :=
  parseFrom_lengthBytes (toNat_lengthBytes fits).symm offset rest

/-- Records of readable blocks are read as they were written, and the rest of the image after
them. -/
theorem parseFrom_encode_append {front : List (List UInt8)} {back : List Block} {image : List UInt8}
    (encoded : encode (front.map Block.mk ++ back) = .ok image)
    (readable : ∀ bytes ∈ front, Readable bytes) (offset : Nat) :
    ∃ rest, encode back = .ok rest ∧
      parseFrom offset image =
        (parseFrom (offset + recordsLength front) rest).map (front.map Block.mk ++ ·) := by
  induction front generalizing image offset with
  | nil =>
      refine ⟨image, encoded, ?_⟩
      have same : (fun blocks : List Block => [] ++ blocks) = id := rfl
      rw [List.map_nil, same, Except.map_id]
      rfl
  | cons bytes front induction =>
      rcases fits_of_encode_cons encoded with ⟨fits, later, laterEncoded, rfl⟩
      have others := fun other member => readable other (List.mem_cons_of_mem _ member)
      rcases induction laterEncoded others (offset + (2 + bytes.length)) with ⟨rest, backEncoded, read⟩
      refine ⟨rest, backEncoded, ?_⟩
      rw [parseFrom_record fits, if_pos (readable bytes List.mem_cons_self), read,
        recordsLength_cons, Nat.add_assoc]
      cases parseFrom (offset + (2 + bytes.length + recordsLength front)) rest <;> rfl

theorem parse_encode {blocks : List (List UInt8)} {image : List UInt8}
    (encoded : encode (blocks.map Block.mk) = .ok image)
    (readable : ∀ bytes ∈ blocks, Readable bytes) :
    parse image = .ok (blocks.map Block.mk) := by
  rw [← List.append_nil (blocks.map Block.mk)] at encoded
  rcases parseFrom_encode_append encoded readable 0 with ⟨rest, empty, read⟩
  cases empty
  rw [parse, read, parseFrom]
  simp [Except.map]

/-- A shorter block makes its image unreadable, whatever stands before and after it. -/
theorem parse_encode_short {front back : List (List UInt8)} {short image : List UInt8}
    (encoded : encode ((front ++ short :: back).map Block.mk) = .ok image)
    (readable : ∀ bytes ∈ front, Readable bytes) (unreadable : ¬Readable short) :
    parse image = .error (.recordTooShort (recordsLength front) short.length) := by
  rw [List.map_append, List.map_cons] at encoded
  rcases parseFrom_encode_append encoded readable 0 with ⟨rest, backEncoded, read⟩
  rcases fits_of_encode_cons backEncoded with ⟨fits, later, -, rfl⟩
  rw [parse, read, parseFrom_record fits, if_neg unreadable, Nat.zero_add]
  rfl

theorem parse_encode_eq_ok_iff {blocks : List (List UInt8)} {image : List UInt8}
    (encoded : encode (blocks.map Block.mk) = .ok image) (parsed : List Block) :
    parse image = .ok parsed ↔
      (∀ bytes ∈ blocks, Readable bytes) ∧ parsed = blocks.map Block.mk := by
  constructor
  · intro read
    have readable : ∀ bytes ∈ blocks, Readable bytes := by
      -- Otherwise the reader stops at the first block that is not readable.
      by_contra someShort
      rcases exists_firstWithout someShort with ⟨front, short, fine, fails, back, split⟩
      rw [split] at encoded
      exact nomatch (parse_encode_short encoded fine fails).symm.trans read
    have expected := parse_encode encoded readable
    rw [read] at expected
    exact ⟨readable, Except.ok.inj expected⟩
  · rintro ⟨readable, rfl⟩
    exact parse_encode encoded readable

end ZxSpectrum.Tap
