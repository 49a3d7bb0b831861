import ZxSpectrum.Proofs.Tape.Records

namespace ZxSpectrum.Tap

/-! Writing what has been read, and reading what has been written. An image has one list of blocks
and is the only image of that list. The writer and the reader refuse different blocks, each the
first one of its kind. -/

theorem exists_encode {blocks : List (List UInt8)} (fits : ∀ bytes ∈ blocks, Fits bytes) :
    ∃ image, encode (blocks.map Block.mk) = .ok image := by
  induction blocks with
  | nil => exact ⟨[], rfl⟩
  | cons bytes blocks induction =>
      rcases List.forall_mem_cons.mp fits with ⟨first, later⟩
      rcases induction later with ⟨image, encoded⟩
      exact ⟨_, encode_cons first encoded⟩

theorem encode_long {blocks front : List (List UInt8)} {long : List UInt8}
    (first : FirstWithout Fits blocks front long) :
    encode (blocks.map Block.mk) = .error (.blockTooLong long.length) := by
  rcases first with ⟨fits, fails, back, rfl⟩
  induction front with
  | nil =>
      rw [List.nil_append, List.map_cons, encode, record_of_not_fits fails]
      rfl
  | cons bytes front induction =>
      rcases List.forall_mem_cons.mp fits with ⟨first, later⟩
      rw [List.cons_append, List.map_cons, encode, record_of_fits first, induction later]
      rfl

theorem encode_eq_error_iff {blocks : List (List UInt8)} {error : Error} :
    encode (blocks.map Block.mk) = .error error ↔
      ∃ front long, FirstWithout Fits blocks front long ∧ error = .blockTooLong long.length := by
  constructor
  · intro fails
    have someLong : ¬∀ bytes ∈ blocks, Fits bytes := by
      intro fits
      rcases exists_encode fits with ⟨image, encoded⟩
      exact nomatch encoded.symm.trans fails
    rcases exists_firstWithout someLong with ⟨front, long, first⟩
    exact ⟨front, long, first, Except.error.inj (fails.symm.trans (encode_long first))⟩
  · rintro ⟨front, long, first, rfl⟩
    exact encode_long first

theorem record_of_lengthBytes {low high : UInt8} {bytes : List UInt8}
    (length : bytes.length = low.toNat + 256 * high.toNat) :
    record ⟨bytes⟩ = .ok (low :: high :: bytes) := by
  have lowFits := low.toNat_lt
  have highFits := high.toNat_lt
  have fits : Fits bytes := by
    rw [Fits, length]
    omega
  have lowByte : UInt8.ofNat bytes.length = low := by
    apply UInt8.toNat_inj.mp
    rw [UInt8.toNat_ofNat', length]
    omega
  have highByte : UInt8.ofNat (bytes.length / 256) = high := by
    apply UInt8.toNat_inj.mp
    rw [UInt8.toNat_ofNat', length]
    omega
  rw [record_of_fits fits, lowByte, highByte]

theorem encode_of_parseFrom {offset : Nat} {image : List UInt8} {blocks : List Block}
    (parsed : parseFrom offset image = .ok blocks) : encode blocks = .ok image := by
  fun_induction parseFrom offset image generalizing blocks with
  | case1 =>
      cases parsed
      rfl
  | case2 => exact nomatch parsed
  | case3 => exact nomatch parsed
  | case4 => exact nomatch parsed
  | case5 offset low high rest length bytes _ whole =>
      rename_i induction
      cases later : parseFrom (offset + 2 + length) (rest.drop length) with
      | error error =>
          rw [later] at parsed
          exact nomatch parsed
      | ok others =>
          rw [later] at parsed
          cases parsed
          have taken : bytes.length = length := by
            apply Nat.le_antisymm (List.length_take_le _ _)
            exact Nat.not_lt.mp whole
          have parts : bytes ++ rest.drop length = rest := List.take_append_drop _ _
          rw [encode, record_of_lengthBytes taken, induction later]
          change Except.ok (low :: high :: (bytes ++ rest.drop length)) = _
          rw [parts]

/-- Reading an image and writing it again gives the image. Writing blocks fails at the first one
that is too long for a record, and else reading gives the blocks back, unless one of them has no
room for flag and checksum: then it fails where the record of the first of these begins. -/
theorem image_roundTrip :
    (∀ image blocks, parse image = .ok blocks → encode blocks = .ok image) ∧
      ∀ blocks : List (List UInt8),
        (∀ error, encode (blocks.map Block.mk) = .error error ↔
          ∃ front long, FirstWithout Fits blocks front long ∧
            error = .blockTooLong long.length) ∧
        ∀ image, encode (blocks.map Block.mk) = .ok image →
          (parse image = .ok (blocks.map Block.mk) ↔ ∀ bytes ∈ blocks, Readable bytes) ∧
          ∀ error, parse image = .error error ↔
            ∃ front short, FirstWithout Readable blocks front short ∧
              error = .recordTooShort (recordsLength front) short.length := by
  refine ⟨fun image blocks => encode_of_parseFrom, fun blocks => ⟨fun error => encode_eq_error_iff, ?_⟩⟩
  intro image encoded
  have stops {front : List (List UInt8)} {short : List UInt8}
      (first : FirstWithout Readable blocks front short) :
      parse image = .error (.recordTooShort (recordsLength front) short.length) := by
    rcases first with ⟨readable, fails, back, split⟩
    rw [split] at encoded
    exact parse_encode_short encoded readable fails
  constructor
  · rw [parse_encode_eq_ok_iff encoded]
    exact and_iff_left rfl
  · intro error
    constructor
    · intro fails
      have someShort : ¬∀ bytes ∈ blocks, Readable bytes := by
        intro readable
        exact nomatch (parse_encode encoded readable).symm.trans fails
      rcases exists_firstWithout someShort with ⟨front, short, first⟩
      exact ⟨front, short, first, Except.error.inj (fails.symm.trans (stops first))⟩
    · rintro ⟨front, short, first, rfl⟩
      exact stops first

theorem image_roundTrip_oneByteBlock :
    encode [⟨[0xFF, 0xFF]⟩] = .ok [2, 0, 0xFF, 0xFF] ∧
      encode ([[0xFF, 0xFF], [0xFF]].map Block.mk) = .ok [2, 0, 0xFF, 0xFF, 1, 0, 0xFF] ∧
        parse [2, 0, 0xFF, 0xFF, 1, 0, 0xFF] = .error (.recordTooShort 4 1) := by
  have parsed : parse [2, 0, 0xFF, 0xFF] = .ok [⟨[0xFF, 0xFF]⟩] := by
    simp [parse, parseFrom, Except.map]
  have encoded : encode ([[0xFF, 0xFF], [0xFF]].map Block.mk) =
      .ok [2, 0, 0xFF, 0xFF, 1, 0, 0xFF] := by decide
  rcases image_roundTrip with ⟨written, stored⟩
  rcases (stored [[0xFF, 0xFF], [0xFF]]).2 _ encoded with ⟨_, stops⟩
  refine ⟨written _ _ parsed, encoded, (stops _).mpr ?_⟩
  exact ⟨[[0xFF, 0xFF]], [0xFF], ⟨by decide, by decide, [], rfl⟩, rfl⟩

end ZxSpectrum.Tap
