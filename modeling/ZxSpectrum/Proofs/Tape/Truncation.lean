import ZxSpectrum.Proofs.Tape.TzxGrammar

namespace ZxSpectrum.Tzx

open Reader

/-! Images that are cut off. Every reader goes through its bytes from the front, so that it notices
a cut exactly when it needs a byte behind the cut. -/

/-- What was read from an offset on ran into the end after some bytes. -/
def CutShort (offset cut : Nat) (outcome : Except Error α) : Prop :=
  ∃ context place need remain, outcome = .error (.truncated context place need remain) ∧
    remain < need ∧ offset ≤ place ∧ place + remain = offset + cut

/-- What a reader answers depends on the bytes that it consumes, and it fails if some of them are
missing. -/
structure Reader.Sequential (reader : Reader α) : Prop where
  kept {offset : Nat} {bytes : List UInt8} {value : α} {consumed cut : Nat} :
    reader offset bytes = .ok (value, consumed) → consumed ≤ cut →
      reader offset (bytes.take cut) = .ok (value, consumed)
  cutShort {offset : Nat} {bytes : List UInt8} {value : α} {consumed cut : Nat} :
    reader offset bytes = .ok (value, consumed) → cut < consumed →
      CutShort offset cut (reader offset (bytes.take cut))

namespace Reader

theorem sequential_pure (value : α) : Sequential (Pure.pure value) where
  kept read _ := read
  cutShort read less := by
    cases read
    exact absurd less (Nat.not_lt_zero _)

theorem sequential_take (context : String) (need : Nat) : Sequential (take context need) where
  kept {offset bytes value consumed cut} read fits := by
    rcases (reads_take context need offset bytes value consumed).mp read with ⟨within, formed⟩
    apply (reads_take context need offset _ value consumed).mpr
    rw [List.take_take, Nat.min_eq_left fits, List.length_take]
    exact ⟨Nat.le_min.mpr ⟨fits, within⟩, formed⟩
  cutShort {offset bytes value consumed cut} read less := by
    rcases (reads_take context need offset bytes value consumed).mp read with ⟨within, formed⟩
    have exact : consumed = need := by
      have length := formed.1
      rwa [List.length_take_of_le within] at length
    have left : ((bytes.take cut).take need).length = cut := by
      rw [List.length_take, List.length_take]
      omega
    refine ⟨context, offset, need, cut, ?_, exact ▸ less, Nat.le_refl _, rfl⟩
    rw [take, left, if_pos (exact ▸ less)]

theorem bind_eq_error {first : Reader α} {next : α → Reader β} {offset : Nat}
    {bytes : List UInt8} {error : Error} (fails : first offset bytes = .error error) :
    (first >>= next) offset bytes = .error error := by
  change Reader.bind first next offset bytes = _
  rw [Reader.bind, fails]
  rfl

theorem bind_eq_error_of_ok {first : Reader α} {next : α → Reader β} {offset : Nat}
    {bytes : List UInt8} {value : α} {front : Nat} {error : Error}
    (read : first offset bytes = .ok (value, front))
    (fails : next value (offset + front) (bytes.drop front) = .error error) :
    (first >>= next) offset bytes = .error error := by
  change Reader.bind first next offset bytes = _
  simp only [Reader.bind, read, Bind.bind, Except.bind, fails]

theorem Sequential.bind {first : Reader α} {next : α → Reader β} (begins : Sequential first)
    (continues : ∀ value, Sequential (next value)) : Sequential (first >>= next) where
  kept {offset bytes value consumed cut} read fits := by
    rcases bind_eq_ok_iff.mp read with ⟨middle, front, back, begun, ended, rfl⟩
    have rest := (continues middle).kept ended (by omega : back ≤ cut - front)
    rw [← List.drop_take] at rest
    exact bind_eq_ok_iff.mpr
      ⟨middle, front, back, begins.kept begun (by omega), rest, rfl⟩
  cutShort {offset bytes value consumed cut} read less := by
    rcases bind_eq_ok_iff.mp read with ⟨middle, front, back, begun, ended, rfl⟩
    -- What the first one has read stays as it was, so that the next one starts at the same place.
    by_cases early : cut < front
    · rcases begins.cutShort begun early with ⟨context, place, need, remain, fails, missing⟩
      exact ⟨context, place, need, remain, bind_eq_error fails, missing⟩
    · rcases (continues middle).cutShort ended (by omega : cut - front < back) with
        ⟨context, place, need, remain, fails, missing, after, ends⟩
      rw [← List.drop_take] at fails
      have read := begins.kept begun (Nat.not_lt.mp early)
      exact ⟨context, place, need, remain, bind_eq_error_of_ok read fails, missing, by omega,
        by omega⟩

theorem Sequential.map {reader : Reader α} (sequential : Sequential reader) (transform : α → β) :
    Sequential (do return transform (← reader)) :=
  sequential.bind fun value => sequential_pure (transform value)

/-! The fields of a body, each read in sequence. -/

theorem sequential_number (context : String) (width : Nat) : Sequential (number context width) :=
  (sequential_take context width).map _

theorem sequential_byte (context : String) : Sequential (byte context) :=
  (sequential_number context 1).map UInt8.ofNat

theorem sequential_word (context : String) : Sequential (word context) :=
  (sequential_number context 2).map UInt16.ofNat

theorem sequential_text (context : String) (length : Nat) : Sequential (text context length) :=
  (sequential_take context length).map Text.Utf8.decodeLossy

theorem Sequential.discard {reader : Reader α} (sequential : Sequential reader) :
    Sequential (discard reader) :=
  sequential.map fun _ => PUnit.unit

theorem Sequential.times {reader : Reader α} (sequential : Sequential reader) (count : Nat) :
    Sequential (reader.times count) := by
  induction count with
  | zero => exact sequential_pure []
  | succ count induction => exact sequential.bind fun value => induction.map (value :: ·)

theorem byte_of_usedBits {context : String} {offset : Nat} {bytes : List UInt8} {value : UInt8}
    {consumed : Nat} (read : usedBits context offset bytes = .ok (value, consumed)) :
    ∃ bits, byte context offset bytes = .ok (bits, consumed) ∧
      ∀ other, byte context offset other = .ok (bits, consumed) →
        usedBits context offset other = .ok (value, consumed) := by
  rcases exists_of_bind_eq_ok read with ⟨⟨bits, width⟩, present, checked⟩
  have same : width = consumed := by
    dsimp only at checked
    split_ifs at checked <;> cases checked <;> rfl
  subst same
  refine ⟨bits, present, ?_⟩
  intro other again
  rw [usedBits, again]
  exact checked

theorem sequential_usedBits (context : String) : Sequential (usedBits context) where
  kept read fits := by
    rcases byte_of_usedBits read with ⟨bits, present, checked⟩
    exact checked _ ((sequential_byte context).kept present fits)
  cutShort read less := by
    rcases byte_of_usedBits read with ⟨bits, present, -⟩
    rcases (sequential_byte context).cutShort present less with
      ⟨context, place, need, remain, fails, missing⟩
    refine ⟨context, place, need, remain, ?_, missing⟩
    rw [usedBits, fails]
    rfl

end Reader

theorem sequential_skippedLength (id : UInt8) : (skippedLength id).Sequential := by
  unfold skippedLength
  split
  case h_1 | h_12 => exact (sequential_take _ _).discard.bind fun _ => sequential_number _ _
  case h_10 => exact (sequential_byte _).discard.bind fun _ => sequential_number _ _
  case h_6 | h_11 => exact (sequential_number _ _).map _
  case h_7 | h_14 => exact sequential_number _ _
  case h_2 | h_3 | h_4 | h_5 | h_8 | h_9 | h_13 => exact sequential_pure _

theorem sequential_archiveInfo : (body 0x32).Sequential := by
  rw [body_archiveInfo]
  exact (sequential_number _ _).bind fun _ => (sequential_take _ _).map _

theorem sequential_body (id : UInt8) : (body id).Sequential := by
  unfold body
  split
  case h_1 =>
    exact (sequential_word _).bind fun _ => (sequential_number _ _).bind fun _ =>
      (sequential_take _ _).map _
  case h_2 =>
    exact (sequential_word _).bind fun _ => (sequential_word _).bind fun _ =>
      (sequential_word _).bind fun _ => (sequential_word _).bind fun _ =>
      (sequential_word _).bind fun _ => (sequential_word _).bind fun _ =>
      (sequential_usedBits _).bind fun _ => (sequential_word _).bind fun _ =>
      (sequential_number _ _).bind fun _ => (sequential_take _ _).map _
  case h_3 => exact (sequential_word _).bind fun _ => (sequential_word _).map _
  case h_4 => exact (sequential_number _ _).bind fun _ => ((sequential_word _).times _).map _
  case h_5 =>
    exact (sequential_word _).bind fun _ => (sequential_word _).bind fun _ =>
      (sequential_usedBits _).bind fun _ => (sequential_word _).bind fun _ =>
      (sequential_number _ _).bind fun _ => (sequential_take _ _).map _
  case h_6 => exact (sequential_word _).map _
  case h_7 | h_9 => exact (sequential_number _ _).bind fun _ => (sequential_text _ _).map _
  case h_8 => exact sequential_pure _
  case h_10 => exact sequential_archiveInfo
  case h_11 =>
    exact (sequential_skippedLength id).bind fun _ => (sequential_take _ _).discard.map _

/-! Cuts of images. -/

def blockEnd (chunks : List Chunk) (count : Nat) : Nat :=
  10 + ((chunks.take count).flatMap Chunk.bytes).length

theorem cutShort_body {chunk : Chunk} (wellFormed : chunk.WellFormed) (offset : Nat) {cut : Nat}
    (inside : cut < chunk.body.length) :
    CutShort offset cut (body chunk.id offset (chunk.body.take cut)) := by
  have whole := body_append wellFormed offset []
  rw [List.append_nil] at whole
  exact (sequential_body chunk.id).cutShort whole inside

theorem cutShort_chunk {chunk : Chunk} (wellFormed : chunk.WellFormed) (offset : Nat) {cut : Nat}
    (inside : cut < chunk.body.length) :
    CutShort (offset + 1) cut (blocksFrom offset (chunk.bytes.take (cut + 1))) := by
  rcases cutShort_body wellFormed (offset + 1) inside with
    ⟨context, place, need, remain, fails, missing⟩
  refine ⟨context, place, need, remain, ?_, missing⟩
  rw [Chunk.bytes, List.take_succ_cons, blocksFrom, fails]
  rfl

theorem exists_chunk_of_cut {chunks : List Chunk} {cut : Nat}
    (within : cut ≤ (chunks.flatMap Chunk.bytes).length) :
    (∃ count ≤ chunks.length, cut = ((chunks.take count).flatMap Chunk.bytes).length) ∨
      ∃ front chunk back inside, chunks = front ++ chunk :: back ∧ inside < chunk.body.length ∧
        cut = (front.flatMap Chunk.bytes).length + (inside + 1) := by
  induction chunks generalizing cut with
  | nil => exact Or.inl ⟨0, Nat.le_refl 0, Nat.le_zero.mp within⟩
  | cons chunk chunks induction =>
      have size : chunk.bytes.length = chunk.body.length + 1 := rfl
      rw [List.flatMap_cons, List.length_append, size] at within
      rcases Nat.lt_or_ge cut (chunk.body.length + 1) with early | late
      · cases cut with
        | zero => exact Or.inl ⟨0, Nat.zero_le _, rfl⟩
        | succ inside =>
            refine Or.inr ⟨[], chunk, chunks, inside, rfl, Nat.lt_of_succ_lt_succ early, ?_⟩
            exact (Nat.zero_add _).symm
      · rcases induction (by omega : cut - (chunk.body.length + 1) ≤ _) with
          ⟨count, most, ends⟩ | ⟨front, cutChunk, back, inside, rfl, less, ends⟩
        · refine Or.inl ⟨count + 1, Nat.succ_le_succ most, ?_⟩
          rw [List.take_succ_cons, List.flatMap_cons, List.length_append, size]
          omega
        · refine Or.inr ⟨chunk :: front, cutChunk, back, inside, rfl, less, ?_⟩
          rw [List.flatMap_cons, List.length_append, size]
          omega

section Cut

variable {chunks : List Chunk} (wellFormed : ∀ chunk ∈ chunks, chunk.WellFormed)

theorem take_flatMap_bytes (count : Nat) :
    (chunks.flatMap Chunk.bytes).take ((chunks.take count).flatMap Chunk.bytes).length =
      (chunks.take count).flatMap Chunk.bytes := by
  have parts : chunks.flatMap Chunk.bytes =
      (chunks.take count).flatMap Chunk.bytes ++ (chunks.drop count).flatMap Chunk.bytes := by
    rw [← List.flatMap_append, List.take_append_drop]
  rw [parts, List.take_left]

include wellFormed

/-! A cut at the end of a block leaves the blocks before it, and one within a block is reported
there. -/

theorem blocksFrom_take_of_ends (offset count : Nat) :
    blocksFrom offset ((chunks.flatMap Chunk.bytes).take
        ((chunks.take count).flatMap Chunk.bytes).length) =
      .ok ((chunks.map Chunk.block).take count) := by
  rw [take_flatMap_bytes, blocksFrom_flatMap fun chunk member =>
    wellFormed chunk (List.mem_of_mem_take member), List.map_take]

theorem blocksFrom_take_of_inside (offset : Nat) {front back : List Chunk} {chunk : Chunk}
    (split : chunks = front ++ chunk :: back) {inside : Nat} (less : inside < chunk.body.length) :
    CutShort (offset + (front.flatMap Chunk.bytes).length + 1) inside
      (blocksFrom offset ((chunks.flatMap Chunk.bytes).take
        ((front.flatMap Chunk.bytes).length + (inside + 1)))) := by
  subst split
  have fits : inside + 1 ≤ chunk.bytes.length := Nat.succ_le_succ (Nat.le_of_lt less)
  have own : chunk.WellFormed := wellFormed chunk (by simp)
  have earlier : ∀ other ∈ front, other.WellFormed :=
    fun other member => wellFormed other (List.mem_append_left _ member)
  rcases cutShort_chunk own (offset + (front.flatMap Chunk.bytes).length) less with
    ⟨context, place, need, remain, fails, missing⟩
  refine ⟨context, place, need, remain, ?_, missing⟩
  rw [List.flatMap_append, List.take_length_add_append, List.flatMap_cons,
    List.take_append_of_le_length fits, blocksFrom_append earlier, fails]
  rfl

end Cut

/-- An image that is read can be cut off anywhere after its header. At the end of a block the
blocks before the cut are read. Elsewhere the error names a place within the block that is cut,
where more bytes are needed than the cut leaves. -/
theorem parse_take_truncated {bytes : List UInt8} {image : Image}
    (parsed : parse bytes = .ok image) :
    ∃ chunks : List Chunk, (∀ chunk ∈ chunks, chunk.WellFormed) ∧
      bytes = signature ++ [image.major, image.minor] ++ chunks.flatMap Chunk.bytes ∧
      image.blocks = chunks.map Chunk.block ∧
      ∀ cut, 10 ≤ cut → cut ≤ bytes.length →
        (∀ count ≤ chunks.length, cut = blockEnd chunks count →
          parse (bytes.take cut) = .ok { image with blocks := image.blocks.take count }) ∧
        ((∀ count ≤ chunks.length, cut ≠ blockEnd chunks count) →
          ∃ count < chunks.length, ∃ context place need remain,
            parse (bytes.take cut) = .error (.truncated context place need remain) ∧
            remain < need ∧ place + remain = cut ∧
            blockEnd chunks count < place ∧ cut < blockEnd chunks (count + 1)) := by
  rcases image with ⟨major, minor, blocks⟩
  rcases (parse_eq_ok_iff _ _).mp parsed with ⟨chunks, wellFormed, rfl, spelled⟩
  cases spelled
  refine ⟨chunks, wellFormed, rfl, rfl, ?_⟩
  intro cut least most
  rcases Nat.exists_eq_add_of_le least with ⟨cut, rfl⟩
  have front : (signature ++ [major, minor] ++ chunks.flatMap Chunk.bytes).take (10 + cut) =
      signature ++ [major, minor] ++ (chunks.flatMap Chunk.bytes).take cut := by
    have header : 10 = (signature ++ [major, minor]).length := rfl
    rw [header, List.take_length_add_append]
  have within : cut ≤ (chunks.flatMap Chunk.bytes).length := by
    rw [List.length_append] at most
    exact Nat.le_of_add_le_add_left most
  simp only [front, parse_signed]
  constructor
  · intro count few ends
    rw [Nat.add_left_cancel ends, blocksFrom_take_of_ends wellFormed]
    rfl
  · intro between
    rcases exists_chunk_of_cut within with
      ⟨count, few, ends⟩ | ⟨earlier, chunk, back, inside, split, less, ends⟩
    · exact absurd (congrArg (10 + ·) ends) (between count few)
    · rcases blocksFrom_take_of_inside wellFormed 10 split less with
        ⟨context, place, need, remain, fails, missing, after, exact⟩
      have started : (chunks.take earlier.length).flatMap Chunk.bytes =
          earlier.flatMap Chunk.bytes := by
        rw [split, List.take_left]
      have ended : ((chunks.take (earlier.length + 1)).flatMap Chunk.bytes).length =
          (earlier.flatMap Chunk.bytes).length + (chunk.body.length + 1) := by
        rw [split, List.take_length_add_append]
        simp [Chunk.bytes]
      have number : earlier.length < chunks.length := by
        rw [split, List.length_append, List.length_cons]
        omega
      refine ⟨earlier.length, number, context, place, need, remain, ?_, missing, ?_, ?_, ?_⟩
      · rw [ends, fails]
        rfl
      · omega
      · rw [blockEnd, started]
        omega
      · rw [blockEnd, ended]
        omega

theorem parse_take_truncated_bitAndArchive :
    parse (header ++ bitAndArchive.flatMap Chunk.bytes) =
        .ok ⟨1, 20, [.pureData 855 1710 1 1 [0x80], .archiveInfo [(0, "Ab")]]⟩ ∧
      ∃ context place need remain,
        parse ((header ++ bitAndArchive.flatMap Chunk.bytes).take 26) =
          .error (.truncated context place need remain) ∧
        remain < need ∧ place + remain = 26 := by
  have parsed : parse (header ++ bitAndArchive.flatMap Chunk.bytes) =
      .ok ⟨1, 20, [.pureData 855 1710 1 1 [0x80], .archiveInfo [(0, "Ab")]]⟩ :=
    (parse_eq_ok_iff _ _).mpr ⟨bitAndArchive, by decide, rfl, by decide +kernel⟩
  rcases parse_take_truncated parsed with ⟨chunks, -, -, -, cuts⟩
  rcases cuts 26 (by decide) (by decide) with ⟨atEnd, inside⟩
  have between : ∀ count ≤ chunks.length, 26 ≠ blockEnd chunks count := by
    intro count few ends
    have fails : parse ((header ++ bitAndArchive.flatMap Chunk.bytes).take 26) =
        .error (.truncated "archive info" 25 6 1) := by decide +kernel
    exact nomatch (atEnd count few ends).symm.trans fails
  rcases inside between with ⟨_, _, context, place, need, remain, fails, missing, exact, -⟩
  exact ⟨parsed, context, place, need, remain, fails, missing, exact⟩

end ZxSpectrum.Tzx
