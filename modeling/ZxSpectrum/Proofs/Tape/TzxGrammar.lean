import ZxSpectrum.Proofs.Tape.ReaderForms

namespace ZxSpectrum.Tzx

open Reader

/-! The grammar of images. After the signature and two version bytes an image is a row of chunks,
each an identifier and a body. The identifier alone decides how the body declares its length and
what its bytes mean. -/

/-- How a body declares its length: some bytes whose number is known, the bytes of a count, and
some bytes for each unit that is counted. -/
structure Layout where
  fixed : Nat
  countWidth : Nat
  unit : Nat

def layout : UInt8 → Layout
  | 0x10 => ⟨2, 2, 1⟩
  | 0x11 => ⟨15, 3, 1⟩
  | 0x12 => ⟨4, 0, 0⟩
  | 0x13 => ⟨0, 1, 2⟩
  | 0x14 => ⟨7, 3, 1⟩
  | 0x15 => ⟨5, 3, 1⟩
  | 0x20 => ⟨2, 0, 0⟩
  | 0x21 => ⟨0, 1, 1⟩
  | 0x22 => ⟨0, 0, 0⟩
  | 0x23 | 0x24 => ⟨2, 0, 0⟩
  | 0x25 | 0x27 => ⟨0, 0, 0⟩
  | 0x26 => ⟨0, 2, 2⟩
  | 0x28 => ⟨0, 2, 1⟩
  | 0x2A => ⟨4, 0, 0⟩
  | 0x2B => ⟨5, 0, 0⟩
  | 0x30 => ⟨0, 1, 1⟩
  | 0x31 => ⟨1, 1, 1⟩
  | 0x32 => ⟨0, 2, 1⟩
  | 0x33 => ⟨0, 1, 3⟩
  | 0x35 => ⟨16, 4, 1⟩
  | 0x5A => ⟨9, 0, 0⟩
  | _ => ⟨0, 4, 1⟩

def numberAt (place width : Nat) (body : List UInt8) : Nat :=
  littleEndian ((body.drop place).take width)

def wordAt (place : Nat) (body : List UInt8) : UInt16 :=
  UInt16.ofNat (numberAt place 2 body)

def Layout.length (layout : Layout) (body : List UInt8) : Nat :=
  layout.fixed + layout.countWidth
    + layout.unit * numberAt layout.fixed layout.countWidth body

def usedBitsPlace : UInt8 → Option Nat
  | 0x11 => some 12
  | 0x14 => some 4
  | _ => none

/-- The bytes are a body of the blocks with an identifier. -/
def IsBody (id : UInt8) (body : List UInt8) : Prop :=
  body.length = (layout id).length body ∧
    ∀ place ∈ usedBitsPlace id, numberAt place 1 body ≤ 8

instance (id : UInt8) (body : List UInt8) : Decidable (IsBody id body) :=
  inferInstanceAs (Decidable (_ ∧ _))

/-! An archive says after its length how many entries it has. Each of them is an identifier, the
length of a text and that text, and begins where the one before it ends. An entry of which not even
the length is there is none, and a text ends with the archive at the latest. -/

def entryEnd (body : List UInt8) (place : Nat) : Nat :=
  place + 2 + numberAt (place + 1) 1 body

def entryAt (body : List UInt8) (place : Nat) : Option (UInt8 × String) :=
  if place + 2 ≤ body.length then
    let text := (body.drop (place + 2)).take (numberAt (place + 1) 1 body)
    some (UInt8.ofNat (numberAt place 1 body), Text.Utf8.decodeLossy text)
  else none

def archive (body : List UInt8) : List (UInt8 × String) :=
  (List.range (numberAt 2 1 body)).filterMap fun index =>
    entryAt body ((entryEnd body)^[index] 3)

def decode (id : UInt8) (body : List UInt8) : Block :=
  match id with
  | 0x10 => .standardSpeed (wordAt 0 body) (body.drop 4)
  | 0x11 => .turboSpeed (wordAt 0 body) (wordAt 2 body) (wordAt 4 body) (wordAt 6 body)
      (wordAt 8 body) (wordAt 10 body) (usedBitsOf (numberAt 12 1 body)) (wordAt 13 body)
      (body.drop 18)
  | 0x12 => .pureTone (wordAt 0 body) (wordAt 2 body)
  | 0x13 => .pulseSequence (words (body.drop 1))
  | 0x14 => .pureData (wordAt 0 body) (wordAt 2 body) (usedBitsOf (numberAt 4 1 body))
      (wordAt 5 body) (body.drop 10)
  | 0x20 => .pause (wordAt 0 body)
  | 0x21 => .groupStart (Text.Utf8.decodeLossy (body.drop 1))
  | 0x22 => .groupEnd
  | 0x30 => .textDescription (Text.Utf8.decodeLossy (body.drop 1))
  | 0x32 => .archiveInfo (archive body)
  | id => .unsupported id

structure Chunk where
  id : UInt8
  body : List UInt8

namespace Chunk

def bytes (chunk : Chunk) : List UInt8 :=
  chunk.id :: chunk.body

def WellFormed (chunk : Chunk) : Prop :=
  IsBody chunk.id chunk.body

instance (chunk : Chunk) : Decidable chunk.WellFormed :=
  inferInstanceAs (Decidable (IsBody _ _))

def block (chunk : Chunk) : Block :=
  decode chunk.id chunk.body

end Chunk

/-- The bytes are the image with its blocks written one after another. -/
def Spells (bytes : List UInt8) (image : Image) : Prop :=
  ∃ chunks : List Chunk, (∀ chunk ∈ chunks, chunk.WellFormed) ∧
    bytes = signature ++ [image.major, image.minor] ++ chunks.flatMap Chunk.bytes ∧
    image.blocks = chunks.map Chunk.block

/-! Each body is read field by field. The widths of the fields before it give the place of each
field, and what is read last ends the body. -/

def BodyForm (id : UInt8) (own : List UInt8) (block : Block) : Prop :=
  IsBody id own ∧ block = decode id own

theorem numberAt_one {body : List UInt8} {place : Nat} (short : place < body.length) :
    numberAt place 1 body = body[place].toNat := by
  rw [numberAt, List.drop_eq_getElem_cons short, List.take_succ_cons, List.take_zero,
    littleEndian_singleton]

theorem archiveEntries_drop (body : List UInt8) (place count : Nat) :
    archiveEntries count (body.drop place) =
      (List.range count).filterMap fun index => entryAt body ((entryEnd body)^[index] place) := by
  induction count generalizing place with
  | zero => rfl
  | succ count induction =>
      by_cases there : place + 2 ≤ body.length
      · have split : body.drop place =
            body[place] :: body[place + 1] :: body.drop (place + 2) := by
          rw [List.drop_eq_getElem_cons (by omega), List.drop_eq_getElem_cons (by omega)]
        have first : entryAt body place = some (body[place], Text.Utf8.decodeLossy
            ((body.drop (place + 2)).take body[place + 1].toNat)) := by
          rw [entryAt, if_pos there, numberAt_one, numberAt_one, UInt8.ofNat_toNat]
        have rest : (body.drop (place + 2)).drop body[place + 1].toNat =
            body.drop (entryEnd body place) := by
          rw [List.drop_drop, entryEnd, numberAt_one]
        rw [split, archiveEntries, rest, induction, List.range_succ_eq_map, List.filterMap_cons,
          List.filterMap_map, Function.iterate_zero_apply, first]
        rfl
      · -- Where an entry does not fit, none of those after it does.
        have onwards (index : Nat) : place ≤ (entryEnd body)^[index] place := by
          refine Function.id_le_iterate_of_id_le (fun place => ?_) index place
          exact (Nat.le_add_right place 2).trans (Nat.le_add_right _ _)
        have nothing : (List.range (count + 1)).filterMap (fun index =>
            entryAt body ((entryEnd body)^[index] place)) = [] := by
          refine List.filterMap_eq_nil_iff.mpr fun index _ => if_neg fun fits => there ?_
          exact (Nat.add_le_add_right (onwards index) 2).trans fits
        have few : (body.drop place).length < 2 := by
          rw [List.length_drop]
          omega
        rw [nothing]
        match entries : body.drop place with
        | [] => rfl
        | [_] => rfl
        | _ :: _ :: _ =>
            rw [entries] at few
            exact absurd few (by simp)

def countedEntries : List UInt8 → List (UInt8 × String)
  | [] => []
  | count :: entries => archiveEntries count.toNat entries

theorem archive_eq_countedEntries (body : List UInt8) :
    archive body = countedEntries (body.drop 2) := by
  by_cases counted : 2 < body.length
  · rw [archive, ← archiveEntries_drop, numberAt_one counted, List.drop_eq_getElem_cons counted]
    rfl
  · have nothing : body.drop 2 = [] := List.drop_of_length_le (Nat.le_of_not_lt counted)
    rw [archive, numberAt, nothing]
    rfl

section

attribute [local simp] BodyForm IsBody layout Layout.length usedBitsPlace numberAt wordAt decode
  FieldForm List.drop_take

theorem reads_standardSpeed : Reads (body 0x10) (BodyForm 0x10) := by
  have reads := (reads_word "standard speed header").bind fun pause =>
    (reads_number "standard speed header" 2).bind fun length =>
    (reads_take "standard speed data" length).map fun data =>
    Block.standardSpeed pause data
  apply reads.congr
  intro own block
  simp [← and_assoc]
  omega

theorem reads_turboSpeed : Reads (body 0x11) (BodyForm 0x11) := by
  have reads := (reads_word "turbo speed header").bind fun pilotPulse =>
    (reads_word "turbo speed header").bind fun sync1 =>
    (reads_word "turbo speed header").bind fun sync2 =>
    (reads_word "turbo speed header").bind fun zeroPulse =>
    (reads_word "turbo speed header").bind fun onePulse =>
    (reads_word "turbo speed header").bind fun pilotCount =>
    (reads_usedBits "turbo speed header").bind fun usedBits =>
    (reads_word "turbo speed header").bind fun pause =>
    (reads_number "turbo speed header" 3).bind fun length =>
    (reads_take "turbo speed data" length).map fun data =>
    Block.turboSpeed pilotPulse sync1 sync2 zeroPulse onePulse pilotCount usedBits pause data
  apply reads.congr
  intro own block
  simp [← and_assoc]
  omega

theorem reads_pureTone : Reads (body 0x12) (BodyForm 0x12) := by
  have reads := (reads_word "pure tone").bind fun pulse =>
    (reads_word "pure tone").bind fun count =>
    reads_pure (Block.pureTone pulse count)
  apply reads.congr
  intro own block
  simp [← and_assoc]
  omega

theorem reads_pulseSequence : Reads (body 0x13) (BodyForm 0x13) := by
  have reads := (reads_number "pulse sequence" 1).bind fun count =>
    (reads_words "pulse sequence" count).map fun pulses =>
    Block.pulseSequence pulses
  apply reads.congr
  intro own block
  simp [← and_assoc]
  omega

theorem reads_pureData : Reads (body 0x14) (BodyForm 0x14) := by
  have reads := (reads_word "pure data header").bind fun zeroPulse =>
    (reads_word "pure data header").bind fun onePulse =>
    (reads_usedBits "pure data header").bind fun usedBits =>
    (reads_word "pure data header").bind fun pause =>
    (reads_number "pure data header" 3).bind fun length =>
    (reads_take "pure data" length).map fun data =>
    Block.pureData zeroPulse onePulse usedBits pause data
  apply reads.congr
  intro own block
  simp [← and_assoc]
  omega

theorem reads_pause : Reads (body 0x20) (BodyForm 0x20) := by
  have reads := (reads_word "pause").bind fun duration => reads_pure (Block.pause duration)
  apply reads.congr
  intro own block
  simp [← and_assoc]
  omega

theorem reads_groupStart : Reads (body 0x21) (BodyForm 0x21) := by
  have reads := (reads_number "group start" 1).bind fun length =>
    (reads_text "group name" length).map fun name =>
    Block.groupStart name
  apply reads.congr
  intro own block
  simp [← and_assoc]
  omega

theorem reads_groupEnd : Reads (body 0x22) (BodyForm 0x22) := by
  apply (reads_pure Block.groupEnd).congr
  intro own block
  simp

theorem reads_textDescription : Reads (body 0x30) (BodyForm 0x30) := by
  have reads := (reads_number "text description" 1).bind fun length =>
    (reads_text "text description" length).map fun text =>
    Block.textDescription text
  apply reads.congr
  intro own block
  simp [← and_assoc]
  omega

theorem body_archiveInfo : body 0x32 = do
    let length ← number "archive info" 2
    let entries ← take "archive info" length
    return .archiveInfo (countedEntries entries) := by
  change (number "archive info" 2 >>= fun length => take "archive info" length >>= fun entries =>
    match entries with
    | [] => Pure.pure (Block.archiveInfo [])
    | count :: entries => Pure.pure (Block.archiveInfo (archiveEntries count.toNat entries))) = _
  congr
  funext length
  congr
  funext entries
  cases entries <;> rfl

theorem reads_archiveInfo : Reads (body 0x32) (BodyForm 0x32) := by
  have reads := (reads_number "archive info" 2).bind fun length =>
    (reads_take "archive info" length).map fun entries =>
    Block.archiveInfo (countedEntries entries)
  rw [body_archiveInfo]
  apply reads.congr
  intro own block
  simp [← and_assoc, archive_eq_countedEntries]
  omega

theorem reads_skipped {header : Reader Nat} {width : Nat} {length : List UInt8 → Nat}
    (reads : Reads header (FieldForm width fun own value => value = length own)) (id : UInt8) :
    Reads (do
        let length ← header
        discard (take "skipped block" length)
        return Block.unsupported id) fun own block =>
      own.length = width + length (own.take width) ∧ block = .unsupported id := by
  have skips := reads.bind fun length =>
    (reads_discard (reads_take "skipped block" length)).map fun _ => Block.unsupported id
  apply skips.congr
  intro own block
  simp [← and_assoc]
  omega

theorem reads_body (id : UInt8) : Reads (body id) (BodyForm id) := by
  unfold body
  split
  · exact reads_standardSpeed
  · exact reads_turboSpeed
  · exact reads_pureTone
  · exact reads_pulseSequence
  · exact reads_pureData
  · exact reads_pause
  · exact reads_groupStart
  · exact reads_groupEnd
  · exact reads_textDescription
  · exact reads_archiveInfo
  · unfold skippedLength
    split
    case h_1 =>
      have header := reads_number_after (reads_take "direct recording header" 5)
        "direct recording header" 3
      apply (reads_skipped header _).congr
      simp
    case h_2 | h_3 =>
      apply (reads_skipped (reads_constant 2) _).congr
      simp
    case h_4 | h_5 =>
      apply (reads_skipped (reads_constant 0) _).congr
      simp
    case h_6 =>
      apply (reads_skipped ((reads_number "call sequence" 2).mapField (2 * ·)) _).congr
      simp
    case h_7 =>
      apply (reads_skipped (reads_number "select block" 2) _).congr
      simp
    case h_8 =>
      apply (reads_skipped (reads_constant 4) _).congr
      simp
    case h_9 =>
      apply (reads_skipped (reads_constant 5) _).congr
      simp
    case h_10 =>
      have header := reads_number_after (reads_byte "message") "message" 1
      apply (reads_skipped header _).congr
      simp
    case h_11 =>
      apply (reads_skipped ((reads_number "hardware type" 1).mapField (3 * ·)) _).congr
      simp
    case h_12 =>
      have header := reads_number_after (reads_take "custom info" 16) "custom info" 4
      apply (reads_skipped header _).congr
      simp
    case h_13 =>
      apply (reads_skipped (reads_constant 9) _).congr
      simp
    case h_14 =>
      apply (reads_skipped (reads_number "block length" 4) _).congr
      intro own block
      simp [*]

end

/-! Chunk after chunk is read, each from where the one before it ends. -/

theorem body_append {chunk : Chunk} (wellFormed : chunk.WellFormed) (offset : Nat)
    (rest : List UInt8) :
    body chunk.id offset (chunk.body ++ rest) = .ok (chunk.block, chunk.body.length) := by
  apply (reads_body chunk.id _ _ _ _).mpr
  rw [List.take_left]
  exact ⟨by simp, wellFormed, rfl⟩

theorem blocksFrom_append {chunks : List Chunk} (wellFormed : ∀ chunk ∈ chunks, chunk.WellFormed)
    (offset : Nat) (rest : List UInt8) :
    blocksFrom offset (chunks.flatMap Chunk.bytes ++ rest) =
      (blocksFrom (offset + (chunks.flatMap Chunk.bytes).length) rest).map
        (chunks.map Chunk.block ++ ·) := by
  induction chunks generalizing offset with
  | nil =>
      have same : (fun blocks : List Block => [] ++ blocks) = id := rfl
      rw [List.map_nil, same, Except.map_id]
      rfl
  | cons chunk chunks induction =>
      rcases List.forall_mem_cons.mp wellFormed with ⟨first, later⟩
      have place : offset + 1 + chunk.body.length + (chunks.flatMap Chunk.bytes).length =
          offset + (chunk.id :: chunk.body ++ chunks.flatMap Chunk.bytes).length := by
        rw [List.length_append, List.length_cons]
        omega
      rw [List.flatMap_cons, List.append_assoc, Chunk.bytes, List.cons_append, blocksFrom,
        body_append first]
      simp only [Bind.bind, Except.bind, List.drop_left, induction later, place]
      cases blocksFrom _ rest <;> rfl

theorem blocksFrom_flatMap {chunks : List Chunk} (wellFormed : ∀ chunk ∈ chunks, chunk.WellFormed)
    (offset : Nat) :
    blocksFrom offset (chunks.flatMap Chunk.bytes) = .ok (chunks.map Chunk.block) := by
  have read := blocksFrom_append wellFormed offset []
  rw [List.append_nil, blocksFrom] at read
  rw [read, Except.map, List.append_nil]

theorem exists_chunks_of_blocksFrom {offset : Nat} {bytes : List UInt8} {blocks : List Block}
    (read : blocksFrom offset bytes = .ok blocks) :
    ∃ chunks : List Chunk, (∀ chunk ∈ chunks, chunk.WellFormed) ∧
      bytes = chunks.flatMap Chunk.bytes ∧ blocks = chunks.map Chunk.block := by
  fun_induction blocksFrom offset bytes generalizing blocks with
  | case1 =>
      cases read
      exact ⟨[], by simp, rfl, rfl⟩
  | case2 offset id rest induction =>
      rcases exists_of_bind_eq_ok read with ⟨⟨block, consumed⟩, first, read⟩
      rcases exists_of_bind_eq_ok read with ⟨others, later, read⟩
      cases read
      rcases (reads_body id _ _ _ _).mp first with ⟨fits, isBody, rfl⟩
      rcases induction _ later with ⟨chunks, wellFormed, spelled, rfl⟩
      refine ⟨⟨id, rest.take consumed⟩ :: chunks, ?_, ?_, rfl⟩
      · exact List.forall_mem_cons.mpr ⟨isBody, wellFormed⟩
      · rw [List.flatMap_cons, ← spelled, Chunk.bytes, List.cons_append, List.take_append_drop]

theorem parse_signed (major minor : UInt8) (rest : List UInt8) :
    parse (signature ++ [major, minor] ++ rest) =
      (blocksFrom 10 rest).map fun blocks => ⟨major, minor, blocks⟩ := by
  have signed : isImage (signature ++ [major, minor] ++ rest) = true := by simp [isImage]
  have versions : (signature ++ [major, minor] ++ rest).drop 8 = major :: minor :: rest := rfl
  simp only [parse, versions, signed]
  cases blocksFrom 10 rest <;> rfl

/-- The reader answers exactly what the bytes spell. -/
theorem parse_eq_ok_iff (bytes : List UInt8) (image : Image) :
    parse bytes = .ok image ↔ Spells bytes image := by
  rcases image with ⟨major, minor, blocks⟩
  constructor
  · intro parsed
    unfold parse at parsed
    split at parsed
    case h_1 first second rest split =>
      split_ifs at parsed with signed
      rcases exists_of_bind_eq_ok parsed with ⟨read, later, parsed⟩
      cases parsed
      rcases exists_chunks_of_blocksFrom later with ⟨chunks, wellFormed, rfl, rfl⟩
      refine ⟨chunks, wellFormed, ?_, rfl⟩
      rcases List.isPrefixOf_iff_prefix.mp signed with ⟨back, rfl⟩
      cases split
      simp
    case h_2 => exact nomatch parsed
  · rintro ⟨chunks, wellFormed, rfl, spelled⟩
    cases spelled
    rw [parse_signed, blocksFrom_flatMap wellFormed]
    rfl

/-- Reading succeeds exactly on what the grammar spells, with the blocks of the chunks in their
order. So the chunks of two images with one header make one image. -/
theorem parse_accepts_grammar :
    (∀ bytes image, parse bytes = .ok image ↔ Spells bytes image) ∧
      ∀ header front back image other, header.length = 10 →
        parse (header ++ front) = .ok image → parse (header ++ back) = .ok other →
        parse (header ++ front ++ back) =
          .ok { image with blocks := image.blocks ++ other.blocks } := by
  refine ⟨parse_eq_ok_iff, ?_⟩
  intro header front back image other length parsed parsedOther
  rcases (parse_eq_ok_iff _ _).mp parsed with ⟨chunks, formed, spelled, blocks⟩
  rcases (parse_eq_ok_iff _ _).mp parsedOther with
    ⟨others, othersFormed, othersSpelled, otherBlocks⟩
  rcases List.append_inj spelled length with ⟨rfl, rfl⟩
  rcases List.append_inj othersSpelled length with ⟨-, rfl⟩
  apply (parse_eq_ok_iff _ _).mpr
  refine ⟨chunks ++ others, ?_, ?_, ?_⟩
  · simpa [or_imp, forall_and] using And.intro formed othersFormed
  · simp
  · rw [List.map_append, ← blocks, ← otherBlocks]

def header : List UInt8 :=
  signature ++ [1, 20]

/-- Data of one bit, and an archive of one entry that announces nine. -/
def bitAndArchive : List Chunk :=
  [⟨0x14, [0x57, 3, 0xAE, 6, 1, 1, 0, 1, 0, 0, 0x80]⟩,
    ⟨0x32, [6, 0, 9, 0, 2, 0x41, 0x62, 1]⟩]

theorem parse_accepts_grammar_bitAndArchive :
    parse (header ++ bitAndArchive.flatMap Chunk.bytes) =
        .ok ⟨1, 20, [.pureData 855 1710 1 1 [0x80], .archiveInfo [(0, "Ab")]]⟩ ∧
      parse (header ++ [0x20, 100, 0]) = .ok ⟨1, 20, [.pause 100]⟩ ∧
      parse (header ++ bitAndArchive.flatMap Chunk.bytes ++ [0x20, 100, 0]) =
        .ok ⟨1, 20, [.pureData 855 1710 1 1 [0x80], .archiveInfo [(0, "Ab")], .pause 100]⟩ := by
  rcases parse_accepts_grammar with ⟨accepts, joins⟩
  have parsed : parse (header ++ bitAndArchive.flatMap Chunk.bytes) =
      .ok ⟨1, 20, [.pureData 855 1710 1 1 [0x80], .archiveInfo [(0, "Ab")]]⟩ := by
    apply (accepts _ _).mpr
    exact ⟨bitAndArchive, by decide, rfl, by decide +kernel⟩
  have silence : parse (header ++ [0x20, 100, 0]) = .ok ⟨1, 20, [.pause 100]⟩ := by
    apply (accepts _ _).mpr
    exact ⟨[⟨0x20, [100, 0]⟩], by decide, rfl, by decide⟩
  exact ⟨parsed, silence, joins header _ _ _ _ rfl parsed silence⟩

end ZxSpectrum.Tzx
