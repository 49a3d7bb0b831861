import ZxSpectrum.Proofs.Tape.ProviderView
import ZxSpectrum.Proofs.Tape.RoundTrip
import ZxSpectrum.Proofs.Tape.TzxGrammar

namespace ZxSpectrum

/-! One tape in both formats. An image in the newer one stores each block of the tape as a chunk
of its own, in their order, and may hold other chunks between them that have no signal. -/

namespace Tzx

def standardChunk (bytes : List UInt8) : Chunk where
  id := 0x10
  body := [0xE8, 0x03, UInt8.ofNat bytes.length, UInt8.ofNat (bytes.length / 256)] ++ bytes

/-- Groups, texts, archives and what is not supported. -/
def Block.IsRemark : Block → Prop
  | .groupStart _ | .groupEnd | .textDescription _ | .archiveInfo _ | .unsupported _ => True
  | _ => False

/-- The chunks store the blocks, one after another, with any remarks between them. -/
inductive Stores : List (List UInt8) → List Chunk → Prop
  | nil : Stores [] []
  | block {bytes : List UInt8} {blocks : List (List UInt8)} {chunks : List Chunk} :
      Stores blocks chunks → Stores (bytes :: blocks) (standardChunk bytes :: chunks)
  | remark {chunk : Chunk} {blocks : List (List UInt8)} {chunks : List Chunk} :
      chunk.WellFormed → chunk.block.IsRemark → Stores blocks chunks →
        Stores blocks (chunk :: chunks)

/-! Images of chunks, and the signals of their blocks. -/

def imageOf (major minor : UInt8) (chunks : List Chunk) : List UInt8 :=
  signature ++ [major, minor] ++ chunks.flatMap Chunk.bytes

theorem numberAt_standardChunk {bytes : List UInt8} (fits : Tap.Fits bytes) :
    numberAt 2 2 (standardChunk bytes).body = bytes.length := by
  have length := Tap.toNat_lengthBytes fits
  simpa [standardChunk, numberAt, littleEndian] using length

theorem standardChunk_wellFormed {bytes : List UInt8} (fits : Tap.Fits bytes) :
    (standardChunk bytes).WellFormed := by
  have own : layout (standardChunk bytes).id = ⟨2, 2, 1⟩ := rfl
  have unused : usedBitsPlace (standardChunk bytes).id = none := rfl
  have total : (standardChunk bytes).body.length = 4 + bytes.length := by
    simp [standardChunk]
    omega
  constructor
  · simp [own, Layout.length, numberAt_standardChunk fits, total]
  · simp [unused]

theorem ofTzx_standardChunk (bytes : List UInt8) :
    TapeBlock.ofTzx (standardChunk bytes).block = some (TapeBlock.ofTap ⟨bytes⟩) := by
  have read : (standardChunk bytes).block = .standardSpeed 1000 bytes := rfl
  have pause : TapeBlock.imagePause 1000 =
      TapeBlock.defaultPause * TapeBlock.tactsPerMillisecond := by decide
  rw [read, TapeBlock.ofTzx, pause, TapeBlock.ofTap]

theorem Block.IsRemark.ofTzx {block : Block} (remark : block.IsRemark) :
    TapeBlock.ofTzx block = none := by
  cases block <;> first | rfl | exact remark.elim

theorem isImage_imageOf (major minor : UInt8) (chunks : List Chunk) :
    isImage (imageOf major minor chunks) = true := by
  simp [isImage, imageOf]

namespace Stores

variable {blocks : List (List UInt8)} {chunks : List Chunk}

theorem wellFormed (stores : Stores blocks chunks) (fits : ∀ bytes ∈ blocks, Tap.Fits bytes) :
    ∀ chunk ∈ chunks, chunk.WellFormed := by
  induction stores with
  | nil => simp
  | block _ induction =>
      rcases List.forall_mem_cons.mp fits with ⟨first, later⟩
      exact List.forall_mem_cons.mpr ⟨standardChunk_wellFormed first, induction later⟩
  | remark formed _ _ induction =>
      exact List.forall_mem_cons.mpr ⟨formed, induction fits⟩

theorem signals (stores : Stores blocks chunks) :
    (chunks.map Chunk.block).filterMap TapeBlock.ofTzx =
      (blocks.map Tap.Block.mk).map TapeBlock.ofTap := by
  induction stores with
  | nil => rfl
  | block _ induction =>
      rw [List.map_cons, List.filterMap_cons_some (ofTzx_standardChunk _), induction]
      rfl
  | remark _ remark _ induction =>
      rw [List.map_cons, List.filterMap_cons_none remark.ofTzx, induction]

theorem parse (stores : Stores blocks chunks) (fits : ∀ bytes ∈ blocks, Tap.Fits bytes)
    (major minor : UInt8) :
    Tzx.parse (imageOf major minor chunks) =
      .ok ⟨major, minor, chunks.map Chunk.block⟩ := by
  apply (parse_eq_ok_iff _ _).mpr
  exact ⟨chunks, stores.wellFormed fits, rfl, rfl⟩

end Stores

end Tzx

namespace Player

theorem ofImage_tap {image : List UInt8} {blocks : List Tap.Block}
    (older : Tzx.isImage image = false) (parsed : Tap.parse image = .ok blocks) :
    ofImage image = .ok { blocks := blocks.map TapeBlock.ofTap } := by
  simp [ofImage, blocksOfImage, older, parsed, Except.map]

theorem ofImage_tzx {bytes : List UInt8} {image : Tzx.Image} (newer : Tzx.isImage bytes = true)
    (parsed : Tzx.parse bytes = .ok image) :
    ofImage bytes = .ok { blocks := image.blocks.filterMap TapeBlock.ofTzx } := by
  simp [ofImage, blocksOfImage, newer, parsed, Except.map]

end Player

namespace TapeShelf

/-! Decks that differ in the image that is inserted. -/

def exchange (image other : List UInt8) (shelf : TapeShelf) : TapeShelf :=
  { shelf with image := if shelf.image = some image then some other else shelf.image }

theorem alike_exchange {image other : List UInt8}
    (same : Player.ofImage image = Player.ofImage other) : Alike (exchange image other) where
  plays shelf := by
    by_cases inserted : shelf.image = some image
    · simp [exchange, inserted, TapeProvider.content, Player.ofContent, same]
    · simp [exchange, inserted, TapeProvider.content]
  content _ := rfl
  create _ := rfl
  setName _ _ := rfl
  save _ _ := rfl
  finalize _ := rfl

end TapeShelf

namespace TapeDeck

def insert (image : List UInt8) (deck : TapeDeck TapeShelf) : TapeDeck TapeShelf :=
  deck.viewed (·.insert image)

theorem insert_exchange (image other : List UInt8) (deck : TapeDeck TapeShelf) :
    (deck.insert image).viewed (TapeShelf.exchange image other) = deck.insert other := by
  rcases deck with ⟨provider, session, recorder, line, events, observers⟩
  cases provider with
  | none => rfl
  | some shelf => simp [insert, viewed, TapeShelf.exchange, TapeShelf.insert]

theorem answers_insert {image other : List UInt8}
    (same : Player.ofImage image = Player.ofImage other) (deck : TapeDeck TapeShelf)
    (actions : List DeckAction) :
    (deck.insert image).answers actions = (deck.insert other).answers actions := by
  rw [← insert_exchange image other deck]
  exact (answers_viewed (TapeShelf.alike_exchange same) _ actions).symm

/-- A tape plays and loads the same from either format: both images give one player, with the
signals that the ROM writes for the blocks, and the deck answers alike with either one in it. -/
theorem tap_and_tzx_agree {blocks : List (List UInt8)} {chunks : List Tzx.Chunk}
    (sized : ∀ bytes ∈ blocks, 2 ≤ bytes.length ∧ bytes.length ≤ 65535)
    (stores : Tzx.Stores blocks chunks) (major minor : UInt8) :
    ∃ image, Tap.encode (blocks.map Tap.Block.mk) = .ok image ∧
      (Tzx.isImage image = false →
        ∃ player, Player.ofImage image = .ok player ∧
          Player.ofImage (Tzx.imageOf major minor chunks) = .ok player ∧
          player.blocks = blocks.map (TapeBlock.ofBytes · 3500000) ∧
          ∀ (deck : TapeDeck TapeShelf) (actions : List DeckAction),
            (deck.insert image).answers actions =
              (deck.insert (Tzx.imageOf major minor chunks)).answers actions) := by
  have fits (bytes : List UInt8) (member : bytes ∈ blocks) : Tap.Fits bytes :=
    Nat.lt_succ_of_le (sized bytes member).2
  have readable (bytes : List UInt8) (member : bytes ∈ blocks) : Tap.Readable bytes :=
    (sized bytes member).1
  rcases Tap.exists_encode fits with ⟨image, encoded⟩
  refine ⟨image, encoded, fun older => ?_⟩
  have tap := Player.ofImage_tap older (Tap.parse_encode encoded readable)
  have tzx := Player.ofImage_tzx (Tzx.isImage_imageOf major minor chunks)
    (stores.parse fits major minor)
  rw [stores.signals] at tzx
  refine ⟨_, tap, tzx, ?_, answers_insert (tap.trans tzx.symm)⟩
  rw [List.map_map]
  rfl

def remarkedChunks : List Tzx.Chunk :=
  [⟨0x30, [2, 0x48, 0x69]⟩, Tzx.standardChunk [0x00, 0x00], ⟨0x23, [1, 0]⟩,
    Tzx.standardChunk [0xFF, 0xAA, 0x55]]

theorem tap_and_tzx_agree_remarked :
    ∃ player, Player.ofImage [2, 0, 0x00, 0x00, 3, 0, 0xFF, 0xAA, 0x55] = .ok player ∧
      Player.ofImage (Tzx.imageOf 1 20 remarkedChunks) = .ok player ∧
      player.blocks.map TapeBlock.romData = [some [0x00, 0x00], some [0xFF, 0xAA, 0x55]] := by
  have stores : Tzx.Stores [[0x00, 0x00], [0xFF, 0xAA, 0x55]] remarkedChunks :=
    .remark (by decide) trivial (.block (.remark (by decide) trivial (.block .nil)))
  rcases tap_and_tzx_agree (by decide) stores 1 20 with ⟨image, encoded, agree⟩
  obtain rfl : [2, 0, 0x00, 0x00, 3, 0, 0xFF, 0xAA, 0x55] = image :=
    Except.ok.inj (Eq.trans (by decide) encoded)
  rcases agree (by decide) with ⟨player, tap, tzx, blocks, -⟩
  exact ⟨player, tap, tzx, congrArg (List.map TapeBlock.romData) blocks⟩

end TapeDeck

end ZxSpectrum
