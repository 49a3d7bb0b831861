import ZxSpectrum.Proofs.Tape.Recording
import ZxSpectrum.Tape.Recorder

namespace ZxSpectrum

/-! The recorder rebuilds the bytes whose pulses the ROM sends, whatever it has heard before and
however much every pulse deviates from its width within the tolerance. -/

def Signal.blockPulses (pilots : Nat) (bytes : List UInt8) : List Nat :=
  List.replicate pilots PulseWidth.pilot ++ [PulseWidth.sync1, PulseWidth.sync2]
    ++ bitPulses PulseWidth.zero PulseWidth.one (bytes.flatMap byteBits) ++ [PulseWidth.closing]

namespace Pulse

def ofBit (bit : Bool) : Pulse :=
  if bit then .one else .zero

def ofBits (bits : List Bool) : List Pulse :=
  bits.flatMap fun bit => List.replicate 2 (ofBit bit)

def ofBlock (pilots : Nat) (bytes : List UInt8) : List Pulse :=
  List.replicate pilots .pilot ++ [.sync1, .sync2] ++ ofBits (bytes.flatMap Signal.byteBits)

def leader (pilots : Nat) : List Pulse :=
  List.replicate pilots .pilot ++ [.sync1, .sync2]

/-! The windows around the widths are disjoint, so what the ROM sends is heard as it was sent. -/

def Sent (nominal : Nat) (pulse : Pulse) : Prop :=
  (nominal, pulse) ∈
    [(PulseWidth.pilot, Pulse.pilot), (PulseWidth.sync1, Pulse.sync1),
      (PulseWidth.sync2, Pulse.sync2), (PulseWidth.zero, Pulse.zero), (PulseWidth.one, Pulse.one),
      (PulseWidth.closing, Pulse.closing)]

instance (nominal : Nat) (pulse : Pulse) : Decidable (Sent nominal pulse) :=
  inferInstanceAs (Decidable (_ ∈ _))

def allowance (nominal : Nat) : Nat :=
  if nominal = PulseWidth.pilot then 2 * PulseWidth.tolerance else PulseWidth.tolerance

/-- A pulse of one width may be heard with another one. -/
def Jittered (nominal heard : Nat) : Prop :=
  Near heard nominal (allowance nominal)

theorem jittered_self (nominal : Nat) : Jittered nominal nominal :=
  ⟨Nat.le_add_right _ _, Nat.le_add_right _ _⟩

theorem classify_of_jittered {nominal heard : Nat} {pulse : Pulse} (sent : Sent nominal pulse)
    (jittered : Jittered nominal heard) : classify heard = pulse := by
  simp only [Sent, List.mem_cons, List.not_mem_nil, or_false, Prod.mk.injEq] at sent
  rcases sent with ⟨rfl, rfl⟩ | ⟨rfl, rfl⟩ | ⟨rfl, rfl⟩ | ⟨rfl, rfl⟩ | ⟨rfl, rfl⟩ | ⟨rfl, rfl⟩
  all_goals
    simp [Jittered, Near, allowance, PulseWidth.pilot, PulseWidth.sync1, PulseWidth.sync2,
      PulseWidth.zero, PulseWidth.one, PulseWidth.closing, PulseWidth.tolerance] at jittered
    simp only [classify, Near, PulseWidth.pilot, PulseWidth.sync1, PulseWidth.sync2,
      PulseWidth.zero, PulseWidth.one, PulseWidth.closing, PulseWidth.tolerance]
    grind

theorem map_classify_of_jittered {nominal heard : List Nat} {pulses : List Pulse}
    (sent : List.Forall₂ Sent nominal pulses) (jittered : List.Forall₂ Jittered nominal heard) :
    heard.map classify = pulses := by
  induction sent generalizing heard with
  | nil =>
      cases jittered
      rfl
  | cons first rest induction =>
      cases jittered with
      | cons near others =>
          rw [List.map_cons, classify_of_jittered first near, induction others]

theorem sent_bits (bits : List Bool) :
    List.Forall₂ Sent (Signal.bitPulses PulseWidth.zero PulseWidth.one bits) (ofBits bits) := by
  induction bits with
  | nil => exact List.Forall₂.nil
  | cons bit bits induction =>
      have half : Sent (if bit then PulseWidth.one else PulseWidth.zero) (ofBit bit) := by
        cases bit <;> decide
      exact List.Forall₂.cons half (List.Forall₂.cons half induction)

theorem sent_pilots (number : Nat) :
    List.Forall₂ Sent (List.replicate number PulseWidth.pilot)
      (List.replicate number Pulse.pilot) := by
  induction number with
  | zero => exact List.Forall₂.nil
  | succ number induction => exact List.Forall₂.cons (by decide) induction

theorem sent_blockPulses (pilots : Nat) (bytes : List UInt8) :
    List.Forall₂ Sent (Signal.blockPulses pilots bytes) (ofBlock pilots bytes ++ [.closing]) := by
  have synchronisation : List.Forall₂ Sent [PulseWidth.sync1, PulseWidth.sync2]
      [Pulse.sync1, Pulse.sync2] :=
    List.Forall₂.cons (by decide) (List.Forall₂.cons (by decide) List.Forall₂.nil)
  have closing : List.Forall₂ Sent [PulseWidth.closing] [Pulse.closing] :=
    List.Forall₂.cons (by decide) List.Forall₂.nil
  exact List.rel_append
    (List.rel_append (List.rel_append (sent_pilots _) synchronisation) (sent_bits _)) closing

theorem map_classify_blockPulses (pilots : Nat) (bytes : List UInt8) :
    (Signal.blockPulses pilots bytes).map classify = ofBlock pilots bytes ++ [.closing] :=
  map_classify_of_jittered (sent_blockPulses pilots bytes)
    (List.forall₂_same.mpr fun width _ => jittered_self width)

end Pulse

namespace TapeBlock

theorem le_pilotPulses (bytes : List UInt8) : 3223 ≤ pilotPulses bytes := by
  unfold pilotPulses headerPilotPulses dataPilotPulses
  split
  · split <;> decide
  · exact Nat.le_refl _

theorem pilotPulses_le (bytes : List UInt8) : pilotPulses bytes ≤ 8063 := by
  unfold pilotPulses headerPilotPulses dataPilotPulses
  split
  · split <;> decide
  · decide

end TapeBlock

namespace Reception

/-! The bits of a byte come in one after another, each behind the higher ones. -/

theorem ofNat_shiftLeft_or {front : Nat} (small : front < 128) (bit : Bool) :
    UInt8.ofNat front <<< 1 ||| bit.toUInt8 = UInt8.ofNat (2 * front + bit.toNat) := by
  have low : bit.toNat < 2 ^ 1 := bit.toNat_lt
  have lowByte : bit.toUInt8.toNat = bit.toNat := by cases bit <;> rfl
  have frontByte : (UInt8.ofNat front).toNat = front := by
    rw [UInt8.toNat_ofNat']
    omega
  have one : (1 : UInt8).toNat % 8 = 1 := rfl
  have shifted : front <<< 1 % 2 ^ 8 = front <<< 1 := by
    rw [Nat.shiftLeft_eq]
    omega
  apply UInt8.toNat_inj.mp
  rw [UInt8.toNat_or, UInt8.toNat_shiftLeft, lowByte, frontByte, one, shifted,
    ← Nat.shiftLeft_add_eq_or_of_lt low, Nat.shiftLeft_eq, UInt8.toNat_ofNat']
  omega

theorem div_two_pow_eq_testBit (number place : Nat) :
    number / 2 ^ place = 2 * (number / 2 ^ (place + 1)) + (number.testBit place).toNat := by
  rw [Nat.toNat_testBit, Nat.pow_succ, ← Nat.div_div_eq_div_mul]
  omega

theorem shiftLeft_or_testBit (byte : UInt8) (place : Nat) :
    UInt8.ofNat (byte.toNat / 2 ^ (place + 1)) <<< 1 ||| (byte.toNat.testBit place).toUInt8 =
      UInt8.ofNat (byte.toNat / 2 ^ place) := by
  have bound : byte.toNat / 2 ^ place < 256 :=
    Nat.lt_of_le_of_lt (Nat.div_le_self _ _) (UInt8.toNat_lt byte)
  have parts := div_two_pow_eq_testBit byte.toNat place
  rw [ofNat_shiftLeft_or (by omega), ← parts]

theorem foldl_push_take (byte : UInt8) (bytes : Array UInt8) {count : Nat} (few : count < 8) :
    ((Signal.byteBits byte).take count).foldl push { half := none, bytes } =
      { half := none, byte := UInt8.ofNat (byte.toNat / 2 ^ (8 - count)), bitCount := count,
        bytes } := by
  -- After some bits the byte holds the number that they form, the highest bit first.
  induction count with
  | zero =>
      have empty : byte.toNat / 2 ^ 8 = 0 := Nat.div_eq_of_lt (UInt8.toNat_lt byte)
      rw [List.take_zero, List.foldl_nil, Nat.sub_zero, empty]
      rfl
  | succ count induction =>
      have next : (Signal.byteBits byte)[count]? = some (byte.toNat.testBit (7 - count)) := by
        rw [Signal.byteBits, List.getElem?_map, List.getElem?_range (by omega)]
        rfl
      have place : 8 - count = 7 - count + 1 := by omega
      have later : 8 - (count + 1) = 7 - count := by omega
      have incomplete : count + 1 ≠ 8 := by omega
      rw [List.take_add_one, next, Option.toList_some, List.foldl_append, induction (by omega),
        later, ← shiftLeft_or_testBit byte (7 - count), ← place]
      simp [push, incomplete]

theorem foldl_push_byteBits (byte : UInt8) (bytes : Array UInt8) :
    (Signal.byteBits byte).foldl push { half := none, bytes } =
      { half := none, bytes := bytes.push byte } := by
  have split : Signal.byteBits byte =
      (Signal.byteBits byte).take 7 ++ [byte.toNat.testBit 0] := rfl
  have last : UInt8.ofNat (byte.toNat / 2 ^ (8 - 7)) <<< 1 ||| (byte.toNat.testBit 0).toUInt8 =
      byte := by
    rw [shiftLeft_or_testBit byte 0, Nat.pow_zero, Nat.div_one, UInt8.ofNat_toNat]
  rw [split, List.foldl_append, foldl_push_take byte bytes (by decide), List.foldl_cons,
    List.foldl_nil, push, if_pos rfl, last]

theorem foldl_push_bytes (bytes : List UInt8) (earlier : Array UInt8) :
    (bytes.flatMap Signal.byteBits).foldl push { half := none, bytes := earlier } =
      { half := none, bytes := earlier ++ bytes } := by
  induction bytes generalizing earlier with
  | nil => simp
  | cons byte bytes induction =>
      rw [List.flatMap_cons, List.foldl_append, foldl_push_byteBits, induction]
      simp

@[simp] theorem half_push (reception : Reception) (bit : Bool) :
    (reception.push bit).half = none := by
  unfold push
  split <;> rfl

theorem push_of_half (reception : Reception) (half : Option Bool) (bit : Bool) :
    { reception with half }.push bit = reception.push bit :=
  rfl

end Reception

namespace Recorder

/-! The pulses of a run are fed one after another, so a run is cut anywhere. -/

theorem feedAll_nil (recorder : Recorder) : recorder.feedAll [] = some ([], recorder) :=
  rfl

private def gather : List (List UInt8) × Recorder → Pulse → Option (List (List UInt8) × Recorder) :=
  fun (earlier, recorder) pulse =>
    (recorder.feed pulse).map fun (next, block) => (earlier ++ block.toList, next)

private theorem feedAll_eq (recorder : Recorder) (pulses : List Pulse) :
    recorder.feedAll pulses = pulses.foldlM gather ([], recorder) := by
  have step : gather = fun (blocks, recorder) pulse => do
      let (recorder, block) ← feed recorder pulse
      return (blocks ++ block.toList, recorder) := by
    funext ⟨earlier, recorder⟩ pulse
    exact Option.map_eq_bind
  rw [step]
  rfl

private theorem foldlM_gather (earlier : List (List UInt8)) (recorder : Recorder)
    (pulses : List Pulse) :
    pulses.foldlM gather (earlier, recorder) =
      (recorder.feedAll pulses).map fun (blocks, final) => (earlier ++ blocks, final) := by
  rw [feedAll_eq]
  induction pulses generalizing earlier recorder with
  | nil => simp
  | cons pulse pulses induction =>
      rw [List.foldlM_cons, List.foldlM_cons]
      cases fed : recorder.feed pulse with
      | none => simp [gather, fed]
      | some result =>
          have step (earlier : List (List UInt8)) : gather (earlier, recorder) pulse =
              some (earlier ++ result.2.toList, result.1) := by
            rw [gather, fed]
            rfl
          rw [step, step, Option.bind_eq_bind, Option.bind_some, Option.bind_some, induction,
            induction ([] ++ _), Option.map_map]
          simp [Function.comp_def]

theorem feedAll_cons (recorder : Recorder) (pulse : Pulse) (pulses : List Pulse) :
    recorder.feedAll (pulse :: pulses) =
      (do
        let (next, block) ← recorder.feed pulse
        let (blocks, final) ← next.feedAll pulses
        return (block.toList ++ blocks, final)) := by
  rw [feedAll_eq, List.foldlM_cons]
  cases fed : recorder.feed pulse with
  | none => simp [gather, fed]
  | some result =>
      simp only [gather, fed, Option.map_some, Option.bind_eq_bind, Option.bind_some,
        foldlM_gather, List.nil_append]
      exact Option.map_eq_bind

theorem feedAll_append {recorder middle final : Recorder} {front back : List Pulse}
    {earlier later : List (List UInt8)} (first : recorder.feedAll front = some (earlier, middle))
    (second : middle.feedAll back = some (later, final)) :
    recorder.feedAll (front ++ back) = some (earlier ++ later, final) := by
  induction front generalizing recorder earlier with
  | nil =>
      cases first
      exact second
  | cons pulse front induction =>
      rw [feedAll_cons] at first
      rcases Option.bind_eq_some_iff.mp first with ⟨⟨next, block⟩, fed, first⟩
      rcases Option.bind_eq_some_iff.mp first with ⟨⟨blocks, last⟩, run, first⟩
      cases first
      rw [List.cons_append, feedAll_cons, fed]
      simp [induction run]

theorem feedAll_cons_of_feed {recorder next final : Recorder} {pulse : Pulse}
    {pulses : List Pulse} {block : Option (List UInt8)} {blocks : List (List UInt8)}
    (fed : recorder.feed pulse = some (next, block))
    (run : next.feedAll pulses = some (blocks, final)) :
    recorder.feedAll (pulse :: pulses) = some (block.toList ++ blocks, final) := by
  rw [feedAll_cons, fed]
  simp [run]

/-! A pilot tone brings the recorder from everywhere into the pilot phase. Its first pulse may be
lost. -/

def heardPilots : Recorder → Nat
  | ⟨.pilot, count⟩ => count
  | _ => 0

theorem feed_anotherPilot {count : Nat} (room : count + 1 < 2 ^ 32) :
    feed ⟨.pilot, count⟩ .pilot = some (⟨.pilot, count + 1⟩, none) := by
  have fits : Bound.word (count + 1) = some (count + 1) :=
    Bound.word_eq_some_iff.mpr ⟨room, rfl⟩
  simp [feed, fits]

theorem feedAll_morePilots (number : Nat) {count : Nat} (room : count + number < 2 ^ 32) :
    feedAll ⟨.pilot, count⟩ (List.replicate number .pilot) =
      some ([], ⟨.pilot, count + number⟩) := by
  induction number generalizing count with
  | zero => rfl
  | succ number induction =>
      have rest := @induction (count + 1) (by omega)
      rw [Nat.add_right_comm, Nat.add_assoc] at rest
      exact feedAll_cons_of_feed (feed_anotherPilot (by omega)) rest

theorem feed_pilot (recorder : Recorder) (room : recorder.heardPilots + 1 < 2 ^ 32) :
    ∃ next, recorder.feed .pilot = some (next, none) ∧
      (next = ⟨.lost, recorder.pilotCount⟩ ∨
        ∃ count, next = ⟨.pilot, count⟩ ∧ 1 ≤ count ∧ count ≤ recorder.heardPilots + 1) := by
  rcases recorder with ⟨phase, count⟩
  cases phase with
  | idle => exact ⟨_, rfl, Or.inr ⟨1, rfl, Nat.le_refl 1, Nat.le_refl 1⟩⟩
  | lost => exact ⟨_, rfl, Or.inr ⟨1, rfl, Nat.le_refl 1, Nat.le_refl 1⟩⟩
  | pilot =>
      have most : count + 1 ≤ heardPilots ⟨.pilot, count⟩ + 1 := Nat.le_refl _
      exact ⟨_, feed_anotherPilot room, Or.inr ⟨count + 1, rfl, Nat.le_add_left 1 count, most⟩⟩
  | sync1 => exact ⟨_, rfl, Or.inl rfl⟩
  | sync2 => exact ⟨_, rfl, Or.inl rfl⟩
  | data reception => exact ⟨_, rfl, Or.inl rfl⟩

theorem feedAll_pilots (recorder : Recorder) (number : Nat)
    (room : recorder.heardPilots + (number + 2) < 2 ^ 32) :
    ∃ count, number + 1 ≤ count ∧
      recorder.feedAll (List.replicate (number + 2) .pilot) = some ([], ⟨.pilot, count⟩) := by
  rcases feed_pilot recorder (by omega) with ⟨next, fed, rfl | ⟨count, rfl, least, most⟩⟩
  · have second : feed ⟨.lost, recorder.pilotCount⟩ .pilot = some (⟨.pilot, 1⟩, none) := rfl
    have rest := feedAll_morePilots number (by omega : 1 + number < 2 ^ 32)
    exact ⟨1 + number, by omega,
      feedAll_cons_of_feed fed (feedAll_cons_of_feed second rest)⟩
  · have rest := feedAll_morePilots (number + 1) (by omega : count + (number + 1) < 2 ^ 32)
    exact ⟨count + (number + 1), by omega, feedAll_cons_of_feed fed rest⟩

/-! The two halves of each bit give the bit. -/

theorem feed_ofBit (reception : Reception) (count : Nat) (bit : Bool) :
    feed ⟨.data reception, count⟩ (Pulse.ofBit bit) =
      some (⟨.data (reception.receive bit), count⟩, none) := by
  cases bit <;> rfl

theorem feed_firstHalf (count : Nat) (bit : Bool) :
    feed ⟨.sync2, count⟩ (Pulse.ofBit bit) =
      feed ⟨.data { half := none }, count⟩ (Pulse.ofBit bit) := by
  cases bit <;> rfl

theorem feedAll_ofBits (reception : Reception) (whole : reception.half = none) (count : Nat)
    (bits : List Bool) :
    feedAll ⟨.data reception, count⟩ (Pulse.ofBits bits) =
      some ([], ⟨.data (bits.foldl Reception.push reception), count⟩) := by
  induction bits generalizing reception with
  | nil => rfl
  | cons bit bits induction =>
      have halves : (reception.receive bit).receive bit = reception.push bit := by
        simp [Reception.receive, whole, Reception.push_of_half]
      have first := feed_ofBit reception count bit
      have second := feed_ofBit (reception.receive bit) count bit
      rw [halves] at second
      have rest := induction (reception.push bit) (Reception.half_push reception bit)
      exact feedAll_cons_of_feed first (feedAll_cons_of_feed second rest)

theorem feedAll_data (count : Nat) {bytes : List UInt8} (nonempty : bytes ≠ []) :
    feedAll ⟨.sync2, count⟩ (Pulse.ofBits (bytes.flatMap Signal.byteBits)) =
      some ([], ⟨.data { half := none, bytes := bytes.toArray }, count⟩) := by
  have started {bits : List Bool} (some : bits ≠ []) :
      feedAll ⟨.sync2, count⟩ (Pulse.ofBits bits) =
        feedAll ⟨.data { half := none }, count⟩ (Pulse.ofBits bits) := by
    cases bits with
    | nil => exact absurd rfl some
    | cons bit bits =>
        have front : Pulse.ofBits (bit :: bits) =
            Pulse.ofBit bit :: Pulse.ofBit bit :: Pulse.ofBits bits := rfl
        rw [front, feedAll_cons, feedAll_cons, feed_firstHalf]
  have bits : bytes.flatMap Signal.byteBits ≠ [] := by
    intro none
    have number := Signal.length_flatMap_byteBits bytes
    rw [none, List.length_nil] at number
    exact nonempty (List.length_eq_zero_iff.mp (by omega))
  rw [started bits, feedAll_ofBits _ rfl, Reception.foldl_push_bytes]
  simp

/-! A whole block, whose bytes come with the closing pulse. -/

theorem feedAll_leader (recorder : Recorder) {pilots : Nat}
    (enough : requiredPilotPulses < pilots) (room : recorder.heardPilots + pilots < 2 ^ 32) :
    ∃ count, recorder.feedAll (Pulse.leader pilots) = some ([], ⟨.sync2, count⟩) := by
  have atLeastTwo : 2 ≤ pilots := Nat.le_trans (by decide) (Nat.le_of_lt enough)
  rcases Nat.exists_eq_add_of_le' atLeastTwo with ⟨number, rfl⟩
  rcases feedAll_pilots recorder number room with ⟨count, least, pilots⟩
  -- One pilot pulse may be lost, and more than the required number are left.
  have first : feed ⟨.pilot, count⟩ .sync1 = some (⟨.sync1, count⟩, none) := by
    simp [feed, Nat.le_trans (Nat.le_of_lt_succ enough) least]
  have second : feed ⟨.sync1, count⟩ .sync2 = some (⟨.sync2, count⟩, none) := rfl
  have synchronised : feedAll ⟨.pilot, count⟩ [.sync1, .sync2] = some ([], ⟨.sync2, count⟩) :=
    feedAll_cons_of_feed first (feedAll_cons_of_feed second (feedAll_nil _))
  exact ⟨count, feedAll_append pilots synchronised⟩

theorem feedAll_ofBlock (recorder : Recorder) {pilots : Nat}
    (enough : requiredPilotPulses < pilots) (room : recorder.heardPilots + pilots < 2 ^ 32)
    {bytes : List UInt8} (nonempty : bytes ≠ []) :
    ∃ count middle, recorder.feedAll (Pulse.ofBlock pilots bytes) = some ([], middle) ∧
      middle.feed .closing = some (⟨.idle, count⟩, some bytes) := by
  rcases feedAll_leader recorder enough room with ⟨count, synchronised⟩
  exact ⟨count, _, feedAll_append synchronised (feedAll_data count nonempty), rfl⟩

theorem heardPilots_le (recorder : Recorder) : recorder.heardPilots ≤ recorder.pilotCount := by
  rcases recorder with ⟨phase, count⟩
  cases phase <;> simp [heardPilots]

/-- The pulses of a block give its bytes with the last pulse, and nothing before, whatever was
heard earlier and however they jitter. -/
theorem feedAll_jittered {bytes : List UInt8} (nonempty : bytes ≠ []) {pause : Nat}
    {block : TapeBlock} (saved : TapeBlock.standard bytes pause = some block)
    {recorder : Recorder} (room : recorder.pilotCount + 8063 < 2 ^ 32) {heard : List Nat}
    (jittered : List.Forall₂ Pulse.Jittered block.widths heard) :
    ∃ earlier last middle final, heard = earlier ++ [last] ∧
      recorder.feedAll (earlier.map Pulse.classify) = some ([], middle) ∧
      middle.feed (Pulse.classify last) = some (final, some bytes) ∧ final.phase = .idle := by
  rw [TapeBlock.widths_of_standard saved] at jittered
  have pulses := Pulse.map_classify_of_jittered (Pulse.sent_blockPulses _ bytes) jittered
  rcases List.map_eq_append_iff.mp pulses with ⟨earlier, closing, rfl, front, back⟩
  rcases List.map_eq_singleton_iff.mp back with ⟨last, rfl, closes⟩
  have least := TapeBlock.le_pilotPulses bytes
  have most := TapeBlock.pilotPulses_le bytes
  have heardBefore := recorder.heardPilots_le
  have enough : requiredPilotPulses < TapeBlock.pilotPulses bytes :=
    Nat.lt_of_lt_of_le (by decide) least
  rcases feedAll_ofBlock recorder enough (by omega) nonempty with ⟨count, middle, data, final⟩
  rw [← front] at data
  rw [← closes] at final
  exact ⟨earlier, last, middle, _, rfl, data, final, rfl⟩

theorem feedAll_jittered_withinBlock :
    ∃ earlier last middle final,
      (TapeBlock.ofBytes [0x80] 0).widths.map (· + 24) = earlier ++ [last] ∧
      feedAll ⟨.data { half := some true, bitCount := 3 }, 5⟩ (earlier.map Pulse.classify) =
        some ([], middle) ∧
      middle.feed (Pulse.classify last) = some (final, some [0x80]) ∧ final.phase = .idle := by
  apply feedAll_jittered (by decide) (by rfl : TapeBlock.standard [0x80] 0 = _) (by decide)
  refine List.forall₂_map_right_iff.mpr (List.forall₂_same.mpr ?_)
  intro width member
  unfold Pulse.Jittered Pulse.Near Pulse.allowance PulseWidth.tolerance
  split <;> omega

end Recorder

end ZxSpectrum
