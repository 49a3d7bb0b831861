import ZxSpectrum.Proofs.Tape.Reception

namespace ZxSpectrum

/-! A block that the recorder completes is what the latest pulses say: a whole pilot tone,
synchronisation, halves of bits and the closing pulse. Nothing that was heard before them, be it
noise, a tone that was too short or another block, gets into it. -/

namespace Signal

/-- The bits that halves complete when another half may be pending. A half that differs from the
pending one takes its place. -/
def completedBits : Option Bool → List Bool → List Bool
  | _, [] => []
  | pending, half :: halves =>
    if pending = some half then half :: completedBits none halves
    else completedBits (some half) halves

/-- The bytes are the complete groups of eight bits, the highest bit first. What is begun after
them is dropped. -/
def Groups (bits : List Bool) (bytes : List UInt8) : Prop :=
  ∃ dropped, dropped.length < 8 ∧ bits = bytes.flatMap byteBits ++ dropped

theorem exists_byteBits {group : List Bool} (eight : group.length = 8) :
    ∃ byte, byteBits byte = group := by
  let bit (place : Fin 8) : Bool := group[7 - place.val]
  have small := Nat.ofBits_lt_two_pow bit
  refine ⟨UInt8.ofNat (Nat.ofBits bit), ?_⟩
  apply List.ext_getElem
  · rw [length_byteBits, eight]
  · intro index within _
    rw [length_byteBits] at within
    have value : (UInt8.ofNat (Nat.ofBits bit)).toNat = Nat.ofBits bit := by
      rw [UInt8.toNat_ofNat']
      omega
    have place : 7 - (7 - index) = index := by omega
    simp [byteBits, value, Nat.testBit_ofBits_lt bit (7 - index) (by omega), bit, place]

theorem exists_groups (bits : List Bool) : ∃ bytes, Groups bits bytes := by
  by_cases few : bits.length < 8
  · exact ⟨[], bits, few, rfl⟩
  · have whole : (bits.take 8).length = 8 := by
      rw [List.length_take]
      omega
    rcases exists_byteBits whole with ⟨byte, first⟩
    rcases exists_groups (bits.drop 8) with ⟨bytes, dropped, less, later⟩
    refine ⟨byte :: bytes, dropped, less, ?_⟩
    rw [List.flatMap_cons, List.append_assoc, ← later, first, List.take_append_drop]
termination_by bits.length
decreasing_by
  rw [List.length_drop]
  omega

end Signal

/-! What halves leave in a reception. -/

namespace Reception

open Signal

theorem bytes_push_of_few {reception : Reception} (few : reception.bitCount + 1 < 8) (bit : Bool) :
    (reception.push bit).bytes = reception.bytes ∧
      (reception.push bit).bitCount = reception.bitCount + 1 := by
  rw [push, if_neg (Nat.ne_of_lt few)]
  exact ⟨rfl, rfl⟩

theorem bytes_foldl_push_of_few {reception : Reception} {bits : List Bool}
    (few : reception.bitCount + bits.length < 8) :
    (bits.foldl push reception).bytes = reception.bytes := by
  induction bits generalizing reception with
  | nil => rfl
  | cons bit bits induction =>
      rw [List.length_cons] at few
      rcases bytes_push_of_few (by omega : reception.bitCount + 1 < 8) bit with ⟨bytes, bitCount⟩
      rw [List.foldl_cons, induction (by omega), bytes]

theorem bytes_foldl_push {bits : List Bool} {bytes : List UInt8} (groups : Groups bits bytes) :
    (bits.foldl push { half := none }).bytes = bytes.toArray := by
  rcases groups with ⟨dropped, few, rfl⟩
  rw [List.foldl_append, foldl_push_bytes, bytes_foldl_push_of_few (by simpa using few)]
  simp

theorem bytes_foldl_receive (reception : Reception) (halves : List Bool) :
    (halves.foldl receive reception).bytes =
      ((completedBits reception.half halves).foldl push reception).bytes := by
  induction halves generalizing reception with
  | nil => rfl
  | cons half halves induction =>
      rw [List.foldl_cons, induction, receive, completedBits]
      split_ifs with completes
      · rw [half_push, List.foldl_cons]
      · cases completedBits (some half) halves with
        | nil => rfl
        | cons bit bits => rw [List.foldl_cons, List.foldl_cons, push_of_half]

/-! The reception after some halves of bits, and the pulses of a block with them. -/

def ofHalves (halves : List Bool) : Reception :=
  halves.foldl receive { half := none }

theorem ofHalves_concat (halves : List Bool) (half : Bool) :
    ofHalves (halves ++ [half]) = (ofHalves halves).receive half := by
  rw [ofHalves, List.foldl_append]
  rfl

theorem bytes_ofHalves {halves : List Bool} {bytes : List UInt8}
    (groups : Groups (completedBits none halves) bytes) :
    (ofHalves halves).bytes.toList = bytes := by
  rw [ofHalves, bytes_foldl_receive, bytes_foldl_push groups]

theorem groups_ofHalves (halves : List Bool) :
    Groups (completedBits none halves) (ofHalves halves).bytes.toList := by
  rcases exists_groups (completedBits none halves) with ⟨bytes, groups⟩
  rwa [bytes_ofHalves groups]

end Reception

namespace Recorder

def blockPulses (pilots : Nat) (halves : List Bool) : List Pulse :=
  Pulse.leader pilots ++ halves.map Pulse.ofBit

/-- The latest pulses, as far as the phase of the recorder depends on them. -/
def Recalls : Recorder → List Pulse → Prop
  | ⟨.idle, _⟩, _ | ⟨.lost, _⟩, _ => True
  | ⟨.pilot, count⟩, pulses => List.replicate count .pilot <:+ pulses
  | ⟨.sync1, _⟩, pulses =>
    ∃ pilots, requiredPilotPulses ≤ pilots ∧ List.replicate pilots .pilot ++ [.sync1] <:+ pulses
  | ⟨.sync2, _⟩, pulses => ∃ pilots, requiredPilotPulses ≤ pilots ∧ Pulse.leader pilots <:+ pulses
  | ⟨.data reception, _⟩, pulses =>
    ∃ pilots halves, requiredPilotPulses ≤ pilots ∧ halves ≠ [] ∧
      blockPulses pilots halves <:+ pulses ∧ reception = Reception.ofHalves halves

/-- The pulses end with a block of some pilot pulses and halves of bits, and the closing pulse.
No further pilot pulse stands right in front of these. -/
def EndsWithBlock (pulses : List Pulse) (pilots : Nat) (halves : List Bool) : Prop :=
  halves ≠ [] ∧ ∃ before, before.getLast? ≠ some .pilot ∧
    pulses = before ++ blockPulses pilots halves ++ [.closing]

/-! A recorder that has been fed some pulses from the start is up to date with them. -/

structure Reached (recorder : Recorder) (pulses : List Pulse) : Prop where
  recalls : recorder.Recalls pulses
  pilotCount_le : recorder.pilotCount ≤ pulses.length

theorem length_blockPulses (pilots : Nat) (halves : List Bool) :
    (blockPulses pilots halves).length = pilots + 2 + halves.length := by
  simp [blockPulses, Pulse.leader]
  omega

theorem blockPulses_concat (pilots : Nat) (halves : List Bool) (half : Bool) :
    blockPulses pilots (halves ++ [half]) = blockPulses pilots halves ++ [Pulse.ofBit half] := by
  rw [blockPulses, List.map_append, ← List.append_assoc]
  rfl

theorem recalls_receive {reception : Reception} {count : Nat} {pulses : List Pulse} (half : Bool)
    (recalls : Recalls ⟨.data reception, count⟩ pulses) :
    Recalls ⟨.data (reception.receive half), count⟩ (pulses ++ [Pulse.ofBit half]) := by
  rcases recalls with ⟨pilots, halves, enough, nonempty, suffix, rfl⟩
  refine ⟨pilots, halves ++ [half], enough, by simp, ?_, (Reception.ofHalves_concat _ _).symm⟩
  rw [blockPulses_concat]
  exact List.suffix_append_self_iff.mpr suffix

theorem recalls_firstHalf {count : Nat} {pulses : List Pulse} (half : Bool)
    (recalls : Recalls ⟨.sync2, count⟩ pulses) :
    Recalls ⟨.data { half := some half }, count⟩ (pulses ++ [Pulse.ofBit half]) := by
  rcases recalls with ⟨pilots, enough, suffix⟩
  exact ⟨pilots, [half], enough, by simp, List.suffix_append_self_iff.mpr suffix, rfl⟩

theorem Reached.exists_feed {recorder : Recorder} {pulses : List Pulse}
    (reached : recorder.Reached pulses) (few : pulses.length + 1 < 2 ^ 32) (pulse : Pulse) :
    ∃ next answer, recorder.feed pulse = some (next, answer) ∧
      next.Reached (pulses ++ [pulse]) := by
  rcases reached with ⟨recalls, pilotCount_le⟩
  have counted : recorder.pilotCount ≤ (pulses ++ [pulse]).length :=
    Nat.le_trans pilotCount_le (by simp)
  -- A case for each pulse that a phase waits for. Every other one loses the block.
  unfold feed
  split
  case h_1 | h_2 => exact ⟨_, _, rfl, ⟨pulses, rfl⟩, by simp⟩
  case h_3 count =>
    have another : count + 1 ≤ pulses.length + 1 := Nat.succ_le_succ pilotCount_le
    refine ⟨_, _, feed_anotherPilot (Nat.lt_of_le_of_lt another few), ?_, by simpa using another⟩
    rw [Recalls, List.replicate_succ']
    exact List.suffix_append_self_iff.mpr recalls
  case h_4 count =>
    refine ⟨_, _, rfl, ?_, counted⟩
    split_ifs with enough
    · exact ⟨count, enough, List.suffix_append_self_iff.mpr recalls⟩
    · trivial
  case h_5 =>
    rcases recalls with ⟨pilots, enough, suffix⟩
    refine ⟨_, _, rfl, ⟨pilots, enough, ?_⟩, counted⟩
    rw [Pulse.leader, List.append_cons]
    exact List.suffix_append_self_iff.mpr suffix
  case h_6 => exact ⟨_, _, rfl, recalls_firstHalf false recalls, counted⟩
  case h_7 => exact ⟨_, _, rfl, recalls_firstHalf true recalls, counted⟩
  case h_8 => exact ⟨_, _, rfl, recalls_receive false recalls, counted⟩
  case h_9 => exact ⟨_, _, rfl, recalls_receive true recalls, counted⟩
  case h_10 | h_11 => exact ⟨_, _, rfl, trivial, counted⟩

theorem exists_feedAll {pulses : List Pulse} (few : pulses.length < 2 ^ 32) :
    ∃ blocks recorder, feedAll {} pulses = some (blocks, recorder) ∧ recorder.Reached pulses := by
  induction pulses using List.reverseRecOn with
  | nil => exact ⟨[], {}, rfl, trivial, Nat.le_refl 0⟩
  | append_singleton pulses pulse induction =>
      rw [List.length_append, List.length_singleton] at few
      rcases induction (by omega) with ⟨blocks, recorder, run, reached⟩
      rcases reached.exists_feed few pulse with ⟨next, answer, fed, nextReached⟩
      have step := feedAll_cons_of_feed fed (feedAll_nil next)
      exact ⟨_, next, feedAll_append run step, nextReached⟩

theorem data_of_feed {recorder next : Recorder} {pulse : Pulse} {block : List UInt8}
    (fed : recorder.feed pulse = some (next, some block)) :
    ∃ reception count, recorder = ⟨.data reception, count⟩ ∧ pulse = .closing ∧
      block = reception.bytes.toList := by
  unfold feed at fed
  split at fed
  case h_10 reception count =>
    cases fed
    exact ⟨reception, count, rfl, rfl, rfl⟩
  case h_3 count =>
    rcases Option.bind_eq_some_iff.mp fed with ⟨number, -, fed⟩
    cases fed
  all_goals cases fed

/-! Pilot pulses belong to the whole tone that they end. -/

theorem exists_wholeTone (front : List Pulse) (pilots : Nat) :
    ∃ before whole, before.getLast? ≠ some .pilot ∧ pilots ≤ whole ∧
      front ++ List.replicate pilots .pilot = before ++ List.replicate whole .pilot := by
  induction front using List.reverseRecOn generalizing pilots with
  | nil => exact ⟨[], pilots, by simp, Nat.le_refl _, rfl⟩
  | append_singleton front last induction =>
      -- A pilot pulse in front makes the tone longer, anything else begins it.
      by_cases pilot : last = .pilot
      · subst pilot
        rcases induction (pilots + 1) with ⟨before, whole, ended, most, same⟩
        refine ⟨before, whole, ended, Nat.le_of_succ_le most, ?_⟩
        rw [← same, List.replicate_succ, List.append_assoc]
        rfl
      · exact ⟨front ++ [last], pilots, by simpa using pilot, Nat.le_refl _, rfl⟩

theorem exists_endsWithBlock {pulses : List Pulse} {pilots : Nat} {halves : List Bool}
    (nonempty : halves ≠ []) (suffix : blockPulses pilots halves <:+ pulses) :
    ∃ whole, pilots ≤ whole ∧ EndsWithBlock (pulses ++ [.closing]) whole halves := by
  rcases suffix with ⟨front, rfl⟩
  rcases exists_wholeTone front pilots with ⟨before, whole, ended, most, same⟩
  refine ⟨whole, most, nonempty, before, ended, ?_⟩
  simp only [blockPulses, Pulse.leader, ← List.append_assoc, same]

theorem feedAll_halves (reception : Reception) (count : Nat) (halves : List Bool) :
    feedAll ⟨.data reception, count⟩ (halves.map Pulse.ofBit) =
      some ([], ⟨.data (halves.foldl Reception.receive reception), count⟩) := by
  induction halves generalizing reception with
  | nil => rfl
  | cons half halves induction =>
      exact feedAll_cons_of_feed (feed_ofBit reception count half) (induction _)

theorem feedAll_blockPulses (recorder : Recorder) {pilots : Nat}
    (enough : requiredPilotPulses < pilots) (room : recorder.heardPilots + pilots < 2 ^ 32)
    {halves : List Bool} (nonempty : halves ≠ []) :
    ∃ count, recorder.feedAll (blockPulses pilots halves) =
      some ([], ⟨.data (.ofHalves halves), count⟩) := by
  rcases feedAll_leader recorder enough room with ⟨count, synchronised⟩
  refine ⟨count, feedAll_append synchronised ?_⟩
  cases halves with
  | nil => exact absurd rfl nonempty
  | cons half halves =>
      rw [List.map_cons, feedAll_cons, feed_firstHalf, ← feedAll_cons]
      exact feedAll_halves { half := none } count (half :: halves)

/-- Fewer than 2^32 pulses are taken from the start. A block that the last one completes is the
decoding of the latest ones, which are a whole pilot tone that is long enough, synchronisation,
halves of bits and the closing pulse. Such pulses complete a block if the tone is longer by one
pulse, which may be lost in what was heard before. -/
theorem feed_completes_latest {pulses : List Pulse} {last : Pulse}
    (few : (pulses ++ [last]).length < 2 ^ 32) :
    ∃ blocks recorder next answer, feedAll {} pulses = some (blocks, recorder) ∧
      recorder.feed last = some (next, answer) ∧
      (∀ block, answer = some block → ∃ pilots halves, requiredPilotPulses ≤ pilots ∧
        EndsWithBlock (pulses ++ [last]) pilots halves ∧
        Signal.Groups (Signal.completedBits none halves) block) ∧
      ∀ pilots halves, requiredPilotPulses < pilots →
        EndsWithBlock (pulses ++ [last]) pilots halves →
        ∃ block, answer = some block ∧
          Signal.Groups (Signal.completedBits none halves) block := by
  rw [List.length_append, List.length_singleton] at few
  rcases exists_feedAll (Nat.lt_of_succ_lt few) with ⟨blocks, recorder, run, reached⟩
  rcases reached.exists_feed few last with ⟨next, answer, fed, -⟩
  refine ⟨blocks, recorder, next, answer, run, fed, ?_, ?_⟩
  · rintro block rfl
    rcases data_of_feed fed with ⟨reception, count, rfl, rfl, rfl⟩
    rcases reached.recalls with ⟨pilots, halves, enough, nonempty, suffix, rfl⟩
    rcases exists_endsWithBlock nonempty suffix with ⟨whole, most, ends⟩
    exact ⟨whole, halves, Nat.le_trans enough most, ends, Reception.groups_ofHalves halves⟩
  · rintro pilots halves enough ⟨nonempty, before, -, same⟩
    rcases List.append_inj' same rfl with ⟨rfl, closing⟩
    cases closing
    -- What was heard before the block leaves a count to which its pilot pulses can still be added.
    rw [List.length_append, length_blockPulses] at few
    rcases exists_feedAll (by omega : before.length < 2 ^ 32) with
      ⟨earlier, middle, front, middleReached⟩
    have heardBefore := Nat.le_trans middle.heardPilots_le middleReached.pilotCount_le
    rcases feedAll_blockPulses middle enough (by omega) nonempty with ⟨count, received⟩
    rw [feedAll_append front received] at run
    cases run
    cases fed
    exact ⟨_, rfl, Reception.groups_ofHalves halves⟩

theorem feed_completes_latest_mismatch :
    let halves := [false, true, true] ++ List.replicate 14 false
    let pulses := .closing :: blockPulses 3001 halves
    (pulses ++ [Pulse.closing]).length < 2 ^ 32 ∧
      ∃ blocks recorder next, feedAll {} pulses = some (blocks, recorder) ∧
        recorder.feed .closing = some (next, some [0x80]) := by
  intro halves pulses
  have few : (pulses ++ [Pulse.closing]).length < 2 ^ 32 := by
    rw [List.length_append, List.length_cons, length_blockPulses]
    decide
  rcases feed_completes_latest few with ⟨blocks, recorder, next, answer, run, fed, -, completes⟩
  have ends : EndsWithBlock (pulses ++ [.closing]) 3001 halves :=
    ⟨by simp [halves], [.closing], by simp, rfl⟩
  rcases completes 3001 halves (by decide) ends with ⟨block, rfl, groups⟩
  have bytes : (Reception.ofHalves halves).bytes.toList = [0x80] := by decide
  rw [Reception.bytes_ofHalves groups] at bytes
  subst bytes
  exact ⟨few, blocks, recorder, next, run, fed⟩

end Recorder

end ZxSpectrum
