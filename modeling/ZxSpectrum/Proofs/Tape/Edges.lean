import ZxSpectrum.Proofs.Tape.Playback

namespace ZxSpectrum

/-! A loader measures a pulse by the changes of the line at both of its ends. Between two pulses
of a block the line always changes. Where the last pulse of a block is over, the level of the line
starts afresh, so that the number of pulses of the block decides whether it changes. -/

namespace Waveform

theorem sum_take_le_sum_take (widths : List Nat) {first second : Nat}
    (ordered : first ≤ second) : (widths.take first).sum ≤ (widths.take second).sum := by
  have split := List.take_append_drop first (widths.take second)
  rw [List.take_take, Nat.min_eq_left ordered] at split
  rw [← split, List.sum_append]
  exact Nat.le_add_right _ _

theorem blockStart_mono (signals : List Signal) (start : Nat) {first second : Nat}
    (ordered : first ≤ second) :
    blockStart signals start first ≤ blockStart signals start second := by
  unfold blockStart
  rw [List.map_take, List.map_take]
  exact Nat.add_le_add_left (sum_take_le_sum_take _ ordered) start

theorem blockStart_succ_le (signals : List Signal) (start : Nat) {block other : Nat}
    (earlier : block < other) :
    blockStart signals start (block + 1) ≤ blockStart signals start other :=
  blockStart_mono signals start earlier

theorem blockStart_succ {signals : List Signal} {block : Nat} {signal : Signal}
    (present : signals[block]? = some signal) (start : Nat) :
    blockStart signals start (block + 1) =
      blockStart signals start block + signal.duration := by
  unfold blockStart
  rw [List.take_add_one, present]
  simp [Nat.add_assoc]

theorem pulses_eq {signals : List Signal} {block : Nat} {signal : Signal}
    (present : signals[block]? = some signal) : pulses signals block = signal.pulses := by
  simp [pulses, present]

theorem pulseStart_mono (signals : List Signal) (start block : Nat) {first second : Nat}
    (ordered : first ≤ second) :
    pulseStart signals start block first ≤ pulseStart signals start block second :=
  Nat.add_le_add_left (sum_take_le_sum_take _ ordered) _

theorem pulseStart_succ (signals : List Signal) (start block pulse : Nat)
    (present : pulse < (pulses signals block).length) :
    pulseStart signals start block (pulse + 1) =
      pulseStart signals start block pulse + (pulses signals block)[pulse] := by
  unfold pulseStart
  rw [List.take_succ_eq_append_getElem present, List.sum_append, List.sum_singleton,
    Nat.add_assoc]

theorem pulseStart_le_blockStart_succ (signals : List Signal) (start block pulse : Nat) :
    pulseStart signals start block pulse ≤ blockStart signals start (block + 1) := by
  cases present : signals[block]? with
  | none =>
      have bound := blockStart_mono signals start (Nat.le_succ block)
      simpa [pulseStart, pulses, present] using bound
  | some signal =>
      have bound := sum_take_le_sum_take signal.pulses (Nat.le_max_left pulse signal.pulses.length)
      rw [List.take_of_length_le (Nat.le_max_right pulse signal.pulses.length)] at bound
      rw [blockStart_succ present, pulseStart, pulses_eq present, Signal.duration]
      omega

theorem pulseStart_le_of_lt (signals : List Signal) (start pulse otherPulse : Nat)
    {block other : Nat} (earlier : block < other) :
    pulseStart signals start block pulse ≤ pulseStart signals start other otherPulse :=
  calc
    pulseStart signals start block pulse ≤ blockStart signals start (block + 1) :=
      pulseStart_le_blockStart_succ signals start block pulse
    _ ≤ blockStart signals start other := blockStart_succ_le signals start earlier
    _ ≤ pulseStart signals start other otherPulse := Nat.le_add_right _ _

theorem pulseStart_succ_le (signals : List Signal) (start block : Nat) {pulse other : Nat}
    (earlier : pulse < other) :
    pulseStart signals start block (pulse + 1) ≤ pulseStart signals start block other :=
  pulseStart_mono signals start block earlier

/-! Pulses do not overlap, and between the pulses of a block and the next block the line is low. -/

theorem Inside.unique {signals : List Signal} {start tact : Nat}
    {block pulse otherBlock otherPulse : Nat} (inside : Inside signals start block pulse tact)
    (other : Inside signals start otherBlock otherPulse tact) :
    block = otherBlock ∧ pulse = otherPulse := by
  rcases inside with ⟨begun, current⟩
  rcases other with ⟨otherBegun, otherCurrent⟩
  have blocks : block = otherBlock := by
    rcases Nat.lt_trichotomy block otherBlock with earlier | equal | later
    · have passed := pulseStart_le_of_lt signals start (pulse + 1) otherPulse earlier
      omega
    · exact equal
    · have passed := pulseStart_le_of_lt signals start (otherPulse + 1) pulse later
      omega
  subst blocks
  refine ⟨rfl, ?_⟩
  rcases Nat.lt_trichotomy pulse otherPulse with earlier | equal | later
  · have passed := pulseStart_succ_le signals start block earlier
    omega
  · exact equal
  · have passed := pulseStart_succ_le signals start block later
    omega

theorem Inside.lt_length {signals : List Signal} {start block pulse tact : Nat}
    (inside : Inside signals start block pulse tact) :
    pulse < (pulses signals block).length := by
  rcases inside with ⟨begun, current⟩
  apply Nat.lt_of_not_le
  intro beyond
  rw [pulseStart, List.take_of_length_le beyond] at begun
  rw [pulseStart, List.take_of_length_le (Nat.le_succ_of_le beyond)] at current
  omega

theorem Inside.high_iff {signals : List Signal} {start block pulse tact : Nat}
    (inside : Inside signals start block pulse tact) :
    High signals start tact ↔ pulse % 2 = 0 := by
  constructor
  · rintro ⟨otherBlock, -, otherPulse, -, even, other⟩
    rw [(inside.unique other).2]
    exact even
  · intro even
    have present := inside.lt_length
    refine ⟨block, ?_, pulse, present, even, inside⟩
    apply Nat.lt_of_not_le
    intro beyond
    simp [pulses, List.getElem?_eq_none beyond] at present

theorem not_high_of_pause {signals : List Signal} {start block tact : Nat}
    (passed : pulseStart signals start block (pulses signals block).length ≤ tact)
    (current : tact < blockStart signals start (block + 1)) : ¬High signals start tact := by
  rintro ⟨other, -, pulse, present, -, begun, inside⟩
  rcases Nat.lt_trichotomy other block with earlier | equal | later
  · have ended := pulseStart_le_of_lt signals start (pulse + 1)
      (pulses signals block).length earlier
    omega
  · subst equal
    have ended := pulseStart_succ_le signals start other present
    omega
  · have next := blockStart_succ_le signals start later
    have onward : blockStart signals start other ≤ pulseStart signals start other pulse :=
      Nat.le_add_right _ _
    omega

/-! ## The end of a pulse -/

/-- What comes after a pulse: the next pulse of its block, the pause of its block, or the first pulse
of the next block. -/
inductive Sequel
  | pulse
  | pause
  | block

/-- What comes after a pulse of a tape, when there is something by which the end of the pulse can
be heard. -/
inductive Follows (signals : List Signal) (block pulse : Nat) : Sequel → Prop
  | pulse (another : pulse + 1 < (pulses signals block).length) :
      Follows signals block pulse .pulse
  | pause {signal : Signal} (present : signals[block]? = some signal)
      (last : pulse + 1 = signal.pulses.length) (silent : signal.pause ≠ 0) :
      Follows signals block pulse .pause
  | block {signal next : Signal} (present : signals[block]? = some signal)
      (last : pulse + 1 = signal.pulses.length) (joined : signal.pause = 0)
      (following : signals[block + 1]? = some next) (sounds : next.pulses ≠ []) :
      Follows signals block pulse .block

def Sequel.HasEdge (count : Nat) : Sequel → Prop
  | .pulse => True
  | .pause => count % 2 = 1
  | .block => count % 2 = 0

def NoPulseIsEmpty (signals : List Signal) : Prop :=
  ∀ signal ∈ signals, ∀ width ∈ signal.pulses, width ≠ 0

theorem Follows.lt_length {signals : List Signal} {block pulse : Nat} {sequel : Sequel}
    (follows : Follows signals block pulse sequel) :
    pulse < (pulses signals block).length := by
  cases follows with
  | pulse another => exact Nat.lt_of_succ_lt another
  | pause present last _ | block present last _ _ _ =>
      rw [pulses_eq present, ← last]
      exact Nat.lt_succ_self pulse

theorem NoPulseIsEmpty.pos {signals : List Signal} (nonempty : NoPulseIsEmpty signals)
    {block pulse : Nat} (present : pulse < (pulses signals block).length) :
    0 < (pulses signals block)[pulse] := by
  cases found : signals[block]? with
  | none => simp [pulses, found] at present
  | some signal =>
      have member : (pulses signals block)[pulse] ∈ signal.pulses := by
        rw [← pulses_eq found]
        exact List.getElem_mem present
      exact Nat.pos_of_ne_zero
        (nonempty signal (List.mem_of_getElem? found) _ member)

theorem NoPulseIsEmpty.inside_pulseStart {signals : List Signal}
    (nonempty : NoPulseIsEmpty signals) (start : Nat) {block pulse : Nat}
    (present : pulse < (pulses signals block).length) :
    Inside signals start block pulse (pulseStart signals start block pulse) := by
  have positive := nonempty.pos present
  refine ⟨Nat.le_refl _, ?_⟩
  rw [pulseStart_succ signals start block pulse present]
  omega

theorem NoPulseIsEmpty.inside_before {signals : List Signal}
    (nonempty : NoPulseIsEmpty signals) (start : Nat) {block pulse : Nat}
    (present : pulse < (pulses signals block).length) :
    Inside signals start block pulse (pulseStart signals start block (pulse + 1) - 1) := by
  have positive := nonempty.pos present
  unfold Inside
  rw [pulseStart_succ signals start block pulse present]
  omega

theorem NoPulseIsEmpty.start_lt_pulseStart_succ {signals : List Signal}
    (nonempty : NoPulseIsEmpty signals) (start : Nat) {block pulse : Nat}
    (present : pulse < (pulses signals block).length) :
    start < pulseStart signals start block (pulse + 1) := by
  have positive := nonempty.pos present
  have begun := start_le_blockStart signals start block
  rw [pulseStart_succ signals start block pulse present, pulseStart]
  omega

theorem Follows.high_iff {signals : List Signal} (nonempty : NoPulseIsEmpty signals)
    (start : Nat) {block pulse : Nat} {sequel : Sequel}
    (follows : Follows signals block pulse sequel) :
    High signals start (pulseStart signals start block (pulse + 1)) ↔
      match sequel with
      | .pulse => (pulse + 1) % 2 = 0
      | .pause => False
      | .block => True := by
  cases follows with
  | pulse another => exact (nonempty.inside_pulseStart start another).high_iff
  | @pause signal present last silent =>
      refine iff_false_intro (@not_high_of_pause signals start block _ ?_ ?_)
      · exact Nat.le_of_eq (by rw [pulses_eq present, last])
      · rw [blockStart_succ present, pulseStart, pulses_eq present, last, List.take_length,
          Signal.duration]
        omega
  | @block signal next present last joined following sounds =>
      have first : 0 < (pulses signals (block + 1)).length := by
        rw [pulses_eq following]
        exact List.length_pos_iff.mpr sounds
      have begins : pulseStart signals start block (pulse + 1) =
          pulseStart signals start (block + 1) 0 := by
        rw [pulseStart, pulseStart, blockStart_succ present, pulses_eq present, last,
          List.take_length, Signal.duration, joined]
        simp
      rw [begins]
      exact iff_true_intro
        ((nonempty.inside_pulseStart start first).high_iff.mpr (Nat.zero_mod 2))

/-- The line changes at the end of a pulse exactly when the number of pulses suits what comes
after it. -/
theorem Follows.edge_iff {signals : List Signal} (nonempty : NoPulseIsEmpty signals)
    (start : Nat) {block pulse : Nat} {sequel : Sequel}
    (follows : Follows signals block pulse sequel) :
    ¬(High signals start (pulseStart signals start block (pulse + 1) - 1) ↔
        High signals start (pulseStart signals start block (pulse + 1))) ↔
      sequel.HasEdge (pulse + 1) := by
  rw [(nonempty.inside_before start follows.lt_length).high_iff,
    follows.high_iff nonempty start]
  have odd : (pulse + 1) % 2 = 1 ↔ pulse % 2 = 0 := by omega
  have even : (pulse + 1) % 2 = 0 ↔ ¬pulse % 2 = 0 := by omega
  cases sequel with
  | pulse => simpa only [Sequel.HasEdge, even, iff_true] using iff_not_self
  | pause => simp only [Sequel.HasEdge, odd, iff_false, Decidable.not_not]
  | block => simp only [Sequel.HasEdge, even, iff_true]

end Waveform

namespace Player

/-! The levels that a player tells. -/

def levels (player : Player) (start : Nat) (tacts : List Nat) : Option (List Bool) := do
  let started ← player.start start
  let readings ← started.listen tacts
  return readings.map TapeReading.level

theorem levels_eq_high (player : Player) {start : Nat} {tacts : List Nat}
    (fits : Waveform.finish (player.blocks.map TapeBlock.signal) start < 2 ^ 64)
    (ordered : (start :: tacts).Pairwise (· ≤ ·)) :
    player.levels start tacts = some (tacts.map fun tact =>
      decide (Waveform.High (player.blocks.map TapeBlock.signal) start tact)) := by
  rcases player.start_listen start fits with ⟨started, starts, listens⟩
  simp only [levels, starts, listens tacts ordered, Option.bind_eq_bind, Option.bind_some,
    List.map_map]
  rfl

/-- At the end of a pulse the line of a started player changes exactly under a condition on the
number of pulses: between two pulses of a block always, before a pause when the block has an odd
number of pulses, and before the next block when it has an even number. -/
theorem levels_differ_iff_hasEdge (recordings : List Recording) (player : Player)
    (playable : recordings.mapM Recording.block = some player.blocks) (start : Nat)
    (fits : Waveform.finish (recordings.map Recording.signal) start < 2 ^ 64)
    (nonempty : Waveform.NoPulseIsEmpty (recordings.map Recording.signal))
    (block pulse : Nat) (sequel : Waveform.Sequel)
    (follows : Waveform.Follows (recordings.map Recording.signal) block pulse sequel) :
    let ends := Waveform.pulseStart (recordings.map Recording.signal) start block (pulse + 1)
    ∃ before after, player.levels start [ends - 1, ends] = some [before, after] ∧
      (before ≠ after ↔ sequel.HasEdge (pulse + 1)) := by
  intro ends
  have begun : start < ends := nonempty.start_lt_pulseStart_succ start follows.lt_length
  have ordered : [start, ends - 1, ends].Pairwise (· ≤ ·) := by
    simp
    omega
  have edge := follows.edge_iff nonempty start
  rw [← Recording.signals_blocks playable] at fits
  have heard := player.levels_eq_high fits ordered
  rw [Recording.signals_blocks playable] at heard
  refine ⟨_, _, heard, ?_⟩
  rw [ne_eq, decide_eq_decide]
  exact edge

def oneBit : Recording :=
  .image (.pureData 855 1710 1 1 [0x80])

def oneBitBlock : TapeBlock :=
  { segments := [.data 855 1710 1 [0x80]], pause := 3500 }

theorem oneBit_noPulseIsEmpty : Waveform.NoPulseIsEmpty [oneBit.signal] := by
  unfold Waveform.NoPulseIsEmpty
  decide

theorem oneBit_follows : Waveform.Follows [oneBit.signal] 0 1 .pause :=
  .pause rfl rfl (by decide)

theorem levels_differ_iff_hasEdge_oneBit :
    [oneBit].mapM Recording.block = some [oneBitBlock] ∧
      Waveform.finish [oneBit.signal] 0 < 2 ^ 64 ∧ Waveform.NoPulseIsEmpty [oneBit.signal] ∧
      Waveform.Follows [oneBit.signal] 0 1 .pause ∧
      ∃ before after, levels ⟨[oneBitBlock], none⟩ 0 [3419, 3420] = some [before, after] ∧
        (before ≠ after ↔ Waveform.Sequel.HasEdge 2 .pause) :=
  ⟨rfl, by decide, oneBit_noPulseIsEmpty, oneBit_follows,
    levels_differ_iff_hasEdge [oneBit] ⟨[oneBitBlock], none⟩ rfl 0 (by decide)
      oneBit_noPulseIsEmpty 0 1 .pause oneBit_follows⟩

/-- An edge at the end of every pulse cannot be relied on: the line stays low where the second and
last pulse of a block gives way to the pause. -/
theorem pause_without_edge :
    [oneBit].mapM Recording.block = some [oneBitBlock] ∧
      Waveform.NoPulseIsEmpty [oneBit.signal] ∧ Waveform.Follows [oneBit.signal] 0 1 .pause ∧
      Waveform.pulseStart [oneBit.signal] 0 0 2 = 3420 ∧
      levels ⟨[oneBitBlock], none⟩ 0 [3419, 3420] = some [false, false] :=
  ⟨rfl, oneBit_noPulseIsEmpty, oneBit_follows, by decide, by decide +kernel⟩

end Player

end ZxSpectrum
