import ZxSpectrum.Proofs.Tape.Recording

namespace ZxSpectrum

/-! The waveform of a tape: its signals follow one another from a tact on. The line is high inside
the even-numbered pulses of every signal. It is low inside the odd-numbered ones, in pauses and
after the end. Nothing here follows the tape along: every tact is looked up by itself. -/

/-- What a player tells at a tact: the level of the line, the number of blocks before the current
one, and whether the tape is over. -/
structure TapeReading where
  level : Bool
  index : Nat
  atEnd : Bool
deriving DecidableEq

namespace Waveform

/-! Where the signals of a tape lie, and the pulses of each. -/

def pulses (signals : List Signal) (block : Nat) : List Nat :=
  (signals[block]?.map Signal.pulses).getD []

def blockStart (signals : List Signal) (start block : Nat) : Nat :=
  start + ((signals.take block).map Signal.duration).sum

def pulseStart (signals : List Signal) (start block pulse : Nat) : Nat :=
  blockStart signals start block + ((pulses signals block).take pulse).sum

/-- The tact lies inside a pulse of a signal. -/
def Inside (signals : List Signal) (start block pulse tact : Nat) : Prop :=
  pulseStart signals start block pulse ≤ tact ∧
    tact < pulseStart signals start block (pulse + 1)

/-- The tact lies inside an even-numbered pulse. -/
def High (signals : List Signal) (start tact : Nat) : Prop :=
  ∃ block < signals.length, ∃ pulse < (pulses signals block).length,
    pulse % 2 = 0 ∧ Inside signals start block pulse tact

def blocksOver (signals : List Signal) (start tact : Nat) : Nat :=
  (List.range signals.length).countP fun block =>
    blockStart signals start (block + 1) ≤ tact

def finish (signals : List Signal) (start : Nat) : Nat :=
  blockStart signals start signals.length

instance (signals : List Signal) (start block pulse tact : Nat) :
    Decidable (Inside signals start block pulse tact) :=
  inferInstanceAs (Decidable (_ ∧ _))

instance (signals : List Signal) (start tact : Nat) : Decidable (High signals start tact) :=
  inferInstanceAs (Decidable (∃ block, block < _ ∧ ∃ pulse, pulse < _ ∧ _))

/-- What a player should tell at a tact of a tape that starts at another one. -/
def reading (signals : List Signal) (start tact : Nat) : TapeReading where
  level := decide (High signals start tact)
  index := blocksOver signals start tact
  atEnd := decide (finish signals start ≤ tact)

/-! A tape without its first signal is a tape that starts when that signal is over. -/

section Cons

variable (signal : Signal) (later : List Signal) (start : Nat)

theorem pulses_cons_succ (block : Nat) :
    pulses (signal :: later) (block + 1) = pulses later block := by
  simp [pulses]

theorem blockStart_zero (signals : List Signal) : blockStart signals start 0 = start := by
  simp [blockStart]

theorem blockStart_cons_succ (block : Nat) :
    blockStart (signal :: later) start (block + 1) =
      blockStart later (start + signal.duration) block := by
  simp [blockStart, Nat.add_assoc]

theorem finish_cons :
    finish (signal :: later) start = finish later (start + signal.duration) :=
  blockStart_cons_succ signal later start later.length

theorem pulseStart_cons_zero (pulse : Nat) :
    pulseStart (signal :: later) start 0 pulse = start + (signal.pulses.take pulse).sum := by
  simp [pulseStart, blockStart_zero, pulses]

theorem inside_cons_succ (block pulse tact : Nat) :
    Inside (signal :: later) start (block + 1) pulse tact ↔
      Inside later (start + signal.duration) block pulse tact := by
  simp [Inside, pulseStart, blockStart_cons_succ, pulses_cons_succ]

end Cons

theorem start_le_blockStart (signals : List Signal) (start block : Nat) :
    start ≤ blockStart signals start block :=
  Nat.le_add_right _ _

/-! ## Pulses of one signal -/

/-- The tact lies inside one of some pulses that follow one another from a start on, and the
number of that pulse is even or odd, as asked for. -/
def InPulse (even : Bool) (widths : List Nat) (start tact : Nat) : Prop :=
  ∃ pulse < widths.length, decide (pulse % 2 = 0) = even ∧
    start + (widths.take pulse).sum ≤ tact ∧ tact < start + (widths.take (pulse + 1)).sum

instance (even : Bool) (widths : List Nat) (start tact : Nat) :
    Decidable (InPulse even widths start tact) :=
  inferInstanceAs (Decidable (∃ pulse, pulse < _ ∧ _))

theorem not_inPulse_nil (even : Bool) (start tact : Nat) : ¬InPulse even [] start tact := by
  simp [InPulse]

theorem inPulse_cons (even : Bool) (width : Nat) (later : List Nat) (start tact : Nat) :
    InPulse even (width :: later) start tact ↔
      (even = true ∧ start ≤ tact ∧ tact < start + width) ∨
        InPulse (!even) later (start + width) tact := by
  have parity (pulse : Nat) :
      decide ((pulse + 1) % 2 = 0) = even ↔ decide (pulse % 2 = 0) = !even := by
    rcases Nat.mod_two_eq_zero_or_one pulse with zero | one
    · have odd : (pulse + 1) % 2 = 1 := by omega
      cases even <;> simp [zero, odd]
    · have isEven : (pulse + 1) % 2 = 0 := by omega
      cases even <;> simp [one, isEven]
  simp only [InPulse, List.length_cons]
  rw [Nat.exists_lt_succ_left]
  simp [parity, Nat.add_assoc, eq_comm (a := true)]

theorem not_inPulse_of_lt {even : Bool} {widths : List Nat} {start tact : Nat}
    (early : tact < start) : ¬InPulse even widths start tact := by
  rintro ⟨pulse, -, -, begun, -⟩
  omega

theorem not_inPulse_of_sum_le {even : Bool} {widths : List Nat} {start tact : Nat}
    (late : start + widths.sum ≤ tact) : ¬InPulse even widths start tact := by
  induction widths generalizing even start with
  | nil => exact not_inPulse_nil even start tact
  | cons width later induction =>
      rw [List.sum_cons] at late
      rw [inPulse_cons]
      rintro (⟨-, -, inside⟩ | inside)
      · omega
      · exact induction (by omega) inside

theorem high_nil (start tact : Nat) : ¬High [] start tact := by
  simp [High]

theorem high_cons (signal : Signal) (later : List Signal) (start tact : Nat) :
    High (signal :: later) start tact ↔
      InPulse true signal.pulses start tact ∨ High later (start + signal.duration) tact := by
  simp only [High, List.length_cons]
  rw [Nat.exists_lt_succ_left]
  simp only [pulses_cons_succ, inside_cons_succ]
  simp [InPulse, Inside, pulseStart_cons_zero, pulses]

theorem not_high_of_lt {signals : List Signal} {start tact : Nat} (early : tact < start) :
    ¬High signals start tact := by
  rintro ⟨block, -, pulse, -, -, begun, -⟩
  have bound := start_le_blockStart signals start block
  unfold pulseStart at begun
  omega

theorem blocksOver_cons (signal : Signal) (later : List Signal) (start tact : Nat) :
    blocksOver (signal :: later) start tact =
      blocksOver later (start + signal.duration) tact +
        if start + signal.duration ≤ tact then 1 else 0 := by
  rw [blocksOver, List.length_cons, List.range_succ_eq_map, List.countP_cons, List.countP_map]
  simp only [blockStart_cons_succ, blockStart_zero, decide_eq_true_eq]
  rfl

theorem blocksOver_of_lt {signals : List Signal} {start tact : Nat} (early : tact < start) :
    blocksOver signals start tact = 0 := by
  apply List.countP_eq_zero.mpr
  intro block _
  have bound := start_le_blockStart signals start (block + 1)
  simp only [decide_eq_true_eq]
  omega

theorem start_le_finish (signals : List Signal) (start : Nat) : start ≤ finish signals start :=
  start_le_blockStart signals start signals.length

/-! ## One signal after another -/

theorem reading_nil {start tact : Nat} (begun : start ≤ tact) :
    reading [] start tact = ⟨false, 0, true⟩ := by
  simp [reading, high_nil, blocksOver, finish, blockStart_zero, begun]

theorem reading_cons_of_lt {signal : Signal} {start tact : Nat}
    (current : tact < start + signal.duration) (later : List Signal) :
    reading (signal :: later) start tact =
      ⟨decide (InPulse true signal.pulses start tact), 0, false⟩ := by
  have unfinished : ¬finish later (start + signal.duration) ≤ tact := by
    have bound := start_le_finish later (start + signal.duration)
    omega
  simp [reading, high_cons, not_high_of_lt current, blocksOver_cons, blocksOver_of_lt current,
    finish_cons, unfinished, Nat.not_le_of_lt current]

theorem reading_cons_of_le {signal : Signal} {start tact : Nat}
    (passed : start + signal.duration ≤ tact) (later : List Signal) :
    reading (signal :: later) start tact =
      let rest := reading later (start + signal.duration) tact
      { rest with index := rest.index + 1 } := by
  have silent : ¬InPulse true signal.pulses start tact := by
    apply not_inPulse_of_sum_le
    unfold Signal.duration at passed
    omega
  simp [reading, high_cons, silent, blocksOver_cons, finish_cons, passed]

end Waveform

end ZxSpectrum
