import ZxSpectrum.Proofs.Raster.Waiting

namespace ZxSpectrum

/-! Inputs and outputs, part by part. Which parts of a cycle wait for the video circuit depends on
the port alone; how long they wait depends on the tacts that they have reached by then, all earlier
waits included. -/

inductive AccessPart
  /-- Tacts that pass without a wait. -/
  | free (tacts : Nat)
  /-- Tacts before which the access waits for the video circuit. -/
  | contended (tacts : Nat)
deriving DecidableEq

structure AccessProgress where
  tact : Nat
  waited : Nat := 0
deriving DecidableEq

/-- The parts of an input or output cycle. -/
def portAccess (even contended : Bool) : List AccessPart :=
  match contended, even with
  | false, false => [.free 4]
  | false, true => [.free 1, .contended 3]
  | true, true => [.contended 1, .contended 3]
  | true, false => [.contended 1, .contended 1, .contended 1, .contended 1]

namespace Geometry

def longWaits : Geometry :=
  { oneLine with
    borderLeftTime := 5
    displayLineTime := 123
    nonVisibleBorderRightTime := 0
    contention := .gateArray }

theorem longWaits_fits : (Timing.ofGeometry longWaits).isSome := by
  decide +kernel

end Geometry

namespace Timing

variable (timing : Timing)

def pass (progress : AccessProgress) : AccessPart → AccessProgress
  | .free tacts => { progress with tact := progress.tact + tacts }
  | .contended tacts =>
    let wait := timing.contentionAt progress.tact
    ⟨progress.tact + wait + tacts, progress.waited + wait⟩

def passAll (parts : List AccessPart) (progress : AccessProgress) : AccessProgress :=
  parts.foldl timing.pass progress

/-! The tacts at which the parts ask for their waits. -/

def asked : List AccessPart → AccessProgress → List Nat
  | [], _ => []
  | .free tacts :: parts, progress => asked parts (timing.pass progress (.free tacts))
  | .contended tacts :: parts, progress =>
    progress.tact :: asked parts (timing.pass progress (.contended tacts))

/-! The parts of an access with a 32-bit counter, which has to hold the tact of each wait. -/

def pass? (progress : AccessProgress) : AccessPart → Option AccessProgress
  | .free tacts => some (timing.pass progress (.free tacts))
  | .contended tacts =>
    (timing.delay? progress.tact).map fun wait =>
      ⟨progress.tact + wait + tacts, progress.waited + wait⟩

theorem foldlM_pass?_eq (parts : List AccessPart) (progress : AccessProgress) :
    parts.foldlM timing.pass? progress =
      if ∀ tact ∈ timing.asked parts progress, tact < UInt32.size then
        some (timing.passAll parts progress)
      else none := by
  induction parts generalizing progress with
  | nil => rfl
  | cons part parts induction =>
      rw [List.foldlM_cons]
      cases part with
      | free tacts => exact induction _
      | contended tacts =>
          by_cases fits : progress.tact < UInt32.size
          · have first : timing.pass? progress (.contended tacts) =
                some (timing.pass progress (.contended tacts)) := by
              rw [pass?, delay?_eq_some fits]
              rfl
            rw [first, Option.bind_eq_bind, Option.bind_some, induction, asked]
            simp only [List.forall_mem_cons, fits, true_and]
            rfl
          · have first : timing.pass? progress (.contended tacts) = none := by
              rw [pass?, delay?, Bound.word, if_neg fits]
              rfl
            have late : ¬∀ tact ∈ timing.asked (.contended tacts :: parts) progress,
                tact < UInt32.size :=
              fun all => fits (List.forall_mem_cons.mp all).1
            rw [first, if_neg late]
            rfl

theorem foldlM_delay?_eq (tact count first wait : Nat) :
    (List.range' first count).foldlM (fun wait cycle => do
        let more ← timing.delay? (tact + cycle + wait)
        return wait + more) wait =
      ((List.replicate count (.contended 1)).foldlM timing.pass? ⟨tact + first + wait, wait⟩).map
        AccessProgress.waited := by
  induction count generalizing first wait with
  | zero => rfl
  | succ count induction =>
      rw [List.range'_succ, List.replicate_succ, List.foldlM_cons, List.foldlM_cons, pass?]
      cases timing.delay? (tact + first + wait) with
      | none => rfl
      | some more =>
          have next : tact + (first + 1) + (wait + more) = tact + first + wait + more + 1 := by
            omega
          exact (induction (first + 1) (wait + more)).trans (by rw [next]; rfl)

theorem ioContention?_eq_foldlM (tact : Nat) (even contended : Bool) :
    timing.ioContention? tact even contended =
      ((portAccess even contended).foldlM timing.pass? ⟨tact, 0⟩).map AccessProgress.waited := by
  cases contended <;> cases even
  case false.false => rfl
  case false.true =>
    change timing.delay? (tact + 1) = Option.map _ (timing.pass? ⟨tact + 1, 0⟩ _ >>= some)
    rw [pass?]
    cases timing.delay? (tact + 1) with
    | none => rfl
    | some wait => exact congrArg some (Nat.zero_add wait).symm
  case true.true =>
    simp only [portAccess, ioContention?, List.foldlM_cons, List.foldlM_nil, pass?]
    cases timing.delay? tact with
    | none => rfl
    | some wait =>
        simp only [Option.map_some, Option.bind_eq_bind, Option.bind_some, Nat.zero_add,
          Nat.add_right_comm tact wait 1]
        cases timing.delay? (tact + 1 + wait) <;> rfl
  case true.false => exact timing.foldlM_delay?_eq tact 4 0 0

theorem waited_pass_le (progress : AccessProgress) (part : AccessPart) :
    (timing.pass progress part).waited ≤ progress.waited + 7 := by
  cases part with
  | free tacts => exact Nat.le_add_right _ _
  | contended tacts => exact Nat.add_le_add_left (timing.contentionAt_le _) _

theorem waited_passAll_le (parts : List AccessPart) (progress : AccessProgress) :
    (timing.passAll parts progress).waited ≤ progress.waited + 7 * parts.length := by
  induction parts generalizing progress with
  | nil => exact Nat.le_refl _
  | cons part parts induction =>
      have first := timing.waited_pass_le progress part
      have rest := induction (timing.pass progress part)
      rw [List.length_cons]
      exact rest.trans (by omega)

theorem le_of_mem_asked_replicate {asked count : Nat} {progress : AccessProgress}
    (member : asked ∈ timing.asked (List.replicate (count + 1) (.contended 1)) progress) :
    asked ≤ progress.tact + 8 * count := by
  induction count generalizing progress with
  | zero => exact Nat.le_of_eq (List.mem_singleton.mp member)
  | succ count induction =>
      rcases List.mem_cons.mp member with same | member
      · exact same.trans_le (Nat.le_add_right _ _)
      · have wait := timing.contentionAt_le progress.tact
        have later : asked ≤ progress.tact + timing.contentionAt progress.tact + 1 + 8 * count :=
          induction member
        omega

theorem le_of_mem_asked {tact asked : Nat} {even contended : Bool}
    (member : asked ∈ timing.asked (portAccess even contended) ⟨tact, 0⟩) : asked ≤ tact + 24 := by
  cases contended <;> cases even
  case false.false => exact nomatch member
  case false.true =>
    have same : asked = tact + 1 := List.mem_singleton.mp member
    omega
  case true.true =>
    have wait := timing.contentionAt_le tact
    rcases List.mem_cons.mp member with same | member
    · exact same.trans_le (Nat.le_add_right _ _)
    · have same : asked = tact + timing.contentionAt tact + 1 := List.mem_singleton.mp member
      omega
  case true.false =>
    have four : portAccess false true = List.replicate (3 + 1) (.contended 1) := rfl
    rw [four] at member
    exact timing.le_of_mem_asked_replicate member

/-- The delay of an input or output is what its parts wait. There is none only if a part would begin
past the counter of tacts. -/
theorem ioContention?_eq_ite (tact : Nat) (even contended : Bool) :
    let parts := portAccess even contended
    timing.ioContention? tact even contended =
      if ∀ asked ∈ timing.asked parts ⟨tact, 0⟩, asked < UInt32.size then
        some (timing.passAll parts ⟨tact, 0⟩).waited
      else none := by
  rw [ioContention?_eq_foldlM, foldlM_pass?_eq]
  exact apply_ite (Option.map AccessProgress.waited) _ _ _

theorem ioContention?_of_fits {tact : Nat} (fits : tact + 24 < UInt32.size)
    (even contended : Bool) :
    timing.ioContention? tact even contended =
      some (timing.passAll (portAccess even contended) ⟨tact, 0⟩).waited := by
  rw [ioContention?_eq_ite, if_pos]
  exact fun asked member => (timing.le_of_mem_asked member).trans_lt fits

theorem waited_le_of_prefix (tact : Nat) {even contended : Bool} {begun : List AccessPart}
    (start : begun <+: portAccess even contended) :
    (timing.passAll begun ⟨tact, 0⟩).waited ≤ 28 := by
  have waits : (timing.passAll begun ⟨tact, 0⟩).waited ≤ 0 + 7 * begun.length :=
    timing.waited_passAll_le begun ⟨tact, 0⟩
  have short : begun.length ≤ 4 :=
    start.length_le.trans (by cases even <;> cases contended <;> decide)
  omega

/-- The delay of an input or output is what its parts wait, one after another, each from the tact
that it has reached. At no point of the access do the waits add up to more than 28 tacts. -/
theorem ioContention?_eq_waited {timing : Timing} {tact : Nat} (fits : tact + 24 < UInt32.size)
    (even contended : Bool) :
    let parts := portAccess even contended
    timing.ioContention? tact even contended = some (timing.passAll parts ⟨tact, 0⟩).waited ∧
      ∀ begun, begun <+: parts → (timing.passAll begun ⟨tact, 0⟩).waited ≤ 28 :=
  ⟨timing.ioContention?_of_fits fits even contended,
    fun _ start => timing.waited_le_of_prefix tact start⟩

theorem ioContention?_eq_waited_longWaits :
    4294967271 + 24 < UInt32.size ∧
      ∃ timing, ofGeometry .longWaits = some timing ∧
        (timing.passAll (portAccess false true) ⟨4294967271, 0⟩).waited = 28 ∧
        timing.ioContention? 4294967271 false true = some 28 := by
  have fits : 4294967271 + 24 < UInt32.size := by decide
  rcases Option.isSome_iff_exists.mp Geometry.longWaits_fits with ⟨timing, built⟩
  have waited : (ofGeometry .longWaits).map (fun timing =>
      (timing.passAll (portAccess false true) ⟨4294967271, 0⟩).waited) = some 28 := by
    decide +kernel
  rw [built] at waited
  replace waited := Option.some.inj waited
  rcases @ioContention?_eq_waited timing _ fits false true with ⟨delay, -⟩
  exact ⟨fits, timing, built, waited, delay.trans (congrArg some waited)⟩

end Timing

end ZxSpectrum
