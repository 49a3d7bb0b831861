namespace ZxSpectrum

/-! Pulses on the line to the tape recorder, told apart by their widths. -/

namespace PulseWidth

def pilot : Nat := 2168

def sync1 : Nat := 667

def sync2 : Nat := 735

def zero : Nat := 855

def one : Nat := 1710

def closing : Nat := 947

/-- The accepted deviation of a width. That of the pilot is twice as large. -/
def tolerance : Nat := 24

end PulseWidth

inductive Pulse
  /-- Neither too short nor too long, but near no known width. -/
  | unknown
  | zero
  | one
  | pilot
  | sync1
  | sync2
  | closing
  | tooShort
  | tooLong
deriving DecidableEq

namespace Pulse

def label : Pulse → String
  | .unknown => "None"
  | .zero => "Bit0"
  | .one => "Bit1"
  | .pilot => "Pilot"
  | .sync1 => "Sync1"
  | .sync2 => "Sync2"
  | .closing => "TermSync"
  | .tooShort => "TooShort"
  | .tooLong => "TooLong"

def ofLabel (name : String) : Option Pulse :=
  [unknown, zero, one, pilot, sync1, sync2, closing, tooShort, tooLong].find? (·.label = name)

theorem ofLabel_label (pulse : Pulse) : ofLabel pulse.label = some pulse := by
  cases pulse <;> rfl

/-! Pulses are told apart by their widths, each within the tolerance of a nominal one. -/

def Near (width nominal tolerance : Nat) : Prop :=
  nominal ≤ width + tolerance ∧ width ≤ nominal + tolerance

instance (width nominal tolerance : Nat) : Decidable (Near width nominal tolerance) :=
  inferInstanceAs (Decidable (_ ∧ _))

def classify (width : Nat) : Pulse :=
  let tolerance := PulseWidth.tolerance
  if width < PulseWidth.sync1 - tolerance then .tooShort
  else if PulseWidth.pilot + 2 * tolerance < width then .tooLong
  else if Near width PulseWidth.pilot (2 * tolerance) then .pilot
  else if Near width PulseWidth.sync1 tolerance then .sync1
  else if Near width PulseWidth.sync2 tolerance then .sync2
  else if Near width PulseWidth.zero tolerance then .zero
  else if Near width PulseWidth.closing tolerance then .closing
  else if Near width PulseWidth.one tolerance then .one
  else .unknown

end Pulse

end ZxSpectrum
