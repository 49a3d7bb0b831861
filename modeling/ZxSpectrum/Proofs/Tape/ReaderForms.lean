import Mathlib
import ZxSpectrum.Error

namespace ZxSpectrum.Tzx

/-! A reader is known by the form of the bytes that it consumes. It reads a form if it succeeds
exactly where the bytes in front have that form, and then answers the value that goes with them.
Forms say nothing about what comes after, so that readers put together read forms put together. -/

def littleEndian (bytes : List UInt8) : Nat :=
  bytes.foldr (fun byte value => byte.toNat + 256 * value) 0

@[simp] theorem littleEndian_singleton (byte : UInt8) : littleEndian [byte] = byte.toNat := by
  simp [littleEndian]

def words : List UInt8 → List UInt16
  | low :: high :: rest => UInt16.ofNat (littleEndian [low, high]) :: words rest
  | _ => []

def usedBitsOf (number : Nat) : UInt8 :=
  if number = 0 then 8 else UInt8.ofNat number

namespace Reader

def Reads (reader : Reader α) (form : List UInt8 → α → Prop) : Prop :=
  ∀ offset bytes value consumed, reader offset bytes = .ok (value, consumed) ↔
    consumed ≤ bytes.length ∧ form (bytes.take consumed) value

/-- The form of a field: a number of bytes, and what holds of them and their value. -/
def FieldForm (width : Nat) (holds : List UInt8 → α → Prop) (own : List UInt8) (value : α) : Prop :=
  own.length = width ∧ holds own value

theorem fieldForm_take {width : Nat} {holds : List UInt8 → α → Prop} {own : List UInt8}
    {value : α} :
    FieldForm width holds (own.take width) value ↔
      width ≤ own.length ∧ holds (own.take width) value := by
  simp [FieldForm]

theorem Reads.congr {reader : Reader α} {form other : List UInt8 → α → Prop}
    (reads : Reads reader form) (same : ∀ own value, form own value ↔ other own value) :
    Reads reader other := by
  intro offset bytes value consumed
  rw [reads, same]

theorem bind_eq_ok_iff {first : Reader α} {next : α → Reader β} {offset : Nat}
    {bytes : List UInt8} {result : β} {consumed : Nat} :
    (first >>= next) offset bytes = .ok (result, consumed) ↔
      ∃ value front back, first offset bytes = .ok (value, front) ∧
        next value (offset + front) (bytes.drop front) = .ok (result, back) ∧
        consumed = front + back := by
  change Reader.bind first next offset bytes = _ ↔ _
  unfold Reader.bind
  constructor
  · intro bound
    rcases exists_of_bind_eq_ok bound with ⟨⟨value, front⟩, begun, bound⟩
    rcases exists_of_bind_eq_ok bound with ⟨⟨answer, back⟩, ended, bound⟩
    cases bound
    exact ⟨value, front, back, begun, ended, rfl⟩
  · rintro ⟨value, front, back, begun, ended, rfl⟩
    simp only [begun, ended, Bind.bind, Except.bind]
    rfl

theorem reads_pure (value : α) :
    Reads (Pure.pure value) fun own answer => own = [] ∧ answer = value := by
  intro offset bytes answer consumed
  change Except.ok (value, 0) = _ ↔ _
  simp only [Except.ok.injEq, Prod.mk.injEq, List.take_eq_nil_iff]
  constructor
  · rintro ⟨rfl, rfl⟩
    exact ⟨Nat.zero_le _, Or.inl rfl, rfl⟩
  · rintro ⟨fits, rfl | rfl, rfl⟩
    · exact ⟨rfl, rfl⟩
    · exact ⟨rfl, (Nat.le_zero.mp fits).symm⟩

theorem reads_constant (value : α) :
    Reads (Pure.pure value) (FieldForm 0 fun _ answer => answer = value) := by
  apply (reads_pure value).congr
  intro own answer
  rw [FieldForm, List.length_eq_zero_iff]

theorem reads_take (context : String) (width : Nat) :
    Reads (take context width) (FieldForm width fun own value => value = own) := by
  intro offset bytes value consumed
  unfold take FieldForm
  dsimp only
  split_ifs with short
  · simp at short ⊢
    omega
  · simp at short ⊢
    constructor
    · rintro ⟨rfl, rfl⟩
      simp [short]
    · rintro ⟨fits, exact, rfl⟩
      have same : width = consumed := by omega
      exact ⟨by rw [same], same⟩

/-! A field, and what is read after it when its value is known. -/

theorem Reads.bind {first : Reader α} {next : α → Reader β} {width : Nat}
    {holds : List UInt8 → α → Prop} {later : α → List UInt8 → β → Prop}
    (reads : Reads first (FieldForm width holds))
    (continues : ∀ value, Reads (next value) (later value)) :
    Reads (first >>= next) fun own result =>
      ∃ value, (width ≤ own.length ∧ holds (own.take width) value) ∧
        later value (own.drop width) result := by
  intro offset bytes result consumed
  simp only [bind_eq_ok_iff, ← fieldForm_take]
  constructor
  · rintro ⟨value, front, back, begun, ended, rfl⟩
    rcases (reads _ _ _ _).mp begun with ⟨frontFits, formed⟩
    rcases (continues _ _ _ _ _).mp ended with ⟨backFits, ended⟩
    have exact : front = width := by
      have length := formed.1
      rwa [List.length_take_of_le frontFits] at length
    subst exact
    rw [List.length_drop] at backFits
    refine ⟨by omega, value, ?_, ?_⟩
    · rwa [List.take_take, Nat.min_eq_left (Nat.le_add_right _ _)]
    · rwa [List.drop_take, Nat.add_sub_cancel_left]
  · rintro ⟨fits, value, formed, ended⟩
    have length := formed.1
    rw [List.take_take, List.length_take] at length
    have within : width ≤ consumed := by omega
    rw [List.take_take, Nat.min_eq_left within] at formed
    rw [List.drop_take] at ended
    have rest : consumed - width ≤ (bytes.drop width).length := by
      rw [List.length_drop]
      omega
    exact ⟨value, width, consumed - width, (reads _ _ _ _).mpr ⟨by omega, formed⟩,
      (continues _ _ _ _ _).mpr ⟨rest, ended⟩, by omega⟩

theorem Reads.map {reader : Reader α} {form : List UInt8 → α → Prop} (reads : Reads reader form)
    (transform : α → β) :
    Reads (do return transform (← reader)) fun own result =>
      ∃ value, form own value ∧ result = transform value := by
  intro offset bytes result consumed
  rw [bind_eq_ok_iff]
  constructor
  · rintro ⟨value, front, back, begun, ended, rfl⟩
    cases ended
    rcases (reads _ _ _ _).mp begun with ⟨fits, formed⟩
    exact ⟨fits, value, formed, rfl⟩
  · rintro ⟨fits, value, formed, rfl⟩
    exact ⟨value, consumed, 0, (reads _ _ _ _).mpr ⟨fits, formed⟩, rfl, rfl⟩

theorem Reads.mapField {reader : Reader α} {width : Nat} {value : List UInt8 → α}
    (reads : Reads reader (FieldForm width fun own answer => answer = value own))
    (transform : α → β) :
    Reads (do return transform (← reader))
      (FieldForm width fun own answer => answer = transform (value own)) := by
  apply (reads.map transform).congr
  intro own answer
  simp [FieldForm]

/-! The fields of which bodies are made. -/

theorem reads_number (context : String) (width : Nat) :
    Reads (number context width) (FieldForm width fun own value => value = littleEndian own) :=
  (reads_take context width).mapField littleEndian

theorem reads_byte (context : String) :
    Reads (byte context) (FieldForm 1 fun own value => value = UInt8.ofNat (littleEndian own)) :=
  (reads_number context 1).mapField UInt8.ofNat

theorem reads_word (context : String) :
    Reads (word context) (FieldForm 2 fun own value => value = UInt16.ofNat (littleEndian own)) :=
  (reads_number context 2).mapField UInt16.ofNat

theorem reads_text (context : String) (length : Nat) :
    Reads (text context length)
      (FieldForm length fun own value => value = Text.Utf8.decodeLossy own) :=
  (reads_take context length).mapField Text.Utf8.decodeLossy

theorem reads_usedBits (context : String) :
    Reads (usedBits context) (FieldForm 1 fun own value =>
      littleEndian own ≤ 8 ∧ value = usedBitsOf (littleEndian own)) := by
  intro offset bytes value consumed
  cases bytes with
  | nil =>
      have missing : byte context offset [] = .error (.truncated context offset 1 0) := rfl
      simp [usedBits, missing, Bind.bind, Except.bind, FieldForm]
  | cons bits rest =>
      have present : byte context offset (bits :: rest) = .ok (bits, 1) := by
        apply (reads_byte context _ _ _ _).mpr
        simp [FieldForm]
      have own : consumed ≤ (bits :: rest).length ∧ ((bits :: rest).take consumed).length = 1 ↔
          consumed = 1 := by
        simp
        omega
      simp only [usedBits, present, Bind.bind, Except.bind, FieldForm, ← and_assoc, own]
      by_cases exact : consumed = 1
      · subst exact
        have zero : bits.toNat = 0 ↔ bits = 0 := UInt8.toNat_inj (b := 0)
        have small : bits.toNat ≤ 8 ↔ bits ≤ 8 := (UInt8.le_iff_toNat_le (b := 8)).symm
        simp [Pure.pure, Except.pure, usedBitsOf, zero, small]
        split_ifs with none few
        · simp [none, eq_comm]
        · simp [few, eq_comm]
        · simp [few]
      · simp [Pure.pure, Except.pure, exact]
        split_ifs <;> simp [Ne.symm exact]

theorem reads_words (context : String) (count : Nat) :
    Reads ((word context).times count)
      (FieldForm (2 * count) fun own value => value = words own) := by
  induction count with
  | zero =>
      apply (reads_constant []).congr
      intro own value
      apply and_congr_right
      intro empty
      cases List.length_eq_zero_iff.mp empty
      exact Iff.rfl
  | succ count induction =>
      have reads := (reads_word context).bind fun value => induction.mapField (value :: ·)
      apply reads.congr
      intro own value
      match own with
      | [] => simp [FieldForm]
      | [_] =>
          simp [FieldForm]
          omega
      | low :: high :: rest => simp [FieldForm, words, Nat.mul_add]

theorem reads_discard {reader : Reader α} {width : Nat} {value : List UInt8 → α}
    (reads : Reads reader (FieldForm width fun own answer => answer = value own)) :
    Reads (discard reader) (FieldForm width fun _ _ => True) := by
  apply (reads.mapField fun _ => PUnit.unit).congr
  intro own answer
  simp [FieldForm]

theorem reads_number_after {first : Reader α} {header : Nat} {value : List UInt8 → α}
    (reads : Reads first (FieldForm header fun own answer => answer = value own))
    (context : String) (width : Nat) :
    Reads (do discard first; number context width)
      (FieldForm (header + width) fun own answer => answer = littleEndian (own.drop header)) := by
  have both := (reads_discard reads).bind fun _ => reads_number context width
  apply both.congr
  intro own answer
  simp [FieldForm, ← and_assoc]
  omega

end Reader

end ZxSpectrum.Tzx
