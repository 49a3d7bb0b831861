import Mathlib
import ZxSpectrum.Keyboard

namespace ZxSpectrum.Keyboard

/-! What a scan of the keyboard sees. Current enters at the selected half-rows and runs along every
wire that pressed keys join to them, so that a column is seen exactly if it can be reached. -/

/-! Bytes as sets of half-rows and of columns. -/

def Has (set : UInt8) (member : Nat) : Prop :=
  set.toBitVec.getLsbD member = true

instance (set : UInt8) (member : Nat) : Decidable (Has set member) :=
  inferInstanceAs (Decidable (_ = true))

theorem Has.lt {set : UInt8} {member : Nat} (has : Has set member) : member < 8 :=
  BitVec.lt_of_getLsbD has

theorem eq_of_has {set other : UInt8} (same : ∀ member < 8, Has set member ↔ Has other member) :
    set = other := by
  apply UInt8.eq_of_toBitVec_eq
  apply BitVec.eq_of_getLsbD_eq
  intro member within
  exact Bool.eq_iff_iff.mpr (same member within)

theorem not_has_zero (member : Nat) : ¬Has 0 member := by
  simp [Has]

theorem has_or {set other : UInt8} {member : Nat} :
    Has (set ||| other) member ↔ Has set member ∨ Has other member := by
  simp [Has]

theorem has_and {set other : UInt8} {member : Nat} :
    Has (set &&& other) member ↔ Has set member ∧ Has other member := by
  simp [Has]

theorem has_not {set : UInt8} {member : Nat} (within : member < 8) :
    Has (~~~set) member ↔ ¬Has set member := by
  simp [Has, within]

theorem has_bit : ∀ index < 8, ∀ member < 8, Has (bit index) member ↔ index = member := by
  decide

theorem ne_zero_iff {set : UInt8} : set ≠ 0 ↔ ∃ member, Has set member := by
  constructor
  · intro some
    by_contra none
    rw [not_exists] at none
    apply some
    apply eq_of_has
    intro member _
    exact iff_of_false (none member) (not_has_zero member)
  · rintro ⟨member, has⟩ rfl
    exact not_has_zero member has

theorem and_bit_ne_zero_iff {set : UInt8} {index : Nat} (within : index < 8) :
    set &&& bit index ≠ 0 ↔ Has set index := by
  rw [ne_zero_iff]
  constructor
  · rintro ⟨member, both⟩
    rcases has_and.mp both with ⟨has, single⟩
    rwa [(has_bit index within member has.lt).mp single]
  · intro has
    exact ⟨index, has_and.mpr ⟨has, (has_bit index within index within).mpr rfl⟩⟩

theorem has_foldl {ι : Type} (chosen : ι → Prop) [DecidablePred chosen] (part : ι → UInt8)
    (items : List ι) (start : UInt8) (member : Nat) :
    Has (items.foldl (fun set item => if chosen item then set ||| part item else set) start)
        member ↔ Has start member ∨ ∃ item ∈ items, chosen item ∧ Has (part item) member := by
  induction items generalizing start with
  | nil => simp
  | cons item items induction =>
      rw [List.foldl_cons, induction, List.exists_mem_cons_iff]
      split_ifs with selected
      · rw [has_or, or_assoc]
        simp [selected]
      · simp [selected]

/-! Keys and wires. Each half-row and each column is a wire, and a pressed key joins two of them. -/

def Pressed (keyboard : Keyboard) (row : Fin 8) (column : Nat) : Prop :=
  Has (keyboard.rows.get row) column

theorem has_columns {keyboard : Keyboard} {rows : UInt8} {column : Nat} :
    Has (keyboard.columns rows) column ↔
      ∃ row : Fin 8, Has rows row ∧ keyboard.Pressed row column := by
  rw [columns, has_foldl (fun row : Fin 8 => rows &&& bit row ≠ 0) (keyboard.rows[·])]
  simp [not_has_zero, and_bit_ne_zero_iff, Pressed, Vector.get_eq_getElem]

theorem has_spread {keyboard : Keyboard} {rows : UInt8} (row : Fin 8) :
    Has (keyboard.spread rows) row ↔ Has rows row ∨
      ∃ column, Has (keyboard.columns rows) column ∧ keyboard.Pressed row column := by
  rw [spread, has_foldl (fun row : Fin 8 => keyboard.rows[row] &&& keyboard.columns rows ≠ 0)
    (fun row : Fin 8 => bit row)]
  apply or_congr_right
  constructor
  · rintro ⟨other, -, meets, single⟩
    rcases ne_zero_iff.mp meets with ⟨column, both⟩
    rcases has_and.mp both with ⟨pressed, has⟩
    have same : other = row := Fin.ext ((has_bit other other.isLt row row.isLt).mp single)
    exact ⟨column, has, same ▸ pressed⟩
  · rintro ⟨column, has, pressed⟩
    refine ⟨row, List.mem_finRange row, ne_zero_iff.mpr ⟨column, has_and.mpr ⟨pressed, has⟩⟩, ?_⟩
    exact (has_bit row row.isLt row row.isLt).mpr rfl

inductive Wire
  | row (index : Fin 8)
  | column (index : Fin 5)

inductive Joins (pressed : Fin 8 → Fin 5 → Prop) : Wire → Wire → Prop
  | toColumn {row : Fin 8} {column : Fin 5} : pressed row column →
    Joins pressed (.row row) (.column column)
  | toRow {row : Fin 8} {column : Fin 5} : pressed row column →
    Joins pressed (.column column) (.row row)

/-- A path along pressed keys, which alternates between half-rows and columns. -/
def Connected (pressed : Fin 8 → Fin 5 → Prop) : Wire → Wire → Prop :=
  Relation.ReflTransGen (Joins pressed)

theorem Connected.mono {pressed more : Fin 8 → Fin 5 → Prop}
    (pressed_more : ∀ row column, pressed row column → more row column) {wire other : Wire}
    (path : Connected pressed wire other) : Connected more wire other := by
  have joins : ∀ wire other, Joins pressed wire other → Joins more wire other := by
    rintro _ _ (press | press)
    · exact .toColumn (pressed_more _ _ press)
    · exact .toRow (pressed_more _ _ press)
  exact Relation.ReflTransGen.mono joins _ _ path

def InMatrix (keyboard : Keyboard) : Prop :=
  ∀ row column, keyboard.Pressed row column → column < 5

/-! The scan, round by round. -/

/-- A scan goes on with the half-rows that current has reached, until these are all. Then it
answers with their columns. -/
inductive Scans (keyboard : Keyboard) : (rows answer : UInt8) → Prop
  | settled {rows : UInt8} : keyboard.spread rows = rows →
    Scans keyboard rows (~~~keyboard.columns rows &&& 0x1F ||| 0xE0)
  | again {rows answer : UInt8} : keyboard.spread rows ≠ rows →
    Scans keyboard (keyboard.spread rows) answer → Scans keyboard rows answer

theorem has_spread_of_has {keyboard : Keyboard} {rows : UInt8} {row : Nat} (has : Has rows row) :
    Has (keyboard.spread rows) row :=
  (has_spread ⟨row, has.lt⟩).mpr (.inl has)

/-! Half-rows are counted. A round of the scan adds one of the eight, or nothing changes any more,
so that eight rounds are enough. -/

def members (rows : UInt8) : Finset (Fin 8) :=
  {row : Fin 8 | Has rows row}

theorem members_subset_spread (keyboard : Keyboard) (rows : UInt8) :
    members rows ⊆ members (keyboard.spread rows) := by
  intro row member
  rw [members, Finset.mem_filter_univ] at member ⊢
  exact has_spread_of_has member

theorem eq_of_members_eq {rows others : UInt8} (same : members rows = members others) :
    rows = others := by
  apply eq_of_has
  intro row within
  have alike := Finset.ext_iff.mp same ⟨row, within⟩
  rwa [members, members, Finset.mem_filter_univ, Finset.mem_filter_univ] at alike

theorem card_members_lt {keyboard : Keyboard} {rows : UInt8} (grows : keyboard.spread rows ≠ rows) :
    (members rows).card < (members (keyboard.spread rows)).card := by
  apply Finset.card_lt_card
  apply (members_subset_spread keyboard rows).ssubset_of_ne
  intro same
  exact grows (eq_of_members_eq same).symm

theorem settled_or_le_card (keyboard : Keyboard) (rows : UInt8) (rounds : Nat) :
    keyboard.spread (Nat.repeat keyboard.spread rounds rows) =
        Nat.repeat keyboard.spread rounds rows ∨
      rounds ≤ (members (Nat.repeat keyboard.spread rounds rows)).card := by
  induction rounds with
  | zero => exact .inr (Nat.zero_le _)
  | succ rounds induction =>
      let before := Nat.repeat keyboard.spread rounds rows
      change keyboard.spread (keyboard.spread before) = keyboard.spread before ∨
        rounds + 1 ≤ (members (keyboard.spread before)).card
      by_cases settled : keyboard.spread before = before
      · exact .inl (congrArg keyboard.spread settled)
      · rcases induction with same | many
        · exact absurd same settled
        · exact .inr (Nat.lt_of_le_of_lt many (card_members_lt settled))

theorem spread_reached (keyboard : Keyboard) (rows : UInt8) :
    keyboard.spread (keyboard.reached rows) = keyboard.reached rows := by
  rcases settled_or_le_card keyboard rows 8 with settled | all
  · exact settled
  · by_contra grows
    have most := Finset.card_le_univ (members (keyboard.spread (keyboard.reached rows)))
    have more := card_members_lt grows
    rw [Fintype.card_fin] at most
    exact absurd (Nat.lt_of_le_of_lt all more) (Nat.not_lt.mpr most)

theorem repeat_spread_succ (keyboard : Keyboard) (rows : UInt8) (rounds : Nat) :
    Nat.repeat keyboard.spread (rounds + 1) rows =
      Nat.repeat keyboard.spread rounds (keyboard.spread rows) := by
  induction rounds with
  | zero => rfl
  | succ rounds induction => exact congrArg keyboard.spread induction

theorem repeat_spread_of_settled {keyboard : Keyboard} {rows : UInt8}
    (settled : keyboard.spread rows = rows) (rounds : Nat) :
    Nat.repeat keyboard.spread rounds rows = rows := by
  induction rounds with
  | zero => rfl
  | succ rounds induction => rw [Nat.repeat, induction, settled]

theorem scans_repeat {keyboard : Keyboard} {rounds : Nat} {rows : UInt8}
    (settles : keyboard.spread (Nat.repeat keyboard.spread rounds rows) =
      Nat.repeat keyboard.spread rounds rows) :
    keyboard.Scans rows
      (~~~keyboard.columns (Nat.repeat keyboard.spread rounds rows) &&& 0x1F ||| 0xE0) := by
  induction rounds generalizing rows with
  | zero => exact .settled settles
  | succ rounds induction =>
      by_cases settled : keyboard.spread rows = rows
      · rw [repeat_spread_of_settled settled]
        exact .settled settled
      · rw [repeat_spread_succ] at settles ⊢
        exact .again settled (induction settles)

theorem Scans.unique {keyboard : Keyboard} {rows answer other : UInt8}
    (scans : keyboard.Scans rows answer) (scansOther : keyboard.Scans rows other) :
    other = answer := by
  induction scans with
  | settled settled =>
      cases scansOther with
      | settled _ => rfl
      | again grows _ => exact absurd settled grows
  | again grows _ induction =>
      cases scansOther with
      | settled settled => exact absurd settled grows
      | again _ scansOther => exact induction scansOther

theorem scans_iff {keyboard : Keyboard} {high answer : UInt8} :
    keyboard.Scans (~~~high) answer ↔ answer = keyboard.read high := by
  have ends : keyboard.Scans (~~~high) (keyboard.read high) :=
    scans_repeat (spread_reached keyboard (~~~high))
  constructor
  · exact ends.unique
  · rintro rfl
    exact ends

/-! What is reached is what is connected. -/

def keys (keyboard : Keyboard) (row : Fin 8) (column : Fin 5) : Prop :=
  keyboard.Pressed row column

theorem connected_of_reached {keyboard : Keyboard} (matrix : keyboard.InMatrix) {rows : UInt8}
    {rounds : Nat} {row : Fin 8} (has : Has (Nat.repeat keyboard.spread rounds rows) row) :
    ∃ selected : Fin 8, Has rows selected ∧
      Connected keyboard.keys (.row selected) (.row row) := by
  induction rounds generalizing row with
  | zero => exact ⟨row, has, .refl⟩
  | succ rounds induction =>
      rcases (has_spread row).mp has with before | ⟨column, carries, pressed⟩
      · exact induction before
      · rcases has_columns.mp carries with ⟨middle, before, enters⟩
        rcases induction before with ⟨selected, start, path⟩
        let wire : Fin 5 := ⟨column, matrix row column pressed⟩
        have toColumn : Joins keyboard.keys (.row middle) (.column wire) := .toColumn enters
        have toRow : Joins keyboard.keys (.column wire) (.row row) := .toRow pressed
        exact ⟨selected, start, (path.tail toColumn).tail toRow⟩

/-- The wires that belong to a set of half-rows. -/
def Carries (keyboard : Keyboard) (rows : UInt8) : Wire → Prop
  | .row row => Has rows row
  | .column column => Has (keyboard.columns rows) column

theorem carries_of_connected {keyboard : Keyboard} {rows : UInt8}
    (settled : keyboard.spread rows = rows) {wire other : Wire}
    (path : Connected keyboard.keys wire other) (start : keyboard.Carries rows wire) :
    keyboard.Carries rows other := by
  induction path with
  | refl => exact start
  | tail _ join carries =>
      rcases join with press | press
      · exact has_columns.mpr ⟨_, carries, press⟩
      · have entered := (has_spread _).mpr (.inr ⟨_, carries, press⟩)
        exact settled ▸ entered

theorem has_reached_of_has (keyboard : Keyboard) {rows : UInt8} {row : Nat} (has : Has rows row)
    (rounds : Nat) : Has (Nat.repeat keyboard.spread rounds rows) row := by
  induction rounds with
  | zero => exact has
  | succ rounds induction => exact has_spread_of_has induction

/-- A pressed key of a column lies in a half-row that is connected to a selected one. -/
def Sees (pressed : Fin 8 → Fin 5 → Prop) (high : UInt8) (column : Fin 5) : Prop :=
  ∃ selected row : Fin 8, ¬Has high selected ∧
    Connected pressed (.row selected) (.row row) ∧ pressed row column

theorem has_columns_reached {keyboard : Keyboard} (matrix : keyboard.InMatrix) {high : UInt8}
    {column : Fin 5} :
    Has (keyboard.columns (keyboard.reached (~~~high))) column ↔
      Sees keyboard.keys high column := by
  constructor
  · intro has
    rcases has_columns.mp has with ⟨row, reached, pressed⟩
    rcases connected_of_reached matrix reached with ⟨selected, start, path⟩
    exact ⟨selected, row, (has_not selected.isLt).mp start, path, pressed⟩
  · rintro ⟨selected, row, start, path, pressed⟩
    have entered := has_reached_of_has keyboard ((has_not selected.isLt).mpr start) 8
    have reached := carries_of_connected (spread_reached keyboard (~~~high)) path entered
    exact has_columns.mpr ⟨row, reached, pressed⟩

theorem Sees.mono {pressed more : Fin 8 → Fin 5 → Prop}
    (pressed_more : ∀ row column, pressed row column → more row column) {high : UInt8}
    {column : Fin 5} (sees : Sees pressed high column) : Sees more high column := by
  rcases sees with ⟨selected, row, start, path, press⟩
  exact ⟨selected, row, start, path.mono pressed_more, pressed_more row column press⟩

theorem sees_and {pressed : Fin 8 → Fin 5 → Prop} {high other : UInt8} {column : Fin 5} :
    Sees pressed (high &&& other) column ↔
      Sees pressed high column ∨ Sees pressed other column := by
  constructor
  · rintro ⟨selected, row, start, path, press⟩
    rw [has_and, not_and_or] at start
    exact start.imp (⟨selected, row, ·, path, press⟩) (⟨selected, row, ·, path, press⟩)
  · rintro (⟨selected, row, start, path, press⟩ | ⟨selected, row, start, path, press⟩)
    · exact ⟨selected, row, fun both => start (has_and.mp both).1, path, press⟩
    · exact ⟨selected, row, fun both => start (has_and.mp both).2, path, press⟩

/-! The byte that is read. -/

theorem has_read_of_le (keyboard : Keyboard) (high : UInt8) {bit : Nat} (upper : 5 ≤ bit)
    (within : bit < 8) : Has (keyboard.read high) bit := by
  have set : ∀ bit < 8, 5 ≤ bit → Has 0xE0 bit := by decide
  exact has_or.mpr (.inr (set bit within upper))

theorem has_read {keyboard : Keyboard} (matrix : keyboard.InMatrix) {high : UInt8}
    (column : Fin 5) : Has (keyboard.read high) column ↔ ¬Sees keyboard.keys high column := by
  have masks : ∀ column : Fin 5, Has 0x1F column ∧ ¬Has 0xE0 column := by decide
  rw [read, has_or, has_and, has_not (Nat.lt_trans column.isLt (by decide)),
    has_columns_reached matrix]
  simp [masks column]

theorem read_and {keyboard : Keyboard} (matrix : keyboard.InMatrix) (high other : UInt8) :
    keyboard.read (high &&& other) = keyboard.read high &&& keyboard.read other := by
  apply eq_of_has
  intro bit within
  rw [has_and]
  rcases Nat.lt_or_ge bit 5 with lower | upper
  · have column (high : UInt8) : Has (keyboard.read high) bit ↔
        ¬Sees keyboard.keys high ⟨bit, lower⟩ := has_read matrix ⟨bit, lower⟩
    rw [column, column, column, sees_and, not_or]
  · simp [has_read_of_le keyboard _ upper within]

/-! Keys that are pressed and released. -/

structure KeyChange where
  row : Nat
  column : Nat
  pressed : Bool

def change (keyboard : Keyboard) (change : KeyChange) : Keyboard :=
  keyboard.setKey change.row change.column change.pressed

def changeAll (keyboard : Keyboard) (changes : List KeyChange) : Keyboard :=
  changes.foldl change keyboard

/-- The last change of a key has pressed it. -/
def Down (changes : List KeyChange) (row : Fin 8) (column : Fin 5) : Prop :=
  (changes.filter fun change : KeyChange =>
    change.row = row.val ∧ change.column = column.val).getLast?.map KeyChange.pressed = some true

instance (changes : List KeyChange) (row : Fin 8) (column : Fin 5) :
    Decidable (Down changes row column) :=
  inferInstanceAs (Decidable (_ = _))

theorem has_set_bit {keys : UInt8} {column other : Nat} (within : column < 8) (pressed : Bool) :
    Has (if pressed then keys ||| bit column else keys &&& ~~~bit column) other ↔
      if column = other then pressed = true else Has keys other := by
  rcases Nat.lt_or_ge other 8 with inside | outside
  · cases pressed
    · rw [if_neg Bool.false_ne_true, has_and, has_not inside, has_bit column within other inside]
      split_ifs with same <;> simp [same]
    · rw [if_pos rfl, has_or, has_bit column within other inside]
      split_ifs with same <;> simp [same]
  · have nowhere (set : UInt8) : ¬Has set other := fun has => Nat.not_lt.mpr outside has.lt
    rw [if_neg fun same : column = other => Nat.not_lt.mpr outside (same ▸ within)]
    exact iff_of_false (nowhere _) (nowhere _)

theorem pressed_setKey {keyboard : Keyboard} {row column : Nat} {pressed : Bool} {other : Fin 8}
    {bit : Nat} : (keyboard.setKey row column pressed).Pressed other bit ↔
      if row = other.val ∧ column = bit ∧ column < 5 then pressed = true
      else keyboard.Pressed other bit := by
  by_cases inMatrix : row < 8 ∧ column < 5
  · rw [setKey, dif_pos inMatrix, Pressed, Vector.get_eq_getElem]
    rcases eq_or_ne row other.val with rfl | different
    · rw [Vector.getElem_set_self, has_set_bit (Nat.lt_trans inMatrix.2 (by decide))]
      simp only [inMatrix.2, and_true, true_and]
      rfl
    · rw [Vector.getElem_set_ne _ _ different, if_neg fun key => different key.1]
      rfl
  · have outside : ¬(row = other.val ∧ column = bit ∧ column < 5) :=
      fun key => inMatrix ⟨key.1 ▸ other.isLt, key.2.2⟩
    rw [setKey, dif_neg inMatrix, if_neg outside]

theorem InMatrix.setKey {keyboard : Keyboard} (matrix : keyboard.InMatrix) (row column : Nat)
    (pressed : Bool) : (keyboard.setKey row column pressed).InMatrix := by
  intro other bit press
  rw [pressed_setKey] at press
  split_ifs at press with key
  · exact key.2.1 ▸ key.2.2
  · exact matrix other bit press

theorem has_read_of_press {keyboard : Keyboard} (matrix : keyboard.InMatrix) {row column : Nat}
    {high : UInt8} {bit : Nat} (has : Has ((keyboard.setKey row column true).read high) bit) :
    Has (keyboard.read high) bit := by
  rcases Nat.lt_or_ge bit 5 with lower | upper
  · have unseen := (has_read (matrix.setKey row column true) ⟨bit, lower⟩).mp has
    refine (has_read matrix ⟨bit, lower⟩).mpr fun sees => unseen (sees.mono ?_)
    intro other wire press
    refine pressed_setKey.mpr ?_
    split_ifs
    · rfl
    · exact press
  · exact has_read_of_le keyboard high upper has.lt

theorem down_concat {changes : List KeyChange} {change : KeyChange} {row : Fin 8}
    {column : Fin 5} : Down (changes ++ [change]) row column ↔
      if change.row = row.val ∧ change.column = column.val then change.pressed = true
      else Down changes row column := by
  unfold Down
  rw [List.filter_append]
  split_ifs with same <;> simp [same]

theorem pressed_changeAll {changes : List KeyChange} {row : Fin 8} {column : Nat} :
    (changeAll {} changes).Pressed row column ↔
      ∃ inMatrix : column < 5, Down changes row ⟨column, inMatrix⟩ := by
  induction changes using List.reverseRecOn with
  | nil =>
      have released : ¬(changeAll {} []).Pressed row column := by
        simp [changeAll, Pressed, not_has_zero]
      simp [released, Down]
  | append_singleton changes latest induction =>
      rw [changeAll, List.foldl_concat, change, pressed_setKey, ← changeAll, induction]
      simp only [down_concat]
      by_cases inMatrix : column < 5
      · have same : (latest.row = row.val ∧ latest.column = column ∧ latest.column < 5) ↔
            latest.row = row.val ∧ latest.column = column := by omega
        simp [same, inMatrix]
      · have other : ¬(latest.row = row.val ∧ latest.column = column ∧ latest.column < 5) := by
          omega
        simp [other, inMatrix]

theorem keys_changeAll (changes : List KeyChange) : (changeAll {} changes).keys = Down changes := by
  funext row column
  exact propext (pressed_changeAll.trans (exists_prop_of_true column.isLt))

theorem inMatrix_changeAll (changes : List KeyChange) : (changeAll {} changes).InMatrix :=
  fun _ _ pressed => (pressed_changeAll.mp pressed).1

/-- After any changes of keys, a scan ends with a byte whose clear bits are the columns that it
sees. Selecting the half-rows of two bytes reads what both of them read, and another pressed key
sets no bit. -/
theorem read_changeAll (changes : List KeyChange) (high : UInt8) :
    let keyboard := changeAll {} changes
    (∀ answer, keyboard.Scans (~~~high) answer ↔ answer = keyboard.read high) ∧
      (∀ bit, 5 ≤ bit → bit < 8 → Has (keyboard.read high) bit) ∧
      (∀ column : Fin 5, ¬Has (keyboard.read high) column ↔ Sees (Down changes) high column) ∧
      (∀ other, keyboard.read (high &&& other) = keyboard.read high &&& keyboard.read other) ∧
      ∀ row column bit, Has ((keyboard.change ⟨row, column, true⟩).read high) bit →
        Has (keyboard.read high) bit := by
  intro keyboard
  have matrix : keyboard.InMatrix := inMatrix_changeAll changes
  refine ⟨fun _ => scans_iff, fun _ => has_read_of_le keyboard high, ?_, read_and matrix high,
    fun _ _ _ => has_read_of_press matrix⟩
  intro column
  rw [has_read matrix, not_not]
  exact iff_of_eq (congrArg (Sees · high column) (keys_changeAll changes))

/-- Three keys at the corners of a rectangle look like four: whoever selects the second half-row
sees the key of the first one too, and no key of the last column, also with another key pressed. -/
theorem read_changeAll_threeCorners :
    let changes : List KeyChange := [⟨0, 0, true⟩, ⟨0, 1, true⟩, ⟨1, 0, true⟩]
    let keyboard := changeAll {} changes
    Sees (Down changes) 0xFD 1 ∧ ¬Has (keyboard.read 0xFD) 1 ∧ Has (keyboard.read 0xFD) 7 ∧
      Has ((keyboard.change ⟨1, 3, true⟩).read 0xFD) 4 ∧ Has (keyboard.read 0xFD) 4 := by
  intro changes keyboard
  rcases read_changeAll changes 0xFD with ⟨-, upper, clear, -, kept⟩
  have entered : Joins (Down changes) (.row 1) (.column 0) := .toColumn (by decide)
  have back : Joins (Down changes) (.column 0) (.row 0) := .toRow (by decide)
  have path : Connected (Down changes) (.row 1) (.row 0) :=
    (Relation.ReflTransGen.single entered).tail back
  have sees : Sees (Down changes) 0xFD 1 := ⟨1, 0, by decide, path, by decide⟩
  have unseen : Has ((keyboard.change ⟨1, 3, true⟩).read 0xFD) 4 := by decide +kernel
  exact ⟨sees, (clear 1).mpr sees, upper 7 (by decide) (by decide), unseen, kept 1 3 4 unseen⟩

end ZxSpectrum.Keyboard
