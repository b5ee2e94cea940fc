import Mathlib.Data.List.Basic
import Mathlib.Tactic.SplitIfs
import RowGrammar.Text.CharClass
import RowGrammar.Text.Digits

/-!
# Characters

The digits of a number denote the number, in decimal notation and in upper case hexadecimal
notation.  Blank characters and name letters are few, so what holds of all of them can be checked.
-/

namespace RowGrammar.Text

theorem utf8Length_append (chars others : List Char) :
    utf8Length (chars ++ others) = utf8Length chars + utf8Length others := by
  induction chars with
  | nil => exact (Nat.zero_add _).symm
  | cons char chars induction =>
      change char.utf8Size + utf8Length (chars ++ others) =
        char.utf8Size + utf8Length chars + utf8Length others
      rw [induction, Nat.add_assoc]

section

variable {base : Nat}

theorem digitsIn_go_ne_nil (fuel value : Nat) (later : List Char) :
    digitsIn.go base fuel value later ≠ [] := by
  induction fuel generalizing value later with
  | zero => simp [digitsIn.go]
  | succ fuel induction =>
      rw [digitsIn.go]
      split
      · simp
      · exact induction _ _

theorem digitsIn_ne_nil (value : Nat) : digitsIn base value ≠ [] :=
  digitsIn_go_ne_nil value value []

theorem exists_of_mem_digitsIn_go (positive : 0 < base) {fuel value : Nat} {later : List Char}
    {c : Char} (member : c ∈ digitsIn.go base fuel value later) :
    (∃ digit < base, hexDigit digit = c) ∨ c ∈ later := by
  induction fuel generalizing value later with
  | zero =>
      rcases List.mem_cons.mp member with rfl | inside
      · exact .inl ⟨_, Nat.mod_lt _ positive, rfl⟩
      · exact .inr inside
  | succ fuel induction =>
      rw [digitsIn.go] at member
      split at member
      · rcases List.mem_cons.mp member with rfl | inside
        · exact .inl ⟨_, ‹_›, rfl⟩
        · exact .inr inside
      · rcases induction member with digit | inside
        · exact .inl digit
        · rcases List.mem_cons.mp inside with rfl | inside
          · exact .inl ⟨_, Nat.mod_lt _ positive, rfl⟩
          · exact .inr inside

theorem exists_of_mem_digitsIn (positive : 0 < base) {value : Nat} {c : Char}
    (member : c ∈ digitsIn base value) : ∃ digit < base, hexDigit digit = c :=
  (exists_of_mem_digitsIn_go positive member).resolve_right (by simp)

/-- Digits read from the left, by a step that appends one digit, give the number. -/
theorem foldlM_digitsIn_go (several : 1 < base) {read : Nat → Char → Option Nat}
    (reads : ∀ value, ∀ digit < base, read value (hexDigit digit) = some (value * base + digit))
    (fuel value : Nat) (enough : value ≤ fuel) (later : List Char) :
    (digitsIn.go base fuel value later).foldlM read 0 = later.foldlM read value := by
  induction fuel generalizing value later with
  | zero =>
      obtain rfl : value = 0 := by omega
      have zero : read 0 (hexDigit 0) = some 0 := by simpa using reads 0 0 (by omega)
      simp [digitsIn.go, zero]
  | succ fuel induction =>
      rw [digitsIn.go]
      split
      · have first : read 0 (hexDigit value) = some value := by simpa using reads 0 value ‹_›
        simp [first]
      · have smaller : value / base ≤ fuel := by
          have := Nat.div_lt_self (show 0 < value by omega) several
          omega
        rw [induction _ smaller, List.foldlM_cons, reads _ _ (Nat.mod_lt _ (by omega)),
          Nat.div_add_mod']
        rfl

theorem foldlM_digitsIn (several : 1 < base) {read : Nat → Char → Option Nat}
    (reads : ∀ value, ∀ digit < base, read value (hexDigit digit) = some (value * base + digit))
    (value : Nat) : (digitsIn base value).foldlM read 0 = some value :=
  foldlM_digitsIn_go several reads value value (Nat.le_refl _) []

end

theorem isAsciiDigit_of_mem_digitsIn {value : Nat} {c : Char} (member : c ∈ digitsIn 10 value) :
    isAsciiDigit c := by
  have digits : ∀ digit < 10, isAsciiDigit (hexDigit digit) := by decide
  obtain ⟨digit, small, rfl⟩ := exists_of_mem_digitsIn (by decide) member
  exact digits digit small

/-- The decimal digits of a number denote the number. -/
theorem decimalValue_digitsIn (value : Nat) : decimalValue (digitsIn 10 value) = value := by
  have digits : ∀ digit < 10, (hexDigit digit).toNat - 48 = digit := by decide
  have read : (digitsIn 10 value).foldlM (m := Option)
      (fun value digit => pure (value * 10 + (digit.toNat - 48))) 0 = some value := by
    apply foldlM_digitsIn (by decide)
    intro value digit small
    rw [digits digit small]
    rfl
  rw [List.foldlM_pure] at read
  exact Option.some.inj read

/-- The hexadecimal digits of a number, in upper case, denote the number. -/
theorem hexadecimalValue?_digitsIn (value : Nat) :
    hexadecimalValue? ((digitsIn 16 value).map Char.toUpper) = some value := by
  have digits : ∀ digit < 16, hexValue? (hexDigit digit).toUpper = some digit := by decide
  rw [hexadecimalValue?, List.foldlM_map]
  apply foldlM_digitsIn (by decide)
  intro value digit small
  rw [digits digit small]
  rfl

theorem charOf?_toNat (c : Char) : charOf? c.toNat = some c := by
  rw [charOf?, Char.ofNat_toNat]
  exact if_pos c.valid

theorem isAsciiDigit_iff {c : Char} : isAsciiDigit c = true ↔ 48 ≤ c.toNat ∧ c.toNat ≤ 57 := by
  rw [isAsciiDigit, Bool.and_eq_true, decide_eq_true_eq, decide_eq_true_eq]
  exact Iff.rfl

/-- There are ten digits. -/
theorem mem_of_isAsciiDigit {c : Char} (digit : isAsciiDigit c = true) :
    c ∈ (List.range' 48 10).map Char.ofNat := by
  obtain ⟨above, below⟩ := isAsciiDigit_iff.mp digit
  exact List.mem_map.mpr ⟨c.toNat, List.mem_range'_1.mpr ⟨above, by omega⟩, Char.ofNat_toNat c⟩

/-! ## Blank characters -/

theorem exists_range_of_contains {ranges : CodeRanges} {code : Nat}
    (inside : ranges.contains code = true) :
    ∃ range ∈ ranges, range.1 ≤ code ∧ code ≤ range.2 := by
  induction ranges with
  | nil => cases inside
  | cons range ranges induction =>
      rw [CodeRanges.contains] at inside
      split_ifs at inside with before upTo
      · exact ⟨range, List.mem_cons_self, by omega, upTo⟩
      · obtain ⟨other, member, within⟩ := induction inside
        exact ⟨other, .tail _ member, within⟩

/-- What holds of the few blank characters holds of all of them. -/
theorem of_isBlank (holds : Char → Bool) {c : Char} (blank : isBlank c = true)
    (checked : (blankRanges.all fun range =>
      (List.range' range.1 (range.2 + 1 - range.1)).all fun code => holds (Char.ofNat code)) =
        true) : holds c = true := by
  obtain ⟨range, member, above, below⟩ := exists_range_of_contains blank
  have each := List.all_eq_true.mp (List.all_eq_true.mp checked range member) c.toNat
    (List.mem_range'_1.mpr ⟨above, by omega⟩)
  rwa [Char.ofNat_toNat] at each

theorem isDecimalDigit_eq_false_of_isBlank {c : Char} (blank : isBlank c = true) :
    isDecimalDigit c = false := by
  have unlike := of_isBlank (fun c => !isDecimalDigit c) blank (by decide +kernel)
  simpa using unlike

/-! ## Letters -/

theorem toNat_lt_of_isNameLetter {c : Char} (letter : isNameLetter c) : c.toNat < 128 := by
  simp only [isNameLetter, isAsciiLetter, Bool.or_eq_true, Bool.and_eq_true, decide_eq_true_eq,
    beq_iff_eq] at letter
  rcases letter with (⟨_, below⟩ | ⟨_, below⟩) | rfl
  · exact Nat.lt_of_le_of_lt (UInt32.le_iff_toNat_le.mp below) (by decide)
  · exact Nat.lt_of_le_of_lt (UInt32.le_iff_toNat_le.mp below) (by decide)
  · decide

theorem of_isNameLetter (holds : Char → Bool) {c : Char} (letter : isNameLetter c)
    (checked : ∀ code < 128, isNameLetter (Char.ofNat code) → holds (Char.ofNat code)) :
    holds c := by
  have place := checked c.toNat (toNat_lt_of_isNameLetter letter)
  rw [Char.ofNat_toNat] at place
  exact place letter

theorem ne_of_isNameLetter {c other : Char} (letter : isNameLetter c)
    (unlike : isNameLetter other = false) : c ≠ other := by
  rintro rfl
  rw [letter] at unlike
  cases unlike

end RowGrammar.Text
