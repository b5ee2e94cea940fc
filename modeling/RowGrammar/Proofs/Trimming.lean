import Mathlib.Data.List.DropRight
import RowGrammar.Grammar.Row
import RowGrammar.Proofs.Digits

/-!
# Trimmed texts

A text that is trimmed stays as it is when it is trimmed again, and trimming leaves nothing of blank
texts only.  Numbers are written without blank characters, and different ones differently.
-/

namespace RowGrammar

namespace Text

theorem trimChars_eq (chars : List Char) :
    trimChars chars = (chars.dropWhile isBlank).rdropWhile isBlank := rfl

theorem dropWhile_trimChars (chars : List Char) :
    (trimChars chars).dropWhile isBlank = trimChars chars := by
  rw [List.dropWhile_eq_self_iff]
  intro filled blank
  have front : trimChars chars <+: chars.dropWhile isBlank := List.rdropWhile_prefix _ _
  have nonempty := Nat.lt_of_lt_of_le filled front.length_le
  have head := List.dropWhile_get_zero_not _ chars nonempty
  rw [front.getElem filled] at blank
  exact head blank

theorem trimChars_trimChars (chars : List Char) :
    trimChars (trimChars chars) = trimChars chars := by
  rw [trimChars_eq (trimChars chars), dropWhile_trimChars, trimChars_eq,
    List.rdropWhile_idempotent]

@[simp]
theorem trim_trim (text : String) : trim (trim text) = trim text := by
  simp [trim, trimChars_trimChars]

/-- What is trimmed off a text are blank characters at its ends. -/
theorem exists_trimmed (text : String) : ∃ before after,
    text.toList = before ++ ((trim text).toList ++ after) ∧ (∀ c ∈ before, isBlank c) ∧
      ∀ c ∈ after, isBlank c := by
  refine ⟨text.toList.takeWhile isBlank, (text.toList.dropWhile isBlank).rtakeWhile isBlank,
    ?_, fun c => List.mem_takeWhile_imp, fun c => List.mem_rtakeWhile_imp⟩
  rw [trim, String.toList_ofList, trimChars_eq, List.rdropWhile_append_rtakeWhile,
    List.takeWhile_append_dropWhile]

/-- Nothing is trimmed off a text without blank characters. -/
theorem trim_eq_self {text : String} (filled : ∀ c ∈ text.toList, isBlank c = false) :
    trim text = text := by
  have leading : text.toList.dropWhile isBlank = text.toList := by
    rw [List.dropWhile_eq_self_iff]
    intro nonempty
    simp [filled _ (List.getElem_mem nonempty)]
  have trailing : text.toList.rdropWhile isBlank = text.toList := by
    rw [List.rdropWhile_eq_self_iff]
    intro nonempty
    simp [filled _ (List.getLast_mem nonempty)]
  rw [trim, trimChars_eq, leading, trailing, String.ofList_toList]

/-- A text that is left blank by trimming was blank. -/
theorem isBlankText_trim (text : String) : isBlankText (trim text) = isBlankText text := by
  rw [Bool.eq_iff_iff, isBlankText, isBlankText, List.all_eq_true, List.all_eq_true, trim,
    String.toList_ofList]
  constructor
  · intro blank c member
    have nothing : trimChars text.toList = [] := by
      rw [← dropWhile_trimChars, List.dropWhile_eq_nil_iff]
      exact blank
    rw [trimChars_eq, List.rdropWhile_eq_nil_iff] at nothing
    rw [← List.takeWhile_append_dropWhile (p := isBlank) (l := text.toList)] at member
    rcases List.mem_append.mp member with taken | left
    · exact List.mem_takeWhile_imp taken
    · exact nothing c left
  · intro blank c member
    have inside := (List.rdropWhile_prefix _ _).mem member
    exact blank c ((List.dropWhile_suffix _).mem inside)

/-- Numbers are written without blank characters. -/
theorem trim_decimal (value : Nat) : trim (decimal value) = decimal value := by
  have digits : ∀ digit < 10, isBlank (hexDigit digit) = false := by decide
  refine trim_eq_self fun c member => ?_
  rw [decimal, String.toList_ofList] at member
  obtain ⟨digit, small, rfl⟩ := exists_of_mem_digitsIn (by decide) member
  exact digits digit small

theorem decimal_ne_empty (value : Nat) : decimal value ≠ "" := by
  intro empty
  have chars := congrArg String.toList empty
  rw [decimal, String.toList_ofList] at chars
  exact digitsIn_ne_nil value chars

/-- The decimal form of a number denotes the number. -/
theorem decimalValue_decimal (value : Nat) : decimalValue (decimal value).toList = value := by
  rw [decimal, String.toList_ofList, decimalValue_digitsIn]

theorem decimal_inj {left right : Nat} : decimal left = decimal right ↔ left = right := by
  constructor
  · intro same
    rw [← decimalValue_decimal left, same, decimalValue_decimal]
  · rintro rfl
    rfl

end Text

namespace Row

theorem trimmed_trimmed (row : Row) : row.trimmed.trimmed = row.trimmed := by
  simp [trimmed]

theorem isBlank_trimmed (row : Row) : row.trimmed.isBlank = row.isBlank := by
  simp [trimmed, isBlank, Text.isBlankText_trim]

end Row

end RowGrammar
