import Mathlib.Data.Option.Basic
import RowGrammar.Proofs.Trimming
import RowGrammar.Tree.Simplify

/-!
# Spellings of strings and numbers

A character of a JSON string may stand for itself, or be written with a short escape, as a code
unit or as two code units.  Whichever way its characters are written, a text between quotes
simplifies to the string, and the digits of a number to the number.
-/

namespace RowGrammar.Json

open RowGrammar.Text RowGrammar.Simplify

/-- The letters after a backslash and the characters that they denote. -/
def shortEscapes : List (Char × Char) := [
  ('"', '"'), ('\\', '\\'), ('/', '/'), ('b', '\x08'), ('f', '\x0C'), ('n', '\n'), ('r', '\r'),
  ('t', '\t')]

/-- Four hexadecimal digits of either case, and the code unit that they denote. -/
def UnitSpelling (unit : Nat) (digits : List Char) : Prop :=
  digits.length = 4 ∧ hexadecimalValue? digits = some unit

/-- A character as it may be written in a string. -/
inductive CharSpelling (c : Char) : List Char → Prop where
  | plain : 32 ≤ c.toNat → c ≠ '"' → c ≠ '\\' → CharSpelling c [c]
  | short {letter : Char} : (letter, c) ∈ shortEscapes → CharSpelling c ['\\', letter]
  | unit {digits : List Char} :
      UnitSpelling c.toNat digits → CharSpelling c ('\\' :: 'u' :: digits)
  /-- Two surrogates, for a character that does not fit into one code unit. -/
  | pair {high low : List Char} : 0x10000 ≤ c.toNat →
      UnitSpelling (0xD800 + (c.toNat - 0x10000) / 0x400) high →
      UnitSpelling (0xDC00 + (c.toNat - 0x10000) % 0x400) low →
      CharSpelling c ('\\' :: 'u' :: (high ++ '\\' :: 'u' :: low))

/-- The characters of a string as they may be written between the quotes. -/
inductive TextSpelling : List Char → List Char → Prop where
  | nil : TextSpelling [] []
  | cons {c : Char} {chars piece body : List Char} :
      CharSpelling c piece → TextSpelling chars body → TextSpelling (c :: chars) (piece ++ body)

/-- A string as it may be written. -/
def StringSpelling (text : String) (spelling : List Char) : Prop :=
  ∃ body, TextSpelling text.toList body ∧ spelling = '"' :: (body ++ ['"'])

/-- An integer as it may be written, if it has 64 bits; zero may have a sign. -/
inductive IntegerSpelling (value : Int) : List Char → Prop where
  | plain : -(Nat.pow 2 63) ≤ value → value < Nat.pow 2 63 →
      IntegerSpelling value (integerText value).toList
  | minusZero : value = 0 → IntegerSpelling value ['-', '0']

/-! ## Characters -/

theorem hexadecimalValue?_isSome_foldlM {digits : List Char} {start value : Nat}
    (reads : digits.foldlM (fun value digit => (hexValue? digit).map (value * 16 + ·)) start =
      some value) : ∀ digit ∈ digits, (hexValue? digit).isSome := by
  induction digits generalizing start with
  | nil => nofun
  | cons digit digits induction =>
      rw [List.foldlM_cons] at reads
      obtain ⟨next, read, reads⟩ := Option.bind_eq_some_iff.mp reads
      obtain ⟨_, known, _⟩ := Option.map_eq_some_iff.mp read
      exact List.forall_mem_cons.mpr ⟨by rw [known]; rfl, induction reads⟩

/-- Digits are neither quotes nor backslashes. -/
theorem UnitSpelling.plain {unit : Nat} {digits : List Char} (spelling : UnitSpelling unit digits) :
    ∀ digit ∈ digits, digit ≠ '"' ∧ digit ≠ '\\' := by
  intro digit member
  have known := hexadecimalValue?_isSome_foldlM spelling.2 digit member
  constructor
  · rintro rfl
    cases known
  · rintro rfl
    cases known

theorem UnitSpelling.codeUnit?_eq {unit : Nat} {digits : List Char}
    (spelling : UnitSpelling unit digits) (rest : List Char) :
    codeUnit? (digits ++ rest) = some (unit, rest) := by
  obtain ⟨four, reads⟩ := spelling
  have taken : (digits ++ rest).take 4 = digits := by rw [← four, List.take_left]
  have left : (digits ++ rest).drop 4 = rest := by rw [← four, List.drop_left]
  simp [codeUnit?, taken, left, four, reads]

/-- A code point is no surrogate. -/
theorem not_surrogate (c : Char) : ¬(0xD800 ≤ c.toNat ∧ c.toNat < 0xDC00) := by
  rintro ⟨above, below⟩
  have valid : c.toNat < 0xD800 ∨ (0xDFFF < c.toNat ∧ c.toNat < 0x110000) := c.valid
  omega

theorem UnitSpelling.escape?_eq {c : Char} {digits : List Char}
    (spelling : UnitSpelling c.toNat digits) (rest : List Char) :
    escape? ('u' :: (digits ++ rest)) = some (c, rest) := by
  rw [escape?, unicodeEscape?, spelling.codeUnit?_eq]
  simp [not_surrogate c, charOf?_toNat]

/-- Two surrogates are read as the character that they make. -/
theorem escape?_surrogates {c : Char} {high low : Nat} {first second : List Char}
    (isHigh : 0xD800 ≤ high ∧ high < 0xDC00) (isLow : 0xDC00 ≤ low ∧ low < 0xE000)
    (make : charOf? (0x10000 + (high - 0xD800) * 0x400 + (low - 0xDC00)) = some c)
    (before : UnitSpelling high first) (after : UnitSpelling low second) (rest : List Char) :
    escape? ('u' :: (first ++ '\\' :: 'u' :: (second ++ rest))) = some (c, rest) := by
  rw [escape?, unicodeEscape?, before.codeUnit?_eq, Option.bind_eq_bind, Option.bind_some]
  simp only [if_pos isHigh, after.codeUnit?_eq, Option.bind_eq_bind, Option.bind_some, guard,
    if_pos isLow, make]
  rfl

theorem escape?_pair {c : Char} {high low : List Char} (large : 0x10000 ≤ c.toNat)
    (first : UnitSpelling (0xD800 + (c.toNat - 0x10000) / 0x400) high)
    (second : UnitSpelling (0xDC00 + (c.toNat - 0x10000) % 0x400) low) (rest : List Char) :
    escape? ('u' :: (high ++ '\\' :: 'u' :: (low ++ rest))) = some (c, rest) := by
  have valid : c.toNat < 0xD800 ∨ (0xDFFF < c.toNat ∧ c.toNat < 0x110000) := c.valid
  have joined : 0x10000 + (0xD800 + (c.toNat - 0x10000) / 0x400 - 0xD800) * 0x400 +
      (0xDC00 + (c.toNat - 0x10000) % 0x400 - 0xDC00) = c.toNat := by omega
  exact escape?_surrogates (by omega) (by omega) (by rw [joined, charOf?_toNat]) first second rest

/-- The next character of a string is read, however it is written. -/
theorem CharSpelling.stringRest?_eq {c : Char} {piece : List Char} (spelling : CharSpelling c piece)
    (fuel : Nat) (rest : List Char) :
    stringRest? (fuel + 1) (piece ++ rest) =
      (stringRest? fuel rest).map fun (text, rest) => (c :: text, rest) := by
  have escaped {escape : List Char} (reads : escape? escape = some (c, rest)) :
      stringRest? (fuel + 1) ('\\' :: escape) =
        (stringRest? fuel rest).map fun (text, rest) => (c :: text, rest) := by
    rw [stringRest?, if_neg (by decide), if_pos rfl, reads]
    simp only [Option.bind_eq_bind, Option.bind_some]
    cases stringRest? fuel rest <;> rfl
  cases spelling with
  | plain inked unquoted unescaped =>
      rw [List.singleton_append, stringRest?, if_neg unquoted, if_neg unescaped,
        if_neg (Nat.not_lt.mpr inked)]
      cases stringRest? fuel rest <;> rfl
  | @short letter member =>
      refine escaped ?_
      simp only [shortEscapes, List.mem_cons, Prod.mk.injEq, List.not_mem_nil, or_false] at member
      rcases member with ⟨rfl, rfl⟩ | ⟨rfl, rfl⟩ | ⟨rfl, rfl⟩ | ⟨rfl, rfl⟩ | ⟨rfl, rfl⟩ |
        ⟨rfl, rfl⟩ | ⟨rfl, rfl⟩ | ⟨rfl, rfl⟩ <;> rfl
  | unit spelling => exact escaped (spelling.escape?_eq rest)
  | pair large first second =>
      rw [List.cons_append, List.cons_append, List.append_assoc]
      exact escaped (escape?_pair large first second rest)

theorem CharSpelling.length_pos {c : Char} {piece : List Char} (spelling : CharSpelling c piece) :
    0 < piece.length := by
  cases spelling <;> exact Nat.succ_pos _

/-! ## Strings -/

theorem TextSpelling.stringRest?_eq {chars body : List Char} (spelling : TextSpelling chars body)
    {fuel : Nat} (enough : body.length < fuel) (rest : List Char) :
    stringRest? fuel (body ++ '"' :: rest) = some (chars, rest) := by
  induction spelling generalizing fuel with
  | nil =>
      obtain ⟨fuel, rfl⟩ := Nat.exists_eq_succ_of_ne_zero (Nat.ne_zero_of_lt enough)
      rfl
  | cons char _ induction =>
      obtain ⟨fuel, rfl⟩ := Nat.exists_eq_succ_of_ne_zero (Nat.ne_zero_of_lt enough)
      have filled := char.length_pos
      rw [List.length_append] at enough
      rw [List.append_assoc, char.stringRest?_eq, induction (by omega)]
      rfl

theorem StringSpelling.read?_eq {text : String} {spelling : List Char}
    (spells : StringSpelling text spelling) :
    read? (String.ofList spelling) = some (.string text) := by
  obtain ⟨body, spells, rfl⟩ := spells
  have first : ('"' :: (body ++ ['"'])).dropWhile isSpace = '"' :: (body ++ ['"']) := rfl
  have enough : body.length < (body ++ ['"']).length + 1 := by
    rw [List.length_append]
    exact Nat.lt_succ_of_le (Nat.le_add_right _ _)
  have string : string? (body ++ ['"']) = some (text, []) := by
    rw [string?, spells.stringRest?_eq enough, Option.map_some]
    exact congrArg (fun text => some (text, [])) String.ofList_toList
  have value (fuel depth : Nat) :
      value? (fuel + 1) depth ('"' :: (body ++ ['"'])) = some (.string text, []) := by
    simp only [value?, first, string, Option.map_some]
  rw [read?, String.toList_ofList, value]
  rfl

/-- Nothing is trimmed off a text between quotes. -/
theorem trim_quoted (body : List Char) :
    trim (String.ofList ('"' :: (body ++ ['"']))) = String.ofList ('"' :: (body ++ ['"'])) := by
  have leading : ('"' :: (body ++ ['"'])).dropWhile isBlank = '"' :: (body ++ ['"']) :=
    List.dropWhile_cons_of_neg (by decide)
  have trailing : ('"' :: (body ++ ['"'])).rdropWhile isBlank = '"' :: (body ++ ['"']) := by
    rw [← List.cons_append, List.rdropWhile_concat_neg _ _ _ (by decide)]
  rw [trim, trimChars_eq, String.toList_ofList, leading, trailing]

/-- A string is what any spelling of it simplifies to. -/
theorem StringSpelling.stringValue_eq {text : String} {spelling : List Char}
    (spells : StringSpelling text spelling) :
    stringValue (String.ofList spelling) = text := by
  have reads := spells.read?_eq
  obtain ⟨body, _, rfl⟩ := spells
  have last : (body ++ ['"']).getLast? = some '"' := List.getLast?_concat
  rw [stringValue, trim_quoted, String.toList_ofList, between?, if_pos last, reads]

/-! ## Numbers -/

theorem isBlank_eq_false_of_isAsciiDigit {c : Char} (digit : isAsciiDigit c = true) :
    isBlank c = false := by
  have inked : ((List.range' 48 10).map Char.ofNat).all (fun c => !isBlank c) = true :=
    rfl
  simpa using List.all_eq_true.mp inked c (mem_of_isAsciiDigit digit)

/-- An integer is written with digits, which denote it up to its sign. -/
theorem IntegerSpelling.exists_digits {value : Int} {spelling : List Char}
    (spells : IntegerSpelling value spelling) :
    (-(Nat.pow 2 63) ≤ value ∧ value < Nat.pow 2 63) ∧ ∃ digits : List Char, digits ≠ [] ∧
      (∀ digit ∈ digits, isAsciiDigit digit = true) ∧
      ((spelling = digits ∧ value = decimalValue digits) ∨
        (spelling = '-' :: digits ∧ value = -decimalValue digits)) := by
  cases spells with
  | plain above below =>
      refine ⟨⟨above, below⟩, digitsIn 10 value.natAbs, digitsIn_ne_nil _,
        fun _ => isAsciiDigit_of_mem_digitsIn, ?_⟩
      rw [integerText, decimalValue_digitsIn]
      split
      · refine .inr ⟨?_, by omega⟩
        simp [decimal]
      · exact .inl ⟨by rw [decimal, String.toList_ofList], by omega⟩
  | minusZero zero =>
      subst zero
      exact ⟨by decide, ['0'], by decide, List.forall_mem_singleton.mpr rfl,
        .inr ⟨rfl, by decide⟩⟩

theorem splitSign_digits {digits : List Char} (filled : digits ≠ [])
    (are : ∀ digit ∈ digits, isAsciiDigit digit = true) : splitSign digits = (false, digits) := by
  obtain ⟨first, rest, rfl⟩ := List.exists_cons_of_ne_nil filled
  have digit := are first List.mem_cons_self
  unfold splitSign
  split
  · cases (List.cons.inj ‹_›).1 ▸ digit
  · cases (List.cons.inj ‹_›).1 ▸ digit
  · rfl

/-- Digits with or without a sign are read as what they denote. -/
theorem readInteger?_eq {text digits : List Char} {negative : Bool}
    (split : splitSign text = (negative, digits)) (filled : digits ≠ [])
    (are : ∀ digit ∈ digits, isAsciiDigit digit = true) {value : Int}
    (denotes : value = if negative then -(decimalValue digits : Int) else decimalValue digits)
    (bounds : -(Nat.pow 2 63) ≤ value ∧ value < Nat.pow 2 63) :
    readInteger? text = some value := by
  have nonempty : digits.isEmpty = false := List.isEmpty_eq_false_iff.mpr filled
  have all : digits.all isAsciiDigit = true := List.all_eq_true.mpr are
  rw [readInteger?, split]
  simp only [nonempty, all, ← denotes]
  exact if_pos bounds

/-- An integer is what any spelling of it simplifies to. -/
theorem IntegerSpelling.numberValue_eq {value : Int} {spelling : List Char}
    (spells : IntegerSpelling value spelling) :
    numberValue (String.ofList spelling) = .integer value := by
  obtain ⟨bounds, digits, filled, are, spells⟩ := spells.exists_digits
  have inked : ∀ c ∈ digits, isBlank c = false :=
    fun c member => isBlank_eq_false_of_isAsciiDigit (are c member)
  have trimmed {chars : List Char} (inked : ∀ c ∈ chars, isBlank c = false) :
      trimChars chars = chars := by
    have same : trim (String.ofList chars) = String.ofList chars := trim_eq_self (by simpa)
    simpa [trim] using congrArg String.toList same
  rcases spells with ⟨rfl, denotes⟩ | ⟨rfl, denotes⟩
  · have reads := readInteger?_eq (splitSign_digits filled are) filled are denotes bounds
    rw [numberValue, String.toList_ofList, trimmed inked, reads]
  · have split : splitSign ('-' :: digits) = (true, digits) := rfl
    have reads := readInteger?_eq split filled are denotes bounds
    rw [numberValue, String.toList_ofList,
      trimmed (List.forall_mem_cons.mpr ⟨rfl, inked⟩), reads]

end RowGrammar.Json
