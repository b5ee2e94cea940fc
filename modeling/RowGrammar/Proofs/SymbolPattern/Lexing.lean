import RowGrammar.Proofs.SymbolPattern.References

/-!
# Reading parts of a parse pattern

The lexemes of a text are those of its first part followed by those of its second part, unless the
two parts run into each other.  So a text is read part by part.
-/

namespace RowGrammar.SymbolPattern

open RowGrammar.Text

/-! ## Lexemes of parts -/

/-- Two characters that belong to one lexeme when the second follows the first. -/
def joins (first second : Char) : Bool :=
  (isNameLetter first && isNameLetter second) || (isAsciiDigit first && isAsciiDigit second)

/-- Characters that only separate lexemes. -/
def Blank (chars : List Char) : Prop :=
  ∀ c ∈ chars, isSeparator c

theorem lexemesFrom_blank {blanks : List Char} (blank : Blank blanks) (offset : Nat) :
    lexemesFrom offset blanks = [] := by
  induction blanks generalizing offset with
  | nil => rfl
  | cons c blanks induction =>
      rw [lexemesFrom]
      unfold extend
      rw [if_pos (blank c List.mem_cons_self)]
      exact induction (fun d member => blank d (List.mem_cons_of_mem _ member)) _

/-- What the first character says about a lexeme right at the start of a text. -/
theorem head_of_lexemesFrom {offset : Nat} {chars : List Char} {placed : Placed}
    (first : placed ∈ (lexemesFrom offset chars).head?) (here : placed.offset = offset) :
    ∃ c ∈ chars.head?,
      (∀ letters, placed.lexeme = .name letters → isNameLetter c) ∧
      ∀ digits, placed.lexeme = .number digits → isAsciiDigit c := by
  cases chars with
  | nil => cases first
  | cons c chars =>
      refine ⟨c, rfl, ?_⟩
      have later : ∀ placed ∈ lexemesFrom (offset + 1) chars, offset + 1 ≤ placed.offset :=
        fun placed member => offset_le_of_mem member
      rw [lexemesFrom] at first
      unfold extend at first
      split_ifs at first with separator letter digit
      · have := later placed (List.mem_of_head? first)
        omega
      · split at first
        · split_ifs at first <;> cases first <;> simp [letter]
        · cases first
          simp [letter]
      · split at first
        · split_ifs at first <;> cases first <;> simp [digit]
        · cases first
          simp [digit]
      · cases first
        simp

theorem extend_append {offset : Nat} {c : Char} {first second : List Placed}
    (apart : first = [] → ∀ placed ∈ second.head?, placed.offset = offset + 1 →
      (isNameLetter c → ∀ letters, placed.lexeme ≠ .name letters) ∧
        (isAsciiDigit c → ∀ digits, placed.lexeme ≠ .number digits)) :
    extend offset c (first ++ second) = extend offset c first ++ second := by
  cases first with
  | cons placed first =>
      obtain ⟨next, lexeme⟩ := placed
      unfold extend
      split_ifs
      · rfl
      · cases lexeme with
        | name letters => simp only [List.cons_append]; split_ifs <;> rfl
        | number digits => rfl
        | sign c => rfl
      · cases lexeme with
        | name letters => rfl
        | number digits => simp only [List.cons_append]; split_ifs <;> rfl
        | sign c => rfl
      · rfl
  | nil =>
      cases second with
      | nil => rw [List.append_nil, List.append_nil]
      | cons placed second =>
          obtain ⟨next, lexeme⟩ := placed
          have apart := apart rfl _ rfl
          unfold extend
          simp only [List.nil_append]
          split_ifs with separator letter digit
          · rfl
          · cases lexeme with
            | name letters =>
                dsimp only
                rw [if_neg fun near => (apart near).1 letter letters rfl]
                rfl
            | number digits => rfl
            | sign c => rfl
          · cases lexeme with
            | name letters => rfl
            | number digits =>
                dsimp only
                rw [if_neg fun near => (apart near).2 digit digits rfl]
                rfl
            | sign c => rfl
          · rfl

theorem lexemesFrom_append {first second : List Char}
    (apart : ∀ x ∈ first.getLast?, ∀ y ∈ second.head?, joins x y = false) (offset : Nat) :
    lexemesFrom offset (first ++ second) =
      lexemesFrom offset first ++ lexemesFrom (offset + first.length) second := by
  induction first generalizing offset with
  | nil => rfl
  | cons c first induction =>
      have later : ∀ x ∈ first.getLast?, ∀ y ∈ second.head?, joins x y = false :=
        fun x last => apart x (by rw [List.getLast?_cons, last]; rfl)
      have next : offset + (c :: first).length = offset + 1 + first.length := by
        rw [List.length_cons]
        omega
      rw [List.cons_append, lexemesFrom, induction later, next, lexemesFrom, extend_append]
      intro _ placed head near
      have place := offset_le_of_mem (List.mem_of_head? head)
      obtain rfl : first = [] := List.length_eq_zero_iff.mp (by omega)
      obtain ⟨d, start, name, number⟩ := head_of_lexemesFrom head near
      have separate := apart c rfl d start
      simp only [joins, Bool.or_eq_false_iff, Bool.and_eq_false_iff] at separate
      constructor
      · intro letter letters same
        simp [letter, name letters same] at separate
      · intro digit digits same
        simp [digit, number digits same] at separate

/-- Characters of one kind, each of which joins a lexeme right after it, make up one lexeme. -/
theorem lexemesFrom_run {holds : Char → Bool} {made : List Char → Lexeme}
    (first : ∀ offset c, holds c → extend offset c [] = [⟨offset, made [c]⟩])
    (joined : ∀ offset c run, holds c →
      extend offset c [⟨offset + 1, made run⟩] = [⟨offset, made (c :: run)⟩])
    {run : List Char} (present : run ≠ []) (all : ∀ c ∈ run, holds c) (offset : Nat) :
    lexemesFrom offset run = [⟨offset, made run⟩] := by
  induction run generalizing offset with
  | nil => exact absurd rfl present
  | cons c run induction =>
      have here := all c List.mem_cons_self
      have later : ∀ d ∈ run, holds d := fun d member => all d (List.mem_cons_of_mem _ member)
      cases run with
      | nil => exact first offset c here
      | cons d run =>
          rw [lexemesFrom, induction (List.cons_ne_nil _ _) later]
          exact joined offset c (d :: run) here

theorem lexemesFrom_name {letters : List Char} (present : letters ≠ [])
    (named : ∀ c ∈ letters, isNameLetter c) (offset : Nat) :
    lexemesFrom offset letters = [⟨offset, .name letters⟩] := by
  apply lexemesFrom_run _ _ present named
  · intro offset c letter
    simp [extend, letter, not_isSeparator_of_isNameLetter letter]
  · intro offset c letters letter
    simp [extend, letter, not_isSeparator_of_isNameLetter letter]

theorem not_isSeparator_of_isAsciiDigit {c : Char} (digit : isAsciiDigit c) : ¬isSeparator c := by
  intro separator
  simp only [isSeparator, Bool.or_eq_true, beq_iff_eq] at separator
  rcases separator with (((rfl | rfl) | rfl) | rfl) | rfl <;> exact absurd digit (by decide)

theorem not_isNameLetter_of_isAsciiDigit {c : Char} (digit : isAsciiDigit c) :
    ¬isNameLetter c := by
  simp only [isAsciiDigit, Bool.and_eq_true, decide_eq_true_eq] at digit
  intro letter
  simp only [isNameLetter, isAsciiLetter, Bool.or_eq_true, Bool.and_eq_true, decide_eq_true_eq,
    beq_iff_eq] at letter
  rcases letter with (⟨above, _⟩ | ⟨above, _⟩) | rfl
  · exact absurd (Char.le_trans above digit.2) (by decide)
  · exact absurd (Char.le_trans above digit.2) (by decide)
  · exact absurd digit.2 (by decide)

theorem lexemesFrom_number {digits : List Char} (present : digits ≠ [])
    (decimal : ∀ c ∈ digits, isAsciiDigit c) (offset : Nat) :
    lexemesFrom offset digits = [⟨offset, .number digits⟩] := by
  apply lexemesFrom_run _ _ present decimal
  · intro offset c digit
    simp [extend, digit, not_isSeparator_of_isAsciiDigit digit,
      not_isNameLetter_of_isAsciiDigit digit]
  · intro offset c digits digit
    simp [extend, digit, not_isSeparator_of_isAsciiDigit digit,
      not_isNameLetter_of_isAsciiDigit digit]

theorem lexemesFrom_sign {c : Char} (sign : !isSeparator c && !isNameLetter c && !isAsciiDigit c)
    (chars : List Char) (offset : Nat) :
    lexemesFrom offset (c :: chars) = ⟨offset, .sign c⟩ :: lexemesFrom (offset + 1) chars := by
  simp only [Bool.and_eq_true, Bool.not_eq_true'] at sign
  obtain ⟨⟨separator, letter⟩, digit⟩ := sign
  rw [lexemesFrom]
  unfold extend
  simp [separator, letter, digit]

/-! ## Readings of parts -/

section

variable (registry : Registry) (nodeType : String)

/-- Reading a text that starts at `offset` leads from one reading to another. -/
def Reads (offset : Nat) (text : List Char) (reading next : Reading) : Prop :=
  (lexemesFrom offset text).foldlM (readLexeme registry nodeType) reading = .ok next

variable {registry nodeType} {offset : Nat} {reading middle next : Reading}

theorem Reads.blank {blanks : List Char} (blank : Blank blanks) :
    Reads registry nodeType offset blanks reading reading := by
  rw [Reads, lexemesFrom_blank blank]
  rfl

theorem Reads.append {text more : List Char}
    (first : Reads registry nodeType offset text reading middle)
    (second : Reads registry nodeType (offset + text.length) more middle next)
    (apart : ∀ x ∈ text.getLast?, ∀ y ∈ more.head?, joins x y = false) :
    Reads registry nodeType offset (text ++ more) reading next := by
  rw [Reads, lexemesFrom_append apart, List.foldlM_append, first]
  exact second

theorem Reads.name {letters : List Char} (present : letters ≠ [])
    (named : ∀ c ∈ letters, isNameLetter c)
    (step : readLexeme registry nodeType reading ⟨offset, .name letters⟩ = .ok next) :
    Reads registry nodeType offset letters reading next := by
  rw [Reads, lexemesFrom_name present named, List.foldlM_cons, step]
  rfl

theorem Reads.number {digits : List Char} (present : digits ≠ [])
    (decimal : ∀ c ∈ digits, isAsciiDigit c)
    (step : readLexeme registry nodeType reading ⟨offset, .number digits⟩ = .ok next) :
    Reads registry nodeType offset digits reading next := by
  rw [Reads, lexemesFrom_number present decimal, List.foldlM_cons, step]
  rfl

theorem Reads.sign {c : Char} {chars : List Char}
    (step : readLexeme registry nodeType reading ⟨offset, .sign c⟩ = .ok middle)
    (rest : Reads registry nodeType (offset + 1) chars middle next)
    (sign : !isSeparator c && !isNameLetter c && !isAsciiDigit c) :
    Reads registry nodeType offset (c :: chars) reading next := by
  rw [Reads, lexemesFrom_sign sign, List.foldlM_cons, step]
  exact rest

end

end RowGrammar.SymbolPattern
