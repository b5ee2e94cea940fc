import RowGrammar.Proofs.Regex.Lexing
import RowGrammar.Proofs.TokenPattern.Markup

/-!
# Lexemes as pieces

What the reader of patterns takes for one lexeme is a piece of the pattern as the scan for words
sees it, with one exception: the reader finds the end of a bracket class in a way of its own.
-/

namespace RowGrammar.Regex

open RowGrammar.Text RowGrammar.TokenPattern

/-! ## Escape sequences -/

section

variable {chars rest : List Char}

theorem HexStep.markup {flags : Flags} {letter c : Char} (takes : argumentWidth letter ≠ 0)
    (step : HexStep flags (argumentWidth letter) chars c rest) :
    ∃ text, letter :: chars = text ++ rest ∧ Markup ('\\' :: text) := by
  cases step with
  | @braced digits _ _ apart _ =>
      exact ⟨letter :: '{' :: (digits ++ ['}']), by simp, .escape (.braced takes apart)⟩
  | @fixed digits _ _ full unbraced _ _ =>
      exact ⟨letter :: digits, rfl, .escape (.fixed full unbraced)⟩

theorem NameStep.markup {letter : Char} (takes : argumentWidth letter = 1) {name : List Char}
    (step : NameStep chars name rest) :
    ∃ text, letter :: chars = text ++ rest ∧ Markup ('\\' :: text) := by
  cases step with
  | braced apart =>
      have filled : argumentWidth letter ≠ 0 := takes ▸ Nat.one_ne_zero
      exact ⟨letter :: '{' :: (name ++ ['}']), by simp, .escape (.braced filled apart)⟩
  | @single c _ unbraced _ =>
      exact ⟨[letter, c], rfl, .escape (.fixed takes.symm (by simpa using unbraced))⟩

theorem markup_of_letter {letter : Char} (fixed : argumentWidth letter = 0) :
    ∃ text, letter :: rest = text ++ rest ∧ Markup ('\\' :: text) :=
  ⟨[letter], rfl, .escape (.fixed fixed.symm (by simp))⟩

theorem argumentWidth_of_isEscapable {c : Char} (escapable : isEscapable c) :
    argumentWidth c = 0 := by
  have other {d : Char} (letter : isEscapable d = false) : c ≠ d := by
    rintro rfl
    rw [escapable] at letter
    cases letter
  simp [argumentWidth, other (show isEscapable 'x' = false by decide),
    other (show isEscapable 'u' = false by decide), other (show isEscapable 'U' = false by decide),
    other (show isEscapable 'p' = false by decide), other (show isEscapable 'P' = false by decide)]

theorem BoundaryStep.markup {condition : Assertion} (step : BoundaryStep chars condition rest) :
    ∃ text, 'b' :: chars = text ++ rest ∧ Markup ('\\' :: text) := by
  cases step with
  | @named first name _ _ _ apart _ =>
      exact ⟨'b' :: '{' :: (first :: name ++ ['}']), by simp, .boundary apart⟩
  | counted _ => exact markup_of_letter rfl
  | plain _ => exact markup_of_letter rfl

section

variable {flags : Flags} (unspaced : flags.spaced = false)

include unspaced

theorem markup_of_hexEscape? {letter : Char} (takes : argumentWidth letter ≠ 0)
    {primitive : Primitive} (read : ((hexEscape? flags (argumentWidth letter) chars).map
      fun (c, rest) => (Primitive.literal c, rest)) = some (primitive, rest)) :
    ∃ text, letter :: chars = text ++ rest ∧ Markup ('\\' :: text) := by
  obtain ⟨_, hex, same⟩ := Option.map_eq_some_iff.mp read
  cases same
  exact ((hexEscape?_eq_some_iff unspaced).mp hex).markup takes

theorem markup_of_propertyEscape? {letter : Char} (takes : argumentWidth letter = 1)
    {negated : Bool} {primitive : Primitive}
    (read : ((propertyEscape? flags negated chars).map
      fun (set, rest) => (Primitive.set set, rest)) = some (primitive, rest)) :
    ∃ text, letter :: chars = text ++ rest ∧ Markup ('\\' :: text) := by
  obtain ⟨_, property, same⟩ := Option.map_eq_some_iff.mp read
  cases same
  obtain ⟨_, _, step, _⟩ := (propertyEscape?_eq_some_iff unspaced).mp property
  exact step.markup takes

/-- An escape sequence that is read is an escape sequence for the scan. -/
theorem escape?_takes {primitive : Primitive}
    (read : escape? flags chars = some (primitive, rest)) :
    ∃ text, chars = text ++ rest ∧ Markup ('\\' :: text) := by
  have named {letter : Char} (fixed : argumentWidth letter = 0) {negated : Bool}
      {set ascii : CharSet} {after : List Char}
      (read : classEscape? flags negated set ascii after = some (primitive, rest)) :
      ∃ text, letter :: after = text ++ rest ∧ Markup ('\\' :: text) := by
    obtain ⟨_, _, same⟩ := Option.map_eq_some_iff.mp read
    cases same
    exact markup_of_letter fixed
  unfold escape? at read
  split at read
  case h_1 => cases read
  case h_2 => exact markup_of_hexEscape? unspaced (by decide) read
  case h_3 => exact markup_of_hexEscape? unspaced (by decide) read
  case h_4 => exact markup_of_hexEscape? unspaced (by decide) read
  case h_5 => exact markup_of_propertyEscape? unspaced rfl read
  case h_6 => exact markup_of_propertyEscape? unspaced rfl read
  case h_7 => exact named rfl read
  case h_8 => exact named rfl read
  case h_9 => exact named rfl read
  case h_10 => exact named rfl read
  case h_11 => exact named rfl read
  case h_12 => exact named rfl read
  case h_21 =>
    obtain ⟨_, boundary, same⟩ := Option.map_eq_some_iff.mp read
    cases same
    exact ((boundaryEscape?_eq_some_iff unspaced).mp boundary).markup
  case h_25 =>
    split at read
    · rename_i escapable
      cases read
      exact markup_of_letter (argumentWidth_of_isEscapable escapable)
    · cases read
  all_goals
    cases read
    exact markup_of_letter rfl

end

end

/-! ## Bracket classes -/

section

variable {flags : Flags} (unspaced : flags.spaced = false) {chars rest : List Char}

theorem namedClassBody?_suffix {negated : Bool} {named : Bool × CharSet}
    (read : namedClassBody? negated chars = some (named, rest)) : rest <:+ chars := by
  unfold namedClassBody? at read
  split at read
  · rename_i found
    simp only [Option.bind_eq_bind, Option.bind_eq_some_iff, Option.pure_def, Option.some.injEq,
      Prod.mk.injEq] at read
    obtain ⟨_, _, _, rfl⟩ := read
    have after : ':' :: ']' :: _ <:+ chars := found ▸ List.dropWhile_suffix _
    exact ((List.suffix_cons _ _).trans (List.suffix_cons _ _)).trans after
  · cases read

theorem namedClass?_suffix {named : Bool × CharSet}
    (read : namedClass? chars = some (named, rest)) : rest <:+ chars := by
  cases chars with
  | nil => cases read
  | cons c tail =>
      by_cases colon : c = ':'
      · subst colon
        refine List.IsSuffix.trans ?_ (List.suffix_cons _ _)
        by_cases negated : ∃ name, tail = '^' :: name
        · obtain ⟨name, rfl⟩ := negated
          exact (@namedClassBody?_suffix _ _ true _ read).trans (List.suffix_cons _ _)
        · rw [namedClass?_plain fun name same => negated ⟨name, same⟩] at read
          exact namedClassBody?_suffix read
      · unfold namedClass? at read
        split at read
        · rename_i same
          exact absurd (List.cons.inj same).1 colon
        · cases read

include unspaced

theorem escape?_suffix {primitive : Primitive}
    (read : escape? flags chars = some (primitive, rest)) : rest <:+ chars := by
  obtain ⟨text, rfl, _⟩ := escape?_takes unspaced read
  exact List.suffix_append text rest

theorem classMember?_suffix {primitive : Primitive}
    (read : classMember? flags chars = some (primitive, rest)) : rest <:+ chars := by
  obtain ⟨_, ⟨after, rfl, escaped⟩ | ⟨_, _, rfl, _⟩⟩ := classMember?_eq_some_iff.mp read
  · exact (escape?_suffix unspaced escaped).trans (List.suffix_cons _ _)
  · exact List.suffix_cons _ _

theorem classRange?_suffix {set : CharSet} (read : classRange? flags chars = some (set, rest)) :
    rest <:+ chars := by
  obtain ⟨first, after, member, step⟩ := classRange?_eq_some_iff.mp read
  rw [skip_eq_self unspaced] at step
  refine List.IsSuffix.trans ?_ (classMember?_suffix unspaced member)
  cases step with
  | single _ _ => exact List.suffix_refl _
  | range _ _ upper _ =>
      rw [skip_eq_self unspaced] at upper
      exact (classMember?_suffix unspaced upper).trans (List.suffix_cons _ _)

theorem leadingMembers_suffix : (leadingMembers flags chars).2 <:+ chars := by
  unfold leadingMembers
  split
  · rw [skip_eq_self unspaced]
    exact List.suffix_cons _ _
  · rw [run_eq unspaced]
    exact List.dropWhile_suffix _

theorem MemberStep.suffix {inner : List Char → Option (CharSet × List Char)}
    {operand operand_ : Operand} {members members_ : CharSet} {after : List Char}
    (closes : ∀ chars set rest, inner chars = some (set, rest) → rest <:+ chars)
    (step : MemberStep flags inner operand members chars operand_ members_ after) :
    after <:+ chars := by
  cases step with
  | intersection => exact (List.suffix_cons _ _).trans (List.suffix_cons _ _)
  | difference => exact (List.suffix_cons _ _).trans (List.suffix_cons _ _)
  | symmetricDifference => exact (List.suffix_cons _ _).trans (List.suffix_cons _ _)
  | named named _ => exact (namedClass?_suffix named).trans (List.suffix_cons _ _)
  | nested _ inside => exact (closes _ _ _ inside).trans (List.suffix_cons _ _)
  | range _ _ _ _ _ range => exact classRange?_suffix unspaced range

/-- A bracket class ends in a closing bracket. -/
theorem bracket?_suffix (fuel : Nat) :
    (∀ chars set rest, bracket? flags fuel chars = some (set, rest) → ']' :: rest <:+ chars) ∧
    (∀ operand members chars set rest,
      members? flags fuel operand members chars = some (set, rest) → ']' :: rest <:+ chars) := by
  induction fuel with
  | zero =>
      constructor
      · intro chars set rest read
        simp [bracket?] at read
      · intro operand members chars set rest read
        simp [members?] at read
  | succ fuel induction =>
      obtain ⟨brackets, listed⟩ := induction
      constructor
      · intro chars set rest read
        unfold bracket? at read
        simp only [skip_eq_self unspaced, Option.bind_eq_bind, Option.bind_eq_some_iff] at read
        split at read
        · obtain ⟨_, list, _, _, equality⟩ := read
          cases equality
          exact ((listed _ _ _ _ _ list).trans (leadingMembers_suffix unspaced)).trans
            (List.suffix_cons _ _)
        · obtain ⟨_, list, _, _, equality⟩ := read
          cases equality
          exact (listed _ _ _ _ _ list).trans (leadingMembers_suffix unspaced)
      · intro operand members chars set rest read
        rw [members?_succ_eq_some_iff, skip_eq_self unspaced] at read
        rcases read with ⟨rfl, _⟩ | ⟨operand_, members_, after, step, read⟩
        · exact List.suffix_refl _
        · refine (listed _ _ _ _ _ read).trans (step.suffix unspaced fun _ _ _ inside => ?_)
          exact (List.suffix_cons _ _).trans (brackets _ _ _ inside)

end

/-! ## Repetitions and headers -/

/-- The second text is the first one after a part in which a character does not occur. -/
def Behind (c : Char) (chars rest : List Char) : Prop :=
  ∃ taken, c ∉ taken ∧ chars = taken ++ rest

theorem Behind.trans {c : Char} {chars middle rest : List Char} (first : Behind c chars middle)
    (second : Behind c middle rest) : Behind c chars rest := by
  obtain ⟨taken, apart, rfl⟩ := first
  obtain ⟨more, apart_, rfl⟩ := second
  exact ⟨taken ++ more, by simp [apart, apart_], by simp⟩

theorem behind_dropWhile {c : Char} {holds : Char → Bool} (stops : holds c = false)
    (chars : List Char) : Behind c chars (chars.dropWhile holds) := by
  refine ⟨chars.takeWhile holds, fun member => ?_, List.takeWhile_append_dropWhile.symm⟩
  have held := List.mem_takeWhile_imp member
  rw [stops] at held
  cases held

theorem behind_cons {c first : Char} (other : c ≠ first) (chars : List Char) :
    Behind c (first :: chars) chars :=
  ⟨[first], by simpa using other, rfl⟩

section

variable {flags : Flags} (unspaced : flags.spaced = false) {chars rest : List Char}

include unspaced

theorem count?_behind {count : Nat} (read : count? flags chars = some (count, rest)) :
    Behind '}' chars rest := by
  simp only [count?, run_eq unspaced, skip_eq_self unspaced, Option.bind_eq_bind,
    Option.bind_eq_some_iff, Option.pure_def, Option.some.injEq, Prod.mk.injEq] at read
  obtain ⟨_, _, _, rfl⟩ := read
  exact ((behind_dropWhile (by decide) _).trans (behind_dropWhile (by decide) _)).trans
    (behind_dropWhile (by decide) _)

theorem bounds?_behind {least : Nat} {most : Option Nat}
    (read : bounds? flags chars = some (least, most, rest)) : Behind '}' chars ('}' :: rest) := by
  simp only [bounds?, skip_eq_self unspaced, Option.bind_eq_bind, Option.bind_eq_some_iff] at read
  obtain ⟨⟨lower, after⟩, first, read⟩ := read
  refine (count?_behind unspaced first).trans ?_
  dsimp only at read
  split at read
  · cases read
    exact ⟨[], by simp, rfl⟩
  · refine (behind_cons (by decide) _).trans ?_
    split at read
    · cases read
      exact ⟨[], by simp, rfl⟩
    · obtain ⟨⟨upper, after⟩, second, read⟩ := Option.bind_eq_some_iff.mp read
      dsimp only at read
      split at read
      · obtain ⟨_, _, read⟩ := Option.bind_eq_some_iff.mp read
        cases read
        exact count?_behind unspaced second
      · cases read
  · cases read

end

theorem flagLetters?_takes {chars rest read letters : List Char} {flags inner : Flags}
    (reads : flagLetters? flags read chars = some (inner, letters, rest)) :
    ∃ taken close after, chars = taken ++ rest ∧ rest = close :: after ∧
      (close = ':' ∨ close = ')') ∧
      ∀ c ∈ taken, (isAsciiLetter c ∨ c = '-') ∧ c ≠ 'P' := by
  induction chars generalizing flags read with
  | nil => cases reads
  | cons c chars induction =>
      have further {flags : Flags} {read : List Char}
          (flag : (isAsciiLetter c ∨ c = '-') ∧ c ≠ 'P')
          (reads : flagLetters? flags read chars = some (inner, letters, rest)) :
          ∃ taken close after, c :: chars = taken ++ rest ∧ rest = close :: after ∧
            (close = ':' ∨ close = ')') ∧
            ∀ c ∈ taken, (isAsciiLetter c ∨ c = '-') ∧ c ≠ 'P' := by
        obtain ⟨taken, close, after, split, ends, closes, flags⟩ := induction reads
        exact ⟨c :: taken, close, after, congrArg _ split, ends, closes,
          List.forall_mem_cons.mpr ⟨flag, flags⟩⟩
      unfold flagLetters? at reads
      split at reads
      · rename_i closes
        split at reads
        · cases reads
        · cases reads
          exact ⟨[], c, chars, rfl, rfl, closes, by simp⟩
      · split at reads
        · cases reads
        · split at reads
          · rename_i dash
            subst dash
            exact further (by decide) reads
          · split at reads
            · rename_i known
              refine further ?_ reads
              unfold Flags.set? at known
              split at known
              case h_8 => cases known
              all_goals decide
            · cases reads

theorem groupName?_takes {chars rest : List Char} {lexeme : Lexeme}
    (read : groupName? chars = some (lexeme, rest)) :
    ∃ first name, first ∉ ['<', '=', '!', '>'] ∧ '>' ∉ name ∧
      chars = first :: (name ++ '>' :: rest) := by
  unfold groupName? at read
  dsimp only at read
  split at read
  · rename_i found
    split at read
    · rename_i first name taken
      obtain ⟨_, parts, equality⟩ := Option.bind_eq_some_iff.mp read
      cases equality
      simp only [Option.guard_eq_some', Bool.and_eq_true] at parts
      have inside := not_mem_takeWhile_ne '>' chars
      rw [taken, List.mem_cons, not_or] at inside
      refine ⟨first, name, ?_, inside.2, ?_⟩
      · have none : ['<', '=', '!', '>'].all (!isGroupNamePart true ·) := by decide
        intro member
        simpa [parts.1] using List.all_eq_true.mp none first member
      · rw [split_at_found found, taken]
        rfl
    · cases read
  · cases read

theorem quantifier_takes {flags : Flags} {least : Nat} {most : Option Nat} {chars rest : List Char}
    {lexeme : Lexeme} (read : quantifier flags least most chars = (lexeme, rest)) :
    ∃ mark, (mark = [] ∨ mark = ['?']) ∧ chars = mark ++ rest := by
  unfold quantifier at read
  split at read
  · cases read
    exact ⟨['?'], .inr rfl, rfl⟩
  · cases read
    exact ⟨[], .inl rfl, rfl⟩

/-! ## Lexemes -/

/-- A text that is a piece of its own in front of others that make up what follows it. -/
def Fits (text rest : List Char) : Prop :=
  ∀ pieces, Cut pieces → pieces.flatten = rest → Cut (text :: pieces)

theorem fits_of_markup {text rest : List Char} (markup : Markup text) : Fits text rest :=
  fun _ cut _ => .markup markup cut

theorem fits_of_char {c : Char} {rest : List Char} (plain : c ∉ ['\\', '[', '{', '(']) :
    Fits [c] rest := by
  simp only [List.mem_cons, List.not_mem_nil, or_false, not_or] at plain
  obtain ⟨unescaped, unbracketed, unbraced, unopened⟩ := plain
  exact fun _ cut _ => .plain unescaped unbracketed unbraced (fun same => absurd same unopened) cut

theorem fits_of_groupStart? {flags : Flags} (unspaced : flags.spaced = false)
    {chars rest : List Char} {lexeme : Lexeme}
    (read : groupStart? flags chars = some (lexeme, rest)) :
    ∃ text, '(' :: chars = text ++ rest ∧ Fits text rest := by
  have named {mark chars : List Char} (marks : mark = [] ∨ mark = ['P'])
      (read : groupName? chars = some (lexeme, rest)) :
      ∃ text, '(' :: '?' :: (mark ++ '<' :: chars) = text ++ rest ∧ Fits text rest := by
    obtain ⟨first, name, other, inside, rfl⟩ := groupName?_takes read
    exact ⟨'(' :: '?' :: (mark ++ '<' :: first :: (name ++ ['>'])), by simp,
      fits_of_markup (.name marks other inside)⟩
  have switched {chars letters : List Char} {inner : Flags} {c : Char}
      (flagged : flagLetters? flags [] chars = some (inner, letters, c :: rest)) :
      ∃ text, '(' :: '?' :: chars = text ++ rest ∧ Fits text rest := by
    obtain ⟨taken, close, following, rfl, equality, closes, letters⟩ := flagLetters?_takes flagged
    cases equality
    refine ⟨'(' :: '?' :: (taken ++ [c]), by simp, fits_of_markup (.flags ?_ ?_ closes)⟩
    · exact fun c member => (letters c member).1
    · intro head
      exact (letters 'P' (List.mem_of_head? head)).2 rfl
  rw [groupStart?_eq_some_iff, skip_eq_self unspaced] at read
  cases read with
  | marked read => exact named (.inr rfl) read
  | named _ _ read => exact named (.inl rfl) read
  | flags _ _ flagged _ => exact switched flagged
  | plain _ _ flagged _ => exact switched flagged
  | capturing unasked =>
      refine ⟨['('], rfl, fun pieces cut joined => .plain ?_ ?_ ?_ (fun _ => ?_) cut⟩
      · decide
      · decide
      · decide
      · rw [joined]
        exact head?_ne_of_ne_cons unasked

/-- A lexeme is a piece, unless it is a bracket class. -/
theorem fits_of_lexeme? {flags : Flags} (unspaced : flags.spaced = false)
    {chars rest : List Char} {lexeme : Lexeme} (read : lexeme? flags chars = some (lexeme, rest)) :
    ∃ text, chars = text ++ rest ∧ ((∃ body, text = '[' :: (body ++ [']'])) ∨ Fits text rest) := by
  have single {c : Char} {chars : List Char} (plain : c ∉ ['\\', '[', '{', '('])
      (same : chars = rest) :
      ∃ text, c :: chars = text ++ rest ∧
        ((∃ body, text = '[' :: (body ++ [']'])) ∨ Fits text rest) :=
    ⟨[c], congrArg _ same, .inr (fits_of_char plain)⟩
  have repeated {c : Char} (among : c ∈ ['?', '*', '+']) {chars : List Char} {least : Nat}
      {most : Option Nat} (read : quantifier flags least most chars = (lexeme, rest)) :
      ∃ text, c :: chars = text ++ rest ∧
        ((∃ body, text = '[' :: (body ++ [']'])) ∨ Fits text rest) := by
    obtain ⟨mark, rfl | rfl, rfl⟩ := quantifier_takes read
    · refine single ?_ rfl
      have apart : ['?', '*', '+'].all fun c => !(['\\', '[', '{', '('].contains c) := by
        decide
      simpa using List.all_eq_true.mp apart c among
    · exact ⟨[c, '?'], rfl, .inr (fits_of_markup (.lazy among))⟩
  unfold lexeme? at read
  split at read
  · cases read
  · obtain ⟨text, split, fits⟩ := fits_of_groupStart? unspaced read
    exact ⟨text, split, .inr fits⟩
  · cases read
    exact single (by decide) rfl
  · cases read
    exact single (by decide) rfl
  · obtain ⟨⟨set, after⟩, inside, equality⟩ := Option.map_eq_some_iff.mp read
    cases equality
    obtain ⟨body, rfl⟩ := (bracket?_suffix unspaced _).1 _ _ _ inside
    exact ⟨'[' :: (body ++ [']']), by simp, .inl ⟨body, rfl⟩⟩
  · exact repeated (by decide) (Option.some.inj read)
  · exact repeated (by decide) (Option.some.inj read)
  · exact repeated (by decide) (Option.some.inj read)
  · obtain ⟨⟨least, most, after⟩, counted, equality⟩ := Option.map_eq_some_iff.mp read
    obtain ⟨bounds, inside, rfl⟩ := bounds?_behind unspaced counted
    obtain ⟨mark, lazy, rfl⟩ := quantifier_takes equality
    exact ⟨'{' :: (bounds ++ '}' :: mark), by simp,
      .inr (fits_of_markup (.repetition inside lazy))⟩
  · obtain ⟨_, _, equality⟩ := Option.map_eq_some_iff.mp read
    cases equality
    exact single (by decide) rfl
  · cases read
    exact single (by decide) rfl
  · cases read
    exact single (by decide) rfl
  · obtain ⟨⟨primitive, after⟩, escaped, equality⟩ := Option.map_eq_some_iff.mp read
    obtain ⟨text, rfl, markup⟩ := escape?_takes unspaced escaped
    have same : after = rest := by
      cases primitive with
      | literal c => cases equality; rfl
      | set set => cases equality; rfl
      | assertion condition => cases equality; rfl
    subst same
    exact ⟨'\\' :: text, rfl, .inr (fits_of_markup markup)⟩
  · rename_i unopened _ _ unbracketed _ _ _ unbraced _ _ _ unescaped
    cases read
    refine single ?_ rfl
    simp only [List.mem_cons, List.not_mem_nil, or_false, not_or]
    exact ⟨unescaped, unbracketed, unbraced, unopened⟩

/-- The texts of the lexemes from a place of a pattern to its end, none of them inside layout. -/
inductive Spans : Place → List (List Char) → Prop where
  | done {flags : Flags} {outer : List Flags} : Spans ⟨flags, outer, []⟩ []
  | next {flags inner : Flags} {outer around : List Flags} {text rest : List Char}
      {lexeme : Lexeme} {texts : List (List Char)} :
      lexeme? flags (text ++ rest) = some (lexeme, rest) →
      enter? flags outer lexeme = some (inner, around) →
      Spans ⟨inner, around, rest⟩ texts → Spans ⟨flags, outer, text ++ rest⟩ (text :: texts)

/-- The lexemes up to the end of a pattern are its pieces, if the brackets in its bracket classes
are in pairs or escaped. -/
theorem Lexes.exists_spans {place last : Place} {lexemes : List Lexeme}
    (lexes : Lexes place lexemes last) (ends : last.chars = []) :
    ∃ texts, Spans place texts ∧ texts.flatten = place.chars ∧
      ((∀ body, '[' :: (body ++ [']']) ∈ texts → ClassBody body) → Cut texts) := by
  induction lexes with
  | @done place _ =>
      obtain ⟨flags, outer, chars⟩ := place
      cases ends
      exact ⟨[], .done, rfl, fun _ => .nil⟩
  | @next place last lexeme lexemes rest inner around unspaced read enters _ induction =>
      obtain ⟨flags, outer, chars⟩ := place
      obtain ⟨texts, spans, joined, cut⟩ := induction ends
      obtain ⟨text, rfl, kind⟩ := fits_of_lexeme? unspaced read
      refine ⟨text :: texts, .next read enters spans, congrArg _ joined, fun balanced => ?_⟩
      have pieces := cut fun body member => balanced body (List.mem_cons_of_mem _ member)
      rcases kind with ⟨body, rfl⟩ | fits
      · exact .markup (.bracket (balanced body List.mem_cons_self)) pieces
      · exact fits texts pieces joined

end RowGrammar.Regex
