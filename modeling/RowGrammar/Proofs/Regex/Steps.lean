import Mathlib.Control.Basic
import Mathlib.Data.Option.Basic
import RowGrammar.Proofs.Prefixes
import RowGrammar.Regex.Lexeme

/-!
# Steps of reading a character pattern

All forms that an escape sequence and the start of a group can have, and all that one step of
reading a bracket class can do.  Where a form is only tried after others, it says that the text has
none of these.
-/

namespace RowGrammar.Regex

open RowGrammar.Text

/-! ## Reading without layout -/

theorem runOf_unspaced (holds : Char → Bool) (chars : List Char) :
    runOf false holds false chars = (chars.takeWhile holds, chars.dropWhile holds) := by
  induction chars with
  | nil => rfl
  | cons c chars induction =>
      cases held : holds c with
      | false => simp [runOf, held]
      | true => simp [runOf, held, induction]

section

variable {flags : Flags} (unspaced : flags.spaced = false)

include unspaced

theorem skip_eq_self (chars : List Char) : flags.skip chars = chars := by
  rw [Flags.skip, unspaced]
  rfl

theorem run_eq (holds : Char → Bool) (chars : List Char) :
    flags.run holds chars = (chars.takeWhile holds, chars.dropWhile holds) := by
  rw [Flags.run, unspaced, runOf_unspaced]

theorem peek_eq_head? (chars : List Char) : flags.peek chars = chars.head? := by
  simp [Flags.peek, unspaced]

theorem braced?_eq_some_iff {chars inside rest : List Char} :
    flags.braced? chars = some (inside, rest) ↔
      '}' ∉ inside ∧ chars = inside ++ '}' :: rest := by
  rw [Flags.braced?, run_eq unspaced]
  constructor
  · intro read
    split at read
    · rename_i parts
      cases read
      obtain ⟨taken, found⟩ := Prod.mk.inj parts
      subst taken
      exact ⟨not_mem_takeWhile_ne _ _, split_at_found found⟩
    · cases read
  · rintro ⟨apart, rfl⟩
    have inner (c : Char) (member : c ∈ inside) : (c != '}') = true :=
      bne_iff_ne.mpr (ne_of_mem_of_not_mem member apart)
    rw [List.takeWhile_append_of_pos inner, List.dropWhile_append_of_pos inner]
    simp

theorem take?_eq_some_iff {count : Nat} {chars taken rest : List Char} :
    flags.take? count chars = some (taken, rest) ↔
      taken.length = count ∧ chars = taken ++ rest := by
  induction count generalizing chars taken rest with
  | zero =>
      rw [Flags.take?, Option.some.injEq, Prod.mk.injEq, List.length_eq_zero_iff]
      constructor
      · rintro ⟨rfl, rfl⟩
        exact ⟨rfl, rfl⟩
      · rintro ⟨rfl, rfl⟩
        exact ⟨rfl, rfl⟩
  | succ count induction =>
      rw [Flags.take?, skip_eq_self unspaced]
      cases chars with
      | nil =>
          cases taken with
          | nil => simp
          | cons c taken => simp
      | cons c chars =>
          simp only [Option.map_eq_some_iff, Prod.mk.injEq, Prod.exists, induction]
          constructor
          · rintro ⟨taken, rest, ⟨rfl, rfl⟩, rfl, rfl⟩
            exact ⟨rfl, rfl⟩
          · rintro ⟨full, same⟩
            cases taken with
            | nil => cases full
            | cons first taken =>
                obtain ⟨rfl, rfl⟩ := List.cons.inj same
                exact ⟨taken, rest, ⟨Nat.succ.inj full, rfl⟩, rfl, rfl⟩

end

/-! ## Escape sequences -/

/-- The character of a hexadecimal escape after its letter, and what follows it. -/
inductive HexStep (flags : Flags) (width : Nat) : List Char → Char → List Char → Prop where
  | braced {digits rest : List Char} {c : Char} :
      '}' ∉ digits → hexadecimal? digits = some c →
      HexStep flags width ('{' :: (digits ++ '}' :: rest)) c rest
  | fixed {digits rest : List Char} {c : Char} :
      digits.length = width → digits.head? ≠ some '{' → hexadecimal? digits = some c →
      (flags.unicode || width != 2 || isAscii c) = true →
      HexStep flags width (digits ++ rest) c rest

/-- The boundary that `\b` stands for with the text after it. -/
inductive BoundaryStep : List Char → Assertion → List Char → Prop where
  | named {first : Char} {name rest : List Char} {condition : Assertion} :
      isBoundaryNamePart first = true → '}' ∉ first :: name →
      boundary? (String.ofList (first :: name)) = some condition →
      BoundaryStep ('{' :: (first :: name ++ '}' :: rest)) condition rest
  | counted {c : Char} {rest : List Char} :
      isBoundaryNamePart c = false →
      BoundaryStep ('{' :: c :: rest) .wordBoundary ('{' :: c :: rest)
  | plain {chars : List Char} :
      (∀ tail, chars ≠ '{' :: tail) → BoundaryStep chars .wordBoundary chars

/-- The name of a property after `\p`, and what follows it. -/
inductive NameStep : List Char → List Char → List Char → Prop where
  | braced {name rest : List Char} :
      '}' ∉ name → NameStep ('{' :: (name ++ '}' :: rest)) name rest
  | single {c : Char} {rest : List Char} :
      c ≠ '{' → c ≠ '\\' → NameStep (c :: rest) [c] rest

theorem hexadecimal?_nil : hexadecimal? [] = none :=
  rfl

section

variable {flags : Flags} (unspaced : flags.spaced = false) {chars rest : List Char}

include unspaced

theorem hexEscape?_eq_some_iff {width : Nat} {c : Char} :
    hexEscape? flags width chars = some (c, rest) ↔ HexStep flags width chars c rest := by
  unfold hexEscape?
  rw [skip_eq_self unspaced]
  constructor
  · intro read
    split at read
    · simp only [Option.bind_eq_bind, Option.bind_eq_some_iff, Option.pure_def,
        Option.some.injEq, Prod.mk.injEq, Prod.exists, braced?_eq_some_iff unspaced] at read
      obtain ⟨digits, _, ⟨apart, rfl⟩, _, denotes, rfl, rfl⟩ := read
      exact .braced apart denotes
    · rename_i unbraced
      simp only [Option.bind_eq_bind, Option.bind_eq_some_iff, Option.pure_def,
        Option.some.injEq, Prod.mk.injEq, Prod.exists, take?_eq_some_iff unspaced,
        Option.guard_eq_some'] at read
      obtain ⟨digits, _, ⟨full, rfl⟩, _, denotes, _, small, rfl, rfl⟩ := read
      refine .fixed full (fun head => ?_) denotes small
      obtain ⟨tail, rfl⟩ := List.head?_eq_some_iff.mp head
      exact unbraced _ rfl
  · intro step
    cases step with
    | braced apart denotes =>
        simp [(braced?_eq_some_iff unspaced).mpr ⟨apart, rfl⟩, denotes]
    | @fixed digits _ _ full open_ denotes small =>
        have taken := (take?_eq_some_iff unspaced).mpr ⟨full, @rfl _ (digits ++ rest)⟩
        split
        · rename_i same
          cases digits with
          | nil =>
              rw [hexadecimal?_nil] at denotes
              cases denotes
          | cons first digits =>
              obtain ⟨rfl, _⟩ := List.cons.inj same
              exact absurd rfl open_
        · simp only [taken, denotes, small, guard_true, Option.bind_eq_bind, Option.bind_some,
            Option.pure_def]

theorem boundaryEscape?_eq_some_iff {condition : Assertion} :
    boundaryEscape? flags chars = some (condition, rest) ↔ BoundaryStep chars condition rest := by
  unfold boundaryEscape?
  constructor
  · intro read
    split at read
    · rw [skip_eq_self unspaced] at read
      split at read
      · cases read
      · rename_i first tail
        split at read
        · rename_i named
          simp only [Option.bind_eq_bind, Option.bind_eq_some_iff, Option.pure_def,
            Option.some.injEq, Prod.mk.injEq, Prod.exists, braced?_eq_some_iff unspaced] at read
          obtain ⟨name, _, ⟨apart, split⟩, _, known, rfl, rfl⟩ := read
          cases name with
          | nil =>
              obtain ⟨rfl, rfl⟩ := List.cons.inj split
              cases named
          | cons c name =>
              obtain ⟨rfl, rfl⟩ := List.cons.inj split
              exact .named named apart known
        · rename_i unnamed
          cases read
          exact .counted (Bool.eq_false_iff.mpr unnamed)
    · rename_i unbraced
      cases read
      exact .plain unbraced
  · intro step
    cases step with
    | @named first name rest _ named apart known =>
        have inside := (braced?_eq_some_iff unspaced).mpr
          ⟨apart, @rfl _ (first :: name ++ '}' :: rest)⟩
        simp only [skip_eq_self unspaced, List.cons_append, named, if_true] at inside ⊢
        simp only [inside, known, Option.bind_eq_bind, Option.bind_some, Option.pure_def]
    | counted unnamed => simp [skip_eq_self unspaced, unnamed]
    | plain unbraced => simp

theorem propertyName?_eq_some_iff {name : List Char} :
    propertyName? flags chars = some (name, rest) ↔ NameStep chars name rest := by
  unfold propertyName?
  rw [skip_eq_self unspaced]
  constructor
  · intro read
    split at read
    · cases read
    · obtain ⟨apart, rfl⟩ := (braced?_eq_some_iff unspaced).mp read
      exact .braced apart
    · rename_i unbraced
      split at read
      · cases read
      · rename_i unescaped
        cases read
        exact .single (fun same => unbraced (by rw [same])) unescaped
  · intro step
    cases step with
    | braced apart => exact (braced?_eq_some_iff unspaced).mpr ⟨apart, rfl⟩
    | single unbraced unescaped => simp [unescaped]

theorem propertyEscape?_eq_some_iff {negated : Bool} {set : CharSet} :
    propertyEscape? flags negated chars = some (set, rest) ↔
      ∃ name property, NameStep chars name rest ∧ Property.read? name = some property ∧
        flags.unicode ∧ flags.negate? negated (flags.widen (.property property)) = some set := by
  simp only [propertyEscape?, Option.bind_eq_bind, Option.bind_eq_some_iff, Prod.exists,
    propertyName?_eq_some_iff unspaced, Option.guard_eq_some']
  constructor
  · rintro ⟨name, _, step, property, known, _, unicode, _, class_, equality⟩
    cases equality
    exact ⟨name, property, step, known, unicode, class_⟩
  · rintro ⟨name, property, step, known, unicode, class_⟩
    exact ⟨name, rest, step, property, known, (), unicode, set, class_, rfl⟩

end

/-! ## Starts of groups -/

/-- The lexeme of the start of a group after its parenthesis, and what follows the start. -/
inductive StartsGroup (flags : Flags) : List Char → Lexeme → List Char → Prop where
  | marked {chars rest : List Char} {lexeme : Lexeme} :
      groupName? chars = some (lexeme, rest) →
      StartsGroup flags ('?' :: 'P' :: '<' :: chars) lexeme rest
  | named {chars rest : List Char} {lexeme : Lexeme} :
      (∀ tail, chars ≠ '=' :: tail) → (∀ tail, chars ≠ '!' :: tail) →
      groupName? chars = some (lexeme, rest) →
      StartsGroup flags ('?' :: '<' :: chars) lexeme rest
  | flags {inner : Flags} {chars letters rest : List Char} :
      (∀ tail, chars ≠ 'P' :: '<' :: tail) → (∀ tail, chars ≠ '<' :: tail) →
      flagLetters? flags [] chars = some (inner, letters, ')' :: rest) → letters ≠ [] →
      StartsGroup flags ('?' :: chars) (.flags inner) rest
  | plain {inner : Flags} {chars letters rest : List Char} {c : Char} :
      (∀ tail, chars ≠ 'P' :: '<' :: tail) → (∀ tail, chars ≠ '<' :: tail) →
      flagLetters? flags [] chars = some (inner, letters, c :: rest) → c ≠ ')' →
      StartsGroup flags ('?' :: chars) (.openPlain inner) rest
  | capturing {chars : List Char} :
      (∀ tail, chars ≠ '?' :: tail) → StartsGroup flags chars (.openCapture none) chars

theorem groupStart?_eq_some_iff {flags : Flags} {chars rest : List Char} {lexeme : Lexeme} :
    groupStart? flags chars = some (lexeme, rest) ↔
      StartsGroup flags (flags.skip chars) lexeme rest := by
  unfold groupStart?
  generalize flags.skip chars = chars
  constructor
  · intro read
    split at read
    · exact .marked read
    · cases read
    · cases read
    · rename_i behind ahead
      exact .named (fun _ same => behind _ (by rw [same])) (fun _ same => ahead _ (by rw [same]))
        read
    · rename_i after marked _ _ named
      obtain ⟨⟨inner, letters, following⟩, flagged, read⟩ := Option.bind_eq_some_iff.mp read
      have unmarked : ∀ tail, after ≠ 'P' :: '<' :: tail :=
        fun tail same => marked tail (by rw [same])
      have unnamed : ∀ tail, after ≠ '<' :: tail := fun tail same => named tail (by rw [same])
      dsimp only at read
      split at read
      · split at read
        · cases read
        · cases read
          exact .flags unmarked unnamed flagged (mt List.isEmpty_iff.mpr ‹_›)
      · rename_i open_
        cases read
        exact .plain unmarked unnamed flagged (fun same => open_ (by rw [same]))
      · cases read
    · rename_i unasked
      cases read
      exact .capturing unasked
  · intro starts
    -- Where forms overlap, what a form excludes is among the hypotheses.
    cases starts with
    | marked named => exact named
    | named ahead notAhead named => simp [named]
    | flags unmarked unnamed flagged present => simp [unnamed, flagged, present]
    | plain unmarked unnamed flagged open_ => simp [unnamed, flagged]
    | capturing unasked => simp [unasked]

/-! ## Ranges in bracket classes -/

theorem classMember?_eq_some_iff {flags : Flags} {chars rest : List Char} {primitive : Primitive} :
    classMember? flags chars = some (primitive, rest) ↔
      primitive.isMember flags ∧
        ((∃ after, chars = '\\' :: after ∧ escape? flags after = some (primitive, rest)) ∨
          ∃ c, c ≠ '\\' ∧ chars = c :: rest ∧ primitive = .literal c) := by
  unfold classMember?
  constructor
  · intro read
    split at read
    · cases read
    · obtain ⟨⟨primitive, after⟩, escaped, read⟩ := Option.bind_eq_some_iff.mp read
      obtain ⟨_, member, equality⟩ := Option.bind_eq_some_iff.mp read
      cases equality
      exact ⟨(Option.guard_eq_some' _).mp member, .inl ⟨_, rfl, escaped⟩⟩
    · rename_i c after unescaped
      obtain ⟨_, literal, read⟩ := Option.bind_eq_some_iff.mp read
      cases literal
      obtain ⟨_, member, equality⟩ := Option.bind_eq_some_iff.mp read
      cases equality
      exact ⟨(Option.guard_eq_some' _).mp member, .inr ⟨c, unescaped, rfl, rfl⟩⟩
  · rintro ⟨member, ⟨after, rfl, escaped⟩ | ⟨c, unescaped, rfl, rfl⟩⟩
    · simp [escaped, member]
    · simp [member]

/-- No range goes on here: there is no dash, or one that ends the class or belongs to an
operation. -/
def Unranged (flags : Flags) (chars : List Char) : Prop :=
  ∃ c tail, chars = c :: tail ∧
    (c = '-' → flags.peek tail = some ']' ∨ flags.peek tail = some '-')

/-- What a member of a bracket class comes to with the text after it. -/
inductive RangeStep (flags : Flags) : Primitive → List Char → CharSet → List Char → Prop where
  | single {first : Primitive} {set : CharSet} {chars : List Char} :
      first.set? = some set → Unranged flags chars → RangeStep flags first chars set chars
  | range {low high : Char} {chars rest : List Char} :
      flags.peek chars ≠ some ']' → flags.peek chars ≠ some '-' →
      classMember? flags (flags.skip chars) = some (.literal high, rest) → low ≤ high →
      RangeStep flags (.literal low) ('-' :: chars) (.range low high) rest

theorem classRange?_eq_some_iff {flags : Flags} {chars rest : List Char} {set : CharSet} :
    classRange? flags chars = some (set, rest) ↔
      ∃ first after, classMember? flags chars = some (first, after) ∧
        RangeStep flags first (flags.skip after) set rest := by
  simp only [classRange?, Option.bind_eq_bind, Option.bind_eq_some_iff]
  constructor
  · rintro ⟨⟨first, after⟩, member, read⟩
    refine ⟨first, after, member, ?_⟩
    clear member
    dsimp only at read
    generalize flags.skip after = after at read
    split at read
    · cases read
    · split at read
      · rename_i ends
        obtain ⟨set, single, read⟩ := Option.bind_eq_some_iff.mp read
        cases read
        exact .single single ⟨_, _, rfl, fun _ => ends⟩
      · rename_i goes
        rw [not_or] at goes
        cases first with
        | set set => cases read
        | assertion condition => cases read
        | literal low =>
            obtain ⟨⟨second, following⟩, upper, read⟩ := Option.bind_eq_some_iff.mp read
            cases second with
            | set set => cases read
            | assertion condition => cases read
            | literal high =>
                simp only [Option.bind_eq_some_iff, Option.guard_eq_some'] at read
                obtain ⟨_, ordered, read⟩ := read
                cases read
                exact .range goes.1 goes.2 upper ordered
    · rename_i present undashed
      obtain ⟨set, single, read⟩ := Option.bind_eq_some_iff.mp read
      cases read
      cases rest with
      | nil => exact (present rfl).elim
      | cons c tail =>
          refine .single single ⟨c, tail, rfl, ?_⟩
          rintro rfl
          exact (undashed _ rfl).elim
  · rintro ⟨first, after, member, step⟩
    refine ⟨(first, after), member, ?_⟩
    dsimp only
    generalize flags.skip after = after at step
    cases step with
    | single single unranged =>
        obtain ⟨c, tail, rfl, ends⟩ := unranged
        by_cases dash : c = '-'
        · subst dash
          simp [ends rfl, single]
        · simp [dash, single]
    | range open_ undashed upper ordered => simp [open_, undashed, upper, ordered]

/-! ## Members of bracket classes -/

/-- A step on the members of a bracket class that does not end it: the operation, its right operand
and the text after the step.  Classes inside are read by `inner`. -/
inductive MemberStep (flags : Flags) (inner : List Char → Option (CharSet × List Char))
    (operand : Operand) (members : CharSet) :
    List Char → Operand → CharSet → List Char → Prop where
  | intersection {rest : List Char} :
      MemberStep flags inner operand members ('&' :: '&' :: rest)
        (.intersection (operand.apply flags members)) .nothing rest
  | difference {rest : List Char} :
      MemberStep flags inner operand members ('-' :: '-' :: rest)
        (.difference (operand.apply flags members)) .nothing rest
  | symmetricDifference {rest : List Char} :
      MemberStep flags inner operand members ('~' :: '~' :: rest)
        (.symmetricDifference (operand.apply flags members)) .nothing rest
  | named {chars rest : List Char} {negated : Bool} {known set : CharSet} :
      namedClass? chars = some ((negated, known), rest) →
      flags.negate? negated (flags.widen known) = some set →
      MemberStep flags inner operand members ('[' :: chars) operand (.union members set) rest
  | nested {chars rest : List Char} {set : CharSet} :
      namedClass? chars = none → inner chars = some (set, rest) →
      MemberStep flags inner operand members ('[' :: chars) operand (.union members set) rest
  | range {chars rest : List Char} {set : CharSet} :
      (∀ tail, chars ≠ ']' :: tail) → (∀ tail, chars ≠ '[' :: tail) →
      (∀ tail, chars ≠ '&' :: '&' :: tail) → (∀ tail, chars ≠ '-' :: '-' :: tail) →
      (∀ tail, chars ≠ '~' :: '~' :: tail) → classRange? flags chars = some (set, rest) →
      MemberStep flags inner operand members chars operand (.union members set) rest

theorem members?_succ_eq_some_iff {flags : Flags} {fuel : Nat} {operand : Operand}
    {members set : CharSet} {chars rest : List Char} :
    members? flags (fuel + 1) operand members chars = some (set, rest) ↔
      (flags.skip chars = ']' :: rest ∧ operand.apply flags members = set) ∨
      ∃ operand_ members_ after,
        MemberStep flags (bracket? flags fuel) operand members (flags.skip chars)
          operand_ members_ after ∧
        members? flags fuel operand_ members_ after = some (set, rest) := by
  rw [members?]
  generalize flags.skip chars = chars
  constructor
  · intro read
    split at read
    · cases read
    · cases read
      exact .inl ⟨rfl, rfl⟩
    · exact .inr ⟨_, _, _, .intersection, read⟩
    · exact .inr ⟨_, _, _, .difference, read⟩
    · exact .inr ⟨_, _, _, .symmetricDifference, read⟩
    · split at read
      · split at read
        · exact .inr ⟨_, _, _, .named ‹_› ‹_›, read⟩
        · cases read
      · split at read
        · exact .inr ⟨_, _, _, .nested ‹_› ‹_›, read⟩
        · cases read
    · rename_i unclosed intersected subtracted symmetric unopened
      split at read
      · exact .inr ⟨_, _, _, .range unclosed unopened intersected subtracted symmetric ‹_›, read⟩
      · cases read
  · rintro (⟨rfl, rfl⟩ | ⟨operand_, members_, after, step, read⟩)
    · rfl
    · cases step with
      | intersection => exact read
      | difference => exact read
      | symmetricDifference => exact read
      | named named closes => simp only [named, closes, read]
      | nested unnamed inner => simp only [unnamed, inner, read]
      | range unclosed unopened intersected subtracted symmetric range =>
          have present : chars ≠ [] := by
            rintro rfl
            simp [classRange?, classMember?] at range
          simp only [range, read]

end RowGrammar.Regex
