import Mathlib.Control.Basic
import RowGrammar.Proofs.Regex.Steps

/-!
# Reading before a closing parenthesis

Whatever can be read of a pattern by itself is read in the same way when a closing parenthesis
follows the pattern, unless layout is skipped: then the parenthesis may end up in a comment.
-/

namespace RowGrammar.Regex

open RowGrammar.Text

/-- A reader that succeeds alike when a closing parenthesis follows its input. -/
def Settled {α : Type} (read : List Char → Option (α × List Char)) : Prop :=
  ∀ (chars rest : List Char) (value : α), read chars = some (value, rest) → ∀ more : List Char,
    read (chars ++ ')' :: more) = some (value, rest ++ ')' :: more)

section

variable {holds : Char → Bool} (stops : holds ')' = false) (chars more : List Char)

include stops

theorem dropWhile_append_close :
    (chars ++ ')' :: more).dropWhile holds = chars.dropWhile holds ++ ')' :: more := by
  rw [List.dropWhile_append]
  split
  · rename_i all
    rw [List.isEmpty_iff.mp all, List.dropWhile_cons_of_neg (by simp [stops]), List.nil_append]
  · rfl

theorem takeWhile_append_close :
    (chars ++ ')' :: more).takeWhile holds = chars.takeWhile holds := by
  rw [List.takeWhile_append]
  split
  · rename_i all
    rw [List.takeWhile_cons_of_neg (by simp [stops]), List.append_nil]
    exact ((List.takeWhile_prefix holds).eq_of_length all).symm
  · rfl

end

theorem isBlank_close : isBlank ')' = false := by
  decide

/-- A character that does not start the input does not start it after the parenthesis is added. -/
theorem ne_cons_append_close {chars : List Char} {c : Char} (other : c ≠ ')')
    (apart : ∀ tail, chars ≠ c :: tail) (more tail : List Char) :
    chars ++ ')' :: more ≠ c :: tail := by
  cases chars with
  | nil =>
      intro same
      exact other (List.cons.inj same).1.symm
  | cons first chars =>
      intro same
      have first_eq := (List.cons.inj same).1
      exact apart chars (by rw [first_eq])

theorem ne_cons_cons_append_close {chars : List Char} {c d : Char} (other : c ≠ ')')
    (another : d ≠ ')') (apart : ∀ tail, chars ≠ c :: d :: tail) (more tail : List Char) :
    chars ++ ')' :: more ≠ c :: d :: tail := by
  cases chars with
  | nil =>
      intro same
      exact other (List.cons.inj same).1.symm
  | cons first chars =>
      intro same
      rw [List.cons_append] at same
      obtain ⟨rfl, tails⟩ := List.cons.inj same
      refine ne_cons_append_close another ?_ more tail tails
      intro rest equality
      exact apart rest (by rw [equality])

/-! ## Escape sequences -/

theorem HexStep.append {flags : Flags} {width : Nat} {chars rest : List Char} {c : Char}
    (step : HexStep flags width chars c rest) (more : List Char) :
    HexStep flags width (chars ++ more) c (rest ++ more) := by
  cases step with
  | braced apart denotes =>
      rw [List.cons_append, List.append_assoc]
      exact .braced apart denotes
  | fixed full open_ denotes small =>
      rw [List.append_assoc]
      exact .fixed full open_ denotes small

theorem BoundaryStep.append {chars rest : List Char} {condition : Assertion}
    (step : BoundaryStep chars condition rest) (more : List Char) :
    BoundaryStep (chars ++ ')' :: more) condition (rest ++ ')' :: more) := by
  cases step with
  | named named apart known =>
      rw [List.cons_append, List.append_assoc]
      exact .named named apart known
  | counted unnamed => exact .counted unnamed
  | plain unbraced => exact .plain (ne_cons_append_close (by decide) unbraced more)

theorem NameStep.append {chars name rest : List Char} (step : NameStep chars name rest)
    (more : List Char) : NameStep (chars ++ more) name (rest ++ more) := by
  cases step with
  | braced apart =>
      rw [List.cons_append, List.append_assoc]
      exact .braced apart
  | single unbraced unescaped => exact .single unbraced unescaped

theorem Settled.map {α β : Type} {read : List Char → Option (α × List Char)}
    (settled : Settled read) (change : α → β) :
    Settled fun chars => (read chars).map fun (value, rest) => (change value, rest) := by
  intro chars rest value mapped more
  obtain ⟨⟨inner, rest⟩, read, equality⟩ := Option.map_eq_some_iff.mp mapped
  cases equality
  simp only [settled _ _ _ read more, Option.map_some]

section

variable {flags : Flags} (unspaced : flags.spaced = false)

include unspaced

theorem hexEscape?_settled (width : Nat) : Settled (hexEscape? flags width) := by
  intro chars rest value read more
  rw [hexEscape?_eq_some_iff unspaced] at read ⊢
  exact read.append _

theorem boundaryEscape?_settled : Settled (boundaryEscape? flags) := by
  intro chars rest value read more
  rw [boundaryEscape?_eq_some_iff unspaced] at read ⊢
  exact read.append more

theorem propertyEscape?_settled (negated : Bool) : Settled (propertyEscape? flags negated) := by
  intro chars rest value read more
  rw [propertyEscape?_eq_some_iff unspaced] at read ⊢
  obtain ⟨name, property, step, class_⟩ := read
  exact ⟨name, property, step.append _, class_⟩

omit unspaced in
theorem classEscape?_settled (negated : Bool) (set ascii : CharSet) :
    Settled (classEscape? flags negated set ascii) := by
  intro chars rest value read more
  obtain ⟨class_, known, equality⟩ := Option.map_eq_some_iff.mp read
  cases equality
  exact Option.map_eq_some_iff.mpr ⟨class_, known, rfl⟩

theorem escape?_settled : Settled (escape? flags) := by
  intro chars rest value read more
  unfold escape? at read
  split at read
  · cases read
  · exact (hexEscape?_settled unspaced 2).map Primitive.literal _ _ _ read more
  · exact (hexEscape?_settled unspaced 4).map Primitive.literal _ _ _ read more
  · exact (hexEscape?_settled unspaced 8).map Primitive.literal _ _ _ read more
  · exact (propertyEscape?_settled unspaced false).map Primitive.set _ _ _ read more
  · exact (propertyEscape?_settled unspaced true).map Primitive.set _ _ _ read more
  · exact classEscape?_settled _ _ _ _ _ _ read more
  · exact classEscape?_settled _ _ _ _ _ _ read more
  · exact classEscape?_settled _ _ _ _ _ _ read more
  · exact classEscape?_settled _ _ _ _ _ _ read more
  · exact classEscape?_settled _ _ _ _ _ _ read more
  · exact classEscape?_settled _ _ _ _ _ _ read more
  case h_21 =>
    exact (boundaryEscape?_settled unspaced).map
      (fun condition => Primitive.assertion (flags.boundary condition)) _ _ _ read more
  case h_25 =>
    split at read
    · rename_i escapable
      cases read
      rw [List.cons_append, escape?, if_pos escapable] <;> assumption
    · cases read
  all_goals cases read; rfl

theorem classMember?_settled : Settled (classMember? flags) := by
  intro chars rest value read more
  rw [classMember?_eq_some_iff] at read ⊢
  obtain ⟨member, ⟨after, rfl, escaped⟩ | ⟨c, unescaped, rfl, rfl⟩⟩ := read
  · exact ⟨member, .inl ⟨_, rfl, escape?_settled unspaced _ _ _ escaped more⟩⟩
  · exact ⟨member, .inr ⟨c, unescaped, rfl, rfl⟩⟩

end

/-! ## Bracket classes -/

theorem named?_of_close {name : List Char} (inside : ')' ∈ name) :
    CharSet.named? (String.ofList name) = none := by
  unfold CharSet.named?
  split
  -- None of the known names holds a parenthesis.
  all_goals
    first
    | rfl
    | rename_i same
      have spelled := congrArg String.toList same
      rw [String.toList_ofList] at spelled
      rw [spelled] at inside
      revert inside
      decide

/-- The class with the name at the start of a text, and what follows the name. -/
def namedClassBody? (negated : Bool) (chars : List Char) :
    Option ((Bool × CharSet) × List Char) :=
  match chars.dropWhile (· != ':') with
  | ':' :: ']' :: rest => do
      let set ← CharSet.named? (String.ofList (chars.takeWhile (· != ':')))
      return ((negated, set), rest)
  | _ => none

theorem namedClass?_plain {chars : List Char} (plain : ∀ tail, chars ≠ '^' :: tail) :
    namedClass? (':' :: chars) = namedClassBody? false chars := by
  cases chars with
  | nil => rfl
  | cons c tail =>
      rw [namedClass?]
      · rfl
      · exact plain

theorem namedClassBody?_append (negated : Bool) (chars more : List Char) :
    namedClassBody? negated (chars ++ ')' :: more) =
      (namedClassBody? negated chars).map fun (set, rest) => (set, rest ++ ')' :: more) := by
  unfold namedClassBody?
  cases found : chars.dropWhile (· != ':') with
  | nil =>
      have unnamed : ∀ c ∈ chars, (c != ':') = true := by
        simpa using List.dropWhile_eq_nil_iff.mp found
      have close : ')' ∈ (chars ++ ')' :: more).takeWhile (· != ':') := by
        rw [List.takeWhile_append_of_pos unnamed, List.takeWhile_cons_of_pos (by decide)]
        simp
      rw [named?_of_close close]
      split
      · rfl
      · rfl
  | cons c rest =>
      rw [dropWhile_append_of_found found, takeWhile_append_of_found found]
      cases rest with
      | nil =>
          split
          · rename_i equality
            cases equality
          · split
            · rename_i equality
              cases equality
            · rfl
      | cons d rest =>
          simp only [List.cons_append]
          split
          · rename_i equality
            cases equality
            cases CharSet.named? (String.ofList (chars.takeWhile (· != ':'))) with
            | none => rfl
            | some set => rfl
          · rename_i apart
            split
            · rename_i equality
              cases equality
              exact absurd rfl (apart _)
            · rfl

/-- A class name that the end of the pattern cuts off is no name with the parenthesis either. -/
theorem namedClass?_append (chars more : List Char) :
    namedClass? (chars ++ ')' :: more) =
      (namedClass? chars).map fun (set, rest) => (set, rest ++ ')' :: more) := by
  by_cases colon : ∃ tail, chars = ':' :: tail
  · obtain ⟨tail, rfl⟩ := colon
    by_cases negated : ∃ name, tail = '^' :: name
    · obtain ⟨name, rfl⟩ := negated
      exact namedClassBody?_append true name more
    · have plain : ∀ name, tail ≠ '^' :: name := fun name same => negated ⟨name, same⟩
      rw [List.cons_append, namedClass?_plain plain,
        namedClass?_plain (ne_cons_append_close (by decide) plain more)]
      exact namedClassBody?_append false tail more
  · have apart : ∀ tail, chars ≠ ':' :: tail := fun tail same => colon ⟨tail, same⟩
    have none_ {chars : List Char} (apart : ∀ tail, chars ≠ ':' :: tail) :
        namedClass? chars = none := by
      unfold namedClass?
      split
      · exact absurd rfl (apart _)
      · rfl
    rw [none_ apart, none_ (ne_cons_append_close (by decide) apart more)]
    rfl

section

variable {flags : Flags} (unspaced : flags.spaced = false)

include unspaced

theorem peek_append_close {c : Char} (other : c ≠ ')') (chars more : List Char) :
    flags.peek (chars ++ ')' :: more) = some c ↔ flags.peek chars = some c := by
  rw [peek_eq_head? unspaced, peek_eq_head? unspaced]
  cases chars with
  | nil => simp [other.symm]
  | cons first chars => rfl

theorem Unranged.append {chars : List Char} (unranged : Unranged flags chars)
    (more : List Char) : Unranged flags (chars ++ ')' :: more) := by
  obtain ⟨c, tail, rfl, ends⟩ := unranged
  refine ⟨c, tail ++ ')' :: more, rfl, fun dash => ?_⟩
  rw [peek_append_close unspaced (by decide), peek_append_close unspaced (by decide)]
  exact ends dash

theorem RangeStep.append {first : Primitive} {chars rest : List Char} {set : CharSet}
    (step : RangeStep flags first chars set rest) (more : List Char) :
    RangeStep flags first (chars ++ ')' :: more) set (rest ++ ')' :: more) := by
  cases step with
  | single denotes unranged => exact .single denotes (unranged.append unspaced _)
  | range open_ undashed upper ordered =>
      rw [skip_eq_self unspaced] at upper
      apply RangeStep.range
      · exact mt (peek_append_close unspaced (by decide) _ _).mp open_
      · exact mt (peek_append_close unspaced (by decide) _ _).mp undashed
      · rw [skip_eq_self unspaced]
        exact classMember?_settled unspaced _ _ _ upper more
      · exact ordered

theorem classRange?_settled : Settled (classRange? flags) := by
  intro chars rest value read more
  rw [classRange?_eq_some_iff] at read ⊢
  obtain ⟨first, after, member, step⟩ := read
  rw [skip_eq_self unspaced] at step
  refine ⟨first, after ++ ')' :: more, classMember?_settled unspaced _ _ _ member more, ?_⟩
  rw [skip_eq_self unspaced]
  exact step.append unspaced more

theorem leadingMembers_append (chars more : List Char) :
    leadingMembers flags (chars ++ ')' :: more) =
      ((leadingMembers flags chars).1, (leadingMembers flags chars).2 ++ ')' :: more) := by
  have dashes {chars : List Char} (unclosed : ∀ tail, chars ≠ ']' :: tail) :
      leadingMembers flags chars =
        ((chars.takeWhile (· == '-')).foldl
          (fun members dash => .union members (.singleton dash)) .nothing,
        chars.dropWhile (· == '-')) := by
    unfold leadingMembers
    split
    · exact absurd rfl (unclosed _)
    · rw [run_eq unspaced]
  by_cases closed : ∃ tail, chars = ']' :: tail
  · obtain ⟨tail, rfl⟩ := closed
    simp only [leadingMembers, List.cons_append, skip_eq_self unspaced]
  · have unclosed : ∀ tail, chars ≠ ']' :: tail := fun tail same => closed ⟨tail, same⟩
    rw [dashes unclosed, dashes (ne_cons_append_close (by decide) unclosed more),
      takeWhile_append_close (by decide), dropWhile_append_close (by decide)]

theorem MemberStep.append {inner inner_ : List Char → Option (CharSet × List Char)}
    {operand operand_ : Operand} {members members_ : CharSet} {chars after more : List Char}
    (alike : ∀ chars set rest, inner chars = some (set, rest) →
      inner_ (chars ++ ')' :: more) = some (set, rest ++ ')' :: more))
    (step : MemberStep flags inner operand members chars operand_ members_ after) :
    MemberStep flags inner_ operand members (chars ++ ')' :: more) operand_ members_
      (after ++ ')' :: more) := by
  cases step with
  | intersection => exact .intersection
  | difference => exact .difference
  | symmetricDifference => exact .symmetricDifference
  | named named closes =>
      exact .named ((namedClass?_append _ _).trans (by rw [named, Option.map_some])) closes
  | nested unnamed inside =>
      have unnamed_ := (namedClass?_append _ more).trans (by rw [unnamed, Option.map_none])
      exact .nested unnamed_ (alike _ _ _ inside)
  | range unclosed unopened intersected subtracted symmetric range =>
      -- The parenthesis completes none of the other forms.
      apply MemberStep.range
      · exact ne_cons_append_close (by decide) unclosed more
      · exact ne_cons_append_close (by decide) unopened more
      · exact ne_cons_cons_append_close (by decide) (by decide) intersected more
      · exact ne_cons_cons_append_close (by decide) (by decide) subtracted more
      · exact ne_cons_cons_append_close (by decide) (by decide) symmetric more
      · exact classRange?_settled unspaced _ _ _ range more

/-- A reader with fuel that succeeds alike with more of it when a closing parenthesis follows. -/
def Steady (read : Nat → List Char → Option (CharSet × List Char)) (fuel : Nat) : Prop :=
  ∀ chars set rest, read fuel chars = some (set, rest) → ∀ larger, fuel ≤ larger → ∀ more,
    read larger (chars ++ ')' :: more) = some (set, rest ++ ')' :: more)

theorem bracket?_steady {fuel : Nat}
    (listed : ∀ operand members, Steady (members? flags · operand members) fuel) :
    Steady (bracket? flags) (fuel + 1) := by
  intro chars set rest read larger enough more
  obtain ⟨larger, rfl⟩ : ∃ fuel, larger = fuel + 1 := ⟨larger - 1, by omega⟩
  have enough : fuel ≤ larger := by omega
  unfold bracket? at read ⊢
  simp only [skip_eq_self unspaced, Option.bind_eq_bind, Option.bind_eq_some_iff] at read ⊢
  by_cases negated : ∃ tail, chars = '^' :: tail
  · obtain ⟨tail, rfl⟩ := negated
    obtain ⟨_, list, _, known, equality⟩ := read
    cases equality
    simp only [List.cons_append, leadingMembers_append unspaced]
    exact ⟨_, listed _ _ _ _ _ list _ enough more, _, known, rfl⟩
  · have plain : ∀ tail, chars ≠ '^' :: tail := fun tail same => negated ⟨tail, same⟩
    have plain_ := ne_cons_append_close (by decide) plain more
    split at read
    · exact absurd rfl (plain _)
    · obtain ⟨_, list, _, known, equality⟩ := read
      cases equality
      simp only [leadingMembers_append unspaced]
      exact ⟨_, listed _ _ _ _ _ list _ enough more, _, known, rfl⟩

theorem members?_steady {fuel : Nat} (brackets : Steady (bracket? flags) fuel)
    (listed : ∀ operand members, Steady (members? flags · operand members) fuel)
    (operand : Operand) (members : CharSet) :
    Steady (members? flags · operand members) (fuel + 1) := by
  intro chars set rest read larger enough more
  obtain ⟨larger, rfl⟩ : ∃ fuel, larger = fuel + 1 := ⟨larger - 1, by omega⟩
  have enough : fuel ≤ larger := by omega
  rw [members?_succ_eq_some_iff, skip_eq_self unspaced] at read ⊢
  rcases read with ⟨rfl, settled⟩ | ⟨operand_, members_, after, step, read⟩
  · exact .inl ⟨rfl, settled⟩
  · refine .inr ⟨operand_, members_, after ++ ')' :: more, step.append unspaced ?_, ?_⟩
    · exact fun chars set rest inside => brackets chars set rest inside larger enough more
    · exact listed operand_ members_ after set rest read larger enough more

/-- Bracket classes are settled, and more fuel does not change them either. -/
theorem bracket?_append (fuel : Nat) :
    Steady (bracket? flags) fuel ∧
      ∀ operand members, Steady (members? flags · operand members) fuel := by
  induction fuel with
  | zero =>
      constructor
      · intro chars set rest read
        simp [bracket?] at read
      · intro operand members chars set rest read
        simp [members?] at read
  | succ fuel induction =>
      exact ⟨bracket?_steady unspaced induction.2,
        members?_steady unspaced induction.1 induction.2⟩

theorem count?_settled : Settled (count? flags) := by
  intro chars rest value read more
  simp only [count?, run_eq unspaced, skip_eq_self unspaced, Option.bind_eq_bind,
    Option.bind_eq_some_iff, Option.pure_def, Option.some.injEq, Prod.mk.injEq] at read ⊢
  obtain ⟨_, digits, rfl, rfl⟩ := read
  rw [dropWhile_append_close isBlank_close, takeWhile_append_close (by decide),
    dropWhile_append_close (by decide), dropWhile_append_close isBlank_close]
  exact ⟨_, digits, rfl, rfl⟩

theorem bounds?_settled :
    Settled fun chars => (bounds? flags chars).map fun (least, most, rest) =>
      ((least, most), rest) := by
  intro chars rest value mapped more
  obtain ⟨⟨least, most, rest⟩, read, equality⟩ := Option.map_eq_some_iff.mp mapped
  cases equality
  refine Option.map_eq_some_iff.mpr ⟨(least, most, rest ++ ')' :: more), ?_, rfl⟩
  simp only [bounds?, skip_eq_self unspaced, Option.bind_eq_bind, Option.bind_eq_some_iff] at read ⊢
  obtain ⟨⟨lower, after⟩, first, read⟩ := read
  refine ⟨_, count?_settled unspaced _ _ _ first more, ?_⟩
  dsimp only at read ⊢
  split at read
  · cases read
    rfl
  · rename_i after first
    split at read
    · cases read
      rfl
    · rename_i open_
      obtain ⟨⟨upper, after⟩, second, read⟩ := Option.bind_eq_some_iff.mp read
      dsimp only at read
      split at read
      · obtain ⟨_, ordered, read⟩ := Option.bind_eq_some_iff.mp read
        cases read
        simp only [List.cons_append]
        split
        · rename_i equality
          exact absurd equality (ne_cons_append_close (by decide) open_ more _)
        · rw [count?_settled unspaced _ _ _ second more]
          exact Option.bind_eq_some_iff.mpr
            ⟨_, rfl, Option.bind_eq_some_iff.mpr ⟨_, ordered, rfl⟩⟩
      · cases read
  · cases read

omit unspaced in
theorem quantifier_append (least : Nat) (most : Option Nat) (chars more : List Char) :
    quantifier flags least most (chars ++ ')' :: more) =
      ((quantifier flags least most chars).1,
        (quantifier flags least most chars).2 ++ ')' :: more) := by
  by_cases lazy : ∃ tail, chars = '?' :: tail
  · obtain ⟨tail, rfl⟩ := lazy
    rfl
  · have eager : ∀ tail, chars ≠ '?' :: tail := fun tail same => lazy ⟨tail, same⟩
    have plain {chars : List Char} (eager : ∀ tail, chars ≠ '?' :: tail) :
        quantifier flags least most chars =
          (.quantifier least most (!flags.swapGreed), chars) := by
      unfold quantifier
      split
      · exact absurd rfl (eager _)
      · rfl
    rw [plain eager, plain (ne_cons_append_close (by decide) eager more)]

end

theorem flagLetters?_append {chars : List Char} {flags inner : Flags} {read letters : List Char}
    {rest : List Char} (reads : flagLetters? flags read chars = some (inner, letters, rest))
    (more : List Char) :
    flagLetters? flags read (chars ++ more) = some (inner, letters, rest ++ more) := by
  induction chars generalizing flags read with
  | nil => cases reads
  | cons c chars induction =>
      rw [List.cons_append]
      unfold flagLetters? at reads ⊢
      split at reads
      · rename_i ends
        rw [if_pos ends]
        split at reads
        · cases reads
        · rename_i letter
          cases reads
          rw [if_neg letter]
          rfl
      · rename_i goes
        rw [if_neg goes]
        split at reads
        · cases reads
        · rename_i fresh
          rw [if_neg fresh]
          split at reads
          · rename_i dash
            rw [if_pos dash]
            exact induction reads
          · rename_i letter
            rw [if_neg letter]
            split at reads
            · exact induction reads
            · cases reads

theorem groupName?_settled : Settled groupName? := by
  intro chars rest value read more
  unfold groupName? at read
  dsimp only at read
  split at read
  · rename_i rest found
    split at read
    · rename_i c others name
      obtain ⟨_, parts, equality⟩ := Option.bind_eq_some_iff.mp read
      cases equality
      simp only [groupName?, dropWhile_append_of_found found, takeWhile_append_of_found found, name]
      exact Option.bind_eq_some_iff.mpr ⟨_, parts, rfl⟩
    · cases read
  · cases read

theorem StartsGroup.append {flags : Flags} {chars rest : List Char} {lexeme : Lexeme}
    (starts : StartsGroup flags chars lexeme rest) (more : List Char) :
    StartsGroup flags (chars ++ ')' :: more) lexeme (rest ++ ')' :: more) := by
  cases starts with
  | marked named => exact .marked (groupName?_settled _ _ _ named more)
  | named ahead notAhead named =>
      apply StartsGroup.named
      · exact ne_cons_append_close (by decide) ahead more
      · exact ne_cons_append_close (by decide) notAhead more
      · exact groupName?_settled _ _ _ named more
  | flags unmarked unnamed flagged present =>
      refine .flags ?_ ?_ (flagLetters?_append flagged _) present
      · exact ne_cons_cons_append_close (by decide) (by decide) unmarked more
      · exact ne_cons_append_close (by decide) unnamed more
  | plain unmarked unnamed flagged open_ =>
      refine .plain ?_ ?_ (flagLetters?_append flagged _) open_
      · exact ne_cons_cons_append_close (by decide) (by decide) unmarked more
      · exact ne_cons_append_close (by decide) unnamed more
  | capturing unasked => exact .capturing (ne_cons_append_close (by decide) unasked more)

theorem groupStart?_settled {flags : Flags} (unspaced : flags.spaced = false) :
    Settled (groupStart? flags) := by
  intro chars rest value read more
  rw [groupStart?_eq_some_iff, skip_eq_self unspaced] at read ⊢
  exact read.append more

theorem lexeme?_settled {flags : Flags} (unspaced : flags.spaced = false) :
    Settled (lexeme? flags) := by
  intro chars rest value read more
  unfold lexeme? at read
  split at read
  · cases read
  · exact groupStart?_settled unspaced _ _ _ read more
  · cases read
    rfl
  · cases read
    rfl
  · rename_i chars
    obtain ⟨⟨set, after⟩, inside, equality⟩ := Option.map_eq_some_iff.mp read
    cases equality
    have longer := (bracket?_append unspaced _).1 _ _ _ inside
      (2 * (chars ++ ')' :: more).length + 2) (by rw [List.length_append]; omega) more
    simp only [lexeme?, List.cons_append, longer, Option.map_some]
  · simp only [lexeme?, List.cons_append, quantifier_append, Option.some.inj read]
  · simp only [lexeme?, List.cons_append, quantifier_append, Option.some.inj read]
  · simp only [lexeme?, List.cons_append, quantifier_append, Option.some.inj read]
  · obtain ⟨⟨least, most, after⟩, counted, equality⟩ := Option.map_eq_some_iff.mp read
    have longer := bounds?_settled unspaced _ _ _
      (Option.map_eq_some_iff.mpr ⟨_, counted, rfl⟩) more
    obtain ⟨⟨_, _, _⟩, longer, same⟩ := Option.map_eq_some_iff.mp longer
    cases same
    simp only [lexeme?, List.cons_append, longer, Option.map_some, quantifier_append, equality]
  · obtain ⟨set, class_, equality⟩ := Option.map_eq_some_iff.mp read
    cases equality
    exact Option.map_eq_some_iff.mpr ⟨set, class_, rfl⟩
  · cases read
    rfl
  · cases read
    rfl
  · obtain ⟨⟨primitive, after⟩, escaped, equality⟩ := Option.map_eq_some_iff.mp read
    simp only [lexeme?, List.cons_append, escape?_settled unspaced _ _ _ escaped more,
      Option.map_some]
    cases primitive with
    | literal c => cases equality; rfl
    | set set => cases equality; rfl
    | assertion condition => cases equality; rfl
  · cases read
    rw [List.cons_append, lexeme?]
    all_goals assumption

end RowGrammar.Regex
