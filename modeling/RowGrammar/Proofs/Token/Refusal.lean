import Mathlib.Algebra.GroupWithZero.Nat
import RowGrammar.Proofs.Digits
import RowGrammar.Proofs.Token.Strictness

/-!
# The text that a strict scan refuses

A strict scan goes on like any other up to the first text that no token pattern matches.  So what it
refuses can be read off the pieces that are found outside of strict mode: the first one without a
token, at the offset where the pieces before it end.
-/

namespace RowGrammar

open RowGrammar.Text

namespace Piece

/-- How many bytes a piece takes. -/
def bytes (piece : Piece) : Nat :=
  utf8Length piece.text.toList

theorem sum_bytes (pieces : List Piece) :
    (pieces.map bytes).sum = utf8Length (pieces.flatMap (·.text.toList)) := by
  induction pieces with
  | nil => rfl
  | cons piece pieces induction =>
      rw [List.map_cons, List.sum_cons, List.flatMap_cons, utf8Length_append, induction, bytes]

/-- The first piece without a token among pieces that start at an offset: where it starts, and as
much of it as an error shows. -/
def firstRefused : Nat → List Piece → Option (Nat × String)
  | _, [] => none
  | offset, piece :: pieces =>
      if piece.nodeType = unrecognized then
        some (offset, String.ofList (piece.text.toList.take shownLength))
      else firstRefused (offset + piece.bytes) pieces

theorem firstRefused_append (offset : Nat) (pieces others : List Piece) :
    firstRefused offset (pieces ++ others) =
      (firstRefused offset pieces).or
        (firstRefused (offset + (pieces.map bytes).sum) others) := by
  induction pieces generalizing offset with
  | nil => rfl
  | cons piece pieces induction =>
      rw [List.cons_append, firstRefused, firstRefused]
      split
      · rfl
      · rw [induction, List.map_cons, List.sum_cons, Nat.add_assoc]

theorem firstRefused_eq_none {pieces : List Piece}
    (known : ∀ piece ∈ pieces, piece.nodeType ≠ unrecognized) (offset : Nat) :
    firstRefused offset pieces = none := by
  induction pieces generalizing offset with
  | nil => rfl
  | cons piece pieces induction =>
      rw [firstRefused, if_neg (known piece List.mem_cons_self)]
      exact induction (fun other member => known other (List.mem_cons_of_mem _ member)) _

end Piece

namespace Scanned

/-- What a strict scan makes of the pieces that are found outside of strict mode: the same, or an
error at the first one without a token. -/
def Refuses (offset : Nat) (scanned strict : Scanned) : Prop :=
  scanned.failure = .none →
    match Piece.firstRefused offset scanned.pieces with
    | .none => strict = scanned
    | some (refused, text) => ∃ parser, strict.failure = some (.noMatch parser refused text)

theorem refuses_of_fails {scanned : Scanned} {error : TokenizeError}
    (fails : scanned.failure = some error) (offset : Nat) (strict : Scanned) :
    scanned.Refuses offset strict := by
  intro succeeds
  rw [fails] at succeeds
  cases succeeds

theorem refuses_self {scanned : Scanned}
    (known : ∀ piece ∈ scanned.pieces, piece.nodeType ≠ unrecognized) (offset : Nat) :
    scanned.Refuses offset scanned := by
  intro _
  rw [Piece.firstRefused_eq_none known]

/-- What comes after some text is refused where that text ends. -/
theorem Refuses.andThen {offset : Nat} {first first' : Scanned} {next next' : Unit → Scanned}
    {chars : List Char} (refuses : first.Refuses offset first') (covers : first.Covers chars)
    (follows : (next ()).Refuses (offset + utf8Length chars) (next' ())) :
    (first.andThen next).Refuses offset (first'.andThen next') := by
  cases fails : first.failure with
  | some error =>
      have stops : (first.andThen next).failure = some error := by
        rw [Scanned.andThen, fails]
        exact fails
      exact refuses_of_fails stops _ _
  | none =>
      obtain ⟨joins, _⟩ := covers fails
      have starts := refuses fails
      rw [Scanned.andThen, fails]
      intro succeeds
      have ends := follows succeeds
      simp only [Piece.firstRefused_append, Piece.sum_bytes, joins]
      cases refused : Piece.firstRefused offset first.pieces with
      | some pair =>
          rw [refused] at starts
          obtain ⟨parser, stops⟩ := starts
          refine ⟨parser, ?_⟩
          rw [Scanned.andThen, stops]
          exact stops
      | none =>
          rw [refused] at starts
          subst starts
          rw [Option.none_or, Scanned.andThen, fails]
          cases later : Piece.firstRefused (offset + utf8Length chars) (next ()).pieces with
          | some pair =>
              rw [later] at ends
              exact ends
          | none =>
              rw [later] at ends
              simp only [ends]

end Scanned

namespace ScanContext

variable {context strict : ScanContext} {delegate delegate' : String → Array Char → Nat → Scanned}
  {tokenizer : Tokenizer} {text : Array Char} {base gap position start stop : Nat}

theorem outerOffset_add (before : start ≤ stop) :
    outerOffset text base start + utf8Length (text.extract start stop).toList =
      outerOffset text base stop := by
  rw [outerOffset, outerOffset, Nat.add_assoc, ← utf8Length_append,
    extract_append_extract (Nat.zero_le _) before]

section

variable (lenient : context.strict = false) (strictly : strict.strict = true)

include lenient strictly

theorem unrecognized_refuses (parser : String) (text : Array Char) (base start stop : Nat) :
    (context.unrecognized parser text base start stop).Refuses (outerOffset text base start)
      (strict.unrecognized parser text base start stop) := by
  intro _
  by_cases before : start < stop
  · rw [unrecognized, unrecognized, if_pos before, if_pos before, lenient, strictly]
    refine ⟨parser, ?_⟩
    simp [Scanned.fail]
  · rw [unrecognized, unrecognized, if_neg before, if_neg before]
    rfl

/-- A part without a token, a part that an alternative takes, and what follows. -/
theorem taken_refuses
    (covers : ∀ parser text base, (delegate parser text base).Covers text.toList)
    (refuses : ∀ parser text base,
      (delegate parser text base).Refuses base (delegate' parser text base))
    {alternative : Alternative} (known : alternative.nodeType ≠ RowGrammar.unrecognized)
    {next next' : Unit → Scanned} (before : gap ≤ start) (taken : start < stop)
    (inside : stop ≤ text.size)
    (follows : (next ()).Refuses (outerOffset text base stop) (next' ())) :
    ((context.unrecognized tokenizer.parser text base gap start).andThen fun _ =>
      (alternative.taken delegate text base start stop).andThen next).Refuses
      (outerOffset text base gap)
      ((strict.unrecognized tokenizer.parser text base gap start).andThen fun _ =>
        (alternative.taken delegate' text base start stop).andThen next') := by
  have own : (alternative.taken delegate text base start stop).Refuses
      (outerOffset text base start) (alternative.taken delegate' text base start stop) := by
    unfold Alternative.taken
    split
    · exact refuses _ _ _
    · apply Scanned.refuses_self
      intro piece member
      rw [List.mem_singleton.mp member]
      exact known
  have covered : (alternative.taken delegate text base start stop).Covers
      (text.extract start stop).toList := alternative_covers covers alternative taken inside
  have first := unrecognized_refuses lenient strictly tokenizer.parser text base gap start
  refine first.andThen (unrecognized_covers _ (by omega)) ?_
  rw [outerOffset_add before]
  refine own.andThen covered ?_
  rw [outerOffset_add (Nat.le_of_lt taken)]
  exact follows

theorem scanFrom_refuses
    (covers : ∀ parser text base, (delegate parser text base).Covers text.toList)
    (refuses : ∀ parser text base,
      (delegate parser text base).Refuses base (delegate' parser text base))
    (known : ∀ alternative ∈ tokenizer.alternatives,
      alternative.nodeType ≠ RowGrammar.unrecognized)
    (composite : Regex) (text : Array Char) (base fuel : Nat) (before : gap ≤ position) :
    (context.scanFrom delegate tokenizer composite text base fuel gap position).Refuses
      (outerOffset text base gap)
      (strict.scanFrom delegate' tokenizer composite text base fuel gap position) := by
  have alongside : Alongside context strict delegate delegate' tokenizer text base
      fun gap scanned refused => scanned.Refuses (outerOffset text base gap) refused := {
    rest := fun gap =>
      unrecognized_refuses lenient strictly tokenizer.parser text base gap text.size
    take := fun member before taken inside follows =>
      taken_refuses lenient strictly covers refuses (known _ member) before taken inside follows
    fail := fun _ _ _ => Scanned.refuses_of_fails rfl _ _ }
  exact alongside.scanFrom before

/-- A strict scan refuses the first text without a token, however deep in sub-parsers it is, and
finds what is found outside of strict mode where there is no such text. -/
theorem scanWith_refuses (same : strict.tokenizers = context.tokenizers)
    (known : ∀ tokenizer ∈ context.tokenizers, ∀ alternative ∈ tokenizer.alternatives,
      alternative.nodeType ≠ RowGrammar.unrecognized)
    (levels : Nat) (parser : String) (text : Array Char) (base : Nat) :
    (context.scanWith levels parser text base).Refuses base
      (strict.scanWith levels parser text base) := by
  have whole (text : Array Char) (base : Nat) : outerOffset text base 0 = base := by
    simp [outerOffset, utf8Length]
  induction levels generalizing parser text base with
  | zero => exact Scanned.refuses_of_fails rfl _ _
  | succ levels induction =>
      rw [scanWith, scanWith, same]
      split
      · exact Scanned.refuses_of_fails rfl _ _
      · rename_i tokenizer found
        split
        · have refuses := unrecognized_refuses lenient strictly parser text base 0 text.size
          rwa [whole] at refuses
        · rename_i composite _
          have refuses := scanFrom_refuses lenient strictly (context.scanWith_covers levels)
            induction (known tokenizer (List.mem_of_find?_eq_some found)) composite text base
            (text.size + 1) (Nat.le_refl 0)
          rwa [whole] at refuses

end

end ScanContext

end RowGrammar
