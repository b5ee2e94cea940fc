import Mathlib.Data.List.Chain
import RowGrammar.Proofs.Token.Scanning

/-!
# Covering a text

A scan that does not fail cuts its text into pieces without dropping or repeating a character,
sub-parsers included.  Text without a token is one piece, so only a sub-parser can put two of them
side by side.
-/

namespace RowGrammar

open RowGrammar.Text

namespace Scanned

/-- The pieces of a scan, unless it fails, are a text cut into parts that are not empty. -/
def Covers (scanned : Scanned) (chars : List Char) : Prop :=
  scanned.failure = .none → scanned.pieces.flatMap (·.text.toList) = chars ∧
    ∀ piece ∈ scanned.pieces, piece.text ≠ ""

/-- Nothing but the depth of sub-parsers makes a scan fail. -/
def FailsByDepth (scanned : Scanned) : Prop :=
  ∀ error, scanned.failure = some error →
    ∃ parser, error = .subparserDepth parser maxSubparserDepth

theorem covers_fail (error : TokenizeError) (chars : List Char) : (fail error).Covers chars :=
  fun succeeds => by cases succeeds

theorem covers_piece (nodeType : NodeTypeId) {text : Array Char} (present : text.toList ≠ []) :
    (piece nodeType text).Covers text.toList := by
  intro _
  constructor
  · simp [piece]
  · intro other member
    rw [List.mem_singleton.mp member]
    intro empty
    apply present
    simpa using congrArg String.toList empty

theorem Covers.andThen {first : Scanned} {chars others : List Char} (covers : first.Covers chars)
    (next : Unit → Scanned) (follows : (next ()).Covers others) :
    (first.andThen next).Covers (chars ++ others) := by
  unfold Scanned.andThen
  split
  · rename_i fails
    intro succeeds
    rw [fails] at succeeds
    cases succeeds
  · rename_i succeeds
    intro finishes
    obtain ⟨joins, whole⟩ := covers succeeds
    obtain ⟨joined, rest⟩ := follows finishes
    constructor
    · rw [List.flatMap_append, joins, joined]
    · intro other member
      rcases List.mem_append.mp member with before | after
      · exact whole other before
      · exact rest other after

theorem FailsByDepth.andThen {first : Scanned} {next : Unit → Scanned}
    (fails : first.FailsByDepth) (follows : (next ()).FailsByDepth) :
    (first.andThen next).FailsByDepth := by
  unfold Scanned.andThen
  split
  · exact fails
  · exact follows

end Scanned

namespace ScanContext

variable {context : ScanContext} {delegate : String → Array Char → Nat → Scanned}
  {tokenizer : Tokenizer} {text : Array Char} {base gap position start stop : Nat}

theorem extract_append_extract {middle : Nat} (before : start ≤ middle) (after : middle ≤ stop) :
    (text.extract start middle).toList ++ (text.extract middle stop).toList =
      (text.extract start stop).toList := by
  rw [← Array.toList_append, Array.extract_append_extract, Nat.min_eq_left before,
    Nat.max_eq_right after]

theorem extract_toList_ne_nil (before : start < stop) (inside : stop ≤ text.size) :
    (text.extract start stop).toList ≠ [] := by
  intro empty
  have size := congrArg List.length empty
  simp only [Array.length_toList, Array.size_extract, List.length_nil] at size
  omega

theorem unrecognized_covers (parser : String) (inside : stop ≤ text.size) :
    (context.unrecognized parser text base start stop).Covers
      (text.extract start stop).toList := by
  unfold unrecognized
  split
  · rename_i before
    split
    · exact Scanned.covers_fail _ _
    · exact Scanned.covers_piece _ (extract_toList_ne_nil before inside)
  · rename_i before
    intro _
    have empty : (text.extract start stop).toList = [] := by
      rw [Array.extract_empty_of_stop_le_start (Nat.not_lt.mp before)]
    rw [empty]
    exact ⟨rfl, by simp [Scanned.none]⟩

theorem alternative_covers
    (covers : ∀ parser text base, (delegate parser text base).Covers text.toList)
    (alternative : Alternative) (taken : start < stop) (inside : stop ≤ text.size) :
    (alternative.taken delegate text base start stop).Covers (text.extract start stop).toList := by
  unfold Alternative.taken
  split
  · exact covers _ _ _
  · exact Scanned.covers_piece _ (extract_toList_ne_nil taken inside)

/-- A part without a token, a part that an alternative takes, and what follows. -/
theorem taken_covers
    (covers : ∀ parser text base, (delegate parser text base).Covers text.toList)
    (alternative : Alternative) (next : Unit → Scanned) (before : gap ≤ start)
    (taken : start < stop) (inside : stop ≤ text.size)
    (follows : (next ()).Covers (text.extract stop text.size).toList) :
    ((context.unrecognized tokenizer.parser text base gap start).andThen fun _ =>
      (alternative.taken delegate text base start stop).andThen next).Covers
      (text.extract gap text.size).toList := by
  have first : (context.unrecognized tokenizer.parser text base gap start).Covers
      (text.extract gap start).toList := unrecognized_covers _ (by omega)
  have own : (alternative.taken delegate text base start stop).Covers
      (text.extract start stop).toList := alternative_covers covers alternative taken inside
  have whole := first.andThen (fun _ => _) (own.andThen next follows)
  rwa [extract_append_extract (Nat.le_of_lt taken) inside,
    extract_append_extract before (by omega)] at whole

/-- A scan from any position covers the text that is still without a token. -/
theorem scanFrom_covers
    (covers : ∀ parser text base, (delegate parser text base).Covers text.toList)
    {composite : Regex} {fuel : Nat} (before : gap ≤ position) :
    (context.scanFrom delegate tokenizer composite text base fuel gap position).Covers
      (text.extract gap text.size).toList := by
  have alongside : Alongside context context delegate delegate tokenizer text base
      fun gap scanned _ => scanned.Covers (text.extract gap text.size).toList := {
    rest := fun gap => unrecognized_covers _ (Nat.le_refl _)
    take := fun _ before taken inside follows =>
      taken_covers covers _ _ before taken inside follows
    fail := fun _ _ _ => Scanned.covers_fail _ _ }
  exact alongside.scanFrom before

variable (context) in
/-- A scan that succeeds covers the whole text. -/
theorem scanWith_covers (levels : Nat) (parser : String) (text : Array Char) (base : Nat) :
    (context.scanWith levels parser text base).Covers text.toList := by
  have whole : (text.extract 0 text.size).toList = text.toList := by simp
  induction levels generalizing parser text base with
  | zero => exact Scanned.covers_fail _ _
  | succ levels induction =>
      rw [scanWith, ← whole]
      split
      · exact Scanned.covers_fail _ _
      · split
        · exact unrecognized_covers _ (Nat.le_refl _)
        · exact scanFrom_covers (fun parser text base => induction parser text base (by simp))
            (Nat.le_refl _)

/-! ## Text without tokens -/

end ScanContext

end RowGrammar
