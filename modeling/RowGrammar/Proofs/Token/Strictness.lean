import RowGrammar.Proofs.Token.Cover

/-!
# Strict scans

A strict scan stops at text that no token pattern matches.  Where a scan that is not strict finds no
such text and does not fail, a strict one finds the same, and so the other way round.  The names of
the node types only matter for errors.
-/

namespace RowGrammar

namespace Scanned

/-- The scan succeeds, and a strict one would not stop. -/
def Clear (strict : Bool) (scanned : Scanned) : Prop :=
  scanned.failure = .none ∧
    (strict = true → ∀ piece ∈ scanned.pieces, piece.nodeType ≠ unrecognized)

/-- All pieces have node types with a property. -/
def Within (known : NodeTypeId → Prop) (scanned : Scanned) : Prop :=
  ∀ piece ∈ scanned.pieces, known piece.nodeType

theorem clear_andThen {strict : Bool} {first : Scanned} {next : Unit → Scanned}
    (clear : (first.andThen next).Clear strict) :
    first.Clear strict ∧ (next ()).Clear strict := by
  unfold Scanned.andThen at clear
  split at clear
  · rename_i error failed
    have succeeds := clear.1
    rw [failed] at succeeds
    cases succeeds
  · rename_i succeeds
    refine ⟨⟨succeeds, ?_⟩, clear.1, ?_⟩
    · intro strictly piece member
      exact clear.2 strictly piece (List.mem_append_left _ member)
    · intro strictly piece member
      exact clear.2 strictly piece (List.mem_append_right _ member)

/-- Two scans agree when they agree on every part that is clear. -/
theorem andThen_congr {strict : Bool} {first other : Scanned} {next next' : Unit → Scanned}
    (clear : (first.andThen next).Clear strict) (start : first.Clear strict → other = first)
    (rest : (next ()).Clear strict → next' () = next ()) :
    other.andThen next' = first.andThen next := by
  obtain ⟨here, later⟩ := clear_andThen clear
  rw [start here, Scanned.andThen, Scanned.andThen, rest later]

theorem Within.andThen {known : NodeTypeId → Prop} {first : Scanned} {next : Unit → Scanned}
    (within : first.Within known) (follows : (next ()).Within known) :
    (first.andThen next).Within known := by
  unfold Scanned.andThen
  split
  · exact within
  · intro piece member
    rcases List.mem_append.mp member with before | after
    · exact within piece before
    · exact follows piece after

theorem within_fail (known : NodeTypeId → Prop) (error : TokenizeError) :
    (fail error).Within known := by
  intro piece member
  cases member

theorem within_piece {known : NodeTypeId → Prop} {nodeType : NodeTypeId} (holds : known nodeType)
    (text : Array Char) : (piece nodeType text).Within known := by
  intro piece member
  rw [List.mem_singleton.mp member]
  exact holds

end Scanned

namespace ScanContext

variable {context other : ScanContext} {delegate delegate' : String → Array Char → Nat → Scanned}
  {tokenizer : Tokenizer} {text : Array Char} {base gap position start stop : Nat}

/-! ## The types of pieces -/

section

variable {known : NodeTypeId → Prop}
  (blank : context.strict = false → known RowGrammar.unrecognized)

include blank

theorem unrecognized_within (parser : String) :
    (context.unrecognized parser text base start stop).Within known := by
  unfold unrecognized
  split
  · split
    · exact Scanned.within_fail _ _
    · rename_i lenient
      exact Scanned.within_piece (blank (Bool.eq_false_iff.mpr lenient)) _
  · intro piece member
    cases member

omit blank in
theorem taken_within (delegates : ∀ parser text base, (delegate parser text base).Within known)
    {alternative : Alternative} (typed : known alternative.nodeType) :
    (alternative.taken delegate text base start stop).Within known := by
  unfold Alternative.taken
  split
  · exact delegates _ _ _
  · exact Scanned.within_piece typed _

theorem scanFrom_within (delegates : ∀ parser text base, (delegate parser text base).Within known)
    (typed : ∀ alternative ∈ tokenizer.alternatives, known alternative.nodeType)
    {composite : Regex} {fuel : Nat} (before : gap ≤ position) :
    (context.scanFrom delegate tokenizer composite text base fuel gap position).Within known := by
  have alongside : Alongside context context delegate delegate tokenizer text base
      fun _ scanned _ => scanned.Within known := {
    rest := fun _ => unrecognized_within blank _
    take := fun member _ _ _ follows =>
      (unrecognized_within blank _).andThen
        ((taken_within delegates (typed _ member)).andThen follows)
    fail := fun _ _ _ => Scanned.within_fail _ _ }
  exact alongside.scanFrom before

variable (context) in
/-- Pieces are of the types of the tokenizers, or unrecognized outside of strict mode. -/
theorem scanWith_within
    (typed : ∀ tokenizer ∈ context.tokenizers, ∀ alternative ∈ tokenizer.alternatives,
      known alternative.nodeType)
    (levels : Nat) (parser : String) (text : Array Char) (base : Nat) :
    (context.scanWith levels parser text base).Within known := by
  induction levels generalizing parser text base with
  | zero => exact Scanned.within_fail _ _
  | succ levels induction =>
      rw [scanWith]
      split
      · exact Scanned.within_fail _ _
      · rename_i tokenizer found
        split
        · exact unrecognized_within blank _
        · exact scanFrom_within blank induction (typed tokenizer (List.mem_of_find?_eq_some found))
            (Nat.le_refl 0)

end

/-! ## Agreement -/

theorem unrecognized_eq (parser : String)
    (clear : (context.unrecognized parser text base start stop).Clear other.strict) :
    other.unrecognized parser text base start stop =
      context.unrecognized parser text base start stop := by
  unfold unrecognized at clear ⊢
  split at clear
  · rename_i before
    rw [if_pos before, if_pos before]
    split at clear
    · cases clear.1
    · rename_i lenient
      rw [if_neg lenient, if_neg]
      intro strictly
      exact clear.2 strictly _ (List.mem_singleton_self _) rfl
  · rename_i before
    rw [if_neg before, if_neg before]

theorem taken_eq
    (agree : ∀ parser text base, (delegate parser text base).Clear other.strict →
      delegate' parser text base = delegate parser text base) {alternative : Alternative}
    (clear : (alternative.taken delegate text base start stop).Clear other.strict) :
    alternative.taken delegate' text base start stop =
      alternative.taken delegate text base start stop := by
  unfold Alternative.taken at clear ⊢
  split
  · rename_i parser delegated
    rw [delegated] at clear
    exact agree _ _ _ clear
  · rfl

theorem scanFrom_eq
    (agree : ∀ parser text base, (delegate parser text base).Clear other.strict →
      delegate' parser text base = delegate parser text base)
    {composite : Regex} {fuel : Nat} (before : gap ≤ position)
    (clear : (context.scanFrom delegate tokenizer composite text base fuel gap position).Clear
      other.strict) :
    other.scanFrom delegate' tokenizer composite text base fuel gap position =
      context.scanFrom delegate tokenizer composite text base fuel gap position := by
  have alongside : Alongside context other delegate delegate' tokenizer text base
      fun _ scanned strict => scanned.Clear other.strict → strict = scanned := {
    rest := fun _ => unrecognized_eq _
    take := fun _ _ _ _ follows clear =>
      Scanned.andThen_congr clear (unrecognized_eq _) fun rest =>
        Scanned.andThen_congr rest (taken_eq agree) follows
    fail := fun _ _ _ clear => by cases clear.1 }
  exact alongside.scanFrom before clear

/-- Scans with the same tokenizers agree, strict or not, where nothing would stop a strict one. -/
theorem scanWith_eq (same : other.tokenizers = context.tokenizers) (levels : Nat) (parser : String)
    (text : Array Char) (base : Nat)
    (clear : (context.scanWith levels parser text base).Clear other.strict) :
    other.scanWith levels parser text base = context.scanWith levels parser text base := by
  induction levels generalizing parser text base with
  | zero => rfl
  | succ levels induction =>
      rw [scanWith] at clear ⊢
      rw [scanWith, same]
      cases found : context.tokenizers.find? (·.parser == parser) with
      | none => rfl
      | some tokenizer =>
          cases composes : tokenizer.composite with
          | none =>
              simp only [found, composes] at clear ⊢
              exact unrecognized_eq _ clear
          | some composite =>
              simp only [found, composes] at clear ⊢
              exact scanFrom_eq induction (Nat.le_refl 0) clear

/-! ## Names -/

/-- Errors name the same types. -/
theorem winner_congr
    (names : ∀ alternative ∈ tokenizer.alternatives,
      other.registry.name alternative.nodeType = context.registry.name alternative.nodeType)
    (found : Regex.Match) :
    other.winner tokenizer text base found = context.winner tokenizer text base found := by
  unfold winner
  split
  · rfl
  · rfl
  · have listed : (tokenizer.alternatives.filter (found.groups.contains ·.group)).map
        (fun alternative => other.registry.name alternative.nodeType) =
        (tokenizer.alternatives.filter (found.groups.contains ·.group)).map
          fun alternative => context.registry.name alternative.nodeType := by
      apply List.map_congr_left
      intro alternative member
      exact names alternative (List.mem_filter.mp member).1
    rw [listed]

section

variable (strict : other.strict = context.strict)

include strict

theorem unrecognized_congr (parser : String) :
    other.unrecognized parser text base start stop =
      context.unrecognized parser text base start stop := by
  rw [unrecognized, unrecognized, strict]

theorem scanFrom_congr
    (names : ∀ alternative ∈ tokenizer.alternatives,
      other.registry.name alternative.nodeType = context.registry.name alternative.nodeType)
    {composite : Regex} {fuel : Nat} (before : gap ≤ position) :
    other.scanFrom delegate tokenizer composite text base fuel gap position =
      context.scanFrom delegate tokenizer composite text base fuel gap position := by
  have alongside : Alongside context other delegate delegate tokenizer text base
      fun _ scanned same => same = scanned := {
    rest := fun _ => unrecognized_congr strict _
    take := fun _ _ _ _ follows => by rw [unrecognized_congr strict, follows]
    fail := fun _ fails fails' => by
      rw [winner_congr names, fails] at fails'
      cases fails'
      rfl }
  exact alongside.scanFrom before

/-- The names of the node types of the tokenizers are all that a scan needs to know of a
registry. -/
theorem scanWith_congr
    (names : ∀ tokenizer ∈ context.tokenizers, ∀ alternative ∈ tokenizer.alternatives,
      other.registry.name alternative.nodeType = context.registry.name alternative.nodeType)
    (same : other.tokenizers = context.tokenizers) (levels : Nat) :
    other.scanWith levels = context.scanWith levels := by
  induction levels with
  | zero => rfl
  | succ levels induction =>
      funext parser text base
      rw [scanWith, scanWith, same, induction]
      cases found : context.tokenizers.find? (·.parser == parser) with
      | none => rfl
      | some tokenizer =>
          cases composes : tokenizer.composite with
          | none => simp only [composes, unrecognized_congr strict]
          | some composite =>
              simp only [composes]
              exact scanFrom_congr strict (names tokenizer (List.mem_of_find?_eq_some found))
                (Nat.le_refl 0)

end

end ScanContext

end RowGrammar
