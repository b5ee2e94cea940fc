import RowGrammar.Proofs.Token.Tokenizer

/-!
# Walking through a text

A scan of the joined pattern jumps over text without a match and looks the winner up by its group.
Walking through the text character by character, and trying the alternatives one after the other at
each of them, finds the same pieces.
-/

namespace RowGrammar

open RowGrammar.Text

namespace Tokenizer

/-- The first alternative whose own leftmost match from a position on starts right there and is not
empty, and where that match stops. -/
def firstAt (tokenizer : Tokenizer) (text : Array Char) (position : Nat) :
    Option (Alternative × Nat) :=
  tokenizer.alternatives.findSome? fun alternative =>
    match alternative.regex.find? text position with
    | some found =>
        if found.start = position ∧ found.isEmpty = false then some (alternative, found.stop)
        else none
    | none => none

section

variable {tokenizer : Tokenizer} {text : Array Char} {position : Nat}

theorem firstAt_eq_nonEmptyAt (inside : position ≤ text.size) :
    tokenizer.firstAt text position = tokenizer.nonEmptyAt text position := by
  unfold firstAt nonEmptyAt
  congr 1
  funext alternative
  cases here : alternative.regex.matchAt text position with
  | some found =>
      have start := Regex.matchAt_start here
      simp only [Regex.find?_eq_some_here inside here, start, true_and]
      cases found.isEmpty with
      | true => rfl
      | false => rfl
  | none =>
      cases search : alternative.regex.find? text position with
      | none => rfl
      | some found =>
          obtain ⟨_, _, matched, _⟩ := Regex.find?_eq_some search
          have later : found.start ≠ position := by
            intro same
            rw [same, here] at matched
            cases matched
          simp [later]

theorem nonEmptyAt_eq_some {alternative : Alternative} {stop : Nat}
    (first : tokenizer.nonEmptyAt text position = some (alternative, stop)) :
    alternative ∈ tokenizer.alternatives ∧ ∃ found,
      alternative.regex.matchAt text position = some found ∧ found.isEmpty = false ∧
        found.stop = stop := by
  obtain ⟨candidate, member, here⟩ := List.exists_of_findSome?_eq_some first
  split at here
  · rename_i found matched
    split at here
    · cases here
    · rename_i taken
      cases here
      exact ⟨member, found, matched, by simpa using taken, rfl⟩
  · cases here

/-- An alternative that is not empty takes a part of the text. -/
theorem nonEmptyAt_bounds {alternative : Alternative} {stop : Nat}
    (inside : position ≤ text.size)
    (first : tokenizer.nonEmptyAt text position = some (alternative, stop)) :
    position < stop ∧ stop ≤ text.size := by
  obtain ⟨_, found, matched, taken, rfl⟩ := nonEmptyAt_eq_some first
  have bounds := Regex.matchAt_stop matched inside
  have start := Regex.matchAt_start matched
  have apart : found.start ≠ found.stop := by simpa [Regex.Match.isEmpty] using taken
  omega

/-- The joined pattern matches with the alternative that is tried first and succeeds. -/
theorem Joined.nonEmptyAt_eq (joined : tokenizer.Joined) {composite : Regex}
    (composes : tokenizer.composite = some composite) {found : Regex.Match}
    (matched : composite.matchAt text position = some found) (taken : found.isEmpty = false) :
    ∃ alternative, tokenizer.nonEmptyAt text position = some (alternative, found.stop) ∧
      tokenizer.alternatives.filter (found.groups.contains ·.group) = [alternative] := by
  obtain ⟨before, alternative, after, own, split, sooner, here, stops, alone⟩ :=
    joined.matchAt_eq_some composes matched
  refine ⟨alternative, ?_, alone⟩
  have starts := (Regex.matchAt_start here).trans (Regex.matchAt_start matched).symm
  have whole : own.isEmpty = false := by
    rw [Regex.Match.isEmpty, starts, stops]
    exact taken
  unfold nonEmptyAt
  rw [split]
  apply List.findSome?_eq_some_iff.mpr
  refine ⟨before, alternative, after, rfl, ?_, ?_⟩
  · simp [here, whole, stops]
  · intro earlier member
    simp [sooner earlier member]

theorem Joined.nonEmptyAt_eq_none (joined : tokenizer.Joined) {composite : Regex}
    (composes : tokenizer.composite = some composite)
    (absent : composite.matchAt text position = none) :
    tokenizer.nonEmptyAt text position = none := by
  unfold nonEmptyAt
  apply List.findSome?_eq_none_iff.mpr
  intro alternative member
  rw [(joined.matchAt_eq_none_iff composes).mp absent alternative member]

end

end Tokenizer

/-- The pieces of the part of a text that an alternative takes. -/
def Alternative.taken (alternative : Alternative) (delegate : String → Array Char → Nat → Scanned)
    (text : Array Char) (base start stop : Nat) : Scanned :=
  match alternative.subparser with
  | some parser =>
      delegate parser (text.extract start stop) (outerOffset text base start)
  | none => .piece alternative.nodeType (text.extract start stop)

namespace ScanContext

variable (context : ScanContext)

/-- Walks on from `position`.  Text from `gap` on is still without a token. -/
def walkFrom (delegate : String → Array Char → Nat → Scanned) (tokenizer : Tokenizer)
    (text : Array Char) (base gap position : Nat) : Scanned :=
  if inside : position < text.size then
    match first : tokenizer.firstAt text position with
    | some (alternative, stop) =>
        have : position < stop := by
          rw [Tokenizer.firstAt_eq_nonEmptyAt (Nat.le_of_lt inside)] at first
          exact (Tokenizer.nonEmptyAt_bounds (Nat.le_of_lt inside) first).1
        (context.unrecognized tokenizer.parser text base gap position).andThen fun _ =>
          (alternative.taken delegate text base position stop).andThen fun _ =>
            walkFrom delegate tokenizer text base stop stop
    | none => walkFrom delegate tokenizer text base gap (position + 1)
  else context.unrecognized tokenizer.parser text base gap text.size
termination_by text.size - position

/-- Walks through a text that starts at `base` in the outermost one; `levels` bounds how deeply
sub-parsers may still be nested. -/
def walkWith : Nat → String → Array Char → Nat → Scanned
  | 0, parser, _, _ => .fail (.subparserDepth parser maxSubparserDepth)
  | levels + 1, parser, text, base =>
      match context.tokenizers.find? (·.parser == parser) with
      | none => .fail (.unknownParser parser)
      | some tokenizer => context.walkFrom (walkWith levels) tokenizer text base 0 0

section

variable {context} {delegate : String → Array Char → Nat → Scanned} {tokenizer : Tokenizer}
  {text : Array Char} {base gap position : Nat}

theorem walkFrom_end (outside : text.size ≤ position) :
    context.walkFrom delegate tokenizer text base gap position =
      context.unrecognized tokenizer.parser text base gap text.size := by
  rw [walkFrom, dif_neg (Nat.not_lt.mpr outside)]

theorem walkFrom_of_some {alternative : Alternative} {stop : Nat} (inside : position ≤ text.size)
    (first : tokenizer.nonEmptyAt text position = some (alternative, stop)) :
    context.walkFrom delegate tokenizer text base gap position =
      (context.unrecognized tokenizer.parser text base gap position).andThen fun _ =>
        (alternative.taken delegate text base position stop).andThen fun _ =>
          context.walkFrom delegate tokenizer text base stop stop := by
  have before : position < text.size := by
    have bounds := Tokenizer.nonEmptyAt_bounds inside first
    omega
  rw [← Tokenizer.firstAt_eq_nonEmptyAt inside] at first
  conv => lhs; rw [walkFrom, dif_pos before]
  split
  · rename_i taken
    cases first.symm.trans taken
    rfl
  · rename_i taken
    cases first.symm.trans taken

theorem walkFrom_of_none (first : tokenizer.nonEmptyAt text position = none) :
    context.walkFrom delegate tokenizer text base gap position =
      context.walkFrom delegate tokenizer text base gap (position + 1) := by
  by_cases before : position < text.size
  · rw [← Tokenizer.firstAt_eq_nonEmptyAt (Nat.le_of_lt before)] at first
    conv => lhs; rw [walkFrom, dif_pos before]
    split
    · rename_i taken
      cases first.symm.trans taken
    · rfl
  · rw [walkFrom_end (Nat.not_lt.mp before), walkFrom_end (by omega)]

/-- Characters at which no alternative starts join the text without a token. -/
theorem walkFrom_of_forall_none (stop : Nat) (before : position ≤ stop)
    (absent : ∀ place, position ≤ place → place < stop → tokenizer.nonEmptyAt text place = none) :
    context.walkFrom delegate tokenizer text base gap position =
      context.walkFrom delegate tokenizer text base gap stop := by
  induction stop, before using Nat.le_induction with
  | base => rfl
  | succ stop after induction =>
      rw [induction fun place from_ until_ => absent place from_ (by omega)]
      exact walkFrom_of_none (absent stop after (by omega))

/-- Jumping from match to match of the joined pattern is walking through the text. -/
theorem scanFrom_eq_walkFrom (joined : tokenizer.Joined) {composite : Regex}
    (composes : tokenizer.composite = some composite) {fuel : Nat}
    (enough : text.size < fuel + position) :
    context.scanFrom delegate tokenizer composite text base fuel gap position =
      context.walkFrom delegate tokenizer text base gap position := by
  induction fuel generalizing gap position with
  | zero => rw [scanFrom, walkFrom_end (by omega)]
  | succ fuel induction =>
      by_cases outside : text.size ≤ position
      · rw [scanFrom, if_pos outside, walkFrom_end outside]
      · rw [scanFrom, if_neg outside]
        cases search : composite.find? text position with
        | none =>
            have absent := Regex.find?_eq_none_iff.mp search
            rw [walkFrom_of_forall_none text.size (by omega), walkFrom_end (by omega)]
            intro place after before
            exact joined.nonEmptyAt_eq_none composes (absent place after (by omega))
        | some found =>
            obtain ⟨after, inside, matched, absent⟩ := Regex.find?_eq_some search
            rw [walkFrom_of_forall_none _ after fun place after before =>
              joined.nonEmptyAt_eq_none composes (absent place after before)]
            cases taken : found.isEmpty with
            | true =>
                cases first : tokenizer.nonEmptyAt text found.start with
                | none =>
                    simp only [taken, if_true, first]
                    rw [walkFrom_of_none first]
                    apply induction
                    omega
                | some pair =>
                    obtain ⟨alternative, stop⟩ := pair
                    have bounds := Tokenizer.nonEmptyAt_bounds inside first
                    have rest := @induction stop stop (by omega)
                    simp only [taken, if_true, first]
                    rw [walkFrom_of_some inside first, rest]
                    rfl
            | false =>
                obtain ⟨alternative, first, alone⟩ := joined.nonEmptyAt_eq composes matched taken
                have bounds := Tokenizer.nonEmptyAt_bounds inside first
                have rest := @induction found.stop found.stop (by omega)
                have wins : context.winner tokenizer text base found = .ok alternative := by
                  rw [winner, alone]
                simp only [taken, Bool.false_eq_true, if_false, wins]
                rw [walkFrom_of_some inside first, rest]
                rfl

end

/-- Scanning is walking, at every depth of sub-parsers. -/
theorem scanWith_eq_walkWith {context : ScanContext}
    (joined : ∀ tokenizer ∈ context.tokenizers, tokenizer.Joined) (levels : Nat) :
    context.scanWith levels = context.walkWith levels := by
  induction levels with
  | zero => rfl
  | succ levels induction =>
      funext parser text base
      rw [scanWith, walkWith]
      cases known : context.tokenizers.find? (·.parser == parser) with
      | none => rfl
      | some tokenizer =>
          have joined := joined tokenizer (List.mem_of_find?_eq_some known)
          cases composes : tokenizer.composite with
          | none =>
              have empty := joined.alternatives composes
              simp only [composes]
              rw [walkFrom_of_forall_none _ (Nat.zero_le text.size), walkFrom_end (Nat.le_refl _),
                (by simpa using List.find?_some known : tokenizer.parser = parser)]
              intro place _ _
              rw [Tokenizer.nonEmptyAt, empty]
              rfl
          | some composite =>
              simp only [composes]
              rw [scanFrom_eq_walkFrom joined composes (by omega), induction]

end ScanContext

end RowGrammar
