import RowGrammar.Proofs.Token.Walk

/-!
# Scans side by side

Where a scan goes depends on the tokenizer and the text alone.  Two scans with the same tokenizer
therefore take the same parts of the text, and a relation between what they make of each part is one
between the scans.  A property of a single scan is a relation of the scan to itself.
-/

namespace RowGrammar.ScanContext

variable {context other : ScanContext} {delegate delegate' : String → Array Char → Nat → Scanned}
  {tokenizer : Tokenizer} {text : Array Char} {base gap position : Nat}

theorem mem_of_winner {found : Regex.Match} {alternative : Alternative}
    (wins : context.winner tokenizer text base found = .ok alternative) :
    alternative ∈ tokenizer.alternatives := by
  unfold winner at wins
  split at wins
  · cases wins
  · rename_i only alone
    cases wins
    have member : alternative ∈ [alternative] := List.mem_singleton_self _
    rw [← alone] at member
    exact List.mem_of_mem_filter member
  · cases wins

/-- The tokenizer alone decides which alternative takes part. -/
theorem winner_eq {found : Regex.Match} {alternative : Alternative}
    (wins : context.winner tokenizer text base found = .ok alternative) :
    other.winner tokenizer text base found = .ok alternative := by
  unfold winner at wins ⊢
  split at wins
  · cases wins
  · exact wins
  · cases wins

/-- A relation between scans of the text from a gap on that carries over from what follows a part to
the part and what follows it. -/
structure Alongside (context other : ScanContext)
    (delegate delegate' : String → Array Char → Nat → Scanned) (tokenizer : Tokenizer)
    (text : Array Char) (base : Nat) (related : Nat → Scanned → Scanned → Prop) : Prop where
  rest (gap : Nat) :
    related gap (context.unrecognized tokenizer.parser text base gap text.size)
      (other.unrecognized tokenizer.parser text base gap text.size)
  take {alternative : Alternative} {gap start stop : Nat} {next next' : Scanned} :
    alternative ∈ tokenizer.alternatives → gap ≤ start → start < stop → stop ≤ text.size →
    related stop next next' →
    related gap
      ((context.unrecognized tokenizer.parser text base gap start).andThen fun _ =>
        (alternative.taken delegate text base start stop).andThen fun _ => next)
      ((other.unrecognized tokenizer.parser text base gap start).andThen fun _ =>
        (alternative.taken delegate' text base start stop).andThen fun _ => next')
  fail {found : Regex.Match} {error error' : TokenizeError} (gap : Nat) :
    context.winner tokenizer text base found = .error error →
    other.winner tokenizer text base found = .error error' →
    related gap (.fail error) (.fail error')

/-- Two scans from a position on, where nothing that is still without a token lies behind it. -/
theorem Alongside.scanFrom {related : Nat → Scanned → Scanned → Prop}
    (alongside : Alongside context other delegate delegate' tokenizer text base related)
    {composite : Regex} {fuel : Nat} (before : gap ≤ position) :
    related gap (context.scanFrom delegate tokenizer composite text base fuel gap position)
      (other.scanFrom delegate' tokenizer composite text base fuel gap position) := by
  induction fuel generalizing gap position with
  | zero => exact alongside.rest gap
  | succ fuel induction =>
      rw [ScanContext.scanFrom, ScanContext.scanFrom]
      split
      · exact alongside.rest gap
      · split
        · exact alongside.rest gap
        · rename_i found search
          obtain ⟨after, inside, matched, _⟩ := Regex.find?_eq_some search
          have bounds := Regex.matchAt_stop matched inside
          split
          · split
            · rename_i alternative stop first
              obtain ⟨taken, within⟩ := Tokenizer.nonEmptyAt_bounds inside first
              obtain ⟨member, _⟩ := Tokenizer.nonEmptyAt_eq_some first
              exact alongside.take member (by omega) taken within (induction (Nat.le_refl _))
            · exact induction (by omega)
          · rename_i filled
            have taken : found.start ≠ found.stop := by simpa [Regex.Match.isEmpty] using filled
            cases wins : context.winner tokenizer text base found with
            | ok alternative =>
                rw [winner_eq wins]
                exact alongside.take (mem_of_winner wins) (by omega) (by omega) bounds.2
                  (induction (Nat.le_refl _))
            | error error =>
                cases wins' : other.winner tokenizer text base found with
                | ok alternative => cases wins.symm.trans (winner_eq wins')
                | error error' => exact alongside.fail gap wins wins'

end RowGrammar.ScanContext
