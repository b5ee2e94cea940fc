import RowGrammar.Proofs.Derivation.Inference
import RowGrammar.Proofs.Reloaded
import RowGrammar.Proofs.Repair.Retrying
import RowGrammar.Proofs.Reproduction

/-!
# Derived grammars

A candidate is tested with the expected tree at hand, below a node limit and while its precedence is
repaired.  None of this is needed any more once it has passed: the rows that a derivation returns
make an engine that parses the source into the example, strict or not.
-/

namespace RowGrammar

namespace Derivation

theorem exists_of_visitWidthsFrom_eq_error {σ ε : Type} {visit : σ → List Nat → Except ε σ}
    {before caps : List Nat} {budget : Nat} {state : σ} {error : ε}
    (failed : visitWidthsFrom visit before budget caps state = .error error) :
    ∃ state widths, visit state widths = .error error := by
  induction caps generalizing before budget state with
  | nil =>
      rw [visitWidthsFrom] at failed
      split at failed
      · exact ⟨_, _, failed⟩
      · cases failed
  | cons cap caps induction =>
      rw [visitWidthsFrom] at failed
      obtain ⟨_, _, _, inner⟩ := exists_of_foldlM_eq_error failed
      exact induction inner

/-- A search returns the rows of a candidate that has passed its test. -/
theorem exists_candidate {candidate : List Nat → Except DeriveError (Option (List Row))}
    {options : DeriveOptions} {caps : List Nat} {derived : DerivedGrammar}
    (found : (searchWidths candidate options caps).outcome = .ok (some derived)) :
    ∃ widths, candidate widths = .ok (some derived.rows) := by
  rw [searchWidths] at found
  split at found
  · rename_i result stopped
    obtain ⟨_, budget, _, visited⟩ := exists_of_foldlM_eq_error stopped
    obtain ⟨tested, widths, tried⟩ := exists_of_visitWidthsFrom_eq_error visited
    rw [visitCandidate] at tried
    split at tried
    · cases tried
      cases found
    · split at tried
      · rename_i rows passed
        cases tried
        cases found
        exact ⟨widths, passed⟩
      · cases tried
      · cases tried
        cases found
  · cases found

/-- A candidate passes when its repair ends well, and its rows are then those of the repaired
grammar. -/
theorem exists_repaired {rows others : List Row} {source : String} {example_ : Tree}
    {options : DeriveOptions} (passed : trial rows source example_ options = .ok (some others)) :
    ∃ (engine repaired : Engine) (report : ParseReport),
      Engine.ofRows rows = .ok engine ∧ repaired.Compiled ∧
      others = repaired.grammar.toRows ∧
      repaired.parse source
        { maxNodes := some (example_.size * 2 + 16), expected := some example_ } = .ok report ∧
      report.divergence = none ∧ report.tree = example_ := by
  rw [trial] at passed
  split at passed
  · cases passed
  · rename_i engine made
    split at passed
    · cases passed
    · rename_i repaired converged
      cases passed
      have compiled := Engine.Compiled.repair (.ofRows made) converged
      obtain ⟨_, report, parsed, agreed, same⟩ := Engine.repairFrom_converged converged
      exact ⟨engine, repaired, report, made, compiled, rfl, parsed, agreed, same⟩
    · cases passed

/-- The rows of a derived grammar make an engine that parses the source into the example, outside
of strict mode and in it. -/
theorem derive_reproduces {source : String} {example_ : Tree} {seeds : List Row}
    {options : DeriveOptions} {derived : DerivedGrammar}
    (derives : derive source example_ seeds options = .ok (some derived)) :
    ∃ engine, Engine.ofRows derived.rows = .ok engine ∧
      ∀ strict, ∃ report, engine.parse source { strict } = .ok report ∧
        report.tree = example_ := by
  rw [derive, deriveReport] at derives
  split at derives
  · cases derives
  · rename_i tokens inferred
    have inferred : inferTokens (parserName seeds example_) source example_
        (usableSeeds seeds (parserName seeds example_)) = .ok tokens := by
      cases checked : checkExample example_ with
      | error error =>
          rw [checked] at inferred
          cases inferred
      | ok checked_ =>
          rw [checked] at inferred
          exact inferred
    have seeded (row : Row) (member : row ∈ usableSeeds seeds (parserName seeds example_)) :
        row.parser = parserName seeds example_ := by
      obtain ⟨seed, _, rfl⟩ := List.mem_map.mp member
      rfl
    obtain ⟨widths, passed⟩ := exists_candidate derives
    obtain ⟨_, repaired, report, made, compiled, written, parsed, agreed, same⟩ :=
      exists_repaired passed
    have recognized := recognized_of_inferTokens inferred seeded made
    have below : example_.size < example_.size * 2 + 16 := by omega
    obtain ⟨engine, _, rules, reloaded, relabels, _⟩ := compiled.exists_reloaded
    rw [← written] at reloaded
    refine ⟨engine, reloaded, ?_⟩
    intro strict
    obtain ⟨plain, reproduced, found⟩ :=
      compiled.parse_reproduced parsed agreed same below recognized strict
    exact ⟨plain.renumber rules, by rw [relabels.parse_eq, reproduced]; rfl, found⟩

/-- A sum whose operands are equal. -/
def sumExample : Tree :=
  .branch "Sum" [.leaf "Num" "1", .leaf "Plus" "+", .leaf "Num" "1"]

theorem derive_sum :
    ∃ derived engine, derive "1+1" sumExample [] {} = .ok (some derived) ∧
      Engine.ofRows derived.rows = .ok engine ∧
      ∀ strict, ∃ report, engine.parse "1+1" { strict } = .ok report ∧
        report.tree = sumExample := by
  have succeeds : ((derive "1+1" sumExample [] {}).toOption.bind id).isSome := by decide +kernel
  cases derives : derive "1+1" sumExample [] {} with
  | error error =>
      rw [derives] at succeeds
      cases succeeds
  | ok outcome =>
      cases outcome with
      | none =>
          rw [derives] at succeeds
          cases succeeds
      | some derived =>
          obtain ⟨engine, made, reproduces⟩ := derive_reproduces derives
          exact ⟨derived, engine, rfl, made, reproduces⟩

end Derivation

end RowGrammar
