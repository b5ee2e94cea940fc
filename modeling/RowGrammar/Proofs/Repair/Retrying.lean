import RowGrammar.Proofs.Compiled
import RowGrammar.Repair

/-!
# Turns of a repair

A repair tries one engine after the other.  Which one comes next depends on the last one alone, and
the budget only says how far the repair goes.  So a result that is not for lack of budget stays the
same with a larger one.
-/

namespace RowGrammar.Engine

variable {text : String} {expected : Tree} {maxNodes : Option Nat} {engine : Engine}

/-- The engine that is tried after an engine: the rule behind a divergence is moved, if there is one
and it can move. -/
def retry (text : String) (expected : Tree) (maxNodes : Option Nat) (engine : Engine) : Engine :=
  match engine.parse text { maxNodes, expected := some expected } with
  | .ok report => (report.divergence.bind engine.resolve?).getD engine
  | .error _ => engine

/-- Some reduction leaves the expected tree. -/
def Diverges (text : String) (expected : Tree) (maxNodes : Option Nat) (engine : Engine) : Prop :=
  ∃ report, engine.parse text { maxNodes, expected := some expected } = .ok report ∧
    report.divergence.isSome

/-- What a repair ends with at an engine for which no reduction leaves the expected tree. -/
inductive Settles (text : String) (expected : Tree) (maxNodes : Option Nat) (engine : Engine)
    (relocations : Nat) : Except RunError RepairOutcome → Prop where
  | failed {error : RunError} :
      engine.parse text { maxNodes, expected := some expected } = .error error →
      Settles text expected maxNodes engine relocations (.error error)
  | converged {report : ParseReport} :
      engine.parse text { maxNodes, expected := some expected } = .ok report →
      report.divergence = none → report.tree = expected →
      Settles text expected maxNodes engine relocations (.ok (.converged relocations report.tree))
  | incomplete {report : ParseReport} :
      engine.parse text { maxNodes, expected := some expected } = .ok report →
      report.divergence = none → report.tree ≠ expected →
      Settles text expected maxNodes engine relocations
        (.ok (.nonConvergent relocations .incomplete))

/-- How a repair goes on from an engine, whatever the budget is. -/
inductive Turn (text : String) (expected : Tree) (maxNodes : Option Nat) (seen : List String)
    (relocations : Nat) (engine : Engine) : Prop where
  | repeated :
      engine.grammar.signature ∈ seen →
      (∀ budget, repairFrom text expected maxNodes (budget + 1) seen relocations engine =
        (.ok (.nonConvergent relocations .loopDetected), engine)) →
      Turn text expected maxNodes seen relocations engine
  | settled {result : Except RunError RepairOutcome} :
      engine.Settles text expected maxNodes relocations result →
      (∀ budget, repairFrom text expected maxNodes (budget + 1) seen relocations engine =
        (result, engine)) →
      Turn text expected maxNodes seen relocations engine
  | diverged {moves : Nat} :
      engine.grammar.signature ∉ seen → engine.Diverges text expected maxNodes →
      (∀ budget, repairFrom text expected maxNodes (budget + 1) seen relocations engine =
        repairFrom text expected maxNodes budget (engine.grammar.signature :: seen)
          (relocations + moves) (engine.retry text expected maxNodes)) →
      Turn text expected maxNodes seen relocations engine

/-- There is nothing else that a repair can do. -/
theorem turn (text : String) (expected : Tree) (maxNodes : Option Nat) (seen : List String)
    (relocations : Nat) (engine : Engine) :
    Turn text expected maxNodes seen relocations engine := by
  by_cases known : engine.grammar.signature ∈ seen
  · refine .repeated known fun budget => ?_
    rw [repairFrom, if_pos (List.contains_iff_mem.mpr known)]
  · have fresh : ¬seen.contains engine.grammar.signature = true :=
      fun held => known (List.contains_iff_mem.mp held)
    cases parsed : engine.parse text { maxNodes, expected := some expected } with
    | error error =>
        refine .settled (.failed parsed) fun budget => ?_
        simp only [repairFrom, if_neg fresh, parsed]
    | ok report =>
        cases agreed : report.divergence with
        | none =>
            by_cases same : report.tree = expected
            · refine .settled (.converged parsed agreed same) fun budget => ?_
              simp only [repairFrom, if_neg fresh, parsed, agreed, if_pos same]
            · refine .settled (.incomplete parsed agreed same) fun budget => ?_
              simp only [repairFrom, if_neg fresh, parsed, agreed, if_neg same]
        | some divergence =>
            have diverges : engine.Diverges text expected maxNodes :=
              ⟨report, parsed, by rw [agreed]; rfl⟩
            have next : engine.retry text expected maxNodes =
                (engine.resolve? divergence).getD engine := by
              simp only [retry, parsed, agreed, Option.bind_some]
            cases resolved : engine.resolve? divergence with
            | none =>
                refine @Turn.diverged _ _ _ _ _ _ 0 known diverges fun budget => ?_
                simp only [repairFrom, if_neg fresh, parsed, agreed, next, resolved,
                  Option.getD_none, Nat.add_zero]
            | some moved =>
                refine @Turn.diverged _ _ _ _ _ _ 1 known diverges fun budget => ?_
                simp only [repairFrom, if_neg fresh, parsed, agreed, next, resolved,
                  Option.getD_some]

/-- The repair has run out of budget. -/
def OutOfBudget (result : Except RunError RepairOutcome) : Prop :=
  ∃ relocations, result = .ok (.nonConvergent relocations .iterationLimit)

theorem Settles.not_outOfBudget {relocations : Nat} {result : Except RunError RepairOutcome}
    (settles : engine.Settles text expected maxNodes relocations result) :
    ¬OutOfBudget result := by
  intro limited
  obtain ⟨_, rfl⟩ := limited
  cases settles

/-- The result is the same with any larger budget, unless there was not enough. -/
theorem repairFrom_mono {budget larger : Nat} (enough : budget ≤ larger) {seen : List String}
    {relocations : Nat}
    (ends : ¬OutOfBudget
      (repairFrom text expected maxNodes budget seen relocations engine).1) :
    repairFrom text expected maxNodes larger seen relocations engine =
      repairFrom text expected maxNodes budget seen relocations engine := by
  induction budget generalizing larger seen relocations engine with
  | zero => exact absurd ⟨relocations, rfl⟩ ends
  | succ budget induction =>
      cases larger with
      | zero => omega
      | succ larger =>
          cases turn text expected maxNodes seen relocations engine with
          | repeated _ stops => rw [stops, stops]
          | settled _ stops => rw [stops, stops]
          | diverged _ _ goes =>
              rw [goes] at ends
              rw [goes, goes]
              exact induction (Nat.le_of_succ_le_succ enough) ends

/-- What holds of the first engine and of the next one after each holds of all of them. -/
theorem repairFrom_induction {property : Engine → Prop}
    (next : ∀ engine, property engine → property (engine.retry text expected maxNodes))
    {budget : Nat} {seen : List String} {relocations : Nat} (first : property engine) :
    property (repairFrom text expected maxNodes budget seen relocations engine).2 := by
  induction budget generalizing seen relocations engine with
  | zero => exact first
  | succ budget induction =>
      cases turn text expected maxNodes seen relocations engine with
      | repeated _ stops =>
          rw [stops]
          exact first
      | settled _ stops =>
          rw [stops]
          exact first
      | diverged _ _ goes =>
          rw [goes]
          exact induction (next engine first)

/-- What every move of a rule keeps is kept by trying the next engine. -/
theorem retry_induction {property : Engine → Prop}
    (moves : ∀ {parser : String} {group : Nat} {rule : RuleId} {moved : Engine},
      engine.relocate? parser group rule = some moved → property moved)
    (holds : property engine) : property (engine.retry text expected maxNodes) := by
  unfold retry
  split
  · rename_i report _
    cases resolved : report.divergence.bind engine.resolve? with
    | none => exact holds
    | some moved =>
        obtain ⟨divergence, _, moved⟩ := Option.bind_eq_some_iff.mp resolved
        exact moves moved
  · exact holds

theorem Compiled.retry (compiled : engine.Compiled) :
    (engine.retry text expected maxNodes).Compiled :=
  retry_induction compiled.relocate compiled

theorem Compiled.repair (compiled : engine.Compiled) {options : RepairOptions}
    {result : Except RunError RepairOutcome} {repaired : Engine}
    (ran : engine.repair text expected options = (result, repaired)) : repaired.Compiled := by
  have kept : (engine.repair text expected options).2.Compiled :=
    repairFrom_induction (fun _ compiled => compiled.retry) compiled
  rwa [ran] at kept

/-- Where a repair ends well, the engine it leaves parses the text as expected. -/
theorem repairFrom_converged {found : Tree} {budget relocations count : Nat}
    {seen : List String} {repaired : Engine}
    (converged : repairFrom text expected maxNodes budget seen relocations engine =
      (.ok (.converged count found), repaired)) :
    found = expected ∧
      ∃ report, repaired.parse text { maxNodes, expected := some expected } = .ok report ∧
        report.divergence = none ∧ report.tree = expected := by
  induction budget generalizing seen relocations engine with
  | zero => cases converged
  | succ budget induction =>
      cases turn text expected maxNodes seen relocations engine with
      | repeated _ stops =>
          rw [stops] at converged
          cases converged
      | settled settles stops =>
          rw [stops] at converged
          cases converged
          cases settles with
          | converged parsed agreed same => exact ⟨same, _, parsed, agreed, same⟩
      | diverged _ _ goes =>
          rw [goes] at converged
          exact induction converged

end RowGrammar.Engine
