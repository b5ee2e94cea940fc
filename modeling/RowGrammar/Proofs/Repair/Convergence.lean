import RowGrammar.Proofs.Repair.Retrying
import RowGrammar.Proofs.Reproduction

/-!
# Repairs that converge

A repair parses with the expected tree at hand and below a node limit, and ends well when it gets
this tree without a divergence.  It does not ask whether the limit has stopped the parse.  So the
engine that it leaves parses the text as expected as long as the limit is greater than the tree, and
may go on from the expected tree when the limit is not.
-/

namespace RowGrammar

open ReductionContext

namespace Engine

/-- A parse that nothing has stopped is the same when nothing watches it. -/
theorem parse_unstopped {engine : Engine} {text : String} {maxNodes : Option Nat} {expected : Tree}
    {report : ParseReport}
    (parsed : engine.parse text { maxNodes, expected := some expected } = .ok report)
    (agreed : report.divergence = none) (running : report.halted = false) :
    ∃ plain, engine.parse text {} = .ok plain ∧ plain.tree = report.tree := by
  obtain ⟨tokens, session, final, tokenized, reduced⟩ := parse_eq_ok_iff.mp parsed
  obtain ⟨_, held⟩ := nodes_of_tokenized tokenized
  have reports := parse_report reduced
  have calm : final.Undisturbed false :=
    ⟨reports.halted.symm.trans running, reports.divergence.symm.trans agreed, nofun⟩
  obtain ⟨plain, _, reduced', _, same⟩ := (tolerates_unlimited rfl false).parse_eq_ok
    (Session.showsAll_tokens held _) reduced calm
  exact ⟨plain, parse_eq_ok_iff.mpr ⟨_, _, _, tokenized, reduced'⟩, same⟩

/-- A parse into a tree that is smaller than the limit is not stopped by it. -/
theorem parse_below {engine : Engine} {text : String} {maxNodes : Option Nat} {expected : Tree}
    {report : ParseReport}
    (parsed : engine.parse text { maxNodes, expected := some expected } = .ok report)
    (agreed : report.divergence = none)
    (below : ∀ limit, maxNodes = some limit → report.tree.size < limit) :
    report.halted = false := by
  obtain ⟨tokens, session, final, tokenized, reduced⟩ := parse_eq_ok_iff.mp parsed
  obtain ⟨size, _⟩ := parse_nodes tokenized rfl reduced
  rw [(parse_report reduced).halted]
  apply parse_running reduced agreed
  intro limit given
  rw [size]
  exact below limit given

/-- Where a repair converges, the engine it leaves parses the text into the expected tree unless the
node limit has stopped the last parse, and a limit that is greater than the tree does not. -/
theorem repair_converged {engine repaired : Engine} {text : String} {expected found : Tree}
    {options : RepairOptions} {relocations : Nat}
    (converged : engine.repair text expected options =
      (.ok (.converged relocations found), repaired)) :
    found = expected ∧
      ∃ report, repaired.parse text
          { maxNodes := options.maxNodes, expected := some expected } = .ok report ∧
        report.divergence = none ∧ report.tree = expected ∧
        (report.halted = false →
          ∃ plain, repaired.parse text {} = .ok plain ∧ plain.tree = expected) ∧
        ((∀ limit, options.maxNodes = some limit → expected.size < limit) →
          report.halted = false) := by
  obtain ⟨rfl, report, parsed, agreed, same⟩ := repairFrom_converged converged
  refine ⟨rfl, report, parsed, agreed, same, ?_, ?_⟩
  · intro running
    rw [← same]
    exact parse_unstopped parsed agreed running
  · intro below
    apply parse_below parsed agreed
    rwa [same]

/-- A number that one rule wraps, and another rule wraps once more. -/
def wrappedRows : List Row := [
  .token "main" "Num" "\\d+",
  .production "main" "Inner" "Num" "1",
  .production "main" "Outer" "Inner" "2"]

def wrappedEngine : Engine :=
  ((ofRows wrappedRows).toOption).get (by decide +kernel)

def innerTree : Tree :=
  .branch "Inner" [.leaf "Num" "1"]

theorem repair_wrapped :
    (wrappedEngine.repair "1" (.branch "Outer" [innerTree]) {}).1 =
        .ok (.converged 0 (.branch "Outer" [innerTree])) ∧
      ∃ plain, (wrappedEngine.repair "1" (.branch "Outer" [innerTree]) {}).2.parse "1" {} =
          .ok plain ∧
        plain.tree = .branch "Outer" [innerTree] := by
  have converges : (wrappedEngine.repair "1" (.branch "Outer" [innerTree]) {}).1 =
      .ok (.converged 0 (.branch "Outer" [innerTree])) := eq_ok_of_toOption (by decide +kernel)
  obtain ⟨_, report, _, _, _, plain, unlimited⟩ := repair_converged (Prod.ext converges rfl)
  exact ⟨converges, plain (unlimited nofun)⟩

/-- With room for just the inner branch, the repair ends well although the parse would go on. -/
theorem repair_stopped :
    (wrappedEngine.repair "1" innerTree { maxNodes := some 2 }).1 = .ok (.converged 0 innerTree) ∧
      ∃ plain, (wrappedEngine.repair "1" innerTree { maxNodes := some 2 }).2.parse "1" {} =
          .ok plain ∧
        plain.tree = .branch "Outer" [innerTree] ∧ plain.tree ≠ innerTree := by
  refine ⟨eq_ok_of_toOption (by decide +kernel), ?_⟩
  have parsed : (wrappedEngine.repair "1" innerTree { maxNodes := some 2 }).2.parse "1" {} =
      .ok _ := eq_ok_get (by decide +kernel)
  exact ⟨_, parsed, by decide +kernel, by decide +kernel⟩

end Engine

end RowGrammar
