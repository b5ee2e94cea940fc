import RowGrammar.Proofs.Repair.Variants

/-!
# Final results of a repair

A repair runs out of budget only while it finds new precedence configurations, and there are only so
many of them.  Once a configuration comes up again, the repair goes on from it as it did before.  So
it would go in circles for ever, and no budget would make it converge.
-/

namespace RowGrammar.Engine

open Grammar

variable {text : String} {expected : Tree} {maxNodes : Option Nat} {engine : Engine}

/-- The engine that a repair tries after a number of others, if it goes on that far. -/
def tried (text : String) (expected : Tree) (maxNodes : Option Nat) (engine : Engine)
    (step : Nat) : Engine :=
  (retry text expected maxNodes)^[step] engine

theorem tried_succ (step : Nat) : engine.tried text expected maxNodes (step + 1) =
    (engine.retry text expected maxNodes).tried text expected maxNodes step := rfl

theorem tried_succ_eq_retry (step : Nat) : engine.tried text expected maxNodes (step + 1) =
    (engine.tried text expected maxNodes step).retry text expected maxNodes :=
  Function.iterate_succ_apply' ..

/-- The signatures of the engines that a repair tries first. -/
def signatures (text : String) (expected : Tree) (maxNodes : Option Nat) (engine : Engine)
    (count : Nat) : List String :=
  (List.range count).map fun step => (engine.tried text expected maxNodes step).grammar.signature

theorem signatures_succ (count : Nat) :
    engine.signatures text expected maxNodes (count + 1) =
      engine.grammar.signature ::
        (engine.retry text expected maxNodes).signatures text expected maxNodes count := by
  rw [signatures, signatures, List.range_succ_eq_map, List.map_cons, List.map_map]
  rfl

/-- A repair that runs out of budget has found only new signatures. -/
theorem nodup_signatures {budget relocations : Nat} {seen : List String}
    (limited : OutOfBudget
      (repairFrom text expected maxNodes budget seen relocations engine).1) :
    (engine.signatures text expected maxNodes budget).Nodup ∧
      ∀ signature ∈ engine.signatures text expected maxNodes budget, signature ∉ seen := by
  induction budget generalizing seen relocations engine with
  | zero => exact ⟨List.nodup_nil, nofun⟩
  | succ budget induction =>
      cases turn text expected maxNodes seen relocations engine with
      | repeated _ stops =>
          rw [stops] at limited
          obtain ⟨_, same⟩ := limited
          cases same
      | settled settles stops =>
          rw [stops] at limited
          exact absurd limited settles.not_outOfBudget
      | diverged fresh _ goes =>
          rw [goes] at limited
          obtain ⟨distinct, apart⟩ := induction limited
          rw [signatures_succ, List.nodup_cons, List.forall_mem_cons]
          refine ⟨⟨?_, distinct⟩, fresh, ?_⟩
          · exact fun member => apart _ member List.mem_cons_self
          · exact fun signature member held =>
              apart signature member (List.mem_cons_of_mem _ held)

/-- A repair that finds a loop has gone on from every engine before one whose signature it has seen.
-/
theorem exists_repeated {budget relocations count : Nat} {seen : List String}
    (looped : (repairFrom text expected maxNodes budget seen relocations engine).1 =
      .ok (.nonConvergent count .loopDetected)) :
    ∃ later, (∀ step < later,
        (engine.tried text expected maxNodes step).Diverges text expected maxNodes) ∧
      (engine.tried text expected maxNodes later).grammar.signature ∈
        engine.signatures text expected maxNodes later ++ seen := by
  induction budget generalizing seen relocations engine with
  | zero => cases looped
  | succ budget induction =>
      cases turn text expected maxNodes seen relocations engine with
      | repeated known _ => exact ⟨0, nofun, known⟩
      | settled settles stops =>
          rw [stops] at looped
          cases looped
          cases settles
      | diverged _ diverges goes =>
          rw [goes] at looped
          obtain ⟨later, earlier, known⟩ := induction looped
          refine ⟨later + 1, ?_, ?_⟩
          · intro step below
            cases step with
            | zero => exact diverges
            | succ step => exact earlier step (Nat.lt_of_succ_lt_succ below)
          · -- The signature that was just seen is now the first of those tried.
            rw [signatures_succ, tried_succ]
            simp only [List.mem_append, List.mem_cons, List.cons_append] at known ⊢
            exact or_left_comm.mp known

theorem exists_tried (budget relocations : Nat) (seen : List String) (engine : Engine) :
    ∃ step ≤ budget, (repairFrom text expected maxNodes budget seen relocations engine).2 =
      engine.tried text expected maxNodes step := by
  induction budget generalizing seen relocations engine with
  | zero => exact ⟨0, Nat.le_refl 0, rfl⟩
  | succ budget induction =>
      cases turn text expected maxNodes seen relocations engine with
      | repeated _ stops => exact ⟨0, Nat.zero_le _, by rw [stops]; rfl⟩
      | settled _ stops => exact ⟨0, Nat.zero_le _, by rw [stops]; rfl⟩
      | diverged _ _ goes =>
          obtain ⟨step, below, same⟩ := induction (relocations + _)
            (engine.grammar.signature :: seen) (engine.retry text expected maxNodes)
          exact ⟨step + 1, Nat.succ_le_succ below, (congrArg Prod.snd (goes _)).trans same⟩

section

variable (compiled : engine.Compiled)

include compiled

theorem Compiled.tried (step : Nat) :
    engine.Variant (engine.tried text expected maxNodes step) := by
  induction step with
  | zero => exact compiled.variant
  | succ step induction =>
      rw [tried_succ_eq_retry]
      exact induction.retry text expected maxNodes

theorem signature_tried_eq_iff (step other : Nat) :
    (engine.tried text expected maxNodes step).grammar.signature =
        (engine.tried text expected maxNodes other).grammar.signature ↔
      (engine.tried text expected maxNodes step).grammar.configuration =
        (engine.tried text expected maxNodes other).grammar.configuration :=
  (compiled.tried other).signature_eq_iff (compiled.tried step)

/-- A repair has no more configurations to find than there are. -/
theorem budget_le_orderingCount {budget relocations : Nat} {seen : List String}
    (limited : OutOfBudget
      (repairFrom text expected maxNodes budget seen relocations engine).1) :
    budget ≤ engine.grammar.orderingCount := by
  have distinct := (nodup_signatures limited).1
  rw [signatures, List.nodup_map_iff_inj_on List.nodup_range] at distinct
  have found : ((List.range budget).map fun step =>
      (engine.tried text expected maxNodes step).grammar.configuration).Nodup := by
    rw [List.nodup_map_iff_inj_on List.nodup_range]
    intro step inside other inside' same
    exact distinct step inside other inside'
      ((signature_tried_eq_iff compiled step other).mpr same)
  have listed : ((List.range budget).map fun step =>
      (engine.tried text expected maxNodes step).grammar.configuration) ⊆
        engine.grammar.configurations := by
    intro configuration member
    obtain ⟨step, _, rfl⟩ := List.mem_map.mp member
    have variant : engine.Variant (engine.tried text expected maxNodes step) :=
      compiled.tried step
    rw [variant.configurations_eq compiled.variant]
    exact variant.configuration_mem
  -- So many different configurations are found among those there are.
  have bound := found.length_le_of_subset listed
  rwa [List.length_map, List.length_range, length_configurations] at bound

/-- From a configuration that comes up again, the repair goes on as it did before. -/
theorem configuration_tried_add {earlier later : Nat}
    (same : (engine.tried text expected maxNodes later).grammar.configuration =
      (engine.tried text expected maxNodes earlier).grammar.configuration) (further : Nat) :
    (engine.tried text expected maxNodes (later + further)).grammar.configuration =
      (engine.tried text expected maxNodes (earlier + further)).grammar.configuration := by
  induction further with
  | zero => exact same
  | succ further induction =>
      rw [← Nat.add_assoc, ← Nat.add_assoc, tried_succ_eq_retry, tried_succ_eq_retry]
      exact (compiled.tried _).retry_congr (compiled.tried _) induction ..

/-- A repair that finds a loop would never come to an engine that keeps to the expected tree. -/
theorem diverges_of_looped {budget relocations count : Nat}
    (looped : (repairFrom text expected maxNodes budget [] relocations engine).1 =
      .ok (.nonConvergent count .loopDetected)) (step : Nat) :
    (engine.tried text expected maxNodes step).Diverges text expected maxNodes := by
  obtain ⟨later, diverge, known⟩ := exists_repeated looped
  rw [List.append_nil, signatures] at known
  obtain ⟨earlier, below, same⟩ := List.mem_map.mp known
  rw [List.mem_range] at below
  have again := configuration_tried_add compiled
    ((signature_tried_eq_iff compiled later earlier).mp same.symm)
  -- An engine after the repeated one parses like one that comes as much earlier.
  induction step using Nat.strong_induction_on with
  | h step induction =>
      by_cases early : step < later
      · exact diverge step early
      · obtain ⟨further, rfl⟩ := Nat.exists_eq_add_of_le (Nat.le_of_not_lt early)
        obtain ⟨report, parsed, diverged⟩ := induction (earlier + further) (by omega)
        refine ⟨report, ?_, diverged⟩
        rw [(compiled.tried _).parse_eq (compiled.tried _) (again further)]
        exact parsed

end

/-- The results of a repair are final.  It does not run out of a budget that is greater than the
number of precedence configurations; a larger budget changes nothing where it does not run out of
one; it finds a loop only if every engine it might still try leaves the expected tree; and of the
engines it tries, just those with the same configuration have the same signature. -/
theorem repair_final (compiled : engine.Compiled) (text : String) (expected : Tree)
    (maxNodes : Option Nat) :
    (∀ budget, engine.grammar.orderingCount < budget →
      ¬OutOfBudget (engine.repair text expected { maxIterations := budget, maxNodes }).1) ∧
    (∀ budget larger, budget ≤ larger →
      ¬OutOfBudget (engine.repair text expected { maxIterations := budget, maxNodes }).1 →
      engine.repair text expected { maxIterations := larger, maxNodes } =
        engine.repair text expected { maxIterations := budget, maxNodes }) ∧
    (∀ budget count,
      (engine.repair text expected { maxIterations := budget, maxNodes }).1 =
        .ok (.nonConvergent count .loopDetected) →
      (∀ step, (engine.tried text expected maxNodes step).Diverges text expected maxNodes) ∧
      ∀ other moves tree,
        (engine.repair text expected { maxIterations := other, maxNodes }).1 ≠
          .ok (.converged moves tree)) ∧
    (∀ budget, ∃ step ≤ budget,
      (engine.repair text expected { maxIterations := budget, maxNodes }).2 =
        engine.tried text expected maxNodes step) ∧
    ∀ step other,
      (engine.tried text expected maxNodes step).grammar.signature =
          (engine.tried text expected maxNodes other).grammar.signature ↔
        (engine.tried text expected maxNodes step).grammar.configuration =
          (engine.tried text expected maxNodes other).grammar.configuration := by
  refine ⟨?_, ?_, ?_, fun budget => exists_tried budget 0 [] engine,
    signature_tried_eq_iff compiled⟩
  · intro budget enough limited
    exact absurd (budget_le_orderingCount compiled limited) (Nat.not_le_of_lt enough)
  · intro budget larger enough ends
    exact repairFrom_mono enough ends
  · intro budget count looped
    have diverge := diverges_of_looped compiled looped
    refine ⟨diverge, ?_⟩
    intro other moves tree converged
    obtain ⟨_, report, parsed, agreed, _⟩ := repairFrom_converged (Prod.ext converged rfl)
    obtain ⟨step, _, same⟩ := exists_tried other 0 [] engine
    obtain ⟨report', parsed', diverged⟩ := diverge step
    rw [← same] at parsed'
    cases parsed.symm.trans parsed'
    rw [agreed] at diverged
    cases diverged

/-- Pairs of numbers by two rules.  Whichever comes first makes all of the pairs. -/
def conflictingRows : List Row := [
  .token "main" "Num" "\\d+",
  .token "main" "WS" "\\s+",
  .production "main" "Left" "Num Num" "1",
  .production "main" "Right" "Num Num" "2"]

def conflictingEngine : Engine :=
  ((ofRows conflictingRows).toOption).get (by decide +kernel)

def mixedPairs : Tree :=
  .branch "?" [.branch "Left" [.leaf "Num" "1", .leaf "Num" "2"],
    .branch "Right" [.leaf "Num" "3", .leaf "Num" "4"]]

/-- There are three ways to order the rules, and none makes a pair by each of them. -/
theorem repair_conflicting :
    conflictingEngine.grammar.orderingCount = 3 ∧
      (conflictingEngine.repair "1 2 3 4" mixedPairs {}).1 =
        .ok (.nonConvergent 2 .loopDetected) ∧
      ∀ budget moves tree,
        (conflictingEngine.repair "1 2 3 4" mixedPairs { maxIterations := budget }).1 ≠
          .ok (.converged moves tree) := by
  have loops : (conflictingEngine.repair "1 2 3 4" mixedPairs {}).1 =
      .ok (.nonConvergent 2 .loopDetected) := eq_ok_of_toOption (by decide +kernel)
  have compiled : conflictingEngine.Compiled := .ofRows (eq_ok_get _)
  obtain ⟨_, _, final, _⟩ := repair_final compiled "1 2 3 4" mixedPairs none
  refine ⟨?_, loops, (final _ _ loops).2⟩
  rw [orderingCount_eq]
  decide +kernel

end RowGrammar.Engine
