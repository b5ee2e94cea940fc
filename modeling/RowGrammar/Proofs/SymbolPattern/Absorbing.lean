import Mathlib.Data.List.Chain
import Mathlib.Order.Monotone.Basic
import RowGrammar.Proofs.SymbolPattern.Compiling
import RowGrammar.Proofs.SymbolPattern.Preference

/-!
# Matching with absorption

When no two unrecognized nodes are neighbours, matching with absorption is matching without the
unrecognized nodes: every node that is taken takes the unrecognized one behind it along.  Leaving it
behind never helps, because nothing that follows could take it.
-/

namespace RowGrammar

/-! ## Places without unrecognized nodes -/

/-- The nodes without the unrecognized ones. -/
def recognizedNodes (nodes : List NodeTypeId) : List NodeTypeId :=
  nodes.filter (· != unrecognized)

/-- The place that a position has when the unrecognized nodes are left out: how many recognized ones
stand before it. -/
def recognizedBefore (nodes : List NodeTypeId) (position : Nat) : Nat :=
  (nodes.take position).countP (· != unrecognized)

/-- No two unrecognized nodes are neighbours. -/
def Lone (nodes : List NodeTypeId) : Prop :=
  nodes.IsChain fun left right => ¬(left = unrecognized ∧ right = unrecognized)

/-- The position behind so many recognized nodes and behind the unrecognized ones that follow. -/
def restoredPosition : List NodeTypeId → Nat → Nat
  | [], place => place
  | node :: nodes, place =>
      if node = unrecognized then restoredPosition nodes place + 1
      else
        match place with
        | 0 => 0
        | place + 1 => restoredPosition nodes place + 1

section

variable {nodes : List NodeTypeId}

theorem getElem?_restoredPosition (nodes : List NodeTypeId) (place : Nat) :
    nodes[restoredPosition nodes place]? = (recognizedNodes nodes)[place]? := by
  induction nodes generalizing place with
  | nil => rfl
  | cons node nodes induction =>
      by_cases unknown : node = unrecognized
      · simp [restoredPosition, recognizedNodes, unknown, induction]
      · cases place with
        | zero => simp [restoredPosition, recognizedNodes, unknown]
        | succ place => simp [restoredPosition, recognizedNodes, unknown, induction]

theorem restoredPosition_lt_succ (nodes : List NodeTypeId) (place : Nat) :
    restoredPosition nodes place < restoredPosition nodes (place + 1) := by
  induction nodes generalizing place with
  | nil => exact Nat.lt_succ_self _
  | cons node nodes induction =>
      by_cases unknown : node = unrecognized
      · simp [restoredPosition, unknown, induction]
      · cases place with
        | zero => simp [restoredPosition, unknown]
        | succ place => simp [restoredPosition, unknown, induction]

theorem strictMono_restoredPosition (nodes : List NodeTypeId) :
    StrictMono (restoredPosition nodes) :=
  strictMono_nat_of_lt_succ (restoredPosition_lt_succ nodes)

/-- A position that is not that of an unrecognized node is restored from its place. -/
theorem restoredPosition_recognizedBefore {position : Nat} (inside : position ≤ nodes.length)
    (known : nodes[position]? ≠ some unrecognized) :
    restoredPosition nodes (recognizedBefore nodes position) = position := by
  induction nodes generalizing position with
  | nil =>
      obtain rfl : position = 0 := by simpa using inside
      rfl
  | cons node nodes induction =>
      cases position with
      | zero =>
          have recognized : node ≠ unrecognized := by simpa using known
          simp [recognizedBefore, restoredPosition, recognized]
      | succ position =>
          have further := induction (by simpa using inside) (by simpa using known)
          by_cases unknown : node = unrecognized
          · simpa [recognizedBefore, restoredPosition, unknown] using further
          · simpa [recognizedBefore, restoredPosition, unknown] using further

/-- So many recognized nodes stand before the restored position of a place. -/
theorem recognizedBefore_restoredPosition {place : Nat}
    (inside : place ≤ (recognizedNodes nodes).length) :
    recognizedBefore nodes (restoredPosition nodes place) = place := by
  induction nodes generalizing place with
  | nil =>
      obtain rfl : place = 0 := by simpa [recognizedNodes] using inside
      rfl
  | cons node nodes induction =>
      by_cases unknown : node = unrecognized
      · have inner : place ≤ (recognizedNodes nodes).length := by
          simpa [recognizedNodes, unknown] using inside
        have further := induction inner
        simpa [recognizedBefore, restoredPosition, unknown] using further
      · cases place with
        | zero => simp [recognizedBefore, restoredPosition, unknown]
        | succ place =>
            have inner : place ≤ (recognizedNodes nodes).length := by
              simpa [recognizedNodes, unknown] using inside
            have further := induction inner
            simpa [recognizedBefore, restoredPosition, unknown] using further

theorem restoredPosition_length (nodes : List NodeTypeId) :
    restoredPosition nodes (recognizedNodes nodes).length = nodes.length := by
  have before : recognizedBefore nodes nodes.length = (recognizedNodes nodes).length := by
    rw [recognizedBefore, List.take_length, List.countP_eq_length_filter, recognizedNodes]
  rw [← before]
  exact restoredPosition_recognizedBefore (Nat.le_refl _) (by simp)

theorem restoredPosition_zero (known : nodes[0]? ≠ some unrecognized) :
    restoredPosition nodes 0 = 0 :=
  restoredPosition_recognizedBefore (Nat.zero_le _) known

/-- The next place is one node further, or two if an unrecognized one follows. -/
theorem restoredPosition_succ {place : Nat}
    (lone : Lone nodes)
    (inside : place < (recognizedNodes nodes).length) :
    restoredPosition nodes (place + 1) =
      if nodes[restoredPosition nodes place + 1]? = some unrecognized
      then restoredPosition nodes place + 2 else restoredPosition nodes place + 1 := by
  induction nodes generalizing place with
  | nil => cases inside
  | cons node nodes induction =>
      obtain ⟨_, others⟩ := List.isChain_cons.mp lone
      by_cases unknown : node = unrecognized
      · have inner : place < (recognizedNodes nodes).length := by
          simpa [recognizedNodes, unknown] using inside
        simp only [restoredPosition, unknown, if_true, induction others inner,
          List.getElem?_cons_succ]
        split_ifs
        · rfl
        · rfl
      · cases place with
        | zero =>
            have here : restoredPosition (node :: nodes) 0 = 0 :=
              restoredPosition_zero (by simpa using unknown)
            rw [here, restoredPosition, if_neg unknown]
            cases nodes with
            | nil => rfl
            | cons next nodes =>
                obtain ⟨single, _⟩ := List.isChain_cons.mp others
                by_cases follows : next = unrecognized
                · have known : nodes[0]? ≠ some unrecognized := by
                    intro found
                    exact single _ (by simpa [List.head?_eq_getElem?] using found) ⟨follows, rfl⟩
                  simp [restoredPosition, follows, restoredPosition_zero known]
                · simp [restoredPosition, follows]
        | succ place =>
            have inner : place < (recognizedNodes nodes).length := by
              simpa [recognizedNodes, unknown] using inside
            simp only [restoredPosition, unknown, if_false, induction others inner,
              List.getElem?_cons_succ]
            split_ifs
            · rfl
            · rfl

end

namespace SymbolPattern

/-- A pattern that looks at nothing but the recognized nodes that it takes. -/
inductive Recognizing : SymbolPattern → Prop where
  | empty : Recognizing .empty
  | symbols {members : List NodeTypeId} : unrecognized ∉ members → Recognizing (.symbols members)
  | concat {items : List SymbolPattern} :
      (∀ item ∈ items, Recognizing item) → Recognizing (.concat items)
  | alternation {branches : List SymbolPattern} :
      (∀ branch ∈ branches, Recognizing branch) → Recognizing (.alternation branches)
  | loop {body : SymbolPattern} {least : Nat} {most : Option Nat} {greedy : Bool} :
      Recognizing body → Recognizing (.loop body least most greedy)
  | capture {body : SymbolPattern} : Recognizing body → Recognizing (.capture body)

theorem accept_isSome_iff {path : Path} : (accept path).isSome ↔ path.Captures := by
  rw [Option.isSome_iff_exists]
  simp only [accept_eq_some_iff]
  exact ⟨fun ⟨_, captures, _⟩ => captures, fun captures => ⟨path, captures, rfl⟩⟩

/-! ## Paths that have left an unrecognized node behind -/

/-- One path stands before the unrecognized node at `stop`, and the other one, which has taken it
along, has captured something if the first one has. -/
structure Lags (stop : Nat) (behind ahead : Path) : Prop where
  behind_stop : behind.stop = stop
  ahead_stop : ahead.stop = stop + 1
  captures : behind.Captures → ahead.Captures

/-- Whenever the first continuation succeeds before the node at `stop`, the second one succeeds
behind it. -/
def Carries (stop : Nat) (next next' : Continuation) : Prop :=
  ∀ behind ahead, Lags stop behind ahead → (next behind).isSome → (next' ahead).isSome

theorem accept_carries (stop : Nat) : Carries stop accept accept := by
  intro behind ahead lags
  rw [accept_isSome_iff, accept_isSome_iff]
  exact lags.captures

theorem isSome_orElse_iff {first : Option Path} {second : Unit → Option Path} :
    (first.orElse second).isSome ↔ first.isSome ∨ (second ()).isSome := by
  cases first <;> simp

theorem map_orElse {change : Path → Path} {first : Option Path} {second : Unit → Option Path} :
    (first.orElse second).map change =
      (first.map change).orElse fun _ => (second ()).map change := by
  cases first <;> rfl

/-- A loop succeeds if it succeeds by another iteration or without one. -/
theorem isSome_runLoop_iff {body : Path → Continuation → Option Path} {least : Nat}
    {most : Option Nat} {greedy : Bool} {fuel count : Nat} {path : Path} {next : Continuation} :
    (runLoop body least most greedy (fuel + 1) count path next).isSome ↔
      (most.all (count < ·) = true ∧ (body path fun reached =>
        if reached.stop = path.stop ∧ least ≤ count then none
        else runLoop body least most greedy fuel (count + 1) reached next).isSome) ∨
      (least ≤ count ∧ (next path).isSome) := by
  rw [runLoop]
  cases greedy with
  | true =>
      rw [if_pos rfl, isSome_orElse_iff]
      apply or_congr
      · split_ifs with more <;> simp [more]
      · split_ifs with enough <;> simp [enough]
  | false =>
      rw [if_neg (by simp), isSome_orElse_iff, or_comm]
      apply or_congr
      · split_ifs with more <;> simp [more]
      · split_ifs with enough <;> simp [enough]

theorem runLoop_carries {stop : Nat} {body : Path → Continuation → Option Path}
    (carries : ∀ next next', Carries stop next next' →
      Carries stop (body · next) (body · next')) (least : Nat) (most : Option Nat) (greedy : Bool)
    (fuel count : Nat) {next next' : Continuation} (follows : Carries stop next next') :
    Carries stop (runLoop body least most greedy fuel count · next)
      (runLoop body least most greedy fuel count · next') := by
  induction fuel generalizing count with
  | zero => exact fun _ _ _ succeeds => nomatch succeeds
  | succ fuel induction =>
      intro behind ahead lags succeeds
      dsimp only at succeeds ⊢
      rw [isSome_runLoop_iff] at succeeds ⊢
      rcases succeeds with ⟨more, goesOn⟩ | ⟨enough, leaves⟩
      · refine .inl ⟨more, carries _ _ ?_ behind ahead lags goesOn⟩
        intro behind' ahead' lags'
        have stays : behind'.stop = behind.stop := lags'.behind_stop.trans lags.behind_stop.symm
        have stays' : ahead'.stop = ahead.stop := lags'.ahead_stop.trans lags.ahead_stop.symm
        by_cases enough : least ≤ count
        · simp [stays, enough]
        · simpa [enough] using induction (count + 1) behind' ahead' lags'
      · exact .inr ⟨enough, follows behind ahead lags leaves⟩

section

variable {input : Array NodeTypeId} {absorb : Bool} {stop : Nat}

mutual

theorem run_carries (waits : input[stop]? = some unrecognized) {pattern : SymbolPattern}
    (recognizing : Recognizing pattern) {next next' : Continuation}
    (follows : Carries stop next next') :
    Carries stop (run input absorb pattern · next) (run input absorb pattern · next') := by
  intro behind ahead lags succeeds
  cases pattern with
  | empty => exact follows behind ahead lags succeeds
  | any => cases recognizing
  | symbols members =>
      cases recognizing with
      | symbols apart =>
          simp [run, stepOver, lags.behind_stop, waits, apart] at succeeds
  | concat items =>
      cases recognizing with
      | concat all => exact runItems_carries waits all follows behind ahead lags succeeds
  | alternation branches =>
      cases recognizing with
      | alternation all => exact runBranches_carries waits all follows behind ahead lags succeeds
  | loop body least most greedy =>
      cases recognizing with
      | loop inner =>
          exact runLoop_carries (fun _ _ => run_carries waits inner) least most greedy _ 0 follows
            behind ahead lags succeeds
  | capture body =>
      cases recognizing with
      | capture inner =>
          refine run_carries waits inner ?_ behind ahead lags succeeds
          intro behind' ahead' lags'
          apply follows
          refine ⟨lags'.behind_stop, lags'.ahead_stop, ?_⟩
          -- what is captured without a step is empty
          rintro ⟨span, taken, filled⟩
          cases taken
          simp [Span.isEmpty, lags.behind_stop, lags'.behind_stop] at filled
  | look direction negated body => cases recognizing

theorem runItems_carries (waits : input[stop]? = some unrecognized) {items : List SymbolPattern}
    (recognizing : ∀ item ∈ items, Recognizing item) {next next' : Continuation}
    (follows : Carries stop next next') :
    Carries stop (runItems input absorb items · next) (runItems input absorb items · next') := by
  cases items with
  | nil => exact follows
  | cons item items =>
      obtain ⟨first, others⟩ := List.forall_mem_cons.mp recognizing
      exact run_carries waits first (runItems_carries waits others follows)

theorem runBranches_carries (waits : input[stop]? = some unrecognized)
    {branches : List SymbolPattern} (recognizing : ∀ branch ∈ branches, Recognizing branch)
    {next next' : Continuation} (follows : Carries stop next next') :
    Carries stop (runBranches input absorb branches · next)
      (runBranches input absorb branches · next') := by
  cases branches with
  | nil => exact fun _ _ _ succeeds => nomatch succeeds
  | cons branch branches =>
      obtain ⟨first, others⟩ := List.forall_mem_cons.mp recognizing
      intro behind ahead lags succeeds
      dsimp only [runBranches] at succeeds ⊢
      rw [isSome_orElse_iff] at succeeds ⊢
      rcases succeeds with here | later
      · exact .inl (run_carries waits first follows behind ahead lags here)
      · exact .inr (runBranches_carries waits others follows behind ahead lags later)

end

end

/-! ## Restored paths -/

def Span.restored (nodes : List NodeTypeId) (span : Span) : Span :=
  ⟨restoredPosition nodes span.start, restoredPosition nodes span.stop⟩

def Path.restored (nodes : List NodeTypeId) (path : Path) : Path :=
  ⟨restoredPosition nodes path.stop, path.capture.map (Span.restored nodes)⟩

def Match.restored (nodes : List NodeTypeId) (found : Match) : Match :=
  ⟨restoredPosition nodes found.start, restoredPosition nodes found.stop,
    found.capture.restored nodes⟩

theorem Span.isEmpty_restored (nodes : List NodeTypeId) (span : Span) :
    (span.restored nodes).isEmpty = span.isEmpty := by
  rw [Span.isEmpty, Span.isEmpty, decide_eq_decide]
  exact (strictMono_restoredPosition nodes).le_iff_le

theorem accept_restored (nodes : List NodeTypeId) (path : Path) :
    accept (path.restored nodes) = (accept path).map (Path.restored nodes) := by
  obtain ⟨stop, capture⟩ := path
  cases capture with
  | none => rfl
  | some span =>
      have empty := span.isEmpty_restored nodes
      simp only [accept, Path.restored, Option.map_some, empty]
      split_ifs
      · rfl
      · rfl

theorem Path.Onward.restored {nodes : List NodeTypeId} {path reached : Path}
    (onward : path.Onward (recognizedNodes nodes).length reached) :
    (path.restored nodes).Onward nodes.length (reached.restored nodes) := by
  have mono := strictMono_restoredPosition nodes
  constructor
  case forward => exact mono.monotone onward.forward
  case inside =>
    intro moves
    rw [← restoredPosition_length nodes]
    exact mono.monotone (onward.inside (mono.lt_iff_lt.mp moves))
  case captured =>
    rcases onward.captured with kept | ⟨span, taken, after, before⟩
    · exact .inl (congrArg (Option.map _) kept)
    · refine .inr ⟨span.restored nodes, ?_, mono.monotone after, mono.monotone before⟩
      rw [Path.restored, taken]
      rfl

/-! ## Matching without the unrecognized nodes -/

section

variable {nodes : List NodeTypeId}

/-- From a path on, one continuation does on restored paths what the other one does, and gains
nothing from an unrecognized node that is left behind. -/
structure Restores (nodes : List NodeTypeId) (path : Path) (next next' : Continuation) : Prop where
  restored : ∀ reached, path.Onward (recognizedNodes nodes).length reached →
    next (reached.restored nodes) = (next' reached).map (Path.restored nodes)
  carries : ∀ stop, restoredPosition nodes path.stop < stop → nodes[stop]? = some unrecognized →
    Carries stop next next

theorem Restores.onward {path reached : Path} {next next' : Continuation}
    (restores : Restores nodes path next next')
    (onward : path.Onward (recognizedNodes nodes).length reached) :
    Restores nodes reached next next' where
  restored _ further := restores.restored _ (onward.trans further)
  carries stop later := restores.carries stop
    (Nat.lt_of_le_of_lt ((strictMono_restoredPosition nodes).monotone onward.forward) later)

/-- The unrecognized node behind one that is taken is always taken along. -/
theorem stepOver_restored (lone : Lone nodes) {accepts : NodeTypeId → Bool} {path : Path}
    {next next' : Continuation} (restores : Restores nodes path next next') :
    stepOver nodes.toArray true accepts (path.restored nodes) next =
      (stepOver (recognizedNodes nodes).toArray false accepts path next').map
        (Path.restored nodes) := by
  simp only [stepOver, List.getElem?_toArray, Bool.true_and, Bool.false_and, Bool.false_eq_true,
    if_false, beq_iff_eq]
  have stop_eq : (path.restored nodes).stop = restoredPosition nodes path.stop := rfl
  rw [stop_eq, getElem?_restoredPosition]
  cases present : (recognizedNodes nodes)[path.stop]? with
  | none => rfl
  | some node =>
      cases accepted : accepts node with
      | false => simp [accepted]
      | true =>
          have inside : path.stop < (recognizedNodes nodes).length :=
            (List.getElem?_eq_some_iff.mp present).1
          have further := restores.restored { path with stop := path.stop + 1 } (.advance inside)
          have place := restoredPosition_succ lone inside
          have moved {stop : Nat} (same : restoredPosition nodes (path.stop + 1) = stop) :
              Path.restored nodes { path with stop := path.stop + 1 } =
                { path.restored nodes with stop } := by
            rw [Path.restored, same]
            rfl
          simp only [accepted, if_true, ← further]
          split_ifs at place ⊢ with follows
          · have left := restores.carries _ (Nat.lt_succ_self _) follows
              { path.restored nodes with stop := restoredPosition nodes path.stop + 1 }
              { path.restored nodes with stop := restoredPosition nodes path.stop + 2 }
              ⟨rfl, rfl, id⟩
            rw [moved place]
            cases found : next
                { path.restored nodes with stop := restoredPosition nodes path.stop + 2 } with
            | some result => rfl
            | none =>
                rw [found, Option.isSome_none, Bool.false_eq_true, imp_false,
                  Option.not_isSome_iff_eq_none] at left
                exact left
          · rw [moved place]

/-- A loop passes through restored paths if its body does. -/
theorem runLoop_restored {body body' : Path → Continuation → Option Path}
    (carries : ∀ stop, nodes[stop]? = some unrecognized → ∀ next next', Carries stop next next' →
      Carries stop (body · next) (body · next'))
    (bodies : ∀ path next next', Restores nodes path next next' →
      body (path.restored nodes) next = (body' path next').map (Path.restored nodes))
    (least : Nat) (most : Option Nat) (greedy : Bool) {fuel fuel' count : Nat} {path : Path}
    (enough : remaining nodes.length least count (path.restored nodes) < fuel)
    (enough' : remaining (recognizedNodes nodes).length least count path < fuel')
    {next next' : Continuation} (restores : Restores nodes path next next') :
    runLoop body least most greedy fuel count (path.restored nodes) next =
      (runLoop body' least most greedy fuel' count path next').map (Path.restored nodes) := by
  induction fuel generalizing fuel' count path with
  | zero => cases enough
  | succ fuel induction =>
      cases fuel' with
      | zero => cases enough'
      | succ fuel' =>
          have goOn : (if most.all (count < ·) then
                body (path.restored nodes) fun reached =>
                  if reached.stop = (path.restored nodes).stop ∧ least ≤ count then none
                  else runLoop body least most greedy fuel (count + 1) reached next
              else none) =
              (if most.all (count < ·) then
                body' path fun reached =>
                  if reached.stop = path.stop ∧ least ≤ count then none
                  else runLoop body' least most greedy fuel' (count + 1) reached next'
              else none).map (Path.restored nodes) := by
            split_ifs
            case neg => rfl
            apply bodies
            constructor
            case restored =>
              intro reached onward
              have same : (reached.restored nodes).stop = (path.restored nodes).stop ↔
                  reached.stop = path.stop := (strictMono_restoredPosition nodes).injective.eq_iff
              by_cases idle : reached.stop = path.stop ∧ least ≤ count
              · rw [if_pos idle, if_pos ⟨same.mpr idle.1, idle.2⟩]
                rfl
              · have idle' : ¬((reached.restored nodes).stop = (path.restored nodes).stop ∧
                    least ≤ count) := by rwa [same]
                have less := remaining_lt onward idle
                have less' := remaining_lt onward.restored idle'
                rw [if_neg idle, if_neg idle']
                exact induction (by omega) (by omega) (restores.onward onward)
            case carries =>
              intro stop later waits behind ahead lags
              have before := lags.behind_stop
              have after := lags.ahead_stop
              have moves : behind.stop ≠ (path.restored nodes).stop := by
                rw [before]
                exact Nat.ne_of_gt later
              have moves' : ahead.stop ≠ (path.restored nodes).stop := by
                rw [after]
                exact Nat.ne_of_gt (Nat.lt_succ_of_lt later)
              simp only [moves, moves', false_and, if_false]
              exact runLoop_carries (carries stop waits) least most greedy fuel (count + 1)
                (restores.carries stop later waits) behind ahead lags
          have leave : (if least ≤ count then next (path.restored nodes) else none) =
              (if least ≤ count then next' path else none).map (Path.restored nodes) := by
            split_ifs
            · exact restores.restored path (.refl path)
            · rfl
          rw [runLoop, runLoop]
          cases greedy with
          | true => rw [if_pos rfl, if_pos rfl, map_orElse, ← goOn, ← leave]
          | false =>
              rw [if_neg Bool.false_ne_true, if_neg Bool.false_ne_true, map_orElse, ← goOn, ← leave]

mutual

theorem run_restored (lone : Lone nodes) {pattern : SymbolPattern}
    (recognizing : Recognizing pattern) {path : Path} {next next' : Continuation}
    (restores : Restores nodes path next next') :
    run nodes.toArray true pattern (path.restored nodes) next =
      (run (recognizedNodes nodes).toArray false pattern path next').map (Path.restored nodes) := by
  cases pattern with
  | empty => exact restores.restored path (.refl path)
  | any => cases recognizing
  | symbols members => exact stepOver_restored lone restores
  | concat items =>
      cases recognizing with
      | concat all => exact runItems_restored lone all restores
  | alternation branches =>
      cases recognizing with
      | alternation all => exact runBranches_restored lone all restores
  | loop body least most greedy =>
      cases recognizing with
      | loop inner =>
          refine runLoop_restored ?_ ?_ least most greedy ?_ ?_ restores
          · intro stop waits next next' follows
            exact run_carries (by simpa using waits) inner follows
          · exact fun path next next' restores => run_restored lone inner restores
          · simp only [remaining, List.size_toArray]
            omega
          · simp only [remaining, List.size_toArray]
            omega
  | capture body =>
      cases recognizing with
      | capture inner =>
          refine run_restored lone inner ⟨?_, ?_⟩
          · intro reached onward
            exact restores.restored _ onward.capture
          · intro stop later waits behind ahead lags
            apply restores.carries stop later waits
            refine ⟨lags.behind_stop, lags.ahead_stop, ?_⟩
            intro _
            refine ⟨_, rfl, ?_⟩
            rw [Span.isEmpty, decide_eq_false_iff_not, lags.ahead_stop]
            exact Nat.not_le_of_lt (Nat.lt_succ_of_lt later)
  | look direction negated body => cases recognizing

theorem runItems_restored (lone : Lone nodes) {items : List SymbolPattern}
    (recognizing : ∀ item ∈ items, Recognizing item) {path : Path} {next next' : Continuation}
    (restores : Restores nodes path next next') :
    runItems nodes.toArray true items (path.restored nodes) next =
      (runItems (recognizedNodes nodes).toArray false items path next').map
        (Path.restored nodes) := by
  cases items with
  | nil => exact restores.restored path (.refl path)
  | cons item items =>
      obtain ⟨first, others⟩ := List.forall_mem_cons.mp recognizing
      refine run_restored lone first ⟨?_, ?_⟩
      · intro reached onward
        exact runItems_restored lone others (restores.onward onward)
      · intro stop later waits
        exact runItems_carries (by simpa using waits) others (restores.carries stop later waits)

theorem runBranches_restored (lone : Lone nodes) {branches : List SymbolPattern}
    (recognizing : ∀ branch ∈ branches, Recognizing branch) {path : Path}
    {next next' : Continuation} (restores : Restores nodes path next next') :
    runBranches nodes.toArray true branches (path.restored nodes) next =
      (runBranches (recognizedNodes nodes).toArray false branches path next').map
        (Path.restored nodes) := by
  cases branches with
  | nil => rfl
  | cons branch branches =>
      obtain ⟨first, others⟩ := List.forall_mem_cons.mp recognizing
      rw [runBranches, runBranches, run_restored lone first restores,
        runBranches_restored lone others restores, map_orElse]

end

/-- Nothing matches behind the end. -/
theorem matchAt_eq_none {input : Array NodeTypeId} {start : Nat} (outside : input.size ≤ start)
    (pattern : SymbolPattern) (absorb : Bool) : pattern.matchAt input start absorb = none := by
  cases matched : pattern.matchAt input start absorb with
  | none => rfl
  | some found =>
      have bounds := matchAt_bounds matched
      omega

theorem matchAt_restored {pattern : SymbolPattern} (recognizing : Recognizing pattern)
    (lone : Lone nodes) (place : Nat) :
    pattern.matchAt nodes.toArray (restoredPosition nodes place) true =
      (pattern.matchAt (recognizedNodes nodes).toArray place false).map (Match.restored nodes) := by
  have accepts : Restores nodes ⟨place, none⟩ accept accept :=
    ⟨fun reached _ => accept_restored nodes reached, fun stop _ _ => accept_carries stop⟩
  have same := run_restored lone recognizing accepts
  have start : (Path.mk place none).restored nodes = ⟨restoredPosition nodes place, none⟩ := rfl
  rw [start] at same
  rw [matchAt, matchAt, same]
  cases run (recognizedNodes nodes).toArray false pattern ⟨place, none⟩ accept with
  | none => rfl
  | some path =>
      obtain ⟨stop, capture⟩ := path
      cases capture with
      | none => rfl
      | some span => rfl

/-- With absorption a pattern matches where it matches without the unrecognized nodes, and the match
is the restored one: before each of its bounds stand as many recognized nodes as without the
unrecognized ones, and no unrecognized node follows there. -/
theorem matchAt_absorbing {pattern : SymbolPattern} (recognizing : Recognizing pattern)
    (lone : Lone nodes) {start : Nat} (known : nodes[start]? ≠ some unrecognized) :
    pattern.matchAt nodes.toArray start true =
        (pattern.matchAt (recognizedNodes nodes).toArray (recognizedBefore nodes start) false).map
          (Match.restored nodes) ∧
      ∀ place ≤ (recognizedNodes nodes).length,
        recognizedBefore nodes (restoredPosition nodes place) = place ∧
          nodes[restoredPosition nodes place]? ≠ some unrecognized := by
  refine ⟨?_, fun place inside => ⟨recognizedBefore_restoredPosition inside, ?_⟩⟩
  · rcases Nat.lt_or_ge nodes.length start with outside | inside
    · have all : recognizedBefore nodes start = (recognizedNodes nodes).length := by
        rw [recognizedBefore, List.take_of_length_le (Nat.le_of_lt outside),
          List.countP_eq_length_filter, recognizedNodes]
      have outside' : (recognizedNodes nodes).toArray.size ≤ recognizedBefore nodes start :=
        Nat.le_of_eq all.symm
      rw [matchAt_eq_none (Nat.le_of_lt outside), matchAt_eq_none outside']
      rfl
    · rw [← matchAt_restored recognizing lone, restoredPosition_recognizedBefore inside known]
  · rw [getElem?_restoredPosition, recognizedNodes]
    intro found
    have member := List.mem_of_getElem? found
    simp at member

end

/-- A sum whose last operands and signs are followed by unrecognized text. -/
theorem matchAt_absorbing_sum :
    let sum : SymbolPattern :=
      .capture (.concat [.symbols [1], .loop (.concat [.symbols [2], .symbols [1]]) 1 none true])
    let nodes : List NodeTypeId := [0, 1, 2, 1, 0, 2, 0, 1, 0, 1]
    compile operands "Sum" "Num (?: Plus Num )+" = .ok sum ∧
      Recognizing sum ∧ Lone nodes ∧ nodes[1]? ≠ some unrecognized ∧
      recognizedNodes nodes = [1, 2, 1, 2, 1, 1] ∧ recognizedBefore nodes 1 = 0 ∧
      sum.matchAt #[1, 2, 1, 2, 1, 1] 0 false = some ⟨0, 5, ⟨0, 5⟩⟩ ∧
      sum.matchAt nodes.toArray 1 true = some ⟨1, 9, ⟨1, 9⟩⟩ := by
  intro sum nodes
  have operand : Recognizing (.symbols [1]) := .symbols (by decide)
  have sign : Recognizing (.symbols [2]) := .symbols (by decide)
  have recognizing : Recognizing sum := by
    apply Recognizing.capture
    apply Recognizing.concat
    simp [operand, sign, Recognizing.loop, Recognizing.concat]
  have lone : Lone nodes := by
    unfold Lone
    decide
  have known : nodes[1]? ≠ some unrecognized := by decide
  have inner : sum.matchAt #[1, 2, 1, 2, 1, 1] 0 false = some ⟨0, 5, ⟨0, 5⟩⟩ := by
    decide +kernel
  refine ⟨by cbv, recognizing, lone, known, by decide, by decide, inner, ?_⟩
  have restored := (matchAt_absorbing recognizing lone known).1
  rw [show recognizedNodes nodes = [1, 2, 1, 2, 1, 1] by decide,
    show recognizedBefore nodes 1 = 0 by decide, inner] at restored
  rw [restored]
  decide

end SymbolPattern

end RowGrammar
