import Mathlib.Tactic.SplitIfs
import RowGrammar.Proofs.SymbolPattern.Routes

/-!
# Preferred matches

The search for a match finds the first route through a pattern, in the order of preference, that
captures something.  Where it finds none there is none, not even with idle iterations of loops.
-/

namespace RowGrammar.SymbolPattern

open Route

/-! ## The order of preference -/

namespace Earlier

theorem cons {choices others : Choices} (earlier : Earlier choices others) (choice : Nat) :
    Earlier (choice :: choices) (choice :: others) := by
  obtain ⟨common, first, second, rest, rest', before, rfl, rfl⟩ := earlier
  exact ⟨choice :: common, first, second, rest, rest', before, rfl, rfl⟩

theorem append {choices others : Choices} (earlier : Earlier choices others)
    (after after' : Choices) : Earlier (choices ++ after) (others ++ after') := by
  obtain ⟨common, first, second, rest, rest', before, rfl, rfl⟩ := earlier
  exact ⟨common, first, second, rest ++ after, rest' ++ after', before, by simp, by simp⟩

theorem append_left {choices others : Choices} (earlier : Earlier choices others)
    (before : Choices) : Earlier (before ++ choices) (before ++ others) := by
  induction before with
  | nil => exact earlier
  | cons choice before induction => exact induction.cons choice

theorem of_lt {first second : Nat} (before : first < second) (rest rest' : Choices) :
    Earlier (first :: rest) (second :: rest') :=
  ⟨[], first, second, rest, rest', before, rfl, rfl⟩

end Earlier

/-- The result comes from the preferred one of the routes at whose ends `next` succeeds. -/
def Prefers (route : Route) (path : Path) (next : Continuation) : Option Path → Prop
  | none => ∀ choices reached, route path choices reached → next reached = none
  | some found => ∃ choices reached, route path choices reached ∧ next reached = some found ∧
      ∀ others other, route path others other → (next other).isSome →
        others = choices ∧ other = reached ∨ Earlier choices others

namespace Prefers

variable {route first second : Route} {path : Path} {next : Continuation}

/-- Routes that differ in nothing have the same preferred one. -/
theorem congr (same : ∀ choices reached, first path choices reached ↔ second path choices reached)
    {result : Option Path} (prefers : Prefers first path next result) :
    Prefers second path next result := by
  cases result with
  | none => exact fun choices reached leads => prefers choices reached ((same _ _).mpr leads)
  | some found =>
      obtain ⟨choices, reached, leads, succeeds, best⟩ := prefers
      refine ⟨choices, reached, (same _ _).mp leads, succeeds, ?_⟩
      exact fun others other leads' => best others other ((same _ _).mpr leads')

theorem isSome_iff {result : Option Path} (prefers : Prefers route path next result) :
    result.isSome ↔ ∃ choices reached, route path choices reached ∧ (next reached).isSome := by
  cases result with
  | none =>
      refine ⟨nofun, ?_⟩
      intro ⟨choices, reached, leads, succeeds⟩
      rw [prefers choices reached leads] at succeeds
      cases succeeds
  | some found =>
      obtain ⟨choices, reached, leads, succeeds, _⟩ := prefers
      exact ⟨fun _ => ⟨choices, reached, leads, by rw [succeeds]; rfl⟩, fun _ => rfl⟩

theorem of_unreachable (unreachable : ∀ choices reached, ¬route path choices reached) :
    Prefers route path next none :=
  fun choices reached leads => absurd leads (unreachable choices reached)

theorem advance {allowed : Path → Prop} {count : Nat} (allows : allowed path) :
    Prefers (Route.advance allowed count) path next
      (next { path with stop := path.stop + count }) := by
  cases succeeds : next { path with stop := path.stop + count } with
  | none =>
      rintro _ _ ⟨_, rfl, rfl⟩
      exact succeeds
  | some found =>
      refine ⟨[], _, ⟨allows, rfl, rfl⟩, succeeds, ?_⟩
      rintro _ _ ⟨_, rfl, rfl⟩ _
      exact .inl ⟨rfl, rfl⟩

theorem stay {allowed : Prop} (allows : allowed) :
    Prefers (Route.stay allowed) path next (next path) := by
  cases succeeds : next path with
  | none =>
      rintro _ _ ⟨_, rfl, rfl⟩
      exact succeeds
  | some found =>
      refine ⟨[], path, ⟨allows, rfl, rfl⟩, succeeds, ?_⟩
      rintro _ _ ⟨_, rfl, rfl⟩ _
      exact .inl ⟨rfl, rfl⟩

/-- The second kind of routes counts only where no route of the first kind succeeds. -/
theorem otherwise {result : Option Path} (prefers : Prefers second path next result)
    (fails : ∀ choices reached, first path choices reached → next reached = none) :
    Prefers (Route.either first second) path next result := by
  cases result with
  | none =>
      rintro _ reached (⟨rest, rfl, leads⟩ | ⟨rest, rfl, leads⟩)
      · exact fails rest reached leads
      · exact prefers rest reached leads
  | some found =>
      obtain ⟨choices, reached, leads, succeeds, best⟩ := prefers
      refine ⟨1 :: choices, reached, .inr ⟨choices, rfl, leads⟩, succeeds, ?_⟩
      rintro _ other (⟨rest, rfl, leads'⟩ | ⟨rest, rfl, leads'⟩) succeeds'
      · rw [fails rest other leads'] at succeeds'
        cases succeeds'
      · rcases best rest other leads' succeeds' with ⟨rfl, rfl⟩ | earlier
        · exact .inl ⟨rfl, rfl⟩
        · exact .inr (earlier.cons 1)

theorem either {result : Option Path} {later : Unit → Option Path}
    (prefersFirst : Prefers first path next result)
    (prefersSecond : Prefers second path next (later ())) :
    Prefers (Route.either first second) path next (result.orElse later) := by
  cases result with
  | none => exact prefersSecond.otherwise prefersFirst
  | some found =>
      obtain ⟨choices, reached, leads, succeeds, best⟩ := prefersFirst
      refine ⟨0 :: choices, reached, .inl ⟨choices, rfl, leads⟩, succeeds, ?_⟩
      rintro _ other (⟨rest, rfl, leads'⟩ | ⟨rest, rfl, leads'⟩) succeeds'
      · rcases best rest other leads' succeeds' with ⟨rfl, rfl⟩ | earlier
        · exact .inl ⟨rfl, rfl⟩
        · exact .inr (earlier.cons 0)
      · exact .inr (.of_lt Nat.zero_lt_one _ _)

/-- The preferred route goes on with the preferred one of the first routes that can go on. -/
theorem andThen {go : Continuation} {result : Option Path}
    (prefersFirst : Prefers first path go result)
    (prefersSecond : ∀ choices middle, first path choices middle →
      Prefers second middle next (go middle)) :
    Prefers (Route.andThen first second) path next result := by
  cases result with
  | none =>
      rintro _ reached ⟨before, middle, after, leads, follows, rfl⟩
      have prefers := prefersSecond before middle leads
      rw [prefersFirst before middle leads] at prefers
      exact prefers after reached follows
  | some found =>
      obtain ⟨before, middle, leads, goes, best⟩ := prefersFirst
      have prefers := prefersSecond before middle leads
      rw [goes] at prefers
      obtain ⟨after, reached, follows, succeeds, best'⟩ := prefers
      refine ⟨before ++ after, reached, ⟨before, middle, after, leads, follows, rfl⟩, succeeds, ?_⟩
      rintro _ other ⟨before', middle', after', leads', follows', rfl⟩ succeeds'
      have goes' : (go middle').isSome :=
        (prefersSecond before' middle' leads').isSome_iff.mpr ⟨after', other, follows', succeeds'⟩
      rcases best before' middle' leads' goes' with ⟨rfl, rfl⟩ | earlier
      · rcases best' after' other follows' succeeds' with ⟨rfl, rfl⟩ | earlier
        · exact .inl ⟨rfl, rfl⟩
        · exact .inr (earlier.append_left before')
      · exact .inr (earlier.append after after')

/-- Routes whose ends are changed afterwards. -/
theorem map {change : Path → Path} {result : Option Path}
    (prefers : Prefers route path (fun reached => next (change reached)) result) :
    Prefers (fun path choices reached => ∃ inner, route path choices inner ∧ reached = change inner)
      path next result := by
  cases result with
  | none =>
      rintro choices _ ⟨inner, leads, rfl⟩
      exact prefers choices inner leads
  | some found =>
      obtain ⟨choices, inner, leads, succeeds, best⟩ := prefers
      refine ⟨choices, _, ⟨inner, leads, rfl⟩, succeeds, ?_⟩
      rintro others _ ⟨inner', leads', rfl⟩ succeeds'
      rcases best others inner' leads' succeeds' with ⟨rfl, rfl⟩ | earlier
      · exact .inl ⟨rfl, rfl⟩
      · exact .inr earlier

end Prefers

/-! ## Moving forward -/

/-- A path goes on to another one inside an input of `size` nodes; what is captured on the way lies
between them. -/
structure Path.Onward (size : Nat) (path reached : Path) : Prop where
  forward : path.stop ≤ reached.stop
  inside : path.stop < reached.stop → reached.stop ≤ size
  captured : reached.capture = path.capture ∨
    ∃ span, reached.capture = some span ∧ path.stop ≤ span.start ∧ span.stop ≤ reached.stop

namespace Path.Onward

variable {size : Nat} {path middle reached : Path}

theorem refl (path : Path) : path.Onward size path :=
  ⟨Nat.le_refl _, fun before => absurd before (Nat.lt_irrefl _), .inl rfl⟩

theorem trans (one : path.Onward size middle) (two : middle.Onward size reached) :
    path.Onward size reached := by
  refine ⟨Nat.le_trans one.forward two.forward, ?_, ?_⟩
  · intro moves
    rcases Nat.lt_or_ge middle.stop reached.stop with further | stays
    · exact two.inside further
    · have same := Nat.le_antisymm two.forward stays
      exact same ▸ one.inside (Nat.lt_of_lt_of_le moves stays)
  · rcases two.captured with kept | ⟨span, taken, after, before⟩
    · rcases one.captured with kept' | ⟨span, taken, after, before⟩
      · exact .inl (kept.trans kept')
      · exact .inr ⟨span, kept.trans taken, after, Nat.le_trans before two.forward⟩
    · exact .inr ⟨span, taken, Nat.le_trans one.forward after, before⟩

theorem advance {count : Nat} (inside : path.stop + count ≤ size) :
    path.Onward size { path with stop := path.stop + count } :=
  ⟨Nat.le_add_right _ _, fun _ => inside, .inl rfl⟩

theorem capture (onward : path.Onward size reached) :
    path.Onward size { reached with capture := some ⟨path.stop, reached.stop⟩ } :=
  ⟨onward.forward, onward.inside, .inr ⟨_, rfl, Nat.le_refl _, Nat.le_refl _⟩⟩

/-- Without a step forward nothing can be captured any more. -/
theorem captured_of_stays (onward : path.Onward size reached) (stays : reached.stop = path.stop)
    {span : Span} (taken : reached.capture = some span) (filled : span.isEmpty = false) :
    path.capture = some span := by
  rcases onward.captured with kept | ⟨other, taken', after, before⟩
  · exact kept ▸ taken
  · rw [taken, Option.some.injEq] at taken'
    subst taken'
    have empty : span.stop ≤ span.start := by omega
    rw [Span.isEmpty, decide_eq_false_iff_not] at filled
    exact absurd empty filled

end Path.Onward

/-- Routes that only lead onward. -/
def Route.Onward (size : Nat) (route : Route) : Prop :=
  ∀ path choices reached, route path choices reached → path.Onward size reached

theorem takes_onward (input : Array NodeTypeId) (absorb : Bool) (accepts : NodeTypeId → Bool) :
    (takes input absorb accepts).Onward input.size := by
  rintro path _ _ (⟨_, _, ⟨_, _, follows⟩, _, rfl⟩ | ⟨_, _, ⟨_, present, _⟩, _, rfl⟩)
  · have inside : path.stop + 2 ≤ input.size := (Array.getElem?_eq_some_iff.mp follows).1
    exact .advance inside
  · have inside : path.stop + 1 ≤ input.size := (Array.getElem?_eq_some_iff.mp present).1
    exact .advance inside

theorem iterates_onward {size : Nat} {idle greedy : Bool} {body : Route} {least : Nat}
    {most : Option Nat} (onward : body.Onward size) (count : Nat) :
    (Iterates idle body least most greedy count).Onward size := by
  intro path choices reached leads
  induction leads with
  | leave _ => exact .refl _
  | goOn _ leads _ _ induction => exact (onward _ _ _ leads).trans induction

mutual

theorem matches_onward (input : Array NodeTypeId) (absorb idle : Bool) (pattern : SymbolPattern) :
    Route.Onward input.size (Matches input absorb idle pattern) := by
  intro path choices reached leads
  cases pattern with
  | empty =>
      obtain ⟨_, _, rfl⟩ := leads
      exact .refl _
  | any => exact takes_onward input absorb _ _ _ _ leads
  | symbols members => exact takes_onward input absorb _ _ _ _ leads
  | concat items => exact matchesItems_onward input absorb idle items _ _ _ leads
  | alternation branches => exact matchesBranches_onward input absorb idle branches _ _ _ leads
  | loop body least most greedy =>
      exact iterates_onward (matches_onward input absorb idle body) 0 _ _ _ leads
  | capture body =>
      obtain ⟨inner, leads, rfl⟩ := leads
      exact (matches_onward input absorb idle body _ _ _ leads).capture
  | look direction negated body =>
      obtain ⟨_, _, rfl⟩ := leads
      exact .refl _

theorem matchesItems_onward (input : Array NodeTypeId) (absorb idle : Bool)
    (items : List SymbolPattern) :
    Route.Onward input.size (MatchesItems input absorb idle items) := by
  intro path choices reached leads
  cases items with
  | nil =>
      obtain ⟨_, _, rfl⟩ := leads
      exact .refl _
  | cons item items =>
      obtain ⟨_, _, _, one, two, _⟩ := leads
      exact (matches_onward input absorb idle item _ _ _ one).trans
        (matchesItems_onward input absorb idle items _ _ _ two)

theorem matchesBranches_onward (input : Array NodeTypeId) (absorb idle : Bool)
    (branches : List SymbolPattern) :
    Route.Onward input.size (MatchesBranches input absorb idle branches) := by
  intro path choices reached leads
  cases branches with
  | nil => exact leads.1.elim
  | cons branch branches =>
      rcases leads with ⟨_, _, leads⟩ | ⟨_, _, leads⟩
      · exact matches_onward input absorb idle branch _ _ _ leads
      · exact matchesBranches_onward input absorb idle branches _ _ _ leads

end

/-! ## The search -/

theorem stepOver_prefers (input : Array NodeTypeId) (absorb : Bool) (accepts : NodeTypeId → Bool)
    (path : Path) (next : Continuation) :
    Prefers (takes input absorb accepts) path next (stepOver input absorb accepts path next) := by
  have blocked (faces : ¬Faces input accepts path) :
      Prefers (takes input absorb accepts) path next none := by
    apply Prefers.of_unreachable
    rintro _ _ (⟨_, _, ⟨facing, _⟩, _⟩ | ⟨_, _, facing, _⟩)
    · exact faces facing
    · exact faces facing
  unfold stepOver
  cases present : input[path.stop]? with
  | none => exact blocked fun ⟨_, found, _⟩ => by rw [present] at found; cases found
  | some nodeType =>
      cases accepted : accepts nodeType with
      | false =>
          simp only [accepted, Bool.false_eq_true, if_false]
          apply blocked
          intro ⟨other, found, accepted'⟩
          rw [present, Option.some.injEq] at found
          subst found
          rw [accepted] at accepted'
          cases accepted'
      | true =>
          have faces : Faces input accepts path := ⟨nodeType, present, accepted⟩
          have single : Prefers (Route.advance (Faces input accepts) 1) path next _ :=
            .advance faces
          simp only [accepted, if_true]
          split_ifs with absorbs
          · simp only [Bool.and_eq_true, beq_iff_eq] at absorbs
            exact Prefers.either (.advance ⟨faces, absorbs⟩) single
          · refine Prefers.otherwise single ?_
            rintro _ _ ⟨⟨_, absorbs'⟩, _⟩
            refine absurd ?_ absorbs
            simpa only [Bool.and_eq_true, beq_iff_eq] using absorbs'

/-- The routes through at least one more iteration of a loop. -/
def goesOn (idle : Bool) (body : Route) (least : Nat) (most : Option Nat) (greedy : Bool)
    (count : Nat) : Route := fun path choices reached =>
  most.all (count < ·) = true ∧ andThen body (fun middle choices reached =>
    (middle.stop = path.stop → least ≤ count → idle = true) ∧
      Iterates idle body least most greedy (count + 1) middle choices reached) path choices reached

/-- The routes through a loop go on or leave. -/
theorem iterates_iff {idle greedy : Bool} {body : Route} {least : Nat} {most : Option Nat}
    {count : Nat} {path : Path} (choices : Choices) (reached : Path) :
    goOnOrLeave greedy (goesOn idle body least most greedy count) (stay (least ≤ count)) path
        choices reached ↔
      Iterates idle body least most greedy count path choices reached := by
  have goes (before : Choices) :
      goesOn idle body least most greedy count path before reached →
        Iterates idle body least most greedy count path ((if greedy then 0 else 1) :: before)
          reached := by
    rintro ⟨more, _, middle, _, one, ⟨active, two⟩, rfl⟩
    exact .goOn more one active two
  have leaves (after : Choices) : stay (least ≤ count) path after reached →
      Iterates idle body least most greedy count path ((if greedy then 1 else 0) :: after)
        reached := by
    rintro ⟨enough, rfl, rfl⟩
    exact .leave enough
  constructor
  · intro leads
    cases greedy with
    | true =>
        rcases leads with ⟨rest, rfl, leads⟩ | ⟨rest, rfl, leads⟩
        · exact goes rest leads
        · exact leaves rest leads
    | false =>
        rcases leads with ⟨rest, rfl, leads⟩ | ⟨rest, rfl, leads⟩
        · exact leaves rest leads
        · exact goes rest leads
  · intro leads
    cases leads with
    | leave enough =>
        cases greedy with
        | true => exact .inr ⟨[], rfl, enough, rfl, rfl⟩
        | false => exact .inl ⟨[], rfl, enough, rfl, rfl⟩
    | goOn more one active two =>
        cases greedy with
        | true => exact .inl ⟨_, rfl, more, _, _, _, one, ⟨active, two⟩, rfl⟩
        | false => exact .inr ⟨_, rfl, more, _, _, _, one, ⟨active, two⟩, rfl⟩

/-- How many iterations of a loop there can be after `count` of them. -/
def remaining (size least count : Nat) (path : Path) : Nat :=
  (least - count) + (size - path.stop)

/-- An iteration that is not idle leaves less to do. -/
theorem remaining_lt {size least count : Nat} {path middle : Path}
    (onward : path.Onward size middle) (active : ¬(middle.stop = path.stop ∧ least ≤ count)) :
    remaining size least (count + 1) middle < remaining size least count path := by
  have forward := onward.forward
  have inside := onward.inside
  unfold remaining
  by_cases enough : least ≤ count
  · have moves : path.stop < middle.stop := by omega
    have bounded := inside moves
    omega
  · omega

/-- No loop runs out of iterations. -/
theorem runLoop_prefers {size : Nat} {body : Route}
    {search : Path → Continuation → Option Path} (onward : body.Onward size)
    (prefers : ∀ path next, Prefers body path next (search path next)) (least : Nat)
    (most : Option Nat) (greedy : Bool) {fuel count : Nat} {path : Path}
    (enough : remaining size least count path < fuel) (next : Continuation) :
    Prefers (Iterates false body least most greedy count) path next
      (runLoop search least most greedy fuel count path next) := by
  induction fuel generalizing count path with
  | zero => cases enough
  | succ fuel induction =>
      have goOn : Prefers (goesOn false body least most greedy count) path next
          (if most.all (count < ·) then
            search path fun reached =>
              if reached.stop = path.stop ∧ least ≤ count then none
              else runLoop search least most greedy fuel (count + 1) reached next
          else none) := by
        by_cases more : most.all (count < ·) = true
        · rw [if_pos more]
          have iterate (before : Choices) (middle : Path) (leads : body path before middle) :
              Prefers (fun middle choices reached =>
                (middle.stop = path.stop → least ≤ count → false = true) ∧
                  Iterates false body least most greedy (count + 1) middle choices reached)
                middle next
                (if middle.stop = path.stop ∧ least ≤ count then none
                else runLoop search least most greedy fuel (count + 1) middle next) := by
            by_cases idle : middle.stop = path.stop ∧ least ≤ count
            · rw [if_pos idle]
              apply Prefers.of_unreachable
              intro _ _ ⟨active, _⟩
              cases active idle.1 idle.2
            · rw [if_neg idle]
              have less := remaining_lt (onward path before middle leads) idle
              refine (induction (by omega)).congr fun _ _ => ?_
              exact ⟨fun leads => ⟨fun stays enough => absurd ⟨stays, enough⟩ idle, leads⟩,
                fun leads => leads.2⟩
          exact ((prefers path _).andThen iterate).congr fun _ _ =>
            ⟨fun leads => ⟨more, leads⟩, fun leads => leads.2⟩
        · rw [if_neg more]
          exact .of_unreachable fun _ _ leads => more leads.1
      have leave : Prefers (Route.stay (least ≤ count)) path next
          (if least ≤ count then next path else none) := by
        by_cases enough : least ≤ count
        · rw [if_pos enough]
          exact .stay enough
        · rw [if_neg enough]
          exact .of_unreachable fun _ _ leads => enough leads.1
      refine Prefers.congr iterates_iff ?_
      rw [runLoop]
      cases greedy with
      | true => exact goOn.either leave
      | false => exact leave.either goOn

theorem looksBehind_iff {reaches : Nat → Bool} {position : Nat} :
    looksBehind reaches position = true ↔ ∃ start ≤ position, reaches start = true := by
  induction position with
  | zero => simp [looksBehind]
  | succ position induction =>
      rw [looksBehind, Bool.or_eq_true, induction]
      constructor
      · rintro (here | ⟨start, before, reached⟩)
        · exact ⟨_, Nat.le_refl _, here⟩
        · exact ⟨start, Nat.le_succ_of_le before, reached⟩
      · rintro ⟨start, before, reached⟩
        rcases Nat.lt_or_eq_of_le before with earlier | rfl
        · exact .inr ⟨start, Nat.le_of_lt_succ earlier, reached⟩
        · exact .inl reached

/-- A lookaround that holds changes nothing, and one that does not ends the search. -/
theorem look_prefers {found negated : Bool} {present : Prop} (same : found = true ↔ present)
    (path : Path) (next : Continuation) :
    Prefers (Route.stay (present ↔ negated = false)) path next
      (if found != negated then next path else none) := by
  split_ifs with holds
  · apply Prefers.stay
    rw [← same]
    cases found <;> cases negated <;> simp_all
  · apply Prefers.of_unreachable
    intro _ _ ⟨agrees, _⟩
    apply holds
    rw [← same] at agrees
    cases found <;> cases negated <;> simp_all

mutual

theorem run_prefers (input : Array NodeTypeId) (absorb : Bool) (pattern : SymbolPattern)
    (path : Path) (next : Continuation) :
    Prefers (Matches input absorb false pattern) path next
      (run input absorb pattern path next) := by
  cases pattern with
  | empty => exact Prefers.stay trivial
  | any => exact stepOver_prefers input absorb _ path next
  | symbols members => exact stepOver_prefers input absorb _ path next
  | concat items => exact runItems_prefers input absorb items path next
  | alternation branches => exact runBranches_prefers input absorb branches path next
  | loop body least most greedy =>
      refine runLoop_prefers (matches_onward input absorb false body)
        (run_prefers input absorb body) least most greedy ?_ next
      unfold remaining
      omega
  | capture body =>
      exact (run_prefers input absorb body path _).map
  | look direction negated body =>
      cases direction with
      | ahead =>
          refine look_prefers ?_ path next
          rw [(run_prefers input absorb body ⟨path.stop, none⟩ some).isSome_iff]
          simp [Sights]
      | behind =>
          refine look_prefers ?_ path next
          rw [looksBehind_iff]
          refine exists_congr fun start => and_congr_right fun _ => ?_
          rw [(run_prefers input absorb body ⟨start, none⟩ _).isSome_iff]
          refine exists_congr fun choices => exists_congr fun reached => and_congr_right fun _ => ?_
          split_ifs with here
          · simp [here]
          · simp [here]

theorem runItems_prefers (input : Array NodeTypeId) (absorb : Bool) (items : List SymbolPattern)
    (path : Path) (next : Continuation) :
    Prefers (MatchesItems input absorb false items) path next
      (runItems input absorb items path next) := by
  cases items with
  | nil => exact Prefers.stay trivial
  | cons item items =>
      exact (run_prefers input absorb item path _).andThen fun _ middle _ =>
        runItems_prefers input absorb items middle next

theorem runBranches_prefers (input : Array NodeTypeId) (absorb : Bool)
    (branches : List SymbolPattern) (path : Path) (next : Continuation) :
    Prefers (MatchesBranches input absorb false branches) path next
      (runBranches input absorb branches path next) := by
  cases branches with
  | nil => exact .of_unreachable fun _ _ leads => leads.1.elim
  | cons branch branches =>
      exact (run_prefers input absorb branch path next).either
        (runBranches_prefers input absorb branches path next)

end

/-! ## Idle iterations -/

/-- The second path has arrived where the first one has, and has captured what the first one has
unless that is nothing. -/
def Path.Covered (path other : Path) : Prop :=
  other.stop = path.stop ∧
    ∀ span, path.capture = some span → span.isEmpty = false → other.capture = some span

/-- Whatever the routes of the first kind lead to is covered by routes of the second kind. -/
def Route.CoveredBy (route other : Route) : Prop :=
  ∀ path choices reached, route path choices reached → ∀ path', path.Covered path' →
    ∃ choices' reached', other path' choices' reached' ∧ reached.Covered reached'

theorem faces_congr {input : Array NodeTypeId} {accepts : NodeTypeId → Bool} {path other : Path}
    (here : other.stop = path.stop) : Faces input accepts other ↔ Faces input accepts path := by
  rw [Faces, Faces, here]

theorem takes_covered (input : Array NodeTypeId) (absorb : Bool) (accepts : NodeTypeId → Bool) :
    (takes input absorb accepts).CoveredBy (takes input absorb accepts) := by
  rintro path choices _ leads path' ⟨here, captured⟩
  rcases leads with ⟨rest, rfl, ⟨faces, absorbs⟩, rfl, rfl⟩ | ⟨rest, rfl, faces, rfl, rfl⟩
  · refine ⟨[0], _, .inl ⟨[], rfl, ⟨?_, ?_⟩, rfl, rfl⟩, congrArg (· + 2) here, captured⟩
    · rwa [faces_congr here]
    · rwa [here]
  · refine ⟨[1], _, .inr ⟨[], rfl, ?_, rfl, rfl⟩, congrArg (· + 1) here, captured⟩
    rwa [faces_congr here]

/-- Idle iterations can be left out. -/
theorem iterates_covered {size : Nat} {body active : Route} (onward : body.Onward size)
    (covered : body.CoveredBy active) {least : Nat} {most : Option Nat} {greedy : Bool}
    {count : Nat} {path reached : Path} {choices : Choices}
    (leads : Iterates true body least most greedy count path choices reached)
    {fewer : Nat} (counted : fewer = count ∨ least ≤ fewer ∧ fewer ≤ count) {path' : Path}
    (covers : path.Covered path') :
    ∃ choices' reached', Iterates false active least most greedy fewer path' choices' reached' ∧
      reached.Covered reached' := by
  induction leads generalizing fewer path' with
  | leave enough => exact ⟨_, path', .leave (by omega), covers⟩
  | @goOn count path middle reached before after more leads _ _ induction =>
      have further : most.all (fewer < ·) = true := by
        cases most with
        | none => rfl
        | some most =>
            simp only [Option.all_some, decide_eq_true_eq] at more ⊢
            omega
      by_cases idle : middle.stop = path.stop ∧ least ≤ fewer
      · -- the iteration takes nothing and may be skipped: the count stays behind
        refine induction (.inr ⟨idle.2, by omega⟩) ⟨covers.1.trans idle.1.symm, ?_⟩
        intro span taken filled
        exact covers.2 span ((onward _ _ _ leads).captured_of_stays idle.1 taken filled) filled
      · obtain ⟨before', middle', leads', covers'⟩ := covered _ _ _ leads _ covers
        have behind : fewer + 1 = count + 1 ∨ least ≤ fewer + 1 ∧ fewer + 1 ≤ count + 1 := by
          omega
        obtain ⟨after', reached', rest, covers''⟩ := induction behind covers'
        refine ⟨_, reached', .goOn further leads' ?_ rest, covers''⟩
        intro stays enough
        exact absurd ⟨covers'.1.symm.trans (stays.trans covers.1), enough⟩ idle

/-- Without idle iterations a pattern matches in fewer ways, but not less. -/
def SameReach (active idle : Route) : Prop :=
  (∀ path choices reached, active path choices reached → idle path choices reached) ∧
    idle.CoveredBy active

theorem sights_iff {active idle : Route} (same : SameReach active idle) (direction : Direction)
    (position : Nat) : Sights direction active position ↔ Sights direction idle position := by
  have forth (start : Nat) (wanted : Nat → Prop) :
      (∃ choices inner, active ⟨start, none⟩ choices inner ∧ wanted inner.stop) ↔
        ∃ choices inner, idle ⟨start, none⟩ choices inner ∧ wanted inner.stop := by
    constructor
    · intro ⟨choices, inner, leads, holds⟩
      exact ⟨choices, inner, same.1 _ _ _ leads, holds⟩
    · intro ⟨choices, inner, leads, holds⟩
      obtain ⟨choices', inner', leads', covers⟩ :=
        same.2 _ _ _ leads _ ⟨rfl, fun _ taken => nomatch taken⟩
      exact ⟨choices', inner', leads', covers.1 ▸ holds⟩
  cases direction with
  | ahead => simpa [Sights] using forth position fun _ => True
  | behind =>
      exact exists_congr fun start => and_congr_right fun _ => forth start (· = position)

theorem sameReach_stay (allowed allowed' : Nat → Prop)
    (same : ∀ position, allowed position ↔ allowed' position) :
    SameReach (fun path => stay (allowed path.stop) path)
      (fun path => stay (allowed' path.stop) path) := by
  refine ⟨fun path choices reached leads => ⟨(same _).mp leads.1, leads.2⟩, ?_⟩
  rintro path _ _ ⟨allows, rfl, rfl⟩ path' covers
  exact ⟨[], path', ⟨(same _).mpr (covers.1 ▸ allows), rfl, rfl⟩, covers⟩

theorem iterates_sameReach {size : Nat} {active idle : Route} (onward : idle.Onward size)
    (same : SameReach active idle) (least : Nat) (most : Option Nat) (greedy : Bool) :
    SameReach (Iterates false active least most greedy 0)
      (Iterates true idle least most greedy 0) := by
  refine ⟨?_, ?_⟩
  · generalize 0 = count
    intro path choices reached leads
    induction leads with
    | leave enough => exact .leave enough
    | goOn more leads _ _ induction =>
        exact .goOn more (same.1 _ _ _ leads) (fun _ _ => rfl) induction
  · intro path choices reached leads path' covers
    exact iterates_covered onward same.2 leads (.inl rfl) covers

mutual

theorem matches_sameReach (input : Array NodeTypeId) (absorb : Bool) (pattern : SymbolPattern) :
    SameReach (Matches input absorb false pattern) (Matches input absorb true pattern) := by
  cases pattern with
  | empty => exact sameReach_stay (fun _ => True) (fun _ => True) fun _ => Iff.rfl
  | any => exact ⟨fun _ _ _ leads => leads, takes_covered input absorb _⟩
  | symbols members => exact ⟨fun _ _ _ leads => leads, takes_covered input absorb _⟩
  | concat items => exact matchesItems_sameReach input absorb items
  | alternation branches => exact matchesBranches_sameReach input absorb branches
  | loop body least most greedy =>
      exact iterates_sameReach (matches_onward input absorb true body)
        (matches_sameReach input absorb body) least most greedy
  | capture body =>
      have same := matches_sameReach input absorb body
      refine ⟨?_, ?_⟩
      · rintro path choices _ ⟨inner, leads, rfl⟩
        exact ⟨inner, same.1 _ _ _ leads, rfl⟩
      · rintro path choices _ ⟨inner, leads, rfl⟩ path' covers
        obtain ⟨choices', inner', leads', covers'⟩ := same.2 _ _ _ leads _ covers
        refine ⟨choices', _, ⟨inner', leads', rfl⟩, covers'.1, ?_⟩
        intro span taken _
        rw [← taken, covers.1, covers'.1]
  | look direction negated body =>
      have same := matches_sameReach input absorb body
      exact sameReach_stay
        (fun position => Sights direction (Matches input absorb false body) position ↔
          negated = false)
        (fun position => Sights direction (Matches input absorb true body) position ↔
          negated = false)
        fun position => iff_congr (sights_iff same direction position) Iff.rfl

theorem matchesItems_sameReach (input : Array NodeTypeId) (absorb : Bool)
    (items : List SymbolPattern) :
    SameReach (MatchesItems input absorb false items) (MatchesItems input absorb true items) := by
  cases items with
  | nil => exact sameReach_stay (fun _ => True) (fun _ => True) fun _ => Iff.rfl
  | cons item items =>
      have one := matches_sameReach input absorb item
      have two := matchesItems_sameReach input absorb items
      refine ⟨?_, ?_⟩
      · rintro path _ reached ⟨before, middle, after, leads, follows, rfl⟩
        exact ⟨before, middle, after, one.1 _ _ _ leads, two.1 _ _ _ follows, rfl⟩
      · rintro path _ reached ⟨before, middle, after, leads, follows, rfl⟩ path' covers
        obtain ⟨before', middle', leads', covers'⟩ := one.2 _ _ _ leads _ covers
        obtain ⟨after', reached', follows', covers''⟩ := two.2 _ _ _ follows _ covers'
        exact ⟨_, reached', ⟨before', middle', after', leads', follows', rfl⟩, covers''⟩

theorem matchesBranches_sameReach (input : Array NodeTypeId) (absorb : Bool)
    (branches : List SymbolPattern) :
    SameReach (MatchesBranches input absorb false branches)
      (MatchesBranches input absorb true branches) := by
  cases branches with
  | nil => exact sameReach_stay (fun _ => False) (fun _ => False) fun _ => Iff.rfl
  | cons branch branches =>
      have one := matches_sameReach input absorb branch
      have two := matchesBranches_sameReach input absorb branches
      refine ⟨?_, ?_⟩
      · rintro path _ reached (⟨rest, rfl, leads⟩ | ⟨rest, rfl, leads⟩)
        · exact .inl ⟨rest, rfl, one.1 _ _ _ leads⟩
        · exact .inr ⟨rest, rfl, two.1 _ _ _ leads⟩
      · rintro path _ reached (⟨rest, rfl, leads⟩ | ⟨rest, rfl, leads⟩) path' covers
        · obtain ⟨rest', reached', leads', covers'⟩ := one.2 _ _ _ leads _ covers
          exact ⟨_, reached', .inl ⟨rest', rfl, leads'⟩, covers'⟩
        · obtain ⟨rest', reached', leads', covers'⟩ := two.2 _ _ _ leads _ covers
          exact ⟨_, reached', .inr ⟨rest', rfl, leads'⟩, covers'⟩

end

/-! ## Matches -/

/-- A path that has captured something. -/
def Path.Captures (path : Path) : Prop :=
  ∃ span, path.capture = some span ∧ span.isEmpty = false

theorem accept_eq_some_iff {path result : Path} :
    accept path = some result ↔ path.Captures ∧ result = path := by
  unfold accept Path.Captures
  cases path.capture with
  | none => simp
  | some span =>
      cases empty : span.isEmpty with
      | true => simp [empty]
      | false =>
          simp only [empty, Bool.false_eq_true, if_false, Option.some.injEq]
          exact ⟨fun same => ⟨⟨span, rfl, empty⟩, same.symm⟩, fun same => same.2.symm⟩

/-- What is captured from a start on lies between the start and the place that is reached. -/
theorem Path.Onward.bounds {size start : Nat} {path : Path} {span : Span}
    (onward : Path.Onward size ⟨start, none⟩ path) (taken : path.capture = some span)
    (filled : span.isEmpty = false) :
    start ≤ span.start ∧ span.start < span.stop ∧ span.stop ≤ path.stop ∧ path.stop ≤ size := by
  rcases onward.captured with kept | ⟨other, taken', after, before⟩
  · rw [taken] at kept
    cases kept
  · rw [taken, Option.some.injEq] at taken'
    subst taken'
    rw [Span.isEmpty, decide_eq_false_iff_not] at filled
    have nonempty : span.start < span.stop := Nat.lt_of_not_le filled
    exact ⟨after, nonempty, before, onward.inside
      (Nat.lt_of_le_of_lt after (Nat.lt_of_lt_of_le nonempty before))⟩

/-- A match comes from a route that captures something. -/
theorem exists_route {pattern : SymbolPattern} {input : Array NodeTypeId} {start : Nat}
    {absorb : Bool} {found : Match} (matched : pattern.matchAt input start absorb = some found) :
    found.start = start ∧ found.capture.isEmpty = false ∧
      ∃ choices, Matches input absorb false pattern ⟨start, none⟩ choices
          ⟨found.stop, some found.capture⟩ ∧
        ∀ others other, Matches input absorb false pattern ⟨start, none⟩ others other →
          other.Captures →
            others = choices ∧ other = ⟨found.stop, some found.capture⟩ ∨
              Earlier choices others := by
  simp only [matchAt, Option.bind_eq_bind, Option.bind_eq_some_iff, Option.pure_def,
    Option.some.injEq] at matched
  obtain ⟨path, ran, span, taken, rfl⟩ := matched
  have prefers := run_prefers input absorb pattern ⟨start, none⟩ accept
  rw [ran] at prefers
  obtain ⟨choices, reached, leads, accepted, best⟩ := prefers
  obtain ⟨⟨other, taken', filled⟩, rfl⟩ := accept_eq_some_iff.mp accepted
  obtain rfl : other = span := by simpa [taken] using taken'.symm
  have whole : path = ⟨path.stop, some other⟩ := by rw [← taken]
  refine ⟨rfl, filled, choices, whole ▸ leads, ?_⟩
  intro others end_ leads' captures
  rw [← whole]
  exact best others end_ leads'
    (Option.isSome_iff_exists.mpr ⟨end_, accept_eq_some_iff.mpr ⟨captures, rfl⟩⟩)

/-- A match starts where it is looked for and captures at least one node, inside the input. -/
theorem matchAt_bounds {pattern : SymbolPattern} {input : Array NodeTypeId} {start : Nat}
    {absorb : Bool} {found : Match} (matched : pattern.matchAt input start absorb = some found) :
    found.start = start ∧ start ≤ found.capture.start ∧
      found.capture.start < found.capture.stop ∧ found.capture.stop ≤ found.stop ∧
      found.stop ≤ input.size := by
  obtain ⟨begins, filled, choices, leads, _⟩ := exists_route matched
  exact ⟨begins, (matches_onward input absorb false pattern _ _ _ leads).bounds rfl filled⟩

/-- Where there is no match, no route captures anything, idle iterations or not. -/
theorem not_captures_of_matchAt_eq_none {pattern : SymbolPattern} {input : Array NodeTypeId}
    {start : Nat} {absorb : Bool} (missing : pattern.matchAt input start absorb = none)
    {choices : Choices} {reached : Path}
    (leads : Matches input absorb true pattern ⟨start, none⟩ choices reached) :
    ¬reached.Captures := by
  rintro ⟨span, taken, filled⟩
  obtain ⟨choices', reached', leads', covers⟩ := (matches_sameReach input absorb pattern).2
    _ _ _ leads _ ⟨rfl, fun _ captured => nomatch captured⟩
  have accepted : accept reached' = some reached' :=
    accept_eq_some_iff.mpr ⟨⟨span, covers.2 span taken filled, filled⟩, rfl⟩
  have prefers := run_prefers input absorb pattern ⟨start, none⟩ accept
  cases ran : run input absorb pattern ⟨start, none⟩ accept with
  | none =>
      rw [ran] at prefers
      rw [prefers choices' reached' leads'] at accepted
      cases accepted
  | some path =>
      rw [ran] at prefers
      obtain ⟨_, _, _, succeeds, _⟩ := prefers
      obtain ⟨⟨span, taken, _⟩, rfl⟩ := accept_eq_some_iff.mp succeeds
      simp [matchAt, ran, taken] at missing

/-- A match is the end of the preferred one of the routes that capture something, and its bounds are
in order.  Where there is no match, no route captures anything, idle iterations or not. -/
theorem matchAt_preferred (pattern : SymbolPattern) (input : Array NodeTypeId) (start : Nat)
    (absorb : Bool) :
    match pattern.matchAt input start absorb with
    | some found =>
        (∃ choices, Matches input absorb false pattern ⟨start, none⟩ choices
            ⟨found.stop, some found.capture⟩ ∧
          ∀ others other, Matches input absorb false pattern ⟨start, none⟩ others other →
            other.Captures →
              others = choices ∧ other = ⟨found.stop, some found.capture⟩ ∨
                Earlier choices others) ∧
        found.start = start ∧ start ≤ found.capture.start ∧
          found.capture.start < found.capture.stop ∧ found.capture.stop ≤ found.stop ∧
          found.stop ≤ input.size
    | none =>
        ∀ choices reached, Matches input absorb true pattern ⟨start, none⟩ choices reached →
          ¬reached.Captures := by
  cases matched : pattern.matchAt input start absorb with
  | some found => exact ⟨(exists_route matched).2.2, matchAt_bounds matched⟩
  | none => exact fun _ _ leads => not_captures_of_matchAt_eq_none matched leads

/-- The loop could end after the first node, but takes the unrecognized one and the next as well. -/
example : (capture (.loop (.symbols [1]) 1 none true)).matchAt #[1, 0, 1] 0 true =
    some ⟨0, 3, ⟨0, 3⟩⟩ := by
  decide +kernel

end RowGrammar.SymbolPattern
