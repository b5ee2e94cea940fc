import RowGrammar.SymbolPattern.Match

/-!
# Routes through a pattern

What a symbol pattern matches, said without a search.  A route leads from one path to another and
notes the choices on its way, so that routes can be compared: of two routes the one is preferred
that takes the earlier alternative where they first part.
-/

namespace RowGrammar.SymbolPattern

/-- The alternatives that a route takes, `0` or `1` wherever there are two of them. -/
abbrev Choices := List Nat

/-- Routes from one path to another. -/
abbrev Route := Path → Choices → Path → Prop

/-- Where they first differ, the first choices take the earlier alternative. -/
def Earlier (choices others : Choices) : Prop :=
  ∃ common first second rest rest', first < second ∧
    choices = common ++ first :: rest ∧ others = common ++ second :: rest'

namespace Route

/-- Stays where it is, if it is allowed to. -/
def stay (allowed : Prop) : Route := fun path choices reached =>
  allowed ∧ choices = [] ∧ reached = path

/-- Prefers routes of the first kind to those of the second kind. -/
def either (first second : Route) : Route := fun path choices reached =>
  (∃ rest, choices = 0 :: rest ∧ first path rest reached) ∨
    ∃ rest, choices = 1 :: rest ∧ second path rest reached

/-- Goes on with a route of the second kind where one of the first kind has led. -/
def andThen (first second : Route) : Route := fun path choices reached =>
  ∃ before middle after, first path before middle ∧ second middle after reached ∧
    choices = before ++ after

/-- Takes so many nodes if the path allows it. -/
def advance (allowed : Path → Prop) (count : Nat) : Route := fun path choices reached =>
  allowed path ∧ choices = [] ∧ reached = { path with stop := path.stop + count }

end Route

open Route

/-- Whether a path stands before a node that is accepted. -/
def Faces (input : Array NodeTypeId) (accepts : NodeTypeId → Bool) (path : Path) : Prop :=
  ∃ nodeType, input[path.stop]? = some nodeType ∧ accepts nodeType = true

/-- Takes an accepted node, rather together with an unrecognized one that follows it. -/
def takes (input : Array NodeTypeId) (absorb : Bool) (accepts : NodeTypeId → Bool) : Route :=
  either
    (advance (fun path => Faces input accepts path ∧ absorb = true ∧
      input[path.stop + 1]? = some unrecognized) 2)
    (advance (Faces input accepts) 1)

/-- Takes the alternatives of a loop in their order. -/
def goOnOrLeave (greedy : Bool) (goOn leave : Route) : Route :=
  if greedy then either goOn leave else either leave goOn

/-- The routes through the iterations of a loop after `count` of them.  Unless they may be idle,
iterations beyond the least number take a node. -/
inductive Iterates (idle : Bool) (body : Route) (least : Nat) (most : Option Nat) (greedy : Bool) :
    Nat → Route where
  | leave {count : Nat} {path : Path} :
      least ≤ count →
      Iterates idle body least most greedy count path [if greedy then 1 else 0] path
  | goOn {count : Nat} {path middle reached : Path} {before after : Choices} :
      most.all (count < ·) = true → body path before middle →
      (middle.stop = path.stop → least ≤ count → idle = true) →
      Iterates idle body least most greedy (count + 1) middle after reached →
      Iterates idle body least most greedy count path
        ((if greedy then 0 else 1) :: (before ++ after)) reached

/-- Whether a route starts at a position or ends there. -/
def Sights (direction : Direction) (route : Route) (position : Nat) : Prop :=
  match direction with
  | .ahead => ∃ choices reached, route ⟨position, none⟩ choices reached
  | .behind => ∃ start ≤ position, ∃ choices reached,
      route ⟨start, none⟩ choices reached ∧ reached.stop = position

mutual

/-- The routes through a pattern.  With `idle`, iterations of loops beyond the least number may take
nothing. -/
def Matches (input : Array NodeTypeId) (absorb idle : Bool) : SymbolPattern → Route
  | .empty, path, choices, reached => stay True path choices reached
  | .any, path, choices, reached => takes input absorb (fun _ => true) path choices reached
  | .symbols members, path, choices, reached =>
      takes input absorb members.contains path choices reached
  | .concat items, path, choices, reached =>
      MatchesItems input absorb idle items path choices reached
  | .alternation branches, path, choices, reached =>
      MatchesBranches input absorb idle branches path choices reached
  | .loop body least most greedy, path, choices, reached =>
      Iterates idle
        (fun path choices reached => Matches input absorb idle body path choices reached)
        least most greedy 0 path choices reached
  | .capture body, path, choices, reached =>
      ∃ inner, Matches input absorb idle body path choices inner ∧
        reached = { inner with capture := some ⟨path.stop, inner.stop⟩ }
  | .look direction negated body, path, choices, reached =>
      stay (Sights direction
          (fun path choices reached => Matches input absorb idle body path choices reached)
          path.stop ↔ negated = false) path choices reached

/-- The routes through items one after the other. -/
def MatchesItems (input : Array NodeTypeId) (absorb idle : Bool) : List SymbolPattern → Route
  | [], path, choices, reached => stay True path choices reached
  | item :: items, path, choices, reached =>
      andThen (fun path choices reached => Matches input absorb idle item path choices reached)
        (fun path choices reached => MatchesItems input absorb idle items path choices reached)
        path choices reached

/-- The routes through one of several branches, rather through an earlier one. -/
def MatchesBranches (input : Array NodeTypeId) (absorb idle : Bool) : List SymbolPattern → Route
  | [], path, choices, reached => stay False path choices reached
  | branch :: branches, path, choices, reached =>
      either (fun path choices reached => Matches input absorb idle branch path choices reached)
        (fun path choices reached =>
          MatchesBranches input absorb idle branches path choices reached)
        path choices reached

end

end RowGrammar.SymbolPattern
