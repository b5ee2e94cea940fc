import RowGrammar.Grammar.Basic
import RowGrammar.TokenPattern.Words

/-!
# Expanding token patterns

A word of a token pattern that names a node type or a group stands for the expanded pattern of
that type, or for the expanded patterns of the members in order.  References in the inserted text
have been dealt with already, so it is not looked through again.  A type that is met while it is
being expanded closes a cycle.  Finished patterns are kept, so that no type is expanded twice.
-/

namespace RowGrammar.TokenPattern

open RowGrammar.Text

/-- A reference written out: the alternatives in one group, so that a quantifier after the
reference applies to all of it. -/
def inlined (alternatives : List String) : String :=
  "(?:" ++ "|".intercalate alternatives ++ ")"

/-- The expanded patterns of the types that are finished, the last one first. -/
abbrev Finished := List (NodeTypeId × String)

/-- A step that may look up finished patterns, finish some more, and fail. -/
abbrev Expansion := StateT Finished (Except GrammarError)

section

variable (grammar : Grammar)

/-- The text that one segment of the pattern of `id` becomes, when `expand` expands the types it
refers to. -/
def expandSegment (expand : NodeTypeId → Expansion String) (id : NodeTypeId) :
    Segment → Expansion String
  | .verbatim chars => return String.ofList chars
  | .word chars =>
      let name := String.ofList chars
      match grammar.registry.resolve? name with
      | none => return name
      | some targets => do
          let alternatives ← targets.mapM fun target =>
            if (grammar.tokenRule? target).isSome then expand target
            else throw (.unresolvedReference (grammar.registry.name id) name)
          return inlined alternatives

/-- The expanded pattern of a token type, while the types on `path` are being expanded, the last
one first.  `fuel` bounds how many further types the path can take. -/
def expandOn : Nat → List NodeTypeId → NodeTypeId → Expansion String
  | fuel, path, id => do
      match (← get).lookup id with
      | some text => return text
      | none =>
          if path.contains id then
            throw (.expansionCycle
              ((path.reverse.dropWhile (· != id)).map grammar.registry.name ++
                [grammar.registry.name id]))
          else
            match fuel, grammar.tokenRule? id with
            | fuel + 1, some rule => do
                let texts ← (segments rule.pattern.toList).mapM
                  (expandSegment grammar (expandOn fuel (id :: path)) id)
                let text := strip (String.join texts)
                modify ((id, text) :: ·)
                return text
            | _, _ =>
                throw (.unresolvedReference (grammar.registry.name (path.headD id))
                  (grammar.registry.name id))

/-- The node type of a token rule with its expanded pattern. -/
def expandRule (rule : TokenRule) : Expansion (NodeTypeId × String) := do
  let pattern ← expandOn grammar grammar.tokenRules.size [] rule.nodeType
  return (rule.nodeType, pattern)

/-- The expanded patterns of all token types in the order of their rules. -/
def expandAll : Except GrammarError (List (NodeTypeId × String)) := do
  let (patterns, _) ← (grammar.tokenRules.toList.mapM (expandRule grammar)).run []
  return patterns

end

end RowGrammar.TokenPattern
