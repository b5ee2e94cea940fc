import RowGrammar.Derivation.Error

/-!
# Locating leaves

Every leaf of an example is looked for in the source, each after the one before, at the first place
where its literal stands.
-/

namespace RowGrammar.Derivation

open RowGrammar.Text

/-- A leaf of the example, the byte offset of its literal in the source and the character after
the literal. -/
structure LeafOccurrence where
  nodeType : String
  text : String
  offset : Nat
  follower : Option Char
  deriving DecidableEq, Repr

/-- The characters before and after the first place where `literal` stands. -/
def splitAtFirst? (literal : List Char) : List Char → Option (List Char × List Char)
  | [] => if literal.isEmpty then some ([], []) else none
  | c :: chars =>
      if literal.isPrefixOf (c :: chars) then some ([], (c :: chars).drop literal.length)
      else (splitAtFirst? literal chars).map fun (before, after) => (c :: before, after)

/-- Locates leaves in the rest of a source that starts at `offset`. -/
def locateFrom (offset : Nat) (rest : List Char) :
    List (String × String) → Except DeriveError (List LeafOccurrence)
  | [] => .ok []
  | (nodeType, text) :: leaves =>
      match splitAtFirst? text.toList rest with
      | none => .error (.leafNotInSource nodeType text)
      | some (before, after) => do
          let start := offset + utf8Length before
          let occurrences ← locateFrom (start + text.utf8ByteSize) after leaves
          return ⟨nodeType, text, start, after.head?⟩ :: occurrences

/-- Locates the leaves of an example in its source. -/
def locateLeaves (source : String) (example_ : Tree) :
    Except DeriveError (List LeafOccurrence) :=
  locateFrom 0 source.toList example_.leaves

end RowGrammar.Derivation
