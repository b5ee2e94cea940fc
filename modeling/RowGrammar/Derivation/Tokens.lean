import RowGrammar.Derivation.Escape
import RowGrammar.Derivation.Leaves

/-!
# Inferring token patterns

The literals of a leaf type become the alternatives of its token pattern, longer ones first.  The
types and the alternatives are then reordered until the tokenizer finds the leaves of the example:
at the first wrong token the expected alternative moves in front of the one that matched.
-/

namespace RowGrammar.Derivation

open RowGrammar.Text

/-- One alternative of a token pattern. -/
structure Fragment where
  literal : String
  pattern : String
  deriving DecidableEq, Repr

/-- A leaf type and the alternatives of its token pattern. -/
structure TokenEntry where
  nodeType : String
  fragments : List Fragment
  deriving DecidableEq, Repr

/-- The leaf types in the order in which the tokenizer tries them. -/
structure TokenInference where
  entries : List TokenEntry
  deriving DecidableEq, Repr

/-- The list with the first item that satisfies `moved` put before the first one that satisfies
`target`; none if one of them is missing or the order is so already. -/
def moveBefore? {α : Type} (moved target : α → Bool) (items : List α) : Option (List α) := do
  let source ← items.findIdx? moved
  let place ← items.findIdx? target
  let item ← items[source]?
  if source < place then none
  else return (items.eraseIdx source).insertIdx place item

namespace TokenInference

/-- The names that words of a literal must not be taken for: types and groups of the seeds, and
types of the example. -/
def reservedNames (seeds : List Row) (example_ : Tree) : List String :=
  seeds.map (·.nodeType) ++ example_.subtrees.map (·.nodeType) ++
    (seeds.map (·.group)).filter (· != "")

/-- What follows a literal of a leaf type wherever it stands in the source. -/
def followers (leaves : List LeafOccurrence) (nodeType literal : String) : List (Option Char) :=
  (leaves.filter fun leaf => leaf.nodeType == nodeType && leaf.text == literal).map (·.follower)

/-- The alternative for a literal of a leaf type. -/
def fragment (leaves : List LeafOccurrence) (reserved : List String) (nodeType literal : String) :
    Fragment :=
  ⟨literal, withBoundary (escapeLiteral literal reserved) literal
    (followers leaves nodeType literal)⟩

/-- The literals of a leaf type, longer ones first. -/
def literals (leaves : List LeafOccurrence) (nodeType : String) : List String :=
  (((leaves.filter (·.nodeType == nodeType)).map (·.text)).eraseDups).mergeSort
    fun left right => right.length ≤ left.length

/-- The alternatives for all leaves whose types the seeds do not define. -/
def infer (leaves : List LeafOccurrence) (seeds : List Row) (example_ : Tree) : TokenInference :=
  let seedTypes := seeds.map (·.nodeType)
  let reserved := reservedNames seeds example_
  let order := ((leaves.map (·.nodeType)).filter fun name => !seedTypes.contains name).eraseDups
  ⟨order.map fun nodeType =>
    ⟨nodeType, (literals leaves nodeType).map (fragment leaves reserved nodeType)⟩⟩

/-- One token row for each leaf type. -/
def rows (inference : TokenInference) (parser : String) : List Row :=
  inference.entries.map fun entry =>
    .token parser entry.nodeType ("|".intercalate (entry.fragments.map (·.pattern)))

/-- A text that tells orders apart. -/
def signature (inference : TokenInference) : String :=
  " ".intercalate (inference.entries.map (·.nodeType)) ++
    String.join (inference.entries.map fun entry =>
      "|" ++ String.join (entry.fragments.map fun fragment => fragment.pattern ++ "\x00"))

/-- Moves a leaf type in front of another one. -/
def moveType? (inference : TokenInference) (nodeType before : String) : Option TokenInference :=
  (moveBefore? (·.nodeType == nodeType) (·.nodeType == before) inference.entries).map .mk

/-- Moves a literal of a leaf type in front of another one. -/
def moveFragment? (inference : TokenInference) (nodeType literal before : String) :
    Option TokenInference := do
  let index ← inference.entries.findIdx? (·.nodeType == nodeType)
  let entry ← inference.entries[index]?
  let fragments ← moveBefore? (·.literal == literal) (·.literal == before) entry.fragments
  return ⟨inference.entries.set index { entry with fragments }⟩

/-- The tokens of a text as types and literals, without those that are neither unrecognized nor of
a leaf type. -/
def relevant (registry : Registry) (leafTypes : List String) (tokens : List Token) :
    List (String × String) :=
  (tokens.filter fun token =>
    token.isUnrecognized || leafTypes.contains (registry.name token.nodeType)).map fun token =>
      (registry.name token.nodeType, token.text)

/-- The tokens that matter when a source is tokenized with the seeds and the inferred rows. -/
def tokenizeWith (inference : TokenInference) (parser source : String) (leafTypes : List String)
    (seeds : List Row) : Except DeriveError (List (String × String)) :=
  match Engine.ofRows (seeds ++ inference.rows parser) with
  | .error error => .error (.grammar error)
  | .ok engine =>
      match engine.tokenize source {} with
      | .error error => .error (.tokenize error)
      | .ok tokens => .ok (relevant engine.grammar.registry leafTypes tokens)

/-- The first position at which tokens differ from leaves, with what stands there. -/
def mismatch? : Nat → List (String × String) → List LeafOccurrence →
    Option (Nat × (String × String) × LeafOccurrence)
  | index, token :: tokens, leaf :: leaves =>
      if token.1 ≠ leaf.nodeType ∨ token.2 ≠ leaf.text then some (index, token, leaf)
      else mismatch? (index + 1) tokens leaves
  | _, _, _ => none

/-- The order after the alternative of a leaf is moved in front of the one that matched. -/
def reorder (inference : TokenInference) (index : Nat) (token : String × String)
    (leaf : LeafOccurrence) : Except DeriveError TokenInference :=
  if token.1 = unrecognizedName then .error (.unrecognizedText index token.2)
  else
    let moved :=
      if token.1 = leaf.nodeType then inference.moveFragment? leaf.nodeType leaf.text token.2
      else inference.moveType? leaf.nodeType token.1
    match moved with
    | some inference => .ok inference
    | none =>
        .error (.tokenMismatch index (leaf.nodeType ++ " " ++ quoted leaf.text)
          (token.1 ++ " " ++ quoted token.2))

/-- Reorders the alternatives until the tokens of the source are the leaves; `seen` holds the
orders tried before, and `fuel` bounds the number of further orders. -/
def correctFrom (parser source : String) (leaves : List LeafOccurrence) (seeds : List Row) :
    Nat → List String → TokenInference → Option DeriveError × TokenInference
  | 0, _, inference => (some .tokenizerLoop, inference)
  | fuel + 1, seen, inference =>
      if seen.contains inference.signature then (some .tokenizerLoop, inference)
      else
        match inference.tokenizeWith parser source (leaves.map (·.nodeType)) seeds with
        | .error error => (some error, inference)
        | .ok tokens =>
            match mismatch? 0 tokens leaves with
            | none =>
                if tokens.length ≠ leaves.length then
                  (some (.tokenCountMismatch leaves.length tokens.length), inference)
                else (none, inference)
            | some (index, token, leaf) =>
                match inference.reorder index token leaf with
                | .error error => (some error, inference)
                | .ok moved =>
                    correctFrom parser source leaves seeds fuel (inference.signature :: seen) moved

/-- The number of orders of `count` items. -/
def orders : Nat → Nat
  | 0 => 1
  | count + 1 => (count + 1) * orders count

/-- The number of orders of the types and of the alternatives of each. -/
def orderBound (inference : TokenInference) : Nat :=
  inference.entries.foldl (fun bound entry => bound * orders entry.fragments.length)
    (orders inference.entries.length)

/-- Reorders the alternatives until the tokens of the source are the leaves.  The inference is
returned as the last move left it, with the error if there is one. -/
def correct (inference : TokenInference) (parser source : String) (leaves : List LeafOccurrence)
    (seeds : List Row) : Option DeriveError × TokenInference :=
  correctFrom parser source leaves seeds (inference.orderBound + 1) [] inference

end TokenInference

end RowGrammar.Derivation
