import RowGrammar.Proofs.Json.Members
import RowGrammar.Tree.Simplify

/-!
# Simplified objects

A member comes up to its object as an array of a key and a value, through any number of nodes
without a primitive type, which may put it into further arrays.  As long as no key is an array
itself, the arrays that are members can be told from those that hold some, so the object has just
the entries that its members make.
-/

namespace RowGrammar

open RowGrammar.Text

namespace Simplify

variable {members : List (String × Json)} {values : List Json}

/-- Lists of arrays are never taken for a member. -/
theorem memberOf?_eq_none (arrays : ∀ value ∈ values, value.isArray = true) :
    memberOf? values = none := by
  unfold memberOf?
  split
  · rename_i key value
    rw [if_pos (arrays key (by simp))]
  · rfl

/-- An untyped node between an object and its members makes no difference. -/
theorem collectList_passOn (arrays : ∀ value ∈ values, value.isArray = true) :
    collectList members (passOn values).toList = collectList members values := by
  unfold passOn
  split
  · rfl
  · rfl
  · simp only [Option.toList_some, collectList, collect, memberOf?_eq_none arrays]

theorem collectList_append (others : List Json) :
    collectList members (values ++ others) = collectList (collectList members values) others := by
  induction values generalizing members with
  | nil => rfl
  | cons value values induction => simp only [List.cons_append, collectList, induction]

theorem isArray_passOn (arrays : ∀ value ∈ values, value.isArray = true) :
    ∀ value ∈ (passOn values).toList, value.isArray = true := by
  unfold passOn
  split
  · simp
  · exact arrays
  · simp [Json.isArray]

end Simplify

namespace Tree

open Simplify

section

variable (registry : Registry)

mutual

/-- The nodes with a known primitive type that are reached from a tree before passing another
one. -/
def typedNodes : Tree → List Tree
  | .leaf nodeType text =>
      if (registry.knownPrimitive? nodeType).isSome then [.leaf nodeType text] else []
  | .branch nodeType children =>
      if (registry.knownPrimitive? nodeType).isSome then [.branch nodeType children]
      else typedNodesList children

def typedNodesList : List Tree → List Tree
  | [] => []
  | tree :: trees => tree.typedNodes ++ typedNodesList trees

end

/-- The value of the first child that has one. -/
def firstValue (node : Tree) : Json :=
  (valueList registry node.children)[0]?.getD .null

/-- The value of the second child that has one. -/
def secondValue (node : Tree) : Json :=
  (valueList registry node.children)[1]?.getD .null

/-- The entry that a member makes. -/
def entry (node : Tree) : String × Json :=
  (keyOf (node.firstValue registry), node.secondValue registry)

end

variable {registry : Registry} {members : List (String × Json)}

theorem value?_member {node : Tree}
    (typed : registry.knownPrimitive? node.nodeType = some .member) :
    node.value? registry = some (.array [node.firstValue registry, node.secondValue registry]) := by
  have pair (values : List Json) :
      memberValue values = .array [values[0]?.getD .null, values[1]?.getD .null] := by
    match values with
    | [] => rfl
    | [_] => rfl
    | _ :: _ :: _ => rfl
  cases node with
  | leaf name text =>
      have typed : registry.knownPrimitive? name = some .member := typed
      simp [value?, typed, primitiveValue, firstValue, secondValue, children, valueList, pair]
  | branch name children =>
      have typed : registry.knownPrimitive? name = some .member := typed
      simp [value?, typed, primitiveValue, firstValue, secondValue, Tree.children, pair]

theorem typedNodes_of_typed {tree : Tree} {primitive : PrimitiveType}
    (typed : registry.knownPrimitive? tree.nodeType = some primitive) :
    tree.typedNodes registry = [tree] := by
  have known : (registry.knownPrimitive? tree.nodeType).isSome := by rw [typed]; rfl
  cases tree with
  | leaf name text => exact if_pos known
  | branch name children =>
      rw [typedNodes]
      exact if_pos known

theorem value?_untyped {name : String} (untyped : registry.knownPrimitive? name = none)
    (children : List Tree) :
    (branch name children).value? registry = passOn (valueList registry children) := by
  simp [value?, untyped]

theorem typedNodes_untyped {name : String} (untyped : registry.knownPrimitive? name = none)
    (children : List Tree) :
    (branch name children).typedNodes registry = typedNodesList registry children := by
  simp [typedNodes, untyped]

mutual

/-- Where all typed nodes are members, all values are arrays. -/
theorem isArray_value? : (tree : Tree) →
    (∀ node ∈ tree.typedNodes registry, registry.knownPrimitive? node.nodeType = some .member) →
    ∀ value ∈ (tree.value? registry).toList, value.isArray = true
  | .leaf name text, only => by
      cases typed : registry.knownPrimitive? name with
      | none => simp [value?, typed]
      | some primitive =>
          rw [typedNodes_of_typed typed, List.forall_mem_singleton] at only
          simp [value?_member only, Json.isArray]
  | .branch name children, only => by
      cases typed : registry.knownPrimitive? name with
      | none =>
          rw [typedNodes_untyped typed] at only
          rw [value?_untyped typed]
          exact isArray_passOn (isArray_valueList children only)
      | some primitive =>
          rw [typedNodes_of_typed typed, List.forall_mem_singleton] at only
          simp [value?_member only, Json.isArray]

theorem isArray_valueList : (trees : List Tree) →
    (∀ node ∈ typedNodesList registry trees,
      registry.knownPrimitive? node.nodeType = some .member) →
    ∀ value ∈ valueList registry trees, value.isArray = true
  | [], only => by simp [valueList]
  | tree :: trees, only => by
      rw [typedNodesList, List.forall_mem_append] at only
      rw [valueList, List.forall_mem_append]
      exact ⟨isArray_value? tree only.1, isArray_valueList trees only.2⟩

end

/-- A member whose key is no array makes one entry. -/
theorem collectList_member {node : Tree}
    (typed : registry.knownPrimitive? node.nodeType = some .member)
    (keyed : (node.firstValue registry).isArray = false) :
    collectList members (node.value? registry).toList =
      Json.insertAll members [node.entry registry] := by
  simp [value?_member typed, collectList, collect, memberOf?, keyed, Json.insertAll, entry]

mutual

theorem collectList_value? : (tree : Tree) → (members : List (String × Json)) →
    (∀ node ∈ tree.typedNodes registry, registry.knownPrimitive? node.nodeType = some .member) →
    (∀ node ∈ tree.typedNodes registry, (node.firstValue registry).isArray = false) →
    collectList members (tree.value? registry).toList =
      Json.insertAll members ((tree.typedNodes registry).map (entry registry))
  | .leaf name text, members, only, keyed => by
      cases typed : registry.knownPrimitive? name with
      | none => simp [value?, typedNodes, typed, collectList, Json.insertAll]
      | some primitive =>
          rw [typedNodes_of_typed typed, List.forall_mem_singleton] at only keyed
          rw [typedNodes_of_typed typed]
          exact collectList_member only keyed
  | .branch name children, members, only, keyed => by
      cases typed : registry.knownPrimitive? name with
      | none =>
          rw [typedNodes_untyped typed] at only keyed ⊢
          rw [value?_untyped typed, collectList_passOn (isArray_valueList children only)]
          exact collectList_valueList children members only keyed
      | some primitive =>
          rw [typedNodes_of_typed typed, List.forall_mem_singleton] at only keyed
          rw [typedNodes_of_typed typed]
          exact collectList_member only keyed

/-- The values of some trees hold the entries of the members among and below them. -/
theorem collectList_valueList : (trees : List Tree) → (members : List (String × Json)) →
    (∀ node ∈ typedNodesList registry trees,
      registry.knownPrimitive? node.nodeType = some .member) →
    (∀ node ∈ typedNodesList registry trees, (node.firstValue registry).isArray = false) →
    collectList members (valueList registry trees) =
      Json.insertAll members ((typedNodesList registry trees).map (entry registry))
  | [], members, only, keyed => rfl
  | tree :: trees, members, only, keyed => by
      rw [typedNodesList, List.forall_mem_append] at only keyed
      rw [valueList, collectList_append, collectList_value? tree members only.1 keyed.1,
        collectList_valueList trees _ only.2 keyed.2, typedNodesList, List.map_append,
        Json.insertAll_append]

end

theorem simplify_of_object {tree : Tree}
    (typed : registry.knownPrimitive? tree.nodeType = some .object) :
    tree.simplify registry = .object (collectList [] (valueList registry tree.children)) := by
  cases tree with
  | leaf name text =>
      have typed : registry.knownPrimitive? name = some .object := typed
      simp [simplify, value?, typed, primitiveValue, children, valueList]
  | branch name children =>
      have typed : registry.knownPrimitive? name = some .object := typed
      simp [simplify, value?, typed, primitiveValue, Tree.children]

/-- An object has just the entries that its members make, however deep they are in nodes without a
primitive type, and of the members with the same key the last one counts. -/
theorem simplify_object {tree : Tree}
    (object : registry.knownPrimitive? tree.nodeType = some .object)
    (only : ∀ node ∈ typedNodesList registry tree.children,
      registry.knownPrimitive? node.nodeType = some .member)
    (keyed : ∀ node ∈ typedNodesList registry tree.children,
      (node.firstValue registry).isArray = false) :
    ∃ entries, tree.simplify registry = .object entries ∧ Json.Ordered entries ∧
      ∀ key value, (key, value) ∈ entries ↔
        ∃ before node after, typedNodesList registry tree.children = before ++ node :: after ∧
          keyOf (node.firstValue registry) = key ∧ node.secondValue registry = value ∧
          ∀ later ∈ after, keyOf (later.firstValue registry) ≠ key := by
  have held := collectList_valueList tree.children [] only keyed
  refine ⟨_, simplify_of_object object, ?_, ?_⟩
  · rw [held]
    exact Json.Ordered.insertAll .nil
  · intro key value
    simp only [held, Json.mem_insertAll_iff, Json.lastOf_map_iff, entry, Prod.mk.injEq, and_assoc]

/-- Some node types with primitive types. -/
def recordRegistry : Registry where
  names := #["?", "Record", "Field", "Text", "Count"]
  groups := []
  primitives := [(1, "object"), (2, "member"), (3, "string"), (4, "number")]

theorem knownPrimitive?_recordRegistry :
    recordRegistry.knownPrimitive? "Record" = some .object ∧
      recordRegistry.knownPrimitive? "Field" = some .member ∧
      recordRegistry.knownPrimitive? "Path" = none ∧
      recordRegistry.knownPrimitive? "Text" = some .string ∧
      recordRegistry.knownPrimitive? "Count" = some .number := by
  decide +kernel

/-- A field with some children. -/
def field (children : List Tree) : Tree := .branch "Field" children

/-- Fields inside lists of fields: a name that is given twice, a number for a name, and one
without a value. -/
def nestedRecord : Tree :=
  .branch "Record" [
    .branch "List" [
      field [.leaf "Text" "aa", .leaf "Equals" "=", .leaf "Count" "1"],
      .branch "List" [field [.leaf "Count" "07", .leaf "Text" "x"], .leaf "Comma" ","],
      .branch "List" []],
    .branch "List" [
      field [.leaf "Text" "aa", .leaf "Count" "2", .leaf "Count" "3"],
      field [.leaf "Text" "bb"]]]

theorem simplify_object_nested :
    ∃ entries, nestedRecord.simplify recordRegistry = .object entries ∧
      ("aa", .integer 2) ∈ entries ∧ ("7", .string "x") ∈ entries ∧ ("bb", .null) ∈ entries := by
  obtain ⟨record, member, -, text, count⟩ := knownPrimitive?_recordRegistry
  have reached : typedNodesList recordRegistry nestedRecord.children = [
      field [.leaf "Text" "aa", .leaf "Equals" "=", .leaf "Count" "1"],
      field [.leaf "Count" "07", .leaf "Text" "x"],
      field [.leaf "Text" "aa", .leaf "Count" "2", .leaf "Count" "3"],
      field [.leaf "Text" "bb"]] := by decide +kernel
  have only : ∀ node ∈ typedNodesList recordRegistry nestedRecord.children,
      recordRegistry.knownPrimitive? node.nodeType = some .member := by
    simp [reached, field, nodeType, member]
  have keyed : ∀ node ∈ typedNodesList recordRegistry nestedRecord.children,
      (node.firstValue recordRegistry).isArray = false := by decide +kernel
  obtain ⟨entries, simplified, _, has⟩ := simplify_object record only keyed
  rw [reached] at has
  refine ⟨entries, simplified, (has _ _).mpr ⟨[_, _], _, [_], rfl, by decide +kernel, ?_,
    by decide +kernel⟩, (has _ _).mpr ⟨[_], _, [_, _], rfl, by decide +kernel, ?_,
    by decide +kernel⟩, (has _ _).mpr ⟨[_, _, _], _, [], rfl, by decide +kernel, ?_,
    by decide +kernel⟩⟩
  · simp only [secondValue, field, children, valueList, value?, text, count]
    rfl
  · simp only [secondValue, field, children, valueList, value?, text, count]
    rfl
  · simp only [secondValue, field, children, valueList, value?, text]
    rfl

/-- A field whose name has two parts. -/
def dottedRecord : Tree :=
  .branch "Record" [
    field [.branch "Path" [.leaf "Text" "aa", .leaf "Text" "bb"], .leaf "Count" "1"]]

/-- A key that is an array is not kept: the field with the name of two parts makes no entry, and the
first part of its name gets the second one for a value. -/
theorem simplify_object_dotted :
    recordRegistry.knownPrimitive? dottedRecord.nodeType = some .object ∧
      (∀ node ∈ typedNodesList recordRegistry dottedRecord.children,
        recordRegistry.knownPrimitive? node.nodeType = some .member) ∧
      (typedNodesList recordRegistry dottedRecord.children).map
        (fun node => keyOf (node.firstValue recordRegistry)) = ["[\"aa\",\"bb\"]"] ∧
      dottedRecord.simplify recordRegistry = .object [("aa", .string "bb")] := by
  obtain ⟨record, member, path, text, count⟩ := knownPrimitive?_recordRegistry
  refine ⟨record, by decide +kernel, by decide +kernel, ?_⟩
  simp only [dottedRecord, field, simplify, value?, valueList, record, member, path, text, count]
  rfl

end Tree

end RowGrammar
