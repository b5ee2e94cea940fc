import RowGrammar.Derivation.Search
import RowGrammar.Proofs.Forest
import RowGrammar.Proofs.Prefixes
import RowGrammar.Proofs.SymbolPattern.Compiling
import RowGrammar.Proofs.SymbolPattern.Preference

/-!
# Patterns with context

The pattern of a shape is written down as text: its children, and in lookarounds as many of the
siblings as are wanted.  Read back and matched, it finds a branch just where the children stand
between these siblings, and it takes the children only.
-/

namespace RowGrammar

open RowGrammar.Text

/-- The node types with these names, one for each. -/
def Registry.Sequence (registry : Registry) (names : List String) (nodes : List NodeTypeId) :
    Prop :=
  List.Forall₂ (fun name node => registry.id? name = some node) names nodes

/-- A node type has this name, which a pattern can refer to. -/
def Registry.Refers (registry : Registry) (name : String) : Prop :=
  isValidName name ∧ (registry.id? name).isSome

namespace Registry

variable {registry : Registry} {names : List String} {nodes : List NodeTypeId}

theorem Refers.denotes {name : String} {node : NodeTypeId} (refers : registry.Refers name)
    (found : registry.id? name = some node) : registry.Denotes [name] [node] := by
  have resolved : registry.resolve? name = some [node] := by
    rw [resolve?, if_neg (ne_of_isValidName refers.1).2, found]
  exact (denotes_nil registry).append resolved

theorem exists_sequence (refer : ∀ name ∈ names, registry.Refers name) :
    ∃ nodes, registry.Sequence names nodes := by
  induction names with
  | nil => exact ⟨[], .nil⟩
  | cons name names induction =>
      obtain ⟨nodes, others⟩ := induction fun other member => refer other (.tail _ member)
      obtain ⟨node, found⟩ := Option.isSome_iff_exists.mp (refer name List.mem_cons_self).2
      exact ⟨node :: nodes, .cons found others⟩

/-- Each name has one node type at most. -/
theorem Sequence.unique {others : List NodeTypeId} (sequence : registry.Sequence names nodes)
    (sequence' : registry.Sequence names others) : others = nodes := by
  have single : Relator.RightUnique fun name node => registry.id? name = some node :=
    fun _ _ _ found found' => Option.some.inj (found.symm.trans found')
  exact single.forall₂ sequence' sequence

end Registry

/-- A pattern can refer to all types in a tree, and all branches have children. -/
structure Tree.Describable (registry : Registry) (tree : Tree) : Prop where
  refers : ∀ subtree ∈ tree.subtrees, registry.Refers subtree.nodeType
  filled : tree.Filled

theorem Tree.Describable.child {registry : Registry} {nodeType : String} {children : List Tree}
    (describable : (Tree.branch nodeType children).Describable registry) :
    ∀ child ∈ children, child.Describable registry := by
  intro child member
  have below : child.subtrees ⊆ (Tree.branch nodeType children).subtrees :=
    List.subset_cons_of_subset _ (Tree.subtrees_subset_subtreesList member)
  exact ⟨fun subtree part => describable.refers subtree (below part),
    fun other part => describable.filled other (below part)⟩

/-- A pattern can refer to the types at the roots of such trees. -/
theorem Tree.refers_of_mem_types {registry : Registry} {trees : List Tree}
    (describable : ∀ tree ∈ trees, tree.Describable registry) :
    ∀ name ∈ trees.map Tree.nodeType, registry.Refers name := by
  intro name member
  obtain ⟨tree, inside, rfl⟩ := List.mem_map.mp member
  exact (describable tree inside).refers tree (mem_subtrees_self tree)

namespace SymbolPattern

/-- One item for each of the node types. -/
def sequence (nodes : List NodeTypeId) : List SymbolPattern :=
  nodes.map fun node => .symbols [node]

/-- A lookaround for nodes of these types, unless there are none to look for. -/
def lookFor (direction : Direction) (nodes : List NodeTypeId) : List SymbolPattern :=
  if nodes.isEmpty then [] else [.look direction false (ofItems (sequence nodes))]

/-- The pattern that takes `inner` where it stands after `behind` and before `ahead`. -/
def between (behind inner ahead : List NodeTypeId) : SymbolPattern :=
  ofItems (lookFor .behind behind ++ (sequence inner ++ lookFor .ahead ahead))

/-! ## Matching -/

theorem run_ofItems (input : Array NodeTypeId) (absorb : Bool) (items : List SymbolPattern)
    (path : Path) (next : Continuation) :
    run input absorb (ofItems items) path next = runItems input absorb items path next := by
  match items with
  | [] => rfl
  | [_] => rfl
  | _ :: _ :: _ => rfl

section

variable {input : Array NodeTypeId} {items : List SymbolPattern} {path result : Path}
  {next : Continuation}

theorem run_symbol {node : NodeTypeId} :
    run input false (.symbols [node]) path next = some result ↔
      input[path.stop]? = some node ∧ next { path with stop := path.stop + 1 } = some result := by
  rw [run, stepOver]
  cases input[path.stop]? with
  | none => simp
  | some other =>
      by_cases same : other = node
      · simp [same]
      · simp [same]

/-- Without absorption, items for single node types match just these nodes. -/
theorem runItems_sequence {nodes : List NodeTypeId} :
    runItems input false (sequence nodes ++ items) path next = some result ↔
      nodes <+: input.toList.drop path.stop ∧
        runItems input false items { path with stop := path.stop + nodes.length } next =
          some result := by
  induction nodes generalizing path with
  | nil => simp [sequence]
  | cons node nodes induction =>
      have onward : path.stop + (node :: nodes).length = path.stop + 1 + nodes.length := by
        rw [List.length_cons]
        omega
      rw [sequence, List.map_cons, List.cons_append, runItems, run_symbol]
      change _ ∧ runItems input false (sequence nodes ++ items) _ next = some result ↔ _
      rw [induction, cons_prefix_drop_iff, onward, and_assoc]

theorem run_sequence {nodes : List NodeTypeId} :
    run input false (ofItems (sequence nodes)) path next = some result ↔
      nodes <+: input.toList.drop path.stop ∧
        next { path with stop := path.stop + nodes.length } = some result := by
  have items := @runItems_sequence input [] path result next nodes
  rwa [List.append_nil, ← run_ofItems] at items

theorem runItems_lookAhead {nodes : List NodeTypeId} :
    runItems input false (lookFor .ahead nodes ++ items) path next = some result ↔
      nodes <+: input.toList.drop path.stop ∧
        runItems input false items path next = some result := by
  cases nodes with
  | nil => simp [lookFor]
  | cons node nodes =>
      have found : (run input false (ofItems (sequence (node :: nodes))) ⟨path.stop, none⟩
          some).isSome ↔ node :: nodes <+: input.toList.drop path.stop := by
        rw [Option.isSome_iff_exists]
        simp [run_sequence]
      change runItems input false (.look .ahead false _ :: items) path next = some result ↔ _
      rw [runItems, run, ← found]
      simp

/-- A lookbehind finds its nodes where they end. -/
theorem runItems_lookBehind {nodes : List NodeTypeId} :
    runItems input false (lookFor .behind nodes ++ items) path next = some result ↔
      (∃ start, start + nodes.length = path.stop ∧ nodes <+: input.toList.drop start) ∧
        runItems input false items path next = some result := by
  cases nodes with
  | nil => simp [lookFor]
  | cons node nodes =>
      have found : looksBehind (fun start =>
          (run input false (ofItems (sequence (node :: nodes))) ⟨start, none⟩ fun reached =>
            if reached.stop = path.stop then some reached else none).isSome) path.stop = true ↔
          ∃ start, start + (node :: nodes).length = path.stop ∧
            node :: nodes <+: input.toList.drop start := by
        rw [looksBehind_iff]
        refine exists_congr fun start => ?_
        rw [Option.isSome_iff_exists]
        simp only [run_sequence, Option.ite_none_right_eq_some, exists_and_left,
          Option.some.injEq, exists_eq', and_true]
        constructor
        · exact fun ⟨_, stands, ends⟩ => ⟨ends, stands⟩
        · exact fun ⟨ends, stands⟩ => ⟨by omega, stands, ends⟩
      change runItems input false (.look .behind false _ :: items) path next = some result ↔ _
      rw [runItems, run, ← found]
      simp

end

/-- The nodes `inner` stand at a position, right after `behind` and right before `ahead`. -/
def Stand (nodes behind inner ahead : List NodeTypeId) (position : Nat) : Prop :=
  ∃ before after, nodes = before ++ behind ++ inner ++ ahead ++ after ∧
    before.length + behind.length = position

theorem stand_iff {nodes behind inner ahead : List NodeTypeId} (present : inner ≠ [])
    {position : Nat} :
    Stand nodes behind inner ahead position ↔
      (∃ start, start + behind.length = position ∧ behind <+: nodes.drop start) ∧
        inner <+: nodes.drop position ∧ ahead <+: nodes.drop (position + inner.length) := by
  constructor
  · rintro ⟨before, after, rfl, rfl⟩
    have whole : behind ++ (inner ++ ahead) <+:
        (before ++ behind ++ inner ++ ahead ++ after).drop before.length :=
      ⟨after, by simp⟩
    obtain ⟨atStart, rest⟩ := append_prefix_drop_iff.mp whole
    exact ⟨⟨_, rfl, atStart⟩, append_prefix_drop_iff.mp rest⟩
  · rintro ⟨⟨start, rfl, atStart⟩, rest⟩
    obtain ⟨after, same⟩ := append_prefix_drop_iff.mpr ⟨atStart, append_prefix_drop_iff.mpr rest⟩
    have inside : start < nodes.length := by
      apply List.length_lt_of_drop_ne_nil
      rw [← same]
      simp [present]
    refine ⟨nodes.take start, after, ?_, ?_⟩
    · rw [← List.take_append_drop start nodes, ← same, List.take_left']
      · simp
      · simp [Nat.le_of_lt inside]
    · rw [List.length_take_of_le (Nat.le_of_lt inside)]

/-- Nodes stand among the nearest of their neighbours, which are listed from the nearest one on. -/
theorem stand_among (lefts inner rights : List NodeTypeId) (left right : Nat) :
    Stand (lefts.reverse ++ inner ++ rights) (lefts.take left).reverse inner (rights.take right)
      lefts.length := by
  refine ⟨(lefts.drop left).reverse, rights.drop right, ?_, ?_⟩
  · rw [← List.reverse_append, List.take_append_drop, List.append_assoc _ (rights.take right),
      List.take_append_drop]
  · rw [← List.length_append, ← List.reverse_append, List.take_append_drop, List.length_reverse]

/-- The pattern matches where its nodes stand in its context, and takes the nodes only. -/
theorem matchAt_between {behind inner ahead : List NodeTypeId} (present : inner ≠ [])
    {input : Array NodeTypeId} {position : Nat} {found : Match} :
    (capture (between behind inner ahead)).matchAt input position false = some found ↔
      Stand input.toList behind inner ahead position ∧
        found = ⟨position, position + inner.length, ⟨position, position + inner.length⟩⟩ := by
  have filled : (Span.mk position (position + inner.length)).isEmpty = false := by
    rw [Span.isEmpty, decide_eq_false_iff_not]
    exact Nat.not_le.mpr (Nat.lt_add_of_pos_right (List.length_pos_of_ne_nil present))
  have ran (result : Path) : run input false (capture (between behind inner ahead))
      ⟨position, none⟩ accept = some result ↔
        Stand input.toList behind inner ahead position ∧
          result = ⟨position + inner.length, some ⟨position, position + inner.length⟩⟩ := by
    have closing := @runItems_lookAhead input [] ⟨position + inner.length, none⟩ result
      (fun reached => accept { reached with capture := some ⟨position, reached.stop⟩ }) ahead
    rw [List.append_nil] at closing
    rw [run, between, run_ofItems, runItems_lookBehind, runItems_sequence, closing,
      stand_iff present, runItems, accept_eq_some_iff]
    have captures : Path.Captures ⟨position + inner.length,
        some ⟨position, position + inner.length⟩⟩ := ⟨_, rfl, filled⟩
    simp only [captures, true_and, and_assoc]
  simp only [matchAt, Option.bind_eq_bind, Option.bind_eq_some_iff, Option.pure_def, ran]
  constructor
  · rintro ⟨_, ⟨stands, rfl⟩, _, ⟨⟩, ⟨⟩⟩
    exact ⟨stands, rfl⟩
  · rintro ⟨stands, rfl⟩
    exact ⟨_, ⟨stands, rfl⟩, _, rfl, rfl⟩

/-! ## Groups -/

/-- A pattern without capturing groups. -/
def Plain (pattern : SymbolPattern) : Prop :=
  pattern.captures = 0 ∧ pattern.capturesInLook = false

theorem plain_ofItems {items : List SymbolPattern} (plain : ∀ item ∈ items, item.Plain) :
    (ofItems items).Plain := by
  have all : capturesList items = 0 ∧ capturesInLookList items = false := by
    induction items with
    | nil => exact ⟨rfl, rfl⟩
    | cons item items induction =>
        obtain ⟨count, inside⟩ := plain item List.mem_cons_self
        obtain ⟨counts, insides⟩ := induction fun other member => plain other (.tail _ member)
        rw [capturesList, capturesInLookList, count, inside, counts, insides]
        exact ⟨rfl, rfl⟩
  match items, plain, all with
  | [], _, _ => exact ⟨rfl, rfl⟩
  | [item], plain, _ => exact plain item List.mem_cons_self
  | _ :: _ :: _, _, all => exact all

theorem plain_sequence (nodes : List NodeTypeId) : ∀ item ∈ sequence nodes, item.Plain := by
  intro item member
  obtain ⟨_, _, rfl⟩ := List.mem_map.mp member
  exact ⟨rfl, rfl⟩

theorem plain_lookFor (direction : Direction) (nodes : List NodeTypeId) :
    ∀ item ∈ lookFor direction nodes, item.Plain := by
  intro item member
  obtain ⟨none_, _⟩ := plain_ofItems (plain_sequence nodes)
  unfold lookFor at member
  split_ifs at member
  · cases member
  · cases List.mem_singleton.mp member
    exact ⟨none_, by rw [capturesInLook, none_]; rfl⟩

theorem plain_between (behind inner ahead : List NodeTypeId) :
    (between behind inner ahead).Plain := by
  apply plain_ofItems
  simp only [List.forall_mem_append]
  exact ⟨plain_lookFor _ _, plain_sequence _, plain_lookFor _ _⟩

/-! ## Writing down -/

section

variable {registry : Registry} {names : List String} {nodes : List NodeTypeId}

theorem wellFormed_sequence (refer : ∀ name ∈ names, registry.Refers name)
    (typed : registry.Sequence names nodes) :
    ∀ item ∈ sequence nodes, WellFormed registry item := by
  induction typed with
  | nil => nofun
  | cons found _ induction =>
      intro item member
      rcases List.mem_cons.mp member with rfl | later
      · exact .symbols (by simp) (by simp) ((refer _ List.mem_cons_self).denotes found)
      · exact induction (fun name inside => refer name (.tail _ inside)) item later

theorem wellFormed_lookFor (refer : ∀ name ∈ names, registry.Refers name)
    (typed : registry.Sequence names nodes) (direction : Direction) :
    ∀ item ∈ lookFor direction nodes, WellFormed registry item := by
  intro item member
  unfold lookFor at member
  split_ifs at member
  · cases member
  · cases List.mem_singleton.mp member
    exact .look (wellFormed_ofItems.mpr (wellFormed_sequence refer typed))

/-- Names with blanks between them stand for one item each. -/
theorem prints_sequence (refer : ∀ name ∈ names, registry.Refers name)
    (typed : registry.Sequence names nodes) (present : names ≠ []) {items : List SymbolPattern}
    {blanks rest : List Char} (blank : Blank blanks) (printed : Prints registry (.items items) rest)
    (apart : ∀ c ∈ rest.head?, ¬isNameLetter c) :
    Prints registry (.items (sequence nodes ++ items))
      (blanks ++ ((" ".intercalate names).toList ++ rest)) := by
  induction typed generalizing blanks with
  | nil => exact absurd rfl present
  | @cons name node names nodes found typed induction =>
      have first : Prints registry (.item (.symbols [node])) name.toList :=
        .once (.name ((refer name List.mem_cons_self).denotes found))
      cases typed with
      | nil =>
          rw [String.intercalate_singleton]
          exact .before blank first printed fun _ _ c head both => apart c head both.2
      | @cons second _ names _ found' typed =>
          have others := induction (fun name inside => refer name (.tail _ inside))
            (List.cons_ne_nil _ _) blank_space
          have text : blanks ++ ((" ".intercalate (name :: second :: names)).toList ++ rest) =
              blanks ++ (name.toList ++
                ([' '] ++ ((" ".intercalate (second :: names)).toList ++ rest))) := by
            simp [String.intercalate_cons_cons]
          rw [text]
          refine .before blank first others ?_
          rintro _ _ _ ⟨⟩ both
          exact absurd both.2 (by decide)

theorem prints_look (refer : ∀ name ∈ names, registry.Refers name)
    (typed : registry.Sequence names nodes) (present : names ≠ []) (direction : Direction) :
    Prints registry (.item (.look direction false (ofItems (sequence nodes))))
      ('(' :: '?' :: (lookMark direction false ++
        (([' '] ++ ((" ".intercalate names).toList ++ [' '])) ++ [')']))) := by
  have inner := prints_sequence refer typed present blank_space (.nothing blank_space)
    (by rintro _ ⟨⟩; decide)
  rw [List.append_nil] at inner
  exact .once (.look (.whole (.last inner)))

/-- A lookahead at the end of a branch. -/
theorem prints_lookAhead (refer : ∀ name ∈ names, registry.Refers name)
    (typed : registry.Sequence names nodes) :
    Prints registry (.items (lookFor .ahead nodes))
      (if names.isEmpty then [] else
        ' ' :: '(' :: '?' :: '=' :: ' ' :: ((" ".intercalate names).toList ++ [' ', ')'])) := by
  cases typed with
  | nil => exact .nothing blank_nil
  | cons found typed =>
      have look := prints_look refer (.cons found typed) (List.cons_ne_nil _ _) .ahead
      have whole := Prints.before blank_space look (.nothing blank_nil) nofun
      simpa [lookMark, lookFor] using whole

/-- A lookbehind at the start of a branch, before items that blanks may precede. -/
theorem prints_lookBehind (refer : ∀ name ∈ names, registry.Refers name)
    (typed : registry.Sequence names nodes) {items : List SymbolPattern} {rest : List Char}
    (others : ∀ blanks, Blank blanks → Prints registry (.items items) (blanks ++ rest)) :
    Prints registry (.items (lookFor .behind nodes ++ items))
      ((if names.isEmpty then [] else
        '(' :: '?' :: '<' :: '=' :: ' ' ::
          ((" ".intercalate names).toList ++ [' ', ')', ' '])) ++ rest) := by
  cases typed with
  | nil => exact others [] blank_nil
  | cons found typed =>
      have look := prints_look refer (.cons found typed) (List.cons_ne_nil _ _) .behind
      have whole := Prints.before blank_nil look (others _ blank_space) (by
        rintro _ _ _ ⟨⟩ both
        exact absurd both.2 (by decide))
      simpa [lookMark, lookFor] using whole

end

end SymbolPattern

namespace Derivation

open SymbolPattern

/-- A pattern shows the siblings on the left, if any, then the children, then those on the right. -/
theorem alternative_toList (shape : Shape) (left right : Nat) :
    (alternative shape left right).toList =
      (if (shape.left.take left).reverse.isEmpty then [] else
        '(' :: '?' :: '<' :: '=' :: ' ' ::
          ((" ".intercalate (shape.left.take left).reverse).toList ++ [' ', ')', ' '])) ++
      ((" ".intercalate shape.children).toList ++
        if (shape.right.take right).isEmpty then [] else
          ' ' :: '(' :: '?' :: '=' :: ' ' ::
            ((" ".intercalate (shape.right.take right)).toList ++ [' ', ')'])) := by
  unfold alternative
  dsimp only
  split_ifs
  · simp
  · simp [String.intercalate_cons_cons]
  · simp [String.intercalate_cons_cons]
  · simp [String.intercalate_cons_cons]

/-- Siblings are listed from the nearest one on, and those on the left are written the other way. -/
example : alternative ⟨"Bb", ["Num"], ["Comma", "Aa"], ["Semi"]⟩ 2 1 =
    "(?<= Aa Comma ) Num (?= Semi )" := by
  decide +kernel

section

variable {registry : Registry} {shape : Shape}

/-- The branch has children, and a pattern can refer to all types in the shape. -/
structure Shape.Describable (registry : Registry) (shape : Shape) : Prop where
  filled : shape.children ≠ []
  left : ∀ name ∈ shape.left, registry.Refers name
  children : ∀ name ∈ shape.children, registry.Refers name
  right : ∀ name ∈ shape.right, registry.Refers name

theorem Shape.Describable.behind (describable : shape.Describable registry) (left : Nat) :
    ∀ name ∈ (shape.left.take left).reverse, registry.Refers name :=
  fun name member => describable.left name (List.mem_of_mem_take (List.mem_reverse.mp member))

theorem Shape.Describable.ahead (describable : shape.Describable registry) (right : Nat) :
    ∀ name ∈ shape.right.take right, registry.Refers name :=
  fun name member => describable.right name (List.mem_of_mem_take member)

/-- The node types of the children and of the nearest siblings: so many on the left, so many on the
right, or all there are. -/
structure Shape.Typed (registry : Registry) (shape : Shape) (left right : Nat)
    (behind inner ahead : List NodeTypeId) : Prop where
  behind : registry.Sequence (shape.left.take left).reverse behind
  inner : registry.Sequence shape.children inner
  ahead : registry.Sequence (shape.right.take right) ahead

variable {left right : Nat} {behind inner ahead : List NodeTypeId}

theorem prints_alternative (describable : shape.Describable registry)
    (typed : shape.Typed registry left right behind inner ahead) :
    Prints registry (.pattern (between behind inner ahead))
      (alternative shape left right).toList := by
  rw [alternative_toList]
  have closing := prints_lookAhead (describable.ahead right) typed.ahead
  have apart : ∀ c ∈ (if (shape.right.take right).isEmpty then [] else
      ' ' :: '(' :: '?' :: '=' :: ' ' ::
        ((" ".intercalate (shape.right.take right)).toList ++ [' ', ')'])).head?,
      ¬isNameLetter c := by
    split_ifs
    · nofun
    · rintro _ ⟨⟩
      decide
  have opening := prints_lookBehind (describable.behind left) typed.behind fun blanks blank =>
    prints_sequence describable.children typed.inner describable.filled blank closing apart
  exact .whole (.last opening)

/-- The pattern of a shape is compiled to what it describes. -/
theorem compile_alternative (reached : registry.Reached) (describable : shape.Describable registry)
    (typed : shape.Typed registry left right behind inner ahead) (owner : String) :
    compile registry owner (alternative shape left right) =
      .ok (capture (between behind inner ahead)) := by
  have wellFormed : SymbolPattern.WellFormed registry (between behind inner ahead) := by
    apply wellFormed_ofItems.mpr
    simp only [List.forall_mem_append]
    exact ⟨wellFormed_lookFor (describable.behind left) typed.behind _,
      wellFormed_sequence describable.children typed.inner,
      wellFormed_lookFor (describable.ahead right) typed.ahead _⟩
  have printed := prints_alternative describable typed
  obtain ⟨none_, outside⟩ := plain_between behind inner ahead
  rw [compile_of_read (read_of_prints reached.named printed wellFormed) outside, none_]
  rfl

end

/-! ## Shapes of an example -/

section

variable {registry : Registry} {shape : Shape}

mutual

/-- The siblings and children in a shape are parts of the example. -/
theorem describable_of_mem {left right : List String}
    (before : ∀ name ∈ left, registry.Refers name)
    (after : ∀ name ∈ right, registry.Refers name) :
    (tree : Tree) → tree.Describable registry → shape ∈ shapesOf left right tree →
      shape.Describable registry
  | .leaf _ _, _, member => by cases member
  | .branch nodeType children, describable, member => by
      rw [shapesOf, List.mem_append] at member
      rcases member with inside | own
      · exact describable_of_mem_list (List.forall_mem_nil _) children describable.child inside
      · cases List.mem_singleton.mp own
        refine ⟨fun none_ => ?_, before, Tree.refers_of_mem_types describable.child, after⟩
        rw [List.map_eq_nil_iff] at none_
        subst none_
        exact describable.filled nodeType (Tree.mem_subtrees_self _)

theorem describable_of_mem_list {left : List String}
    (before : ∀ name ∈ left, registry.Refers name) :
    (trees : List Tree) → (∀ tree ∈ trees, tree.Describable registry) →
      shape ∈ shapesOfList left trees → shape.Describable registry
  | [], _, member => by cases member
  | tree :: trees, describable, member => by
      obtain ⟨first, others⟩ := List.forall_mem_cons.mp describable
      rw [shapesOfList, List.mem_append] at member
      rcases member with here | later
      · exact describable_of_mem before (Tree.refers_of_mem_types others) tree first here
      · refine describable_of_mem_list ?_ trees others later
        exact List.forall_mem_cons.mpr ⟨first.refers tree (Tree.mem_subtrees_self tree), before⟩

end

/-- The children of the shape stand at a position, right between the nearest siblings. -/
def Shape.OccursAt (registry : Registry) (shape : Shape) (left right : Nat)
    (nodes : List NodeTypeId) (position : Nat) : Prop :=
  ∃ behind inner ahead, shape.Typed registry left right behind inner ahead ∧
    Stand nodes behind inner ahead position

/-- The pattern of a shape, with any amount of context, is compiled.  It matches the branch that the
shape was taken from among its siblings and captures the children.  Anywhere else it matches where
the children stand between the wanted siblings, and nowhere else. -/
theorem alternative_recognizes (reached : registry.Reached) {example_ : Tree}
    (describable : example_.Describable registry)
    (recorded : shape ∈ (ShapeInference.infer example_).shapes) (left right : Nat)
    (owner : String) :
    ∃ pattern nodes,
      compile registry owner (alternative shape left right) = .ok pattern ∧
      registry.Sequence (shape.left.reverse ++ shape.children ++ shape.right) nodes ∧
      pattern.matchAt nodes.toArray shape.left.length false =
        some ⟨shape.left.length, shape.left.length + shape.children.length,
          ⟨shape.left.length, shape.left.length + shape.children.length⟩⟩ ∧
      ∀ (input : Array NodeTypeId) (position : Nat),
        (pattern.matchAt input position false).isSome ↔
          shape.OccursAt registry left right input.toList position := by
  have proper : shape.Describable registry :=
    describable_of_mem (List.forall_mem_nil _) (List.forall_mem_nil _) example_ describable
      (List.mem_eraseDups.mp recorded)
  obtain ⟨lefts, before⟩ := Registry.exists_sequence proper.left
  obtain ⟨inner, children⟩ := Registry.exists_sequence proper.children
  obtain ⟨rights, after⟩ := Registry.exists_sequence proper.right
  have typed : shape.Typed registry left right (lefts.take left).reverse inner
      (rights.take right) :=
    ⟨List.rel_reverse (List.forall₂_take left before), children, List.forall₂_take right after⟩
  have present : inner ≠ [] := by
    rintro rfl
    exact proper.filled (List.forall₂_nil_right_iff.mp children)
  refine ⟨_, lefts.reverse ++ inner ++ rights, compile_alternative reached proper typed owner,
    List.rel_append (List.rel_append (List.rel_reverse before) children) after, ?_, ?_⟩
  · rw [before.length_eq, children.length_eq]
    exact (matchAt_between present).mpr ⟨stand_among lefts inner rights left right, rfl⟩
  · intro input position
    rw [Option.isSome_iff_exists]
    constructor
    · rintro ⟨found, matched⟩
      exact ⟨_, inner, _, typed, ((matchAt_between present).mp matched).1⟩
    · rintro ⟨_, _, _, others, stands⟩
      obtain rfl := typed.behind.unique others.behind
      obtain rfl := typed.inner.unique others.inner
      obtain rfl := typed.ahead.unique others.ahead
      exact ⟨_, (matchAt_between present).mpr ⟨stands, rfl⟩⟩

end

/-- A sum within a sum, with operands on either side. -/
def nestedSum : Tree :=
  .branch "Plus" [.leaf "Num" "1", .branch "Plus" [.leaf "Num" "2", .leaf "Num" "3"],
    .leaf "Num" "4"]

theorem describable_nestedSum : nestedSum.Describable operands := by
  have number : operands.Refers "Num" := ⟨by decide +kernel, by decide +kernel⟩
  have plus : operands.Refers "Plus" := ⟨by decide +kernel, by decide +kernel⟩
  constructor
  · simp [nestedSum, Tree.subtrees, Tree.subtreesList, Tree.nodeType, number, plus]
  · simp [nestedSum, Tree.Filled, Tree.subtrees, Tree.subtreesList]

theorem alternative_recognizes_inner :
    operands.Reached ∧ nestedSum.Describable operands ∧
      ⟨"Plus", ["Num", "Num"], ["Num"], ["Num"]⟩ ∈ (ShapeInference.infer nestedSum).shapes ∧
      ∃ pattern, compile operands "Plus" "(?<= Num ) Num Num (?= Num )" = .ok pattern ∧
        pattern.matchAt #[1, 1, 1, 1] 1 false = some ⟨1, 3, ⟨1, 3⟩⟩ := by
  have recorded : ⟨"Plus", ["Num", "Num"], ["Num"], ["Num"]⟩ ∈
      (ShapeInference.infer nestedSum).shapes := by
    decide +kernel
  refine ⟨reached_operands, describable_nestedSum, recorded, ?_⟩
  obtain ⟨pattern, nodes, compiled, typed, matched, _⟩ :=
    alternative_recognizes reached_operands describable_nestedSum recorded 1 1 "Plus"
  have number : operands.id? "Num" = some 1 := by decide +kernel
  have four : operands.Sequence ["Num", "Num", "Num", "Num"] [1, 1, 1, 1] :=
    .cons number (.cons number (.cons number (.cons number .nil)))
  obtain rfl := four.unique typed
  exact ⟨pattern, compiled, matched⟩

end Derivation

end RowGrammar
