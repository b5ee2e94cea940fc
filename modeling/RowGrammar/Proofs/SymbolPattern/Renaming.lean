import Mathlib.Data.List.Basic
import Mathlib.Tactic.SplitIfs
import RowGrammar.Proofs.SymbolPattern.Steps
import RowGrammar.SymbolPattern.Match

/-!
# Renaming node types in patterns

The numbers of node types depend on the order of the rows.  A pattern with other numbers finds the
same matches in a sequence with the same other numbers, and reading a notation against a registry
with other numbers gives the pattern with these numbers.
-/

namespace RowGrammar.SymbolPattern

/-! ## Sets of node types -/

theorem mem_insertMember {id other : NodeTypeId} {members : List NodeTypeId} :
    other ∈ insertMember id members ↔ other = id ∨ other ∈ members := by
  induction members with
  | nil => simp [insertMember]
  | cons member members induction =>
      unfold insertMember
      split
      · exact List.mem_cons
      · split
        · rename_i same
          simp [same]
        · rw [List.mem_cons, List.mem_cons, induction, or_left_comm]

theorem mem_sortMembers {id : NodeTypeId} {ids : List NodeTypeId} :
    id ∈ sortMembers ids ↔ id ∈ ids := by
  induction ids with
  | nil => exact Iff.rfl
  | cons first ids induction =>
      change id ∈ insertMember first (sortMembers ids) ↔ _
      rw [mem_insertMember, induction, List.mem_cons]

theorem pairwise_insertMember {id : NodeTypeId} {members : List NodeTypeId}
    (ordered : members.Pairwise (· < ·)) : (insertMember id members).Pairwise (· < ·) := by
  induction members with
  | nil => exact List.pairwise_singleton _ _
  | cons member members induction =>
      obtain ⟨first, rest⟩ := List.pairwise_cons.mp ordered
      unfold insertMember
      split
      · rename_i before
        apply List.pairwise_cons.mpr ⟨_, ordered⟩
        intro other inside
        rcases List.mem_cons.mp inside with same | later
        · exact same ▸ before
        · exact Nat.lt_trans before (first other later)
      · split
        · exact ordered
        · rename_i before apart
          apply List.pairwise_cons.mpr ⟨_, induction rest⟩
          intro other inside
          rcases mem_insertMember.mp inside with same | later
          · exact same ▸ Nat.lt_of_le_of_ne (Nat.le_of_not_lt before) (Ne.symm apart)
          · exact first other later

theorem pairwise_sortMembers (ids : List NodeTypeId) : (sortMembers ids).Pairwise (· < ·) := by
  induction ids with
  | nil => exact .nil
  | cons first ids induction => exact pairwise_insertMember induction

theorem sortMembers_eq {ids members : List NodeTypeId} (ordered : members.Pairwise (· < ·))
    (same : ∀ id, id ∈ ids ↔ id ∈ members) : sortMembers ids = members := by
  apply List.Perm.eq_of_pairwise _ (pairwise_sortMembers ids) ordered
  · apply (List.perm_ext_iff_of_nodup _ _).mpr
    · intro id
      rw [mem_sortMembers, same]
    · exact (pairwise_sortMembers ids).imp Nat.ne_of_lt
    · exact ordered.imp Nat.ne_of_lt
  · intro left right _ _ less greater
    exact absurd less (Nat.lt_asymm greater)

/-- Two lists have the same set of members when they have the same members in increasing order. -/
theorem sortMembers_congr {ids others : List NodeTypeId} (same : ∀ id, id ∈ ids ↔ id ∈ others) :
    sortMembers ids = sortMembers others := by
  apply sortMembers_eq (pairwise_sortMembers others)
  intro id
  rw [mem_sortMembers, same]

/-! ## Patterns with other numbers -/

section

variable (types : NodeTypeId → NodeTypeId)

mutual

/-- The pattern with other numbers for the node types. -/
def rename : SymbolPattern → SymbolPattern
  | .empty => .empty
  | .any => .any
  | .symbols members => .symbols (sortMembers (members.map types))
  | .concat items => .concat (renameList items)
  | .alternation branches => .alternation (renameList branches)
  | .loop body least most greedy => .loop body.rename least most greedy
  | .capture body => .capture body.rename
  | .look direction negated body => .look direction negated body.rename

def renameList : List SymbolPattern → List SymbolPattern
  | [] => []
  | pattern :: patterns => pattern.rename :: renameList patterns

end

variable {types}

theorem renameList_eq_map (patterns : List SymbolPattern) :
    renameList types patterns = patterns.map (rename types) := by
  induction patterns with
  | nil => rfl
  | cons pattern patterns induction =>
      rw [renameList, induction]
      rfl

mutual

theorem captures_rename (pattern : SymbolPattern) :
    (pattern.rename types).captures = pattern.captures := by
  cases pattern with
  | empty => rfl
  | any => rfl
  | symbols members => rfl
  | concat items => exact capturesList_rename items
  | alternation branches => exact capturesList_rename branches
  | loop body least most greedy => exact captures_rename body
  | capture body => exact congrArg (· + 1) (captures_rename body)
  | look direction negated body => exact captures_rename body

theorem capturesList_rename (patterns : List SymbolPattern) :
    capturesList (renameList types patterns) = capturesList patterns := by
  cases patterns with
  | nil => rfl
  | cons pattern patterns =>
      rw [renameList, capturesList, capturesList, captures_rename pattern,
        capturesList_rename patterns]

end

mutual

theorem capturesInLook_rename (pattern : SymbolPattern) :
    (pattern.rename types).capturesInLook = pattern.capturesInLook := by
  cases pattern with
  | empty => rfl
  | any => rfl
  | symbols members => rfl
  | concat items => exact capturesInLookList_rename items
  | alternation branches => exact capturesInLookList_rename branches
  | loop body least most greedy => exact capturesInLook_rename body
  | capture body => exact capturesInLook_rename body
  | look direction negated body =>
      rw [rename, capturesInLook, capturesInLook, captures_rename body]

theorem capturesInLookList_rename (patterns : List SymbolPattern) :
    capturesInLookList (renameList types patterns) = capturesInLookList patterns := by
  cases patterns with
  | nil => rfl
  | cons pattern patterns =>
      rw [renameList, capturesInLookList, capturesInLookList, capturesInLook_rename pattern,
        capturesInLookList_rename patterns]

end

theorem ofItems_rename (items : List SymbolPattern) :
    (ofItems items).rename types = ofItems (items.map (rename types)) := by
  cases items with
  | nil => rfl
  | cons item items =>
      cases items with
      | nil => rfl
      | cons other items =>
          change SymbolPattern.concat (renameList types (item :: other :: items)) = _
          rw [renameList_eq_map]
          rfl

theorem ofBranches_rename (branches : List SymbolPattern) :
    (ofBranches branches).rename types = ofBranches (branches.map (rename types)) := by
  cases branches with
  | nil => rfl
  | cons branch branches =>
      cases branches with
      | nil => rfl
      | cons other branches =>
          change SymbolPattern.alternation (renameList types (branch :: other :: branches)) = _
          rw [renameList_eq_map]
          rfl

/-! ## Matches -/

section

variable (injective : Function.Injective types) (fixed : types unrecognized = unrecognized)

include injective in
theorem contains_sortMembers_map (members : List NodeTypeId) (id : NodeTypeId) :
    (sortMembers (members.map types)).contains (types id) = members.contains id := by
  rw [Bool.eq_iff_iff, List.contains_iff_mem, List.contains_iff_mem, mem_sortMembers]
  exact List.mem_map_of_injective injective

include injective fixed in
theorem stepOver_rename {accepts accepts_ : NodeTypeId → Bool}
    (same : ∀ id, accepts_ (types id) = accepts id) (input : Array NodeTypeId) (absorb : Bool)
    (path : Path) (next : Continuation) :
    stepOver (input.map types) absorb accepts_ path next =
      stepOver input absorb accepts path next := by
  have following (place : Nat) :
      ((input.map types)[place]? == some unrecognized) = (input[place]? == some unrecognized) := by
    rw [Array.getElem?_map]
    cases input[place]? with
    | none => rfl
    | some id =>
        rw [Option.map_some, Bool.eq_iff_iff, beq_iff_eq, beq_iff_eq, Option.some_inj,
          Option.some_inj]
        exact ⟨fun equal => injective (equal.trans fixed.symm), fun equal => equal ▸ fixed⟩
  unfold stepOver
  rw [following, Array.getElem?_map]
  cases input[path.stop]? with
  | none => rfl
  | some id => simp only [Option.map_some, same]

mutual

theorem run_rename (injective : Function.Injective types)
    (fixed : types unrecognized = unrecognized) (input : Array NodeTypeId) (absorb : Bool)
    (pattern : SymbolPattern) :
    run (input.map types) absorb (pattern.rename types) = run input absorb pattern := by
  funext path next
  cases pattern with
  | empty => rfl
  | any =>
      simp only [rename, run]
      exact stepOver_rename injective fixed (fun _ => rfl) input absorb path next
  | symbols members =>
      simp only [rename, run]
      exact stepOver_rename injective fixed (contains_sortMembers_map injective members) input
        absorb path next
  | concat items =>
      simp only [rename, run]
      rw [runItems_rename injective fixed input absorb items]
  | alternation branches =>
      simp only [rename, run]
      rw [runBranches_rename injective fixed input absorb branches]
  | loop body least most greedy =>
      simp only [rename, run, Array.size_map]
      rw [run_rename injective fixed input absorb body]
  | capture body =>
      simp only [rename, run]
      rw [run_rename injective fixed input absorb body]
  | look direction negated body =>
      simp only [rename, run]
      rw [run_rename injective fixed input absorb body]

theorem runItems_rename (injective : Function.Injective types)
    (fixed : types unrecognized = unrecognized) (input : Array NodeTypeId) (absorb : Bool)
    (items : List SymbolPattern) :
    runItems (input.map types) absorb (renameList types items) = runItems input absorb items := by
  funext path next
  cases items with
  | nil => rfl
  | cons item items =>
      simp only [renameList, runItems]
      rw [run_rename injective fixed input absorb item,
        runItems_rename injective fixed input absorb items]

theorem runBranches_rename (injective : Function.Injective types)
    (fixed : types unrecognized = unrecognized) (input : Array NodeTypeId) (absorb : Bool)
    (branches : List SymbolPattern) :
    runBranches (input.map types) absorb (renameList types branches) =
      runBranches input absorb branches := by
  funext path next
  cases branches with
  | nil => rfl
  | cons branch branches =>
      simp only [renameList, runBranches]
      rw [run_rename injective fixed input absorb branch,
        runBranches_rename injective fixed input absorb branches]

end

include injective fixed in
/-- The same stretches match. -/
theorem matchAt_rename (pattern : SymbolPattern) (input : Array NodeTypeId) (start : Nat)
    (absorb : Bool) :
    (pattern.rename types).matchAt (input.map types) start absorb =
      pattern.matchAt input start absorb := by
  rw [matchAt, matchAt, run_rename injective fixed]

end

end

/-! ## Notations -/

/-- The same node types, with other numbers and in any order. -/
def SameTypes (types : NodeTypeId → NodeTypeId) (ids others : List NodeTypeId) : Prop :=
  ∀ id, id ∈ others ↔ id ∈ ids.map types

theorem SameTypes.append {types : NodeTypeId → NodeTypeId}
    {ids others ids' others' : List NodeTypeId}
    (one : SameTypes types ids others) (two : SameTypes types ids' others') :
    SameTypes types (ids ++ ids') (others ++ others') := by
  intro id
  rw [List.map_append, List.mem_append, List.mem_append, one id, two id]

theorem SameTypes.ne_nil {types : NodeTypeId → NodeTypeId} {ids others : List NodeTypeId}
    (same : SameTypes types ids others) (present : ids ≠ []) : others ≠ [] := by
  obtain ⟨id, member⟩ := List.exists_mem_of_ne_nil ids present
  exact List.ne_nil_of_mem ((same (types id)).mpr (List.mem_map_of_mem member))

theorem SameTypes.symbols_eq {types : NodeTypeId → NodeTypeId} {ids others : List NodeTypeId}
    (same : SameTypes types ids others) :
    SymbolPattern.symbols (sortMembers others) = (symbols (sortMembers ids)).rename types := by
  apply congrArg SymbolPattern.symbols
  apply sortMembers_congr
  intro id
  rw [same id, List.mem_map, List.mem_map]
  exact exists_congr fun other => and_congr_left fun _ => mem_sortMembers.symm

def Frame.rename (types : NodeTypeId → NodeTypeId) (frame : Frame) : Frame :=
  ⟨frame.kind, frame.branches.map (SymbolPattern.rename types),
    frame.items.map (SymbolPattern.rename types)⟩

/-- What may come next, where a set that is being read has other numbers. -/
inductive Expected.Renamed (types : NodeTypeId → NodeTypeId) : Expected → Expected → Prop where
  | member {members others : List NodeTypeId} :
      SameTypes types members others → Renamed types (.member members) (.member others)
  | same {expected : Expected} :
      (∀ members, expected ≠ .member members) → Renamed types expected expected

/-- What has been read of a pattern, against registries with different numbers. -/
structure Reading.Renamed (types : NodeTypeId → NodeTypeId) (reading other : Reading) : Prop where
  current : other.current = reading.current.rename types
  outer : other.outer = reading.outer.map (Frame.rename types)
  expected : Expected.Renamed types reading.expected other.expected

section

variable {types : NodeTypeId → NodeTypeId}

namespace Frame

theorem branch_rename (frame : Frame) :
    (frame.rename types).branch = frame.branch.rename types := by
  rw [branch, branch, ofItems_rename, List.map_reverse]
  rfl

theorem divide_rename (frame : Frame) :
    (frame.rename types).divide = frame.divide.rename types := by
  rw [divide, branch_rename]
  rfl

theorem body_rename (frame : Frame) : (frame.rename types).body = frame.body.rename types := by
  rw [body, body, ofBranches_rename, branch_rename, List.map_append, List.map_reverse]
  rfl

theorem pattern_rename (frame : Frame) :
    (frame.rename types).pattern = frame.pattern.rename types := by
  obtain ⟨kind, branches, items⟩ := frame
  cases kind with
  | capturing => exact congrArg SymbolPattern.capture (body_rename _)
  | plain => exact body_rename _
  | look direction negated => exact congrArg (SymbolPattern.look direction negated) (body_rename _)

end Frame

namespace Expected.Renamed

variable {expected expected' : Expected} (renamed : Expected.Renamed types expected expected')

include renamed

theorem eq (plain : ∀ members, expected ≠ .member members) : expected' = expected := by
  cases renamed with
  | member _ => exact absurd rfl (plain _)
  | same _ => rfl

theorem of_member {members : List NodeTypeId} (same : expected = .member members) :
    ∃ others, expected' = .member others ∧ SameTypes types members others := by
  cases renamed with
  | member sameTypes =>
      cases same
      exact ⟨_, rfl, sameTypes⟩
  | same plain => exact absurd same (plain members)

end Expected.Renamed

namespace Reading.Renamed

variable {reading other : Reading} (renamed : Reading.Renamed types reading other)

theorem start : Reading.Renamed types .start .start :=
  ⟨rfl, rfl, .same nofun⟩

include renamed

theorem push {item item_ : SymbolPattern} (same : item_ = item.rename types) :
    Reading.Renamed types (reading.push item) (other.push item_) := by
  refine ⟨?_, renamed.outer, .same nofun⟩
  rw [same, Reading.push, renamed.current]
  rfl

theorem expecting {expected expected' : Expected}
    (same : Expected.Renamed types expected expected') :
    Reading.Renamed types { reading with expected }
      { other with expected := expected' } :=
  ⟨renamed.current, renamed.outer, same⟩

theorem opening (kind : GroupKind) :
    Reading.Renamed types (reading.opening kind) (other.opening kind) := by
  refine ⟨rfl, ?_, .same nofun⟩
  rw [Reading.opening, renamed.current, renamed.outer]
  rfl

theorem quantify (least : Nat) (most : Option Nat) (stop : Nat) :
    Reading.Renamed types (reading.quantify least most stop) (other.quantify least most stop) := by
  have items : other.current.items = reading.current.items.map (SymbolPattern.rename types) := by
    rw [renamed.current]
    rfl
  unfold Reading.quantify
  rw [items]
  cases reading.current.items with
  | nil => exact renamed.expecting (.same nofun)
  | cons item items =>
      refine ⟨?_, renamed.outer, .same nofun⟩
      rw [renamed.current]
      rfl

theorem makeLazy : Reading.Renamed types reading.makeLazy other.makeLazy := by
  have items : other.current.items = reading.current.items.map (SymbolPattern.rename types) := by
    rw [renamed.current]
    rfl
  unfold Reading.makeLazy
  rw [items]
  cases reading.current.items with
  | nil => exact renamed.expecting (.same nofun)
  | cons item items =>
      cases item with
      | loop item least most greedy =>
          refine ⟨?_, renamed.outer, .same nofun⟩
          rw [renamed.current]
          rfl
      | _ => exact renamed.expecting (.same nofun)

end Reading.Renamed

variable {registry registry' : Registry}

/-- Two registries know the same names, with other numbers. -/
def SameNames (types : NodeTypeId → NodeTypeId) (registry registry' : Registry) : Prop :=
  ∀ name, Option.Rel (SameTypes types) (registry.resolve? name) (registry'.resolve? name)

variable (agree : SameNames types registry registry') {nodeType : String}

include agree

theorem SameNames.resolve {name : String} {ids : List NodeTypeId}
    (resolved : registry.resolve? name = some ids) :
    ∃ others, registry'.resolve? name = some others ∧ SameTypes types ids others := by
  have related := agree name
  rw [resolved] at related
  generalize registry'.resolve? name = result at related ⊢
  cases related with
  | some same => exact ⟨_, rfl, same⟩

theorem ItemStep.renamed {reading other after : Reading} {placed : Placed}
    (renamed : Reading.Renamed types reading other)
    (step : ItemStep registry reading placed after) :
    ∃ after', ItemStep registry' other placed after' ∧ Reading.Renamed types after after' := by
  cases step with
  | name resolved =>
      obtain ⟨others, resolved', same⟩ := agree.resolve resolved
      exact ⟨_, .name resolved', renamed.push same.symbols_eq⟩
  | any => exact ⟨_, .any, renamed.push rfl⟩
  | set => exact ⟨_, .set, renamed.current, renamed.outer, .member fun _ => Iff.rfl⟩
  | group => exact ⟨_, .group, renamed.expecting (.same nofun)⟩
  | bar =>
      refine ⟨_, .bar, ?_, renamed.outer, .same nofun⟩
      rw [renamed.current]
      exact Frame.divide_rename _
  | @close _ around outer enclosing =>
      have outers := renamed.outer
      rw [enclosing] at outers
      have enclosed : Reading.Renamed types ⟨around, outer, .item⟩
          ⟨around.rename types, outer.map (Frame.rename types), .item⟩ := ⟨rfl, rfl, .same nofun⟩
      refine ⟨_, .close outers, enclosed.push ?_⟩
      rw [renamed.current]
      exact Frame.pattern_rename _

theorem LexemeStep.renamed {reading other after : Reading} {placed : Placed}
    (renamed : Reading.Renamed types reading other)
    (step : LexemeStep registry reading placed after) :
    ∃ after', LexemeStep registry' other placed after' ∧ Reading.Renamed types after after' := by
  have related := renamed.expected
  cases step with
  | item admits step =>
      obtain ⟨after', step', final⟩ := step.renamed agree renamed
      refine ⟨after', .item ?_ step', final⟩
      rwa [related.eq admits.ne_member]
  | captured opened bare step =>
      rw [opened] at related
      obtain ⟨after', step', final⟩ := step.renamed agree (renamed.opening _)
      exact ⟨after', .captured (related.eq nofun) bare step', final⟩
  | quantified quantifies =>
      refine ⟨_, .quantified ?_, renamed.quantify _ _ _⟩
      rwa [related.eq quantifies.ne_member]
  | lazy laziness mark =>
      rw [laziness] at related
      exact ⟨_, .lazy (related.eq nofun) mark, renamed.makeLazy⟩
  | awaits awaits =>
      refine ⟨_, .awaits ?_, renamed.expecting (.same awaits.next_ne_member)⟩
      rwa [related.eq awaits.ne_member]
  | opened opens =>
      refine ⟨_, .opened ?_, renamed.opening _⟩
      rwa [related.eq opens.ne_member]
  | member expected name resolved =>
      obtain ⟨others, expected', same⟩ := related.of_member expected
      obtain ⟨more, resolved', further⟩ := agree.resolve resolved
      exact ⟨_, .member expected' name resolved',
        renamed.expecting (.member (same.append further))⟩
  | set expected sign present =>
      obtain ⟨others, expected', same⟩ := related.of_member expected
      exact ⟨_, .set expected' sign (same.ne_nil present), renamed.push same.symbols_eq⟩

omit agree in
theorem finish_renamed {reading other : Reading} {stop : Nat} {pattern : SymbolPattern}
    (renamed : Reading.Renamed types reading other)
    (finished : finish nodeType reading stop = .ok pattern) :
    finish nodeType other stop = .ok (pattern.rename types) := by
  obtain ⟨settled, closed, rfl⟩ := finish_eq_ok_iff.mp finished
  apply finish_eq_ok_iff.mpr
  refine ⟨?_, ?_, ?_⟩
  · have expected := renamed.expected
    generalize reading.expected = first at expected settled
    generalize other.expected = second at expected
    cases expected with
    | member _ => cases settled
    | same _ => exact settled
  · rw [renamed.outer, closed]
    rfl
  · rw [renamed.current]
    exact Frame.body_rename _

theorem foldlM_readLexeme_renamed {lexemes : List Placed} {reading other after : Reading}
    (renamed : Reading.Renamed types reading other)
    (read : lexemes.foldlM (readLexeme registry nodeType) reading = .ok after) :
    ∃ after', lexemes.foldlM (readLexeme registry' nodeType) other = .ok after' ∧
      Reading.Renamed types after after' := by
  induction lexemes generalizing reading other with
  | nil =>
      cases read
      exact ⟨other, rfl, renamed⟩
  | cons placed lexemes induction =>
      rw [List.foldlM_cons, bind_eq_ok_iff] at read
      obtain ⟨middle, first, rest⟩ := read
      obtain ⟨middle', first', related⟩ :=
        (readLexeme_eq_ok_iff.mp first).renamed agree renamed
      obtain ⟨after', rest', final⟩ := induction related rest
      refine ⟨after', ?_, final⟩
      rw [List.foldlM_cons, readLexeme_eq_ok_iff.mpr first']
      exact rest'

/-- A notation is compiled to the same pattern with other numbers. -/
theorem compile_renamed {notation_ : String} {pattern : SymbolPattern}
    (compiled : compile registry nodeType notation_ = .ok pattern) :
    compile registry' nodeType notation_ = .ok (pattern.rename types) := by
  obtain ⟨raw, read_, counted⟩ := bind_eq_ok_iff.mp compiled
  obtain ⟨reading, lexed, finished⟩ := bind_eq_ok_iff.mp read_
  obtain ⟨reading', lexed', related⟩ := foldlM_readLexeme_renamed agree .start lexed
  have reads : read registry' nodeType notation_ = .ok (raw.rename types) :=
    bind_eq_ok_iff.mpr ⟨reading', lexed', finish_renamed related finished⟩
  apply bind_eq_ok_iff.mpr
  refine ⟨raw.rename types, reads, ?_⟩
  rw [capturesInLook_rename, captures_rename]
  split_ifs at counted ⊢
  · cases counted
  · split at counted
    · cases counted
      rfl
    · cases counted
      rfl
    · cases counted

end

end RowGrammar.SymbolPattern
