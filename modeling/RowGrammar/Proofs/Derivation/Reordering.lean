import Mathlib.Algebra.Group.Nat.Defs
import Mathlib.Data.List.Permutation
import Mathlib.Data.List.Sections
import Mathlib.Data.Multiset.Defs
import RowGrammar.Derivation.Tokens
import RowGrammar.Proofs.Grammar.Signature
import RowGrammar.Proofs.Trimming

/-!
# Orders of inferred rows

Moving a type or an alternative loses nothing, so all orders that can be reached have the same
alternatives, and there are only so many of them.  Their signatures tell the rows of loaded grammars
apart, unless a pattern has the character in it that ends the patterns of a signature.
-/

namespace RowGrammar.Derivation

open RowGrammar.Text

/-! ## Reordering -/

theorem perm_moveBefore? {α : Type} {moved target : α → Bool} {items after : List α}
    (moves : moveBefore? moved target items = some after) : after.Perm items := by
  unfold moveBefore? at moves
  obtain ⟨source, _, moves⟩ := Option.bind_eq_some_iff.mp moves
  obtain ⟨place, known, moves⟩ := Option.bind_eq_some_iff.mp moves
  obtain ⟨item, found, moves⟩ := Option.bind_eq_some_iff.mp moves
  split_ifs at moves
  cases moves
  obtain ⟨inside, rfl⟩ := List.getElem?_eq_some_iff.mp found
  have bounded : place < items.length := (List.findIdx?_eq_some_iff_getElem.mp known).1
  have room : place ≤ (items.eraseIdx source).length := by
    rw [List.length_eraseIdx_of_lt inside]
    omega
  exact (List.perm_insertIdx _ _ room).trans (List.getElem_cons_eraseIdx_perm inside)

/-- What an entry says apart from the order of its alternatives. -/
def TokenEntry.content (entry : TokenEntry) : String × Multiset Fragment :=
  (entry.nodeType, entry.fragments)

namespace TokenInference

/-- The same leaf types, each with the same alternatives, in any order. -/
def Reordered (one two : TokenInference) : Prop :=
  (one.entries.map TokenEntry.content).Perm (two.entries.map TokenEntry.content)

theorem Reordered.refl (inference : TokenInference) : inference.Reordered inference :=
  List.Perm.refl _

theorem Reordered.symm {one two : TokenInference} (reordered : one.Reordered two) :
    two.Reordered one :=
  List.Perm.symm reordered

theorem Reordered.trans {one two three : TokenInference} (first : one.Reordered two)
    (second : two.Reordered three) : one.Reordered three :=
  List.Perm.trans first second

/-- The alternatives are the same in every order. -/
theorem Reordered.exists_fragment {one two : TokenInference} (reordered : one.Reordered two)
    {entry : TokenEntry} (listed : entry ∈ two.entries) {fragment : Fragment}
    (member : fragment ∈ entry.fragments) :
    ∃ other ∈ one.entries, fragment ∈ other.fragments := by
  obtain ⟨other, listed', same⟩ :=
    List.mem_map.mp (reordered.mem_iff.mpr (List.mem_map_of_mem listed))
  have perm : other.fragments.Perm entry.fragments :=
    Multiset.coe_eq_coe.mp (Prod.mk.inj same).2
  exact ⟨other, listed', perm.mem_iff.mpr member⟩

theorem reordered_of_moveType? {inference after : TokenInference} {nodeType before : String}
    (moves : inference.moveType? nodeType before = some after) : inference.Reordered after := by
  obtain ⟨entries, moved, rfl⟩ := Option.map_eq_some_iff.mp moves
  exact ((perm_moveBefore? moved).map _).symm

theorem reordered_of_moveFragment? {inference after : TokenInference}
    {nodeType literal before : String}
    (moves : inference.moveFragment? nodeType literal before = some after) :
    inference.Reordered after := by
  unfold moveFragment? at moves
  obtain ⟨index, _, moves⟩ := Option.bind_eq_some_iff.mp moves
  obtain ⟨entry, found, moves⟩ := Option.bind_eq_some_iff.mp moves
  obtain ⟨fragments, moved, moves⟩ := Option.bind_eq_some_iff.mp moves
  cases moves
  obtain ⟨inside, rfl⟩ := List.getElem?_eq_some_iff.mp found
  have same : TokenEntry.content { inference.entries[index] with fragments } =
      inference.entries[index].content :=
    Prod.ext rfl (Multiset.coe_eq_coe.mpr (perm_moveBefore? moved))
  rw [Reordered, List.map_set, same, ← List.map_set, List.set_getElem_self]

theorem reordered_of_reorder {inference after : TokenInference} {index : Nat}
    {token : String × String} {leaf : LeafOccurrence}
    (reorders : inference.reorder index token leaf = .ok after) : inference.Reordered after := by
  unfold reorder at reorders
  split_ifs at reorders with unknown typed
  · dsimp only at reorders
    split at reorders
    · cases reorders
      exact reordered_of_moveFragment? ‹_›
    · cases reorders
  · dsimp only at reorders
    split at reorders
    · cases reorders
      exact reordered_of_moveType? ‹_›
    · cases reorders

/-! ## Number of orders -/

theorem orders_eq_factorial (count : Nat) : orders count = count.factorial := by
  induction count with
  | zero => rfl
  | succ count induction => rw [orders, induction, Nat.factorial_succ]

/-- All orders of the types and of the alternatives of each. -/
def arrangements (inference : TokenInference) : List TokenInference :=
  inference.entries.permutations.flatMap fun entries =>
    (List.sections (entries.map fun entry =>
      entry.fragments.permutations.map (⟨entry.nodeType, ·⟩))).map .mk

theorem mem_arrangements {inference other : TokenInference}
    (reordered : inference.Reordered other) :
    other ∈ inference.arrangements := by
  have composed : Relation.Comp (· = List.map TokenEntry.content ·) List.Perm
      (other.entries.map TokenEntry.content) inference.entries := by
    rw [List.eq_map_comp_perm]
    exact reordered.symm
  obtain ⟨entries, same, perm⟩ := composed
  refine List.mem_flatMap.mpr ⟨entries, List.mem_permutations.mpr perm, ?_⟩
  refine List.mem_map.mpr ⟨other.entries, List.mem_sections.mpr ?_, rfl⟩
  rw [← List.forall₂_eq_eq_eq, List.forall₂_map_left_iff, List.forall₂_map_right_iff] at same
  rw [List.forall₂_map_right_iff]
  refine same.imp fun one two equal => ?_
  obtain ⟨typed, fragments⟩ := Prod.mk.inj equal
  refine List.mem_map.mpr ⟨one.fragments, ?_, by rw [← typed]⟩
  exact List.mem_permutations.mpr (Multiset.coe_eq_coe.mp fragments)

theorem length_sections {α : Type} (lists : List (List α)) :
    lists.sections.length = (lists.map List.length).prod := by
  induction lists with
  | nil => rfl
  | cons list lists induction =>
      rw [List.sections, List.length_flatMap, List.map_cons, List.prod_cons, ← induction]
      simp [Nat.mul_comm]

theorem orderBound_eq (inference : TokenInference) :
    inference.orderBound = inference.entries.length.factorial *
      (inference.entries.map fun entry => entry.fragments.length.factorial).prod := by
  have folded (entries : List TokenEntry) (bound : Nat) :
      entries.foldl (fun bound entry => bound * orders entry.fragments.length) bound =
        bound * (entries.map fun entry => entry.fragments.length.factorial).prod := by
    induction entries generalizing bound with
    | nil => simp
    | cons entry entries induction =>
        rw [List.foldl_cons, induction, List.map_cons, List.prod_cons, orders_eq_factorial,
          Nat.mul_assoc]
  rw [orderBound, folded, orders_eq_factorial]

theorem length_arrangements (inference : TokenInference) :
    inference.arrangements.length = inference.orderBound := by
  have each (entries : List TokenEntry) (among : entries ∈ inference.entries.permutations) :
      ((List.sections (entries.map fun entry =>
        entry.fragments.permutations.map (⟨entry.nodeType, ·⟩))).map TokenInference.mk).length =
          (inference.entries.map fun entry => entry.fragments.length.factorial).prod := by
    rw [List.length_map, length_sections, List.map_map]
    have perm := (List.mem_permutations.mp among).map fun entry : TokenEntry =>
      entry.fragments.length.factorial
    rw [← perm.prod_nat]
    simp [Function.comp_def, List.length_permutations]
  rw [arrangements, List.length_flatMap, List.map_congr_left each, orderBound_eq]
  simp [List.length_permutations]

/-! ## Signatures -/

/-- The part of a signature that tells the order of the alternatives. -/
def patternsText (entries : List TokenEntry) : List Char :=
  entries.flatMap fun entry =>
    '|' :: entry.fragments.flatMap fun fragment => fragment.pattern.toList ++ ['\x00']

theorem toList_signature (inference : TokenInference) :
    inference.signature.toList =
      [' '].intercalate ((inference.entries.map (·.nodeType)).map String.toList) ++
        patternsText inference.entries := by
  rw [signature, String.toList_append, String.toList_intercalate, String.toList_join]
  simp [patternsText, List.flatMap_map, Function.comp_def]

/-- Texts that are all ended by a separator are told apart. -/
theorem eq_of_flatMap_ended {separator : Char} {texts others : List (List Char)}
    (free : ∀ text ∈ texts, separator ∉ text) (free' : ∀ text ∈ others, separator ∉ text)
    (same : texts.flatMap (· ++ [separator]) = others.flatMap (· ++ [separator])) :
    texts = others := by
  induction texts generalizing others with
  | nil =>
      cases others with
      | nil => rfl
      | cons => simp at same
  | cons text texts induction =>
      cases others with
      | nil => simp at same
      | cons other others =>
          obtain ⟨fresh, rest⟩ := List.forall_mem_cons.mp free
          obtain ⟨fresh', rest'⟩ := List.forall_mem_cons.mp free'
          simp only [List.flatMap_cons, List.append_assoc, List.singleton_append] at same
          obtain ⟨rfl, later⟩ := append_separator_inj fresh fresh' same
          rw [induction rest rest' later]

/-- The letters that a text starts with, after the blank characters before them. -/
def leadingName (chars : List Char) : List Char :=
  (chars.dropWhile isBlank).takeWhile isNameLetter

theorem not_isNameLetter_of_isBlank {c : Char} (blank : isBlank c) : isNameLetter c = false := by
  rw [← Bool.not_eq_true]
  intro letter
  have seen := of_isNameLetter (fun c => !isBlank c) letter (by decide +kernel)
  simp [blank] at seen

theorem leadingName_append {name : String} (valid : Registry.isValidName (trim name))
    {rest : List Char} (ends : ∀ c ∈ rest.head?, isNameLetter c = false) :
    leadingName (name.toList ++ rest) = (trim name).toList := by
  obtain ⟨several, letters⟩ := Bool.and_eq_true_iff.mp valid
  rw [List.all_eq_true] at letters
  obtain ⟨before, after, chars, blank, blank'⟩ := exists_trimmed name
  have stops : (after ++ rest).takeWhile isNameLetter = [] := by
    cases after with
    | nil =>
        cases rest with
        | nil => rfl
        | cons c rest => simp [ends c rfl]
    | cons c after => simp [not_isNameLetter_of_isBlank (blank' c List.mem_cons_self)]
  have starts : ((trim name).toList ++ (after ++ rest)).dropWhile isBlank =
      (trim name).toList ++ (after ++ rest) := by
    cases name_eq : (trim name).toList with
    | nil => simp [name_eq] at several
    | cons c name =>
        have letter := letters c (name_eq ▸ List.mem_cons_self)
        have seen : ¬isBlank c := fun blank => by
          rw [not_isNameLetter_of_isBlank blank] at letter
          cases letter
        simp [seen]
  rw [leadingName, chars, List.append_assoc, List.append_assoc,
    List.dropWhile_append_of_pos blank, starts, List.takeWhile_append_of_pos letters, stops,
    List.append_nil]

theorem bar_notMem_of_isValidName {name : String} (valid : Registry.isValidName (trim name)) :
    '|' ∉ name.toList := by
  intro member
  have letters := List.all_eq_true.mp (Bool.and_eq_true_iff.mp valid).2
  obtain ⟨before, after, chars, blank, blank'⟩ := exists_trimmed name
  rw [chars, List.mem_append, List.mem_append] at member
  rcases member with inside | inside | inside
  · exact absurd (blank _ inside) (by decide)
  · exact absurd (letters _ inside) (by decide)
  · exact absurd (blank' _ inside) (by decide)

theorem bar_notMem_intercalate {names : List String}
    (valid : ∀ name ∈ names, Registry.isValidName (trim name)) :
    '|' ∉ [' '].intercalate (names.map String.toList) := by
  intro member
  rcases mem_of_mem_intercalate member with same | ⟨_, listed, inside⟩
  · exact absurd same (by decide)
  · obtain ⟨name, among, rfl⟩ := List.mem_map.mp listed
    exact bar_notMem_of_isValidName (valid name among) inside

/-- The first of some names with blanks between them ends where no letter follows. -/
theorem exists_intercalate_cons (name : String) (names : List String) :
    ∃ rest, [' '].intercalate ((name :: names).map String.toList) = name.toList ++ rest ∧
      (∀ c ∈ rest.head?, isNameLetter c = false) ∧
      (names ≠ [] → rest = ' ' :: [' '].intercalate (names.map String.toList)) := by
  cases names with
  | nil => exact ⟨[], by simp, nofun, fun present => absurd rfl present⟩
  | cons next names =>
      refine ⟨_, ?_, ?_, fun _ => rfl⟩
      · simp only [List.map_cons, List.intercalate_cons_cons, List.append_assoc,
          List.singleton_append]
      · rintro c ⟨⟩
        decide

/-- Names with blank characters between and around them are told apart, when there are the same
names on both sides. -/
theorem eq_of_intercalate_eq {names others : List String} (perm : names.Perm others)
    (valid : ∀ name ∈ names, Registry.isValidName (trim name))
    (distinct : (names.map trim).Nodup)
    (same : [' '].intercalate (names.map String.toList) =
      [' '].intercalate (others.map String.toList)) : names = others := by
  induction names generalizing others with
  | nil => exact (List.nil_perm.mp perm).symm
  | cons name names induction =>
      cases others with
      | nil => exact List.perm_nil.mp perm
      | cons other others =>
          obtain ⟨rest, split, stops, further⟩ := exists_intercalate_cons name names
          obtain ⟨rest', split', stops', further'⟩ := exists_intercalate_cons other others
          have among : other ∈ name :: names := perm.mem_iff.mpr List.mem_cons_self
          have trimmed : trim name = trim other := by
            rw [← String.toList_inj, ← leadingName_append (valid _ List.mem_cons_self) stops,
              ← split, same, split', leadingName_append (valid _ among) stops']
          obtain rfl : name = other :=
            List.inj_on_of_nodup_map distinct List.mem_cons_self among trimmed
          have perm := List.perm_cons _ |>.mp perm
          rw [split, split'] at same
          have rest_eq := List.append_cancel_left same
          congr 1
          by_cases last : names = []
          · subst last
            exact (List.nil_perm.mp perm).symm
          · have last' : others ≠ [] := fun empty => last (List.perm_nil.mp (empty ▸ perm))
            rw [further last, further' last'] at rest_eq
            exact induction perm (fun name member => valid name (List.mem_cons_of_mem _ member))
              (List.nodup_cons.mp distinct).2 (List.cons.inj rest_eq).2

/-- The contents of entries with distinct types are in the order of the types. -/
theorem content_eq_of_types {one two : TokenInference} (reordered : one.Reordered two)
    (distinct : (one.entries.map (·.nodeType)).Nodup)
    (same : one.entries.map (·.nodeType) = two.entries.map (·.nodeType)) :
    one.entries.map TokenEntry.content = two.entries.map TokenEntry.content := by
  have types (inference : TokenInference) :
      (inference.entries.map TokenEntry.content).map Prod.fst =
        inference.entries.map (·.nodeType) := List.map_map
  apply @eq_of_map_eq _ _ Prod.fst _ _ _ (by rw [types, types, same])
  intro item member other member' equal
  rw [← types one] at distinct
  exact List.inj_on_of_nodup_map distinct member (reordered.mem_iff.mpr member') equal

/-- An order is told by the types and the patterns of its signature. -/
theorem patterns_eq_of_contents {entries others : List TokenEntry}
    (same : entries.map TokenEntry.content = others.map TokenEntry.content)
    (plain : ∀ entry ∈ entries, ∀ fragment ∈ entry.fragments, '\x00' ∉ fragment.pattern.toList)
    (equal : patternsText entries = patternsText others) :
    entries.map (fun entry => entry.fragments.map (·.pattern)) =
      others.map fun entry => entry.fragments.map (·.pattern) := by
  induction entries generalizing others with
  | nil => rw [List.map_eq_nil_iff.mp same.symm]
  | cons entry entries induction =>
      cases others with
      | nil => cases same
      | cons other others =>
          obtain ⟨first, rest⟩ := List.forall_mem_cons.mp plain
          obtain ⟨content, contents⟩ := List.cons.inj same
          have perm : entry.fragments.Perm other.fragments :=
            Multiset.coe_eq_coe.mp (Prod.mk.inj content).2
          rw [patternsText, patternsText, List.flatMap_cons, List.flatMap_cons] at equal
          -- The alternatives are the same in another order, so both parts are equally long.
          obtain ⟨part, later⟩ := List.append_inj equal (by
            simp only [List.length_cons, List.length_flatMap]
            rw [(perm.map _).sum_nat])
          rw [List.map_cons, List.map_cons, induction contents rest later]
          have chars : (entry.fragments.map (·.pattern)).map String.toList =
              (other.fragments.map (·.pattern)).map String.toList := by
            apply @eq_of_flatMap_ended '\x00'
            · simpa using first
            · simpa using fun fragment member => first fragment (perm.mem_iff.mpr member)
            · simpa [List.flatMap_map] using part
          rw [List.map_injective_iff.mpr (fun _ _ => String.toList_injective) chars]

theorem rows_eq_of_contents {one two : TokenInference} (parser : String)
    (types : one.entries.map (·.nodeType) = two.entries.map (·.nodeType))
    (patterns : one.entries.map (fun entry => entry.fragments.map (·.pattern)) =
      two.entries.map fun entry => entry.fragments.map (·.pattern)) :
    one.rows parser = two.rows parser := by
  have zipped (inference : TokenInference) : inference.rows parser =
      List.zipWith (fun nodeType patterns => .token parser nodeType ("|".intercalate patterns))
        (inference.entries.map (·.nodeType))
        (inference.entries.map fun entry => entry.fragments.map (·.pattern)) := by
    rw [List.zipWith_map, List.zipWith_self]
    rfl
  rw [zipped, zipped, types, patterns]

/-- Where the types have names of their own and no pattern has the character that ends patterns,
orders of the same alternatives with the same signature have the same rows. -/
theorem rows_eq_of_signature_eq {one two : TokenInference} (reordered : one.Reordered two)
    (valid : ∀ name ∈ one.entries.map (·.nodeType), Registry.isValidName (trim name))
    (distinct : ((one.entries.map (·.nodeType)).map trim).Nodup)
    (plain : ∀ entry ∈ one.entries, ∀ fragment ∈ entry.fragments,
      '\x00' ∉ fragment.pattern.toList)
    (same : one.signature = two.signature) (parser : String) :
    one.rows parser = two.rows parser := by
  have perm : (one.entries.map (·.nodeType)).Perm (two.entries.map (·.nodeType)) := by
    have contents := List.Perm.map Prod.fst reordered
    rwa [List.map_map, List.map_map] at contents
  have chars := congrArg String.toList same
  rw [toList_signature, toList_signature] at chars
  have valid' : ∀ name ∈ two.entries.map (·.nodeType), Registry.isValidName (trim name) :=
    fun name member => valid name (perm.mem_iff.mpr member)
  obtain ⟨types, patterns⟩ : one.entries.map (·.nodeType) = two.entries.map (·.nodeType) ∧
      patternsText one.entries = patternsText two.entries := by
    cases entries : one.entries with
    | nil =>
        have nothing : two.entries = [] := by simpa [entries] using perm
        exact ⟨by rw [nothing], by rw [nothing]⟩
    | cons entry rest =>
        cases entries' : two.entries with
        | nil => simp [entries, entries'] at perm
        | cons entry' rest' =>
            rw [entries] at perm valid distinct chars
            rw [entries'] at perm valid' chars
            obtain ⟨names, later⟩ := append_separator_inj (bar_notMem_intercalate valid)
              (bar_notMem_intercalate valid') chars
            exact ⟨eq_of_intercalate_eq perm valid distinct names, congrArg ('|' :: ·) later⟩
  exact rows_eq_of_contents parser types (patterns_eq_of_contents
    (content_eq_of_types reordered (List.Nodup.of_map _ distinct) types) plain patterns)

end TokenInference

end RowGrammar.Derivation
