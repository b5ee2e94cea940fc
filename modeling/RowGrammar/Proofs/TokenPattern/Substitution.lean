import Mathlib.Data.List.Chain
import Mathlib.Data.List.Perm.Subperm
import Mathlib.Logic.Relation
import RowGrammar.Proofs.TokenPattern.Stripping
import RowGrammar.Proofs.TokenPattern.Words
import RowGrammar.Proofs.Traversal

/-!
# Substituting references

Expanding a token type gives the full substitution of its references with the layout dropped, and
it fails only over a reference to no token type or over a cycle of references.  What is kept of
finished types never hides a cycle: a finished type has a substitution, and no type on a cycle has.
-/

namespace RowGrammar.TokenPattern

open RowGrammar.Text

/-! ## References and substitutions -/

/-- The types that a segment refers to. -/
def targetsOf (registry : Registry) : Segment → List NodeTypeId
  | .verbatim _ => []
  | .word chars => (registry.resolve? (String.ofList chars)).getD []

/-- A segment with its reference, if it is one, written out. -/
def substitute (registry : Registry) (text : NodeTypeId → String) : Segment → String
  | .verbatim chars => String.ofList chars
  | .word chars =>
      match registry.resolve? (String.ofList chars) with
      | none => String.ofList chars
      | some targets => inlined (targets.map text)

section

variable (grammar : Grammar)

/-- The pattern of a token type has a word that stands for a type. -/
def References (id target : NodeTypeId) : Prop :=
  ∃ rule word targets, grammar.tokenRule? id = some rule ∧ word ∈ words rule.pattern ∧
    grammar.registry.resolve? word.text = some targets ∧ target ∈ targets

/-- A text is the pattern of a token type with all references substituted: those in the pattern
itself by the substituted patterns of the types they stand for. -/
inductive Substituted : NodeTypeId → String → Prop where
  | rule {id : NodeTypeId} {rule : TokenRule} (text : NodeTypeId → String) :
      grammar.tokenRule? id = some rule →
      (∀ target, References grammar id target → Substituted target (text target)) →
      Substituted id
        (String.join ((segments rule.pattern.toList).map (substitute grammar.registry text)))

end

variable {grammar : Grammar} {id : NodeTypeId}

theorem references_iff {rule : TokenRule} (found : grammar.tokenRule? id = some rule)
    {target : NodeTypeId} :
    References grammar id target ↔
      ∃ segment ∈ segments rule.pattern.toList, target ∈ targetsOf grammar.registry segment := by
  constructor
  · rintro ⟨_, word, targets, same, listed, resolved, member⟩
    cases found.symm.trans same
    refine ⟨.word word.text.toList, exists_mem_words_iff.mp ⟨word, listed, ?_⟩, ?_⟩
    · rw [String.ofList_toList]
    · rw [targetsOf, String.ofList_toList, resolved]
      exact member
  · rintro ⟨segment, listed, member⟩
    cases segment with
    | verbatim chars => cases member
    | word chars =>
        obtain ⟨word, inside, same⟩ := exists_mem_words_iff.mpr listed
        rw [targetsOf, ← same] at member
        cases resolved : grammar.registry.resolve? word.text with
        | none =>
            rw [resolved] at member
            cases member
        | some targets =>
            rw [resolved] at member
            exact ⟨rule, word, targets, found, inside, resolved, member⟩

theorem substitute_congr {registry : Registry} {text other : NodeTypeId → String}
    {segment : Segment} (same : ∀ target ∈ targetsOf registry segment, text target = other target) :
    substitute registry text segment = substitute registry other segment := by
  cases segment with
  | verbatim chars => rfl
  | word chars =>
      unfold substitute
      dsimp only
      cases resolved : registry.resolve? (String.ofList chars) with
      | none => rfl
      | some targets =>
          dsimp only
          rw [List.map_congr_left]
          intro target member
          apply same
          rw [targetsOf, resolved]
          exact member

namespace Substituted

theorem tokenRule?_isSome {text : String} (substituted : Substituted grammar id text) :
    (grammar.tokenRule? id).isSome := by
  cases substituted with
  | rule _ found _ => simp [found]

theorem exists_target {text : String} (substituted : Substituted grammar id text)
    {target : NodeTypeId} (refers : References grammar id target) :
    ∃ text, Substituted grammar target text := by
  cases substituted with
  | rule text _ inner => exact ⟨text target, inner target refers⟩

theorem unique {text other : String} (one : Substituted grammar id text)
    (two : Substituted grammar id other) : text = other := by
  induction one generalizing other with
  | rule text found _ induction =>
      cases two with
      | rule text' found' inner =>
          cases found.symm.trans found'
          congr 1
          apply List.map_congr_left
          intro segment listed
          apply substitute_congr
          intro target member
          have refers := (references_iff found).mpr ⟨segment, listed, member⟩
          exact induction target refers (inner target refers)

/-- A cycle through a type is a cycle through a type it refers to. -/
theorem not_transGen {text : String} (substituted : Substituted grammar id text) :
    ¬Relation.TransGen (References grammar) id id := by
  induction substituted with
  | rule _ _ _ induction =>
      intro cycle
      obtain ⟨next, refers, back⟩ := Relation.TransGen.head'_iff.mp cycle
      exact induction next refers (.tail' back refers)

end Substituted

/-! ## Successful runs -/

/-- What is finished has been substituted and stripped. -/
def Sound (grammar : Grammar) (finished : Finished) : Prop :=
  ∀ id text, finished.lookup id = some text →
    ∃ full, Substituted grammar id full ∧ text = strip full

theorem Sound.nil : Sound grammar [] := nofun

theorem Sound.cons {finished : Finished} (sound : Sound grammar finished) {full : String}
    (substituted : Substituted grammar id full) : Sound grammar ((id, strip full) :: finished) := by
  intro other text found
  rw [List.lookup_cons] at found
  split at found
  · rename_i same
    cases found
    exact ⟨full, eq_of_beq same ▸ substituted, rfl⟩
  · exact sound other text found

/-- A text is what a segment becomes when the stripped patterns of all its targets are put in. -/
structure Becomes (grammar : Grammar) (segment : Segment) (text : String) : Prop where
  targets : ∀ target ∈ targetsOf grammar.registry segment,
    ∃ full, Substituted grammar target full
  text_eq : ∀ full : NodeTypeId → String,
    (∀ target ∈ targetsOf grammar.registry segment, Substituted grammar target (full target)) →
    text = substitute grammar.registry (fun target => strip (full target)) segment

/-- Layout may be dropped from the inserted texts before or after they are inserted. -/
theorem sameButLayout_substitute (registry : Registry) (full : NodeTypeId → String)
    (segment : Segment) (escaped : Bool) :
    SameButLayout escaped
      (substitute registry (fun target => strip (full target)) segment).toList
      (substitute registry full segment).toList := by
  cases segment with
  | verbatim chars => exact .refl _
  | word chars =>
      unfold substitute
      dsimp only
      cases registry.resolve? (String.ofList chars) with
      | none => exact .refl _
      | some targets =>
          apply SameButLayout.inlined
          rw [List.forall₂_map_left_iff, List.forall₂_map_right_iff, List.forall₂_same]
          intro target _
          rw [strip, String.toList_ofList]
          exact .strip _

theorem sameButLayout_join (registry : Registry) (full : NodeTypeId → String)
    (pieces : List Segment) (escaped : Bool) :
    SameButLayout escaped
      (String.join (pieces.map (substitute registry fun target => strip (full target)))).toList
      (String.join (pieces.map (substitute registry full))).toList := by
  induction pieces generalizing escaped with
  | nil => exact .refl _
  | cons piece pieces induction =>
      simp only [List.map_cons, String.join_cons, String.toList_append]
      exact (sameButLayout_substitute registry full piece escaped).append induction

/-- What a successful expansion has done: looked the type up, or expanded its pattern. -/
theorem expandOn_eq_ok {fuel : Nat} {path : List NodeTypeId} {before after : Finished}
    {text : String} (run : (expandOn grammar fuel path id).run before = .ok (text, after)) :
    (before.lookup id = some text ∧ after = before) ∨
    ∃ rule texts between less, fuel = less + 1 ∧ grammar.tokenRule? id = some rule ∧
      ((segments rule.pattern.toList).mapM
        (expandSegment grammar (expandOn grammar less (id :: path)) id)).run before =
          .ok (texts, between) ∧
      text = strip (String.join texts) ∧ after = (id, text) :: between := by
  unfold expandOn at run
  rw [run_bind_eq_ok_iff] at run
  obtain ⟨_, _, got, run⟩ := run
  cases got
  split at run
  · rename_i found
    cases run
    exact .inl ⟨found, rfl⟩
  · split_ifs at run
    · cases run
    · split at run
      · rename_i less rule found
        obtain ⟨texts, between, traversed, run⟩ := run_bind_eq_ok_iff.mp run
        obtain ⟨_, _, kept, done⟩ := run_bind_eq_ok_iff.mp run
        cases kept
        cases done
        exact .inr ⟨rule, texts, _, less, rfl, found, traversed, rfl, rfl⟩
      · cases run

theorem expandSegment_becomes {expand : NodeTypeId → Expansion String}
    (expands : ∀ target {before after text}, Sound grammar before →
      (expand target).run before = .ok (text, after) →
      (∃ full, Substituted grammar target full ∧ text = strip full) ∧ Sound grammar after)
    {segment : Segment} {before after : Finished} {text : String} (sound : Sound grammar before)
    (run : (expandSegment grammar expand id segment).run before = .ok (text, after)) :
    Becomes grammar segment text ∧ Sound grammar after := by
  cases segment with
  | verbatim chars =>
      cases run
      exact ⟨⟨nofun, fun _ _ => rfl⟩, sound⟩
  | word chars =>
      unfold expandSegment at run
      dsimp only at run
      split at run
      · rename_i unknown
        cases run
        refine ⟨⟨?_, fun _ _ => ?_⟩, sound⟩
        · simp [targetsOf, unknown]
        · simp [substitute, unknown]
      · rename_i targets resolved
        obtain ⟨alternatives, _, traversed, done⟩ := run_bind_eq_ok_iff.mp run
        cases done
        obtain ⟨each, kept⟩ := forall₂_of_run_mapM (Sound grammar)
          (fun target text => ∃ full, Substituted grammar target full ∧ text = strip full)
          (fun target _ before after text sound run => by
            split_ifs at run
            · exact expands target sound run
            · cases run) sound traversed
        have listed : targetsOf grammar.registry (.word chars) = targets := by
          simp [targetsOf, resolved]
        refine ⟨⟨?_, fun full substituted => ?_⟩, kept⟩
        · rw [listed]
          intro target member
          obtain ⟨_, _, full, substituted, _⟩ := exists_of_forall₂ each member
          exact ⟨full, substituted⟩
        · rw [listed] at substituted
          have same : alternatives = targets.map fun target => strip (full target) := by
            apply eq_map_of_forall₂ each
            rintro target member text ⟨other, found, rfl⟩
            rw [found.unique (substituted target member)]
          simp [substitute, resolved, same]

/-- A pattern is substituted once its segments are. -/
theorem exists_substituted {rule : TokenRule} (found : grammar.tokenRule? id = some rule)
    {texts : List String}
    (each : List.Forall₂ (Becomes grammar) (segments rule.pattern.toList) texts) :
    ∃ full, Substituted grammar id full ∧ strip (String.join texts) = strip full := by
  have known (target : NodeTypeId) (refers : References grammar id target) :
      ∃ full, Substituted grammar target full := by
    obtain ⟨segment, listed, member⟩ := (references_iff found).mp refers
    obtain ⟨_, _, becomes⟩ := exists_of_forall₂ each listed
    exact becomes.targets target member
  choose! full substituted using known
  refine ⟨_, .rule full found substituted, ?_⟩
  have same : texts = (segments rule.pattern.toList).map
      (substitute grammar.registry fun target => strip (full target)) := by
    apply eq_map_of_forall₂ each
    intro segment listed text becomes
    apply becomes.text_eq
    exact fun target member => substituted target ((references_iff found).mpr ⟨_, listed, member⟩)
  rw [same, strip, strip, stripChars_eq, stripChars_eq, (sameButLayout_join _ _ _ _).strips]

/-- An expansion that succeeds gives the substituted pattern without its layout. -/
theorem expandOn_substituted {fuel : Nat} {path : List NodeTypeId} {before after : Finished}
    {text : String} (sound : Sound grammar before)
    (run : (expandOn grammar fuel path id).run before = .ok (text, after)) :
    (∃ full, Substituted grammar id full ∧ text = strip full) ∧ Sound grammar after := by
  induction fuel generalizing path id before after text with
  | zero =>
      rcases expandOn_eq_ok run with ⟨found, rfl⟩ | ⟨_, _, _, _, exhausted, _⟩
      · exact ⟨sound _ _ found, sound⟩
      · cases exhausted
  | succ fuel induction =>
      rcases expandOn_eq_ok run with ⟨found, rfl⟩ | ⟨rule, texts, between, less, same, found,
        traversed, rfl, rfl⟩
      · exact ⟨sound _ _ found, sound⟩
      · cases same
        obtain ⟨each, kept⟩ := forall₂_of_run_mapM (Sound grammar) (Becomes grammar)
          (fun segment _ before after text sound run =>
            expandSegment_becomes (fun target _ _ _ => induction) sound run) sound traversed
        obtain ⟨full, substituted, same⟩ := exists_substituted found each
        rw [same]
        exact ⟨⟨full, substituted, rfl⟩, kept.cons substituted⟩

/-! ## Failed runs -/

/-- What an expansion may blame: a cycle of references, or a reference to no token type. -/
inductive Blames (grammar : Grammar) : GrammarError → Prop where
  | cycle {first : NodeTypeId} {rest : List NodeTypeId} :
      (first :: (rest ++ [first])).IsChain (References grammar) →
      Blames grammar (.expansionCycle ((first :: (rest ++ [first])).map grammar.registry.name))
  | unresolved {id target : NodeTypeId} {name : String} :
      References grammar id target → grammar.tokenRule? target = none →
      Blames grammar (.unresolvedReference (grammar.registry.name id) name)

/-- The types being expanded, each referring to the one after it, and the next one. -/
structure Leads (grammar : Grammar) (path : List NodeTypeId) (id : NodeTypeId) : Prop where
  chain : (id :: path).IsChain (flip (References grammar))
  nodup : path.Nodup
  known : ∀ each ∈ id :: path, (grammar.tokenRule? each).isSome

namespace Leads

variable {path : List NodeTypeId} (leads : Leads grammar path id)

include leads

theorem extend (fresh : id ∉ path) {target : NodeTypeId} (refers : References grammar id target)
    (token : (grammar.tokenRule? target).isSome) : Leads grammar (id :: path) target where
  chain := leads.chain.cons_cons refers
  nodup := List.nodup_cons.mpr ⟨fresh, leads.nodup⟩
  known := List.forall_mem_cons.mpr ⟨token, leads.known⟩

/-- There are no more types on the way than token rules. -/
theorem length_lt (fresh : id ∉ path) : path.length < grammar.tokenRules.size := by
  have types : id :: path ⊆ grammar.tokenRules.toList.map (·.nodeType) := by
    intro each listed
    obtain ⟨rule, found⟩ := Option.isSome_iff_exists.mp (leads.known each listed)
    have typed : rule.nodeType = each := by simpa using Array.find?_some found
    have known := Array.mem_toList_iff.mpr (Array.mem_of_find?_eq_some found)
    exact List.mem_map.mpr ⟨rule, known, typed⟩
  have distinct : (id :: path).Nodup := List.nodup_cons.mpr ⟨fresh, leads.nodup⟩
  have fits := (distinct.subperm types).length_le
  simpa [Nat.add_one_le_iff] using fits

/-- A type that is met again closes a cycle. -/
theorem blames (again : id ∈ path) :
    Blames grammar (.expansionCycle ((path.reverse.dropWhile (· != id)).map grammar.registry.name ++
      [grammar.registry.name id])) := by
  obtain ⟨before, rest, split, outside⟩ :=
    List.eq_append_cons_of_mem (List.mem_reverse.mpr again)
  have kept : path.reverse.dropWhile (· != id) = id :: rest := by
    rw [split, List.dropWhile_append_of_pos, List.dropWhile_cons_of_neg]
    · simp
    · intro each listed
      simpa using fun same : each = id => outside (same ▸ listed)
  have chain : (path.reverse ++ [id]).IsChain (References grammar) := by
    rw [← List.reverse_cons, List.isChain_reverse]
    exact leads.chain
  rw [split, List.append_assoc] at chain
  have cycle := Blames.cycle chain.right_of_append
  rw [kept]
  simpa using cycle

end Leads

/-- Why an expansion fails: a cycle, a failure further on, or a path that cannot be that long. -/
theorem expandOn_eq_error {fuel : Nat} {path : List NodeTypeId} {before : Finished}
    {error : GrammarError} (run : (expandOn grammar fuel path id).run before = .error error) :
    (id ∈ path ∧ error = .expansionCycle
      ((path.reverse.dropWhile (· != id)).map grammar.registry.name ++
        [grammar.registry.name id])) ∨
    (id ∉ path ∧ ∃ rule less, fuel = less + 1 ∧ grammar.tokenRule? id = some rule ∧
      ∃ segment ∈ segments rule.pattern.toList, ∃ between,
        (expandSegment grammar (expandOn grammar less (id :: path)) id segment).run between =
          .error error) ∨
    (id ∉ path ∧ ∀ less, fuel = less + 1 → grammar.tokenRule? id = none) := by
  unfold expandOn at run
  rw [run_bind_eq_error_iff] at run
  rcases run with got | ⟨_, _, got, run⟩
  · cases got
  · cases got
    split at run
    · cases run
    · split_ifs at run with again
      · cases run
        exact .inl ⟨by simpa using again, rfl⟩
      · have fresh : id ∉ path := by simpa using again
        split at run
        · rename_i less rule found
          rcases run_bind_eq_error_iff.mp run with failed | ⟨_, _, _, run⟩
          · exact .inr (.inl ⟨fresh, rule, less, rfl, found, exists_of_run_mapM_eq_error failed⟩)
          · rcases run_bind_eq_error_iff.mp run with kept | ⟨_, _, _, done⟩
            · cases kept
            · cases done
        · rename_i impossible
          refine .inr (.inr ⟨fresh, fun less same => ?_⟩)
          cases found : grammar.tokenRule? id with
          | none => rfl
          | some rule => exact (impossible less rule same found).elim

theorem expandSegment_blames {rule : TokenRule} (found : grammar.tokenRule? id = some rule)
    {expand : NodeTypeId → Expansion String} {error : GrammarError}
    (fails : ∀ target before, References grammar id target →
      (grammar.tokenRule? target).isSome → (expand target).run before = .error error →
      Blames grammar error)
    {segment : Segment} (listed : segment ∈ segments rule.pattern.toList) {before : Finished}
    (run : (expandSegment grammar expand id segment).run before = .error error) :
    Blames grammar error := by
  cases segment with
  | verbatim chars => cases run
  | word chars =>
      unfold expandSegment at run
      dsimp only at run
      split at run
      · cases run
      · rename_i targets resolved
        rcases run_bind_eq_error_iff.mp run with failed | ⟨_, _, _, done⟩
        · obtain ⟨target, member, between, failed⟩ := exists_of_run_mapM_eq_error failed
          have refers : References grammar id target := by
            refine (references_iff found).mpr ⟨_, listed, ?_⟩
            rw [targetsOf, resolved]
            exact member
          split_ifs at failed with token
          · exact fails target between refers token failed
          · cases failed
            exact .unresolved refers (by simpa using token)
        · cases done

theorem expandOn_blames {fuel : Nat} {path : List NodeTypeId} {before : Finished}
    {error : GrammarError} (leads : Leads grammar path id)
    (enough : path.length + fuel = grammar.tokenRules.size)
    (run : (expandOn grammar fuel path id).run before = .error error) : Blames grammar error := by
  induction fuel generalizing path id before with
  | zero =>
      rcases expandOn_eq_error run with ⟨again, rfl⟩ | ⟨_, _, _, exhausted, _⟩ | ⟨fresh, _⟩
      · exact leads.blames again
      · cases exhausted
      · have room := leads.length_lt fresh
        omega
  | succ fuel induction =>
      rcases expandOn_eq_error run with ⟨again, rfl⟩ | ⟨fresh, rule, less, same, found, segment,
        listed, between, failed⟩ | ⟨fresh, absent⟩
      · exact leads.blames again
      · cases same
        refine expandSegment_blames found (fun target before refers token run => ?_) listed failed
        refine induction (leads.extend fresh refers token) ?_ run
        rw [List.length_cons]
        omega
      · have known := leads.known id List.mem_cons_self
        rw [absent fuel rfl] at known
        cases known

/-! ## All token types -/

/-- A type with its expanded pattern. -/
def Expanded (grammar : Grammar) (rule : TokenRule) (entry : NodeTypeId × String) : Prop :=
  entry.1 = rule.nodeType ∧
    ∃ full, Substituted grammar rule.nodeType full ∧ entry.2 = strip full

theorem expanded_of_expandAll {table : List (NodeTypeId × String)}
    (expands : expandAll grammar = .ok table) :
    List.Forall₂ (Expanded grammar) grammar.tokenRules.toList table := by
  obtain ⟨⟨patterns, after⟩, traversed, done⟩ := bind_eq_ok_iff.mp expands
  cases done
  refine (forall₂_of_run_mapM (Sound grammar) (Expanded grammar) ?_ .nil traversed).1
  intro rule _ before after entry sound run
  obtain ⟨text, _, expanded, done⟩ := run_bind_eq_ok_iff.mp run
  cases done
  obtain ⟨substituted, kept⟩ := expandOn_substituted sound expanded
  exact ⟨⟨rfl, substituted⟩, kept⟩

theorem tokenRule?_isSome {rule : TokenRule} (listed : rule ∈ grammar.tokenRules) :
    (grammar.tokenRule? rule.nodeType).isSome := by
  rw [Grammar.tokenRule?, Array.find?_isSome]
  exact ⟨rule, listed, beq_self_eq_true _⟩

theorem blames_of_expandAll {error : GrammarError} (fails : expandAll grammar = .error error) :
    Blames grammar error := by
  have failed : (grammar.tokenRules.toList.mapM (expandRule grammar)).run [] = .error error := by
    unfold expandAll at fails
    cases traversed : (grammar.tokenRules.toList.mapM (expandRule grammar)).run [] with
    | error other =>
        rw [traversed] at fails
        cases fails
        rfl
    | ok pair =>
        rw [traversed] at fails
        cases fails
  obtain ⟨rule, listed, before, run⟩ := exists_of_run_mapM_eq_error failed
  rcases run_bind_eq_error_iff.mp run with expanding | ⟨_, _, _, done⟩
  · refine expandOn_blames ⟨.singleton _, List.nodup_nil, ?_⟩ (Nat.zero_add _) expanding
    intro each same
    rw [List.mem_singleton.mp same]
    exact tokenRule?_isSome (Array.mem_toList_iff.mp listed)
  · cases done

/-- No type refers to itself, also not by way of others. -/
def Acyclic (grammar : Grammar) : Prop :=
  ∀ id, ¬Relation.TransGen (References grammar) id id

theorem transGen_of_isChain {first last : NodeTypeId} {rest : List NodeTypeId}
    (chain : (first :: (rest ++ [last])).IsChain (References grammar)) :
    Relation.TransGen (References grammar) first last := by
  induction rest generalizing first with
  | nil => exact .single (List.isChain_cons_cons.mp chain).1
  | cons next rest induction =>
      obtain ⟨refers, later⟩ := List.isChain_cons_cons.mp chain
      exact .head refers (induction later)

/-- When all token types have substitutions, there is nothing that an expansion could blame. -/
theorem not_blames (each : ∀ rule ∈ grammar.tokenRules, ∃ full,
    Substituted grammar rule.nodeType full) {error : GrammarError} : ¬Blames grammar error := by
  have known {id target : NodeTypeId} (refers : References grammar id target) :
      ∃ full, Substituted grammar id full := by
    obtain ⟨rule, _, _, found, _⟩ := refers
    have typed : rule.nodeType = id := by simpa using Array.find?_some found
    exact typed ▸ each rule (Array.mem_of_find?_eq_some found)
  intro blames
  cases blames with
  | cycle chain =>
      have cycle := transGen_of_isChain chain
      obtain ⟨next, refers, _⟩ := Relation.TransGen.head'_iff.mp cycle
      obtain ⟨full, substituted⟩ := known refers
      exact substituted.not_transGen cycle
  | unresolved refers absent =>
      obtain ⟨full, substituted⟩ := known refers
      obtain ⟨other, target⟩ := substituted.exists_target refers
      have token := target.tokenRule?_isSome
      rw [absent] at token
      cases token

/-- All token types expand exactly when all of them have substitutions. -/
theorem expandAll_eq_ok_iff {table : List (NodeTypeId × String)} :
    expandAll grammar = .ok table ↔
      List.Forall₂ (Expanded grammar) grammar.tokenRules.toList table := by
  refine ⟨expanded_of_expandAll, fun each => ?_⟩
  cases result : expandAll grammar with
  | error error =>
      refine absurd (blames_of_expandAll result) (not_blames fun rule listed => ?_)
      obtain ⟨_, _, _, full, substituted, _⟩ :=
        exists_of_forall₂ each (Array.mem_toList_iff.mpr listed)
      exact ⟨full, substituted⟩
  | ok other =>
      have unique : Relator.RightUnique (Expanded grammar) := by
        rintro rule ⟨_, _⟩ ⟨_, _⟩ ⟨rfl, full, one, rfl⟩ ⟨rfl, full', two, rfl⟩
        rw [one.unique two]
      rw [List.right_unique_forall₂' unique (expanded_of_expandAll result) each]

end RowGrammar.TokenPattern
