import RowGrammar.Proofs.Regex.Matching

/-!
# What a pattern takes

A match that takes anything starts with a character that its pattern opens with, so a look at the
first character is often enough to rule a pattern out.  Where a pattern is not ruled out, the best
path takes a prefix of the text that is left: the parts of the pattern take theirs one after the
other, and a greedy loop goes on until its body is ruled out.
-/

namespace RowGrammar.Regex

open RowGrammar.Text

/-! ## Ruling out -/

/-- Whether a pattern may match without taking a character. -/
def nullable : Regex → Bool
  | .empty | .assertion _ => true
  | .char _ => false
  | .seq first second => first.nullable && second.nullable
  | .either first second => first.nullable || second.nullable
  | .loop body least _ _ => least == 0 || body.nullable
  | .group _ body => body.nullable

/-- Whether the first character that a match takes may be the given one. -/
def opens (c : Char) : Regex → Bool
  | .empty | .assertion _ => false
  | .char set => set.contains c
  | .seq first second => first.opens c || (first.nullable && second.opens c)
  | .either first second => first.opens c || second.opens c
  | .loop body _ _ _ => body.opens c
  | .group _ body => body.opens c

/-- A pattern that has to take a character and cannot take the next one, if there is one. -/
def RuledOut (regex : Regex) (rest : List Char) : Prop :=
  regex.nullable = false ∧ ∀ c ∈ rest.head?, regex.opens c = false

instance (regex : Regex) (rest : List Char) : Decidable (regex.RuledOut rest) :=
  inferInstanceAs (Decidable (_ ∧ _))

section

variable {text : Array Char}

theorem mem_of_mem_distinct {list : List Path} {path : Path} (member : path ∈ distinct list) :
    path ∈ list := by
  have kept : List.Forall₂ (fun left right : Path => left = right ∧ left ∈ list)
      (distinct list) (distinct list) :=
    distinct_related (fun same => congrArg Path.stop same.1)
      (List.forall₂_same.mpr fun _ inside => ⟨rfl, inside⟩)
  exact (List.forall₂_same.mp kept path member).2

/-- What the iterations of a loop keep holds of its paths. -/
theorem forall_loopPaths (holds : Path → Prop) {step : Path → List Path}
    (steps : ∀ {path}, holds path → ∀ next ∈ step path, holds next) (least : Nat)
    (most : Option Nat) (greedy : Bool) (size : Nat) {path : Path} (start : holds path) :
    ∀ arrived ∈ loopPaths step least most greedy size path, holds arrived := by
  have kept : List.Forall₂ (fun left right : Path => left = right ∧ holds left)
      (loopPaths step least most greedy size path)
      (loopPaths step least most greedy size path) := by
    refine loopPaths_related (fun same => congrArg Path.stop same.1) ?_ least most greedy size
      ⟨rfl, start⟩
    rintro left _ ⟨rfl, valid⟩
    exact List.forall₂_same.mpr fun next member => ⟨rfl, steps valid next member⟩
  exact fun arrived member => (List.forall₂_same.mp kept arrived member).2

/-- A loop that has to go on and cannot has no path. -/
theorem loopPaths_eq_nil {step : Path → List Path} {path : Path} (stuck : step path = [])
    {least : Nat} (needed : least ≠ 0) (most : Option Nat) (greedy : Bool) (size : Nat) :
    loopPaths step least most greedy size path = [] := by
  obtain ⟨least, rfl⟩ := Nat.exists_eq_succ_of_ne_zero needed
  have nothing (count : Nat) : iterations step count [] = [] := by cases count <;> rfl
  have first (count : Nat) : iterations step (count + 1) [path] = [] := by
    rw [iterations, List.flatMap_singleton, stuck]
    · exact nothing count
    · exact List.cons_ne_nil _ _
  cases most with
  | some most =>
      rw [loopPaths, first]
      rfl
  | none =>
      cases least with
      | zero => simp [loopPaths, iterations, oneOrMore, stuck, Exploration.start, Found.empty,
          Found.toList]
      | succ least =>
          rw [loopPaths, first]
          rfl

/-- A path takes nothing, if that is possible at all, or the next character opens the pattern. -/
theorem opens_of_mem_paths {regex : Regex} {path arrived : Path}
    (member : arrived ∈ paths text regex path) :
    regex.nullable = true ∧ arrived.stop = path.stop ∨
      ∃ c, text[path.stop]? = some c ∧ regex.opens c = true := by
  induction regex generalizing path arrived with
  | empty =>
      rw [paths, List.mem_singleton] at member
      exact .inl ⟨rfl, congrArg Path.stop member⟩
  | char set =>
      rw [paths] at member
      split at member
      · rename_i c present
        split at member
        · rename_i inside
          exact .inr ⟨c, present, inside⟩
        · cases member
      · cases member
  | assertion condition =>
      rw [paths] at member
      split at member
      · rw [List.mem_singleton] at member
        exact .inl ⟨rfl, congrArg Path.stop member⟩
      · cases member
  | seq first second one two =>
      obtain ⟨middle, before, after⟩ := List.mem_flatMap.mp (mem_of_mem_distinct member)
      rcases one before with ⟨idle, stays⟩ | ⟨c, here, opens⟩
      · rcases two after with ⟨idle', stays'⟩ | ⟨c, here, opens⟩
        · exact .inl ⟨by rw [nullable, idle, idle']; rfl, stays'.trans stays⟩
        · exact .inr ⟨c, stays ▸ here, by rw [Regex.opens, idle, opens]; simp⟩
      · exact .inr ⟨c, here, by rw [Regex.opens, opens]; simp⟩
  | either first second one two =>
      rcases List.mem_append.mp (mem_of_mem_distinct member) with here | there
      · rcases one here with ⟨idle, stays⟩ | ⟨c, here, opens⟩
        · exact .inl ⟨by rw [nullable, idle]; rfl, stays⟩
        · exact .inr ⟨c, here, by rw [Regex.opens, opens]; rfl⟩
      · rcases two there with ⟨idle, stays⟩ | ⟨c, here, opens⟩
        · exact .inl ⟨by rw [nullable, idle]; simp, stays⟩
        · exact .inr ⟨c, here, by rw [Regex.opens, opens]; simp⟩
  | loop body least most greedy inner =>
      by_cases opening : ∃ c, text[path.stop]? = some c ∧ body.opens c = true
      · exact .inr opening
      -- no iteration gets away from where the loop starts
      · have stays : arrived.stop = path.stop := by
          refine forall_loopPaths (fun other => other.stop = path.stop) ?_ least most greedy
            text.size rfl arrived member
          intro other same next step
          rcases inner step with ⟨_, stays⟩ | further
          · exact stays.trans same
          · exact absurd (same ▸ further) opening
        refine .inl ⟨?_, stays⟩
        by_contra full
        rw [nullable, Bool.not_eq_true, Bool.or_eq_false_iff, beq_eq_false_iff_ne] at full
        have stuck : paths text body path = [] := by
          apply List.eq_nil_iff_forall_not_mem.mpr
          intro next step
          rcases inner step with ⟨idle, _⟩ | further
          · exact Bool.false_ne_true (full.2.symm.trans idle)
          · exact opening further
        rw [paths, loopPaths_eq_nil stuck full.1] at member
        cases member
  | group index body inner =>
      obtain ⟨last, inside, rfl⟩ := List.mem_map.mp member
      have same : (last.leave index).stop = last.stop := by cases index <;> rfl
      rw [same]
      exact inner inside

theorem RuledOut.paths_eq {regex : Regex} {rest : List Char} (out : regex.RuledOut rest)
    {path : Path} (goes : text.toList.drop path.stop = rest) : paths text regex path = [] := by
  apply List.eq_nil_iff_forall_not_mem.mpr
  intro arrived member
  rcases opens_of_mem_paths member with ⟨idle, _⟩ | ⟨c, here, opens⟩
  · exact Bool.false_ne_true (out.1.symm.trans idle)
  · refine Bool.false_ne_true ((out.2 c ?_).symm.trans opens)
    rw [← goes, List.head?_drop, Array.getElem?_toList, here]
    rfl

theorem RuledOut.matchAt_eq {regex : Regex} {rest : List Char} (out : regex.RuledOut rest)
    {position : Nat} (goes : text.toList.drop position = rest) :
    regex.matchAt text position = none := by
  rw [matchAt, out.paths_eq goes]
  rfl

end

/-! ## Taking -/

/-- Where a text goes on with `taken` and then `rest`, the best path takes just `taken`. -/
def Takes (regex : Regex) (taken rest : List Char) : Prop :=
  ∀ (text : Array Char) (path : Path), text.toList.drop path.stop = taken ++ rest →
    (paths text regex path).head? = some { path with stop := path.stop + taken.length }

theorem Takes.matchAt_eq {regex : Regex} {taken rest : List Char} (takes : regex.Takes taken rest)
    {text : Array Char} {position : Nat} (goes : text.toList.drop position = taken ++ rest) :
    regex.matchAt text position = some ⟨position, position + taken.length, []⟩ :=
  matchAt_eq_some_iff.mpr ⟨_, takes text (.start position) goes, rfl⟩

/-- What is left behind a prefix of what is left. -/
theorem drop_add_length {text : Array Char} {position : Nat} {taken rest : List Char}
    (goes : text.toList.drop position = taken ++ rest) :
    text.toList.drop (position + taken.length) = rest := by
  rw [← List.drop_drop, goes, List.drop_left]

theorem takes_char {set : CharSet} {c : Char} (member : set.contains c = true)
    (rest : List Char) : (Regex.char set).Takes [c] rest := by
  intro text path goes
  have here : text[path.stop]? = some c := by
    rw [← Array.getElem?_toList, ← List.head?_drop, goes]
    rfl
  simp [paths, here, member, Path.advance]

theorem Takes.seq {first second : Regex} {one two rest : List Char}
    (before : first.Takes one (two ++ rest)) (after : second.Takes two rest) :
    (Regex.seq first second).Takes (one ++ two) rest := by
  intro text path goes
  rw [List.append_assoc] at goes
  obtain ⟨others, same⟩ := List.head?_eq_some_iff.mp (before text path goes)
  have reached := after text { path with stop := path.stop + one.length } (drop_add_length goes)
  rw [paths, head?_distinct, same, List.flatMap_cons, List.head?_append, reached, Option.some_or,
    List.length_append, Nat.add_assoc]

theorem Takes.left {first : Regex} {taken rest : List Char} (takes : first.Takes taken rest)
    (second : Regex) : (Regex.either first second).Takes taken rest := by
  intro text path goes
  rw [paths, head?_distinct, List.head?_append, takes text path goes, Option.some_or]

theorem Takes.right {first second : Regex} {taken rest : List Char}
    (out : first.RuledOut (taken ++ rest)) (takes : second.Takes taken rest) :
    (Regex.either first second).Takes taken rest := by
  intro text path goes
  rw [paths, head?_distinct, out.paths_eq goes, List.nil_append, takes text path goes]

theorem Takes.plain {body : Regex} {taken rest : List Char} (takes : body.Takes taken rest) :
    (Regex.group none body).Takes taken rest := by
  intro text path goes
  rw [paths, List.head?_map, takes text path goes]
  rfl

/-- The given characters one after the other. -/
def letters (word : List Char) : Regex :=
  sequence (word.map fun c => .char (.singleton c))

theorem takes_letters (word rest : List Char) : (letters word).Takes word rest := by
  have single (c : Char) (rest : List Char) : (Regex.char (.singleton c)).Takes [c] rest :=
    takes_char (by simp [CharSet.singleton, CharSet.contains]) rest
  induction word with
  | nil =>
      intro text path _
      simp [letters, sequence, paths]
  | cons c word induction =>
      cases word with
      | nil => exact single c rest
      | cons other word => exact (single c _).seq induction

/-! ## Loops -/

/-- The paths that an exploration has found stay the first ones. -/
def Exploration.Before (exploration later : Exploration) : Prop :=
  exploration.found.toList <+: later.found.toList

namespace Exploration

theorem Before.trans {first middle last : Exploration} (one : first.Before middle)
    (two : middle.Before last) : first.Before last :=
  List.IsPrefix.trans one two

theorem before_emit (exploration : Exploration) (path : Path) :
    exploration.Before (exploration.emit path) := by
  unfold Before emit Found.add
  split
  · exact List.prefix_refl _
  · exact ⟨[path], by simp [Found.toList]⟩

theorem before_foldl {visit : Exploration → Path → Exploration}
    (grows : ∀ (exploration : Exploration) (path : Path),
      exploration.Before (visit exploration path)) (list : List Path)
    (exploration : Exploration) : exploration.Before (list.foldl visit exploration) := by
  induction list generalizing exploration with
  | nil => exact List.prefix_refl _
  | cons path list induction => exact (grows _ _).trans (induction _)

theorem before_further (step : Path → List Path) (greedy : Bool) (fuel : Nat) (path : Path)
    (exploration : Exploration) :
    exploration.Before (further step greedy fuel path exploration) := by
  induction fuel generalizing path exploration with
  | zero => exact before_emit _ _
  | succ fuel induction =>
      have visits (exploration : Exploration) (next : Path) : exploration.Before
          (if next.stop = path.stop then exploration
            else further step greedy fuel next exploration) := by
        split
        · exact List.prefix_refl _
        · exact induction _ _
      have entered : exploration.Before
          { exploration with tried := exploration.tried.insert path.stop } := List.prefix_refl _
      unfold further once
      split
      · exact List.prefix_refl _
      · split
        · exact entered.trans ((before_foldl visits _ _).trans (before_emit _ _))
        · exact entered.trans ((before_emit _ _).trans (before_foldl visits _ _))

/-- The best path of an exploration. -/
def best? (exploration : Exploration) : Option Path :=
  exploration.found.toList.head?

theorem Before.best?_eq {exploration later : Exploration} (before : exploration.Before later)
    {path : Path} (best : exploration.best? = some path) : later.best? = some path := by
  obtain ⟨more, same⟩ := before
  rw [best?, ← same, List.head?_append, show exploration.found.toList.head? = some path from best,
    Option.some_or]

theorem best?_emit {exploration : Exploration} (nothing : exploration.found = .empty)
    (path : Path) : (exploration.emit path).best? = some path := by
  simp [best?, emit, nothing, Found.add, Found.empty, Found.toList]

end Exploration

/-- What a greedy loop takes: one iteration after the other until its body is ruled out. -/
inductive Runs (body : Regex) : List Char → List Char → Prop where
  | stop {rest : List Char} : body.RuledOut rest → Runs body [] rest
  | go {part taken rest : List Char} :
      body.Takes part (taken ++ rest) → part ≠ [] → Runs body taken rest →
      Runs body (part ++ taken) rest

/-- A run of single characters ends where the next one, if any, is not in the set. -/
theorem runs_char {set : CharSet} {taken rest : List Char}
    (members : ∀ c ∈ taken, set.contains c = true)
    (ends : ∀ c ∈ rest.head?, set.contains c = false) : Runs (.char set) taken rest := by
  induction taken with
  | nil => exact .stop ⟨rfl, ends⟩
  | cons c taken induction =>
      obtain ⟨first, others⟩ := List.forall_mem_cons.mp members
      exact .go (takes_char first _) (List.cons_ne_nil c []) (induction others)

section

open Exploration

variable {body : Regex} {taken rest : List Char} {text : Array Char}

/-- Where iterations go on, the first path found is the one that goes furthest. -/
theorem best?_further (runs : Runs body taken rest) {path : Path}
    (goes : text.toList.drop path.stop = taken ++ rest) {fuel : Nat} (enough : taken.length ≤ fuel)
    {exploration : Exploration} (nothing : exploration.found = .empty)
    (fresh : ∀ key, path.stop ≤ key → exploration.tried.contains key = false) :
    (further (paths text body) true fuel path exploration).best? =
      some { path with stop := path.stop + taken.length } := by
  induction runs generalizing path fuel exploration with
  | stop out =>
      cases fuel with
      | zero => exact best?_emit nothing path
      | succ fuel =>
          rw [further, once, fresh _ (Nat.le_refl _), out.paths_eq goes]
          exact best?_emit nothing path
  | @go part taken rest takes filled _ induction =>
      have taken_ : 0 < part.length := List.length_pos_of_ne_nil filled
      rw [List.length_append] at enough
      obtain ⟨fuel, rfl⟩ : ∃ smaller, fuel = smaller + 1 :=
        Nat.exists_eq_succ_of_ne_zero (by omega)
      rw [List.append_assoc] at goes
      obtain ⟨others, same⟩ := List.head?_eq_some_iff.mp (takes text path goes)
      have onward : path.stop + part.length ≠ path.stop := by omega
      rw [further, once, fresh _ (Nat.le_refl _), same]
      simp only [Bool.false_eq_true, if_false, if_true, List.foldl_cons, onward]
      refine ((before_foldl ?_ _ _).trans (before_emit _ _)).best?_eq ?_
      · intro exploration next
        split
        · exact List.prefix_refl _
        · exact before_further _ _ _ _ _
      · have later : text.toList.drop (Path.mk (path.stop + part.length) path.groups).stop =
            taken ++ rest := drop_add_length goes
        rw [List.length_append, ← Nat.add_assoc]
        refine induction later (by omega) nothing fun key after => ?_
        have beyond : path.stop + part.length ≤ key := after
        rw [IndexSet.contains_insert, fresh key (by omega), Bool.false_or, decide_eq_false_iff_not]
        omega

theorem best?_oneOrMore {part : List Char} (takes : body.Takes part (taken ++ rest))
    (filled : part ≠ []) (runs : Runs body taken rest) {path : Path}
    (goes : text.toList.drop path.stop = (part ++ taken) ++ rest) :
    (oneOrMore (paths text body) true text.size path .start).best? =
      some { path with stop := path.stop + (part ++ taken).length } := by
  have taken_ : 0 < part.length := List.length_pos_of_ne_nil filled
  have onward : path.stop + part.length ≠ path.stop := by omega
  have sizes := congrArg List.length goes
  simp only [List.length_drop, List.length_append, Array.length_toList] at sizes
  rw [List.append_assoc] at goes
  obtain ⟨others, same⟩ := List.head?_eq_some_iff.mp (takes text path goes)
  rw [oneOrMore, same, List.foldl_cons, if_neg onward]
  refine (before_foldl ?_ _ _).best?_eq ?_
  · intro exploration next
    split
    · exact before_emit _ _
    · exact before_further _ _ _ _ _
  · have later : text.toList.drop (Path.mk (path.stop + part.length) path.groups).stop =
        taken ++ rest := drop_add_length goes
    rw [List.length_append, ← Nat.add_assoc]
    exact best?_further runs later (by omega) rfl fun key _ => IndexSet.contains_empty key

/-- A greedy loop takes what it can. -/
theorem Runs.star (runs : Runs body taken rest) :
    (Regex.loop body 0 none true).Takes taken rest := by
  intro text path goes
  cases runs with
  | stop out =>
      rw [paths, loopPaths, oneOrMore, out.paths_eq goes]
      exact best?_emit rfl path
  | go takes nonempty runs =>
      exact (before_emit _ _).best?_eq (best?_oneOrMore takes nonempty runs goes)

/-- A greedy loop that has to take something takes what it can. -/
theorem Runs.plus (runs : Runs body taken rest) (filled : taken ≠ []) :
    (Regex.loop body 1 none true).Takes taken rest := by
  intro text path goes
  cases runs with
  | stop => exact absurd rfl filled
  | go takes nonempty runs => exact best?_oneOrMore takes nonempty runs goes

/-- An optional part is taken if possible. -/
theorem Takes.optional (takes : body.Takes taken rest) :
    (Regex.loop body 0 (some 1) true).Takes taken rest := by
  intro text path goes
  obtain ⟨others, same⟩ := List.head?_eq_some_iff.mp (takes text path goes)
  change Exploration.best? (upTo (paths text body) true text.size 1 path .start) = _
  rw [upTo, once, show Exploration.start.tried = .empty from rfl, IndexSet.contains_empty, same]
  simp only [Bool.false_eq_true, if_false, if_true, List.foldl_cons]
  refine ((before_foldl ?_ _ _).trans (before_emit _ _)).best?_eq (best?_emit rfl _)
  exact fun _ _ => before_emit _ _

/-- An optional part that is ruled out is left out. -/
theorem RuledOut.optional (out : body.RuledOut rest) :
    (Regex.loop body 0 (some 1) true).Takes [] rest := by
  intro text path goes
  change Exploration.best? (upTo (paths text body) true text.size 1 path .start) = _
  rw [upTo, once, show Exploration.start.tried = .empty from rfl, IndexSet.contains_empty,
    out.paths_eq goes]
  exact best?_emit rfl path

end

end RowGrammar.Regex
