import RowGrammar.Proofs.Prefixes
import RowGrammar.Proofs.SymbolPattern.Preference

/-!
# Words of symbol patterns

Without absorption a pattern takes words: sequences of node types that its parts, one after the
other, make up.  Wherever a word of a pattern without lookarounds stands, the pattern matches, and
whatever it matches is a word of it.
-/

namespace RowGrammar

/-- A separator and an item, any number of times. -/
inductive Further {α : Type} (item separator : α → Prop) : List α → Prop where
  | nil : Further item separator []
  | cons {before after : α} {rest : List α} :
      separator before → item after → Further item separator rest →
      Further item separator (before :: after :: rest)

/-- Items with separators between them. -/
inductive Listed {α : Type} (item separator : α → Prop) : List α → Prop where
  | nil : Listed item separator []
  | cons {first : α} {rest : List α} :
      item first → Further item separator rest → Listed item separator (first :: rest)

section

variable {α β : Type} {item separator : β → Prop} {f : α → β}

theorem further_map_iff {list : List α} :
    Further item separator (list.map f) ↔
      Further (fun x => item (f x)) (fun x => separator (f x)) list := by
  constructor
  · intro further
    generalize same : list.map f = mapped at further
    induction further generalizing list with
    | nil =>
        rw [List.map_eq_nil_iff] at same
        exact same ▸ .nil
    | cons before after _ induction =>
        obtain ⟨first, others, rfl, rfl, same'⟩ := List.map_eq_cons_iff.mp same
        obtain ⟨second, rest, rfl, rfl, same''⟩ := List.map_eq_cons_iff.mp same'
        exact .cons before after (induction same'')
  · intro further
    induction further with
    | nil => exact .nil
    | cons before after _ induction => exact .cons before after induction

theorem listed_map_iff {list : List α} :
    Listed item separator (list.map f) ↔
      Listed (fun x => item (f x)) (fun x => separator (f x)) list := by
  constructor
  · intro listed
    generalize same : list.map f = mapped at listed
    cases listed with
    | nil =>
        rw [List.map_eq_nil_iff] at same
        exact same ▸ .nil
    | cons first rest =>
        obtain ⟨_, others, rfl, rfl, rfl⟩ := List.map_eq_cons_iff.mp same
        exact .cons first (further_map_iff.mp rest)
  · intro listed
    cases listed with
    | nil => exact .nil
    | cons first rest => exact .cons first (further_map_iff.mpr rest)

end

theorem Further.imp {α : Type} {item item' separator separator' : α → Prop}
    (items : ∀ x, item x → item' x) (separators : ∀ x, separator x → separator' x)
    {list : List α} (further : Further item separator list) : Further item' separator' list := by
  induction further with
  | nil => exact .nil
  | cons before after _ induction => exact .cons (separators _ before) (items _ after) induction

theorem Listed.imp {α : Type} {item item' separator separator' : α → Prop}
    (items : ∀ x, item x → item' x) (separators : ∀ x, separator x → separator' x)
    {list : List α} (listed : Listed item separator list) : Listed item' separator' list := by
  cases listed with
  | nil => exact .nil
  | cons first rest => exact .cons (items _ first) (rest.imp items separators)

theorem Further.concat {α : Type} {item separator : α → Prop} {list : List α}
    (further : Further item separator list) {before after : α} (separates : separator before)
    (is : item after) : Further item separator (list ++ [before, after]) := by
  induction further with
  | nil => exact .cons separates is .nil
  | cons one two _ induction => exact .cons one two induction

namespace SymbolPattern

mutual

/-- The words of a pattern.  A lookaround takes nothing, and a group takes what is inside of it. -/
def Word : SymbolPattern → List NodeTypeId → Prop
  | .empty, word | .look _ _ _, word => word = []
  | .any, word => ∃ nodeType, word = [nodeType]
  | .symbols members, word => ∃ nodeType ∈ members, word = [nodeType]
  | .concat items, word => WordItems items word
  | .alternation branches, word => WordBranches branches word
  | .loop body least most _, word => ∃ parts : List (List NodeTypeId),
      least ≤ parts.length ∧ most.all (parts.length ≤ ·) = true ∧
        (∀ part ∈ parts, Word body part) ∧ parts.flatten = word
  | .capture body, word => Word body word

/-- The words of items one after the other. -/
def WordItems : List SymbolPattern → List NodeTypeId → Prop
  | [], word => word = []
  | item :: items, word => ∃ first rest, Word item first ∧ WordItems items rest ∧
      first ++ rest = word

/-- The words of any of several branches. -/
def WordBranches : List SymbolPattern → List NodeTypeId → Prop
  | [], _ => False
  | branch :: branches, word => Word branch word ∨ WordBranches branches word

end

mutual

/-- Whether there is a lookaround in a pattern. -/
def looks : SymbolPattern → Bool
  | .empty | .any | .symbols _ => false
  | .concat items => looksList items
  | .alternation branches => looksList branches
  | .loop body _ _ _ => body.looks
  | .capture body => body.looks
  | .look _ _ _ => true

def looksList : List SymbolPattern → Bool
  | [] => false
  | pattern :: patterns => pattern.looks || looksList patterns

end

mutual

/-- How many symbols a pattern takes at least. -/
def least : SymbolPattern → Nat
  | .empty | .look _ _ _ => 0
  | .any | .symbols _ => 1
  | .concat items => leastOfItems items
  | .alternation branches => leastOfBranches branches
  | .loop body count _ _ => count * body.least
  | .capture body => body.least

def leastOfItems : List SymbolPattern → Nat
  | [] => 0
  | item :: items => item.least + leastOfItems items

def leastOfBranches : List SymbolPattern → Nat
  | [] => 0
  | [branch] => branch.least
  | branch :: branches => min branch.least (leastOfBranches branches)

end

/-- A route takes at least some number of symbols. -/
def Route.Takes (count : Nat) (route : Route) : Prop :=
  ∀ path choices reached, route path choices reached → path.stop + count ≤ reached.stop

theorem takes_takes (input : Array NodeTypeId) (absorb : Bool) (accepts : NodeTypeId → Bool) :
    (takes input absorb accepts).Takes 1 := by
  rintro path _ _ (⟨_, _, _, _, rfl⟩ | ⟨_, _, _, _, rfl⟩)
  · exact Nat.add_le_add_left (by decide) _
  · exact Nat.le_refl _

theorem iterates_takes {idle greedy : Bool} {body : Route} {width least : Nat} {most : Option Nat}
    (takes : body.Takes width) {count : Nat} {path reached : Path} {choices : Choices}
    (leads : Iterates idle body least most greedy count path choices reached) :
    path.stop + (least - count) * width ≤ reached.stop := by
  induction leads with
  | leave enough =>
      rw [Nat.sub_eq_zero_of_le enough, Nat.zero_mul]
      exact Nat.le_refl _
  | @goOn count path middle reached _ _ _ leads _ _ induction =>
      have step := takes _ _ _ leads
      rcases Nat.lt_or_ge count least with further | enough
      · obtain ⟨more, same⟩ : ∃ more, least - count = more + 1 :=
          ⟨least - count - 1, by omega⟩
        have left : least - (count + 1) = more := by omega
        rw [left] at induction
        rw [same, Nat.succ_mul]
        omega
      · rw [Nat.sub_eq_zero_of_le enough, Nat.zero_mul]
        omega

mutual

theorem matches_takes (input : Array NodeTypeId) (absorb idle : Bool) (pattern : SymbolPattern) :
    Route.Takes pattern.least (Matches input absorb idle pattern) := by
  intro path choices reached leads
  cases pattern with
  | empty =>
      obtain ⟨_, _, rfl⟩ := leads
      exact Nat.le_refl _
  | any => exact takes_takes input absorb _ _ _ _ leads
  | symbols members => exact takes_takes input absorb _ _ _ _ leads
  | concat items =>
      rw [least]
      exact matchesItems_takes input absorb idle items _ _ _ leads
  | alternation branches =>
      rw [least]
      exact matchesBranches_takes input absorb idle branches _ _ _ leads
  | loop body count most greedy =>
      rw [least]
      exact iterates_takes (matches_takes input absorb idle body) leads
  | capture body =>
      obtain ⟨inner, leads, rfl⟩ := leads
      rw [least]
      exact matches_takes input absorb idle body path choices inner leads
  | look direction negated body =>
      obtain ⟨_, _, rfl⟩ := leads
      exact Nat.le_refl _

theorem matchesItems_takes (input : Array NodeTypeId) (absorb idle : Bool)
    (items : List SymbolPattern) :
    Route.Takes (leastOfItems items) (MatchesItems input absorb idle items) := by
  intro path choices reached leads
  cases items with
  | nil =>
      obtain ⟨_, _, rfl⟩ := leads
      exact Nat.le_refl _
  | cons item items =>
      obtain ⟨_, _, _, one, two, _⟩ := leads
      have first := matches_takes input absorb idle item _ _ _ one
      have rest := matchesItems_takes input absorb idle items _ _ _ two
      rw [leastOfItems]
      omega

theorem matchesBranches_takes (input : Array NodeTypeId) (absorb idle : Bool)
    (branches : List SymbolPattern) :
    Route.Takes (leastOfBranches branches) (MatchesBranches input absorb idle branches) := by
  intro path choices reached leads
  match branches, leads with
  | [branch], .inl ⟨_, _, leads⟩ =>
      rw [leastOfBranches]
      exact matches_takes input absorb idle branch _ _ _ leads
  | branch :: other :: branches, leads =>
      rw [leastOfBranches.eq_3 _ _ (List.cons_ne_nil _ _)]
      rcases leads with ⟨_, _, leads⟩ | ⟨_, _, leads⟩
      · have first := matches_takes input absorb idle branch _ _ _ leads
        omega
      · have rest := matchesBranches_takes input absorb idle (other :: branches) _ _ _ leads
        omega

end

/-- A group captures what is inside of it. -/
theorem least_le_of_matchAt {body : SymbolPattern} {input : Array NodeTypeId} {start : Nat}
    {absorb : Bool} {found : Match}
    (matched : (capture body).matchAt input start absorb = some found) :
    body.least ≤ found.capture.length := by
  obtain ⟨_, _, choices, ⟨inner, leads, same⟩, _⟩ := exists_route matched
  have takes := matches_takes input absorb false body _ _ _ leads
  obtain ⟨start', stop', span⟩ := found
  cases same
  change body.least ≤ inner.stop - start
  have bound : start + body.least ≤ inner.stop := takes
  omega

/-- A route takes a word. -/
def Route.Reads (input : Array NodeTypeId) (word : List NodeTypeId → Prop) (route : Route) :
    Prop :=
  ∀ path choices reached, route path choices reached →
    ∃ taken, word taken ∧ taken <+: input.toList.drop path.stop ∧
      reached.stop = path.stop + taken.length

/-- Wherever a word stands, there is a route that takes it. -/
def Route.Covers (input : Array NodeTypeId) (word : List NodeTypeId → Prop) (route : Route) :
    Prop :=
  ∀ path taken, word taken → taken <+: input.toList.drop path.stop →
    ∃ choices reached, route path choices reached ∧ reached.stop = path.stop + taken.length

section

variable {input : Array NodeTypeId}

theorem takes_reads (accepts : NodeTypeId → Bool) :
    (takes input false accepts).Reads input fun word =>
      ∃ nodeType, accepts nodeType = true ∧ word = [nodeType] := by
  rintro path _ _ (⟨_, _, ⟨_, ⟨⟩, _⟩, _⟩ | ⟨_, _, ⟨nodeType, present, accepted⟩, _, rfl⟩)
  refine ⟨[nodeType], ⟨nodeType, accepted, rfl⟩, ?_, rfl⟩
  rw [cons_prefix_drop_iff]
  exact ⟨present, List.nil_prefix⟩

theorem takes_covers (accepts : NodeTypeId → Bool) :
    (takes input false accepts).Covers input fun word =>
      ∃ nodeType, accepts nodeType = true ∧ word = [nodeType] := by
  rintro path _ ⟨nodeType, accepted, rfl⟩ stands
  rw [cons_prefix_drop_iff] at stands
  exact ⟨_, _, .inr ⟨[], rfl, ⟨nodeType, stands.1, accepted⟩, rfl, rfl⟩, rfl⟩

theorem iterates_reads {idle greedy : Bool} {body : Route} {word : List NodeTypeId → Prop}
    (reads : body.Reads input word) {least : Nat} {most : Option Nat} {count : Nat} {path : Path}
    {choices : Choices} {reached : Path} (few : most.all (count ≤ ·) = true)
    (leads : Iterates idle body least most greedy count path choices reached) :
    ∃ parts : List (List NodeTypeId), least ≤ count + parts.length ∧
      most.all (count + parts.length ≤ ·) = true ∧ (∀ part ∈ parts, word part) ∧
      parts.flatten <+: input.toList.drop path.stop ∧
      reached.stop = path.stop + parts.flatten.length := by
  induction leads with
  | leave enough => exact ⟨[], enough, few, nofun, List.nil_prefix, rfl⟩
  | @goOn count path middle reached before after more leads _ _ induction =>
      obtain ⟨part, is, stands, stop⟩ := reads _ _ _ leads
      have few' : most.all (count + 1 ≤ ·) = true := by simpa [Nat.succ_le_iff] using more
      obtain ⟨parts, enough, bounded, are, stand, stops⟩ := induction few'
      refine ⟨part :: parts, ?_, ?_, List.forall_mem_cons.mpr ⟨is, are⟩, ?_, ?_⟩
      · rw [List.length_cons]
        omega
      · rw [List.length_cons, ← Nat.add_assoc, Nat.add_right_comm]
        exact bounded
      · rw [List.flatten_cons, append_prefix_drop_iff, ← stop]
        exact ⟨stands, stand⟩
      · rw [List.flatten_cons, List.length_append, stops, stop, Nat.add_assoc]

theorem iterates_covers {greedy : Bool} {body : Route} {word : List NodeTypeId → Prop}
    (covers : body.Covers input word) {least : Nat} {most : Option Nat} {count : Nat} {path : Path}
    {parts : List (List NodeTypeId)} (enough : least ≤ count + parts.length)
    (bounded : most.all (count + parts.length ≤ ·) = true) (are : ∀ part ∈ parts, word part)
    (stand : parts.flatten <+: input.toList.drop path.stop) :
    ∃ choices reached, Iterates true body least most greedy count path choices reached ∧
      reached.stop = path.stop + parts.flatten.length := by
  induction parts generalizing count path with
  | nil => exact ⟨_, _, .leave enough, rfl⟩
  | cons part parts induction =>
      obtain ⟨is, are⟩ := List.forall_mem_cons.mp are
      rw [List.flatten_cons, append_prefix_drop_iff] at stand
      obtain ⟨choices, middle, leads, stop⟩ := covers path part is stand.1
      have more : most.all (count < ·) = true := by
        cases most with
        | none => rfl
        | some most =>
            simp only [Option.all_some, decide_eq_true_eq, List.length_cons] at bounded ⊢
            omega
      obtain ⟨others, reached, goes, stops⟩ := @induction (count + 1) middle
        (by rw [List.length_cons] at enough; omega)
        (by rw [List.length_cons, ← Nat.add_assoc, Nat.add_right_comm] at bounded; exact bounded)
        are (by rw [stop]; exact stand.2)
      refine ⟨_, reached, .goOn more leads (fun _ _ => rfl) goes, ?_⟩
      rw [List.flatten_cons, List.length_append, stops, stop, Nat.add_assoc]

end

mutual

/-- What a pattern takes is a word of it. -/
theorem matches_reads (input : Array NodeTypeId) (idle : Bool) (pattern : SymbolPattern) :
    Route.Reads input pattern.Word (Matches input false idle pattern) := by
  intro path choices reached leads
  cases pattern with
  | empty =>
      obtain ⟨_, _, rfl⟩ := leads
      exact ⟨[], by rw [Word], List.nil_prefix, rfl⟩
  | any =>
      obtain ⟨taken, ⟨nodeType, _, same⟩, stands, stop⟩ := takes_reads _ _ _ _ leads
      exact ⟨taken, by rw [Word]; exact ⟨nodeType, same⟩, stands, stop⟩
  | symbols members =>
      obtain ⟨taken, ⟨nodeType, member, same⟩, stands, stop⟩ := takes_reads _ _ _ _ leads
      rw [List.contains_iff_mem] at member
      exact ⟨taken, by rw [Word]; exact ⟨nodeType, member, same⟩, stands, stop⟩
  | concat items =>
      obtain ⟨taken, is, stands, stop⟩ := matchesItems_reads input idle items _ _ _ leads
      exact ⟨taken, by rw [Word]; exact is, stands, stop⟩
  | alternation branches =>
      obtain ⟨taken, is, stands, stop⟩ := matchesBranches_reads input idle branches _ _ _ leads
      exact ⟨taken, by rw [Word]; exact is, stands, stop⟩
  | loop body least most greedy =>
      have few : most.all (0 ≤ ·) = true := by cases most <;> simp
      obtain ⟨parts, enough, bounded, are, stand, stops⟩ :=
        iterates_reads (matches_reads input idle body) few leads
      rw [Nat.zero_add] at enough
      simp only [Nat.zero_add] at bounded
      exact ⟨_, by rw [Word]; exact ⟨parts, enough, bounded, are, rfl⟩, stand, stops⟩
  | capture body =>
      obtain ⟨inner, leads, rfl⟩ := leads
      obtain ⟨taken, is, stands, stop⟩ := matches_reads input idle body _ _ _ leads
      exact ⟨taken, by rw [Word]; exact is, stands, stop⟩
  | look direction negated body =>
      obtain ⟨_, _, rfl⟩ := leads
      exact ⟨[], by rw [Word], List.nil_prefix, rfl⟩

theorem matchesItems_reads (input : Array NodeTypeId) (idle : Bool)
    (items : List SymbolPattern) :
    Route.Reads input (WordItems items) (MatchesItems input false idle items) := by
  intro path choices reached leads
  cases items with
  | nil =>
      obtain ⟨_, _, rfl⟩ := leads
      exact ⟨[], by rw [WordItems], List.nil_prefix, rfl⟩
  | cons item items =>
      obtain ⟨_, middle, _, one, two, _⟩ := leads
      obtain ⟨first, is, stands, stop⟩ := matches_reads input idle item _ _ _ one
      obtain ⟨rest, are, stand, stops⟩ := matchesItems_reads input idle items _ _ _ two
      refine ⟨first ++ rest, by rw [WordItems]; exact ⟨first, rest, is, are, rfl⟩, ?_, ?_⟩
      · rw [append_prefix_drop_iff, ← stop]
        exact ⟨stands, stand⟩
      · rw [List.length_append, stops, stop, Nat.add_assoc]

theorem matchesBranches_reads (input : Array NodeTypeId) (idle : Bool)
    (branches : List SymbolPattern) :
    Route.Reads input (WordBranches branches) (MatchesBranches input false idle branches) := by
  intro path choices reached leads
  cases branches with
  | nil => exact leads.1.elim
  | cons branch branches =>
      rcases leads with ⟨_, _, leads⟩ | ⟨_, _, leads⟩
      · obtain ⟨taken, is, stands, stop⟩ := matches_reads input idle branch _ _ _ leads
        exact ⟨taken, by rw [WordBranches]; exact .inl is, stands, stop⟩
      · obtain ⟨taken, is, stands, stop⟩ := matchesBranches_reads input idle branches _ _ _ leads
        exact ⟨taken, by rw [WordBranches]; exact .inr is, stands, stop⟩

end

mutual

/-- Without lookarounds, every word has a route. -/
theorem matches_covers (input : Array NodeTypeId) (pattern : SymbolPattern)
    (blind : pattern.looks = false) :
    Route.Covers input pattern.Word (Matches input false true pattern) := by
  intro path taken is stands
  cases pattern with
  | empty =>
      rw [Word] at is
      subst is
      exact ⟨_, _, ⟨trivial, rfl, rfl⟩, rfl⟩
  | any =>
      rw [Word] at is
      obtain ⟨nodeType, same⟩ := is
      exact takes_covers _ path taken ⟨nodeType, rfl, same⟩ stands
  | symbols members =>
      rw [Word] at is
      obtain ⟨nodeType, member, same⟩ := is
      exact takes_covers _ path taken ⟨nodeType, List.contains_iff_mem.mpr member, same⟩ stands
  | concat items =>
      rw [Word] at is
      rw [looks] at blind
      exact matchesItems_covers input items blind path taken is stands
  | alternation branches =>
      rw [Word] at is
      rw [looks] at blind
      exact matchesBranches_covers input branches blind path taken is stands
  | loop body least most greedy =>
      rw [Word] at is
      rw [looks] at blind
      obtain ⟨parts, enough, bounded, are, rfl⟩ := is
      refine iterates_covers (matches_covers input body blind) ?_ ?_ are stands
      · rwa [Nat.zero_add]
      · simpa only [Nat.zero_add] using bounded
  | capture body =>
      rw [Word] at is
      rw [looks] at blind
      obtain ⟨choices, inner, leads, stop⟩ := matches_covers input body blind path taken is stands
      exact ⟨choices, _, ⟨inner, leads, rfl⟩, stop⟩
  | look direction negated body => cases blind

theorem matchesItems_covers (input : Array NodeTypeId) (items : List SymbolPattern)
    (blind : looksList items = false) :
    Route.Covers input (WordItems items) (MatchesItems input false true items) := by
  intro path taken is stands
  cases items with
  | nil =>
      rw [WordItems] at is
      subst is
      exact ⟨_, _, ⟨trivial, rfl, rfl⟩, rfl⟩
  | cons item items =>
      rw [WordItems] at is
      rw [looksList, Bool.or_eq_false_iff] at blind
      obtain ⟨first, rest, is, are, rfl⟩ := is
      rw [append_prefix_drop_iff] at stands
      obtain ⟨before, middle, one, stop⟩ :=
        matches_covers input item blind.1 path first is stands.1
      obtain ⟨after, reached, two, stops⟩ :=
        matchesItems_covers input items blind.2 middle rest are (by rw [stop]; exact stands.2)
      refine ⟨_, reached, ⟨before, middle, after, one, two, rfl⟩, ?_⟩
      rw [List.length_append, stops, stop, Nat.add_assoc]

theorem matchesBranches_covers (input : Array NodeTypeId) (branches : List SymbolPattern)
    (blind : looksList branches = false) :
    Route.Covers input (WordBranches branches) (MatchesBranches input false true branches) := by
  intro path taken is stands
  cases branches with
  | nil =>
      rw [WordBranches] at is
      exact is.elim
  | cons branch branches =>
      rw [WordBranches] at is
      rw [looksList, Bool.or_eq_false_iff] at blind
      rcases is with is | is
      · obtain ⟨choices, reached, leads, stop⟩ :=
          matches_covers input branch blind.1 path taken is stands
        exact ⟨_, reached, .inl ⟨choices, rfl, leads⟩, stop⟩
      · obtain ⟨choices, reached, leads, stop⟩ :=
          matchesBranches_covers input branches blind.2 path taken is stands
        exact ⟨_, reached, .inr ⟨choices, rfl, leads⟩, stop⟩

end

/-! ## Matches -/

variable {body : SymbolPattern} {input : Array NodeTypeId} {start : Nat}

/-- A pattern in a group matches a word and captures the whole of it. -/
theorem word_of_matchAt {found : Match}
    (matched : (capture body).matchAt input start false = some found) :
    ∃ word, body.Word word ∧ word <+: input.toList.drop start ∧
      found = ⟨start, start + word.length, ⟨start, start + word.length⟩⟩ := by
  obtain ⟨begins, _, choices, leads, _⟩ := exists_route matched
  obtain ⟨inner, leads, same⟩ := leads
  obtain ⟨word, is, stands, stop⟩ := matches_reads input false body _ _ _ leads
  obtain ⟨start', stop', span⟩ := found
  cases same
  obtain rfl : start' = start := begins
  exact ⟨word, is, stands, by simp only [stop]⟩

/-- A pattern in a group matches where a route leads through it and takes something. -/
theorem matchAt_ne_none_of_matches {choices : Choices} {reached : Path}
    (leads : Matches input false true body ⟨start, none⟩ choices reached)
    (onward : start < reached.stop) : (capture body).matchAt input start false ≠ none := by
  intro missing
  refine not_captures_of_matchAt_eq_none missing ⟨reached, leads, rfl⟩
    ⟨⟨start, reached.stop⟩, rfl, ?_⟩
  rw [Span.isEmpty, decide_eq_false_iff_not]
  exact Nat.not_le.mpr onward

/-- A pattern in a group matches where a word of it stands. -/
theorem matchAt_ne_none (blind : body.looks = false) {word : List NodeTypeId} (is : body.Word word)
    (filled : word ≠ []) (stands : word <+: input.toList.drop start) :
    (capture body).matchAt input start false ≠ none := by
  obtain ⟨choices, reached, leads, stop⟩ :=
    matches_covers input body blind ⟨start, none⟩ word is stands
  refine matchAt_ne_none_of_matches leads ?_
  rw [stop]
  exact Nat.lt_add_of_pos_right (List.length_pos_of_ne_nil filled)

/-! ## Lists in brackets -/

/-- A pattern for items with separators between them and brackets around them. -/
def bracketed (opening : NodeTypeId) (items : List NodeTypeId) (separator closing : NodeTypeId) :
    SymbolPattern :=
  .concat [.symbols [opening],
    .loop (.concat [.symbols items,
      .loop (.concat [.symbols [separator], .symbols items]) 0 none true]) 0 (some 1) true,
    .symbols [closing]]

theorem word_concat_iff {items : List SymbolPattern} {word : List NodeTypeId} :
    Word (.concat items) word ↔ WordItems items word := by
  rw [Word]

theorem wordItems_nil_iff {word : List NodeTypeId} : WordItems [] word ↔ word = [] := by
  rw [WordItems]

theorem wordItems_cons_iff (item : SymbolPattern) (items : List SymbolPattern)
    {word : List NodeTypeId} :
    WordItems (item :: items) word ↔
      ∃ first rest, Word item first ∧ WordItems items rest ∧ first ++ rest = word := by
  rw [WordItems]

theorem wordItems_singleton_iff {item : SymbolPattern} {word : List NodeTypeId} :
    WordItems [item] word ↔ Word item word := by
  rw [WordItems]
  simp [WordItems]

theorem wordItems_symbols_iff {members : List NodeTypeId} {items : List SymbolPattern}
    {word : List NodeTypeId} :
    WordItems (.symbols members :: items) word ↔
      ∃ nodeType ∈ members, ∃ rest, WordItems items rest ∧ nodeType :: rest = word := by
  simp only [wordItems_cons_iff, Word]
  constructor
  · rintro ⟨_, rest, ⟨nodeType, member, rfl⟩, are, rfl⟩
    exact ⟨nodeType, member, rest, are, rfl⟩
  · rintro ⟨nodeType, member, rest, are, rfl⟩
    exact ⟨[nodeType], rest, ⟨nodeType, member, rfl⟩, are, rfl⟩

section

variable {α : Type} {f : α → NodeTypeId} {list : List α} {items : List SymbolPattern}

theorem wordItems_nil_map_iff : WordItems [] (list.map f) ↔ list = [] := by
  rw [wordItems_nil_iff, List.map_eq_nil_iff]

theorem wordItems_symbols_map_iff {members : List NodeTypeId} :
    WordItems (.symbols members :: items) (list.map f) ↔
      ∃ first rest, list = first :: rest ∧ f first ∈ members ∧ WordItems items (rest.map f) := by
  rw [wordItems_symbols_iff]
  constructor
  · rintro ⟨_, member, _, are, same⟩
    obtain ⟨first, rest, rfl, rfl, rfl⟩ := List.map_eq_cons_iff.mp same.symm
    exact ⟨first, rest, rfl, member, are⟩
  · rintro ⟨first, rest, rfl, member, are⟩
    exact ⟨f first, member, rest.map f, are, rfl⟩

theorem wordItems_any_map_iff :
    WordItems (.any :: items) (list.map f) ↔
      ∃ first rest, list = first :: rest ∧ WordItems items (rest.map f) := by
  simp only [wordItems_cons_iff, Word]
  constructor
  · rintro ⟨_, _, ⟨_, rfl⟩, are, same⟩
    obtain ⟨first, rest, rfl, rfl, rfl⟩ := List.map_eq_cons_iff.mp same.symm
    exact ⟨first, rest, rfl, are⟩
  · rintro ⟨first, rest, rfl, are⟩
    exact ⟨[f first], rest.map f, ⟨f first, rfl⟩, are, rfl⟩

end

theorem word_separated_iff {separator : NodeTypeId} {items : List NodeTypeId}
    {word : List NodeTypeId} :
    Word (.loop (.concat [.symbols [separator], .symbols items]) 0 none true) word ↔
      Further (· ∈ items) (· = separator) word := by
  have pair (part : List NodeTypeId) : Word (.concat [.symbols [separator], .symbols items]) part ↔
      ∃ item ∈ items, part = [separator, item] := by
    rw [word_concat_iff, wordItems_symbols_iff]
    simp only [wordItems_singleton_iff, Word, List.mem_singleton]
    constructor
    · rintro ⟨_, rfl, _, ⟨item, member, rfl⟩, rfl⟩
      exact ⟨item, member, rfl⟩
    · rintro ⟨item, member, rfl⟩
      exact ⟨_, rfl, _, ⟨item, member, rfl⟩, rfl⟩
  rw [Word]
  constructor
  · rintro ⟨parts, _, _, are, rfl⟩
    clear * - are pair
    induction parts with
    | nil => exact .nil
    | cons part parts induction =>
        obtain ⟨first, rest⟩ := List.forall_mem_cons.mp are
        obtain ⟨item, member, rfl⟩ := (pair part).mp first
        exact .cons rfl member (induction rest)
  · intro further
    induction further with
    | nil => exact ⟨[], Nat.zero_le _, rfl, nofun, rfl⟩
    | @cons before after rest same member _ induction =>
        obtain ⟨parts, _, _, are, rfl⟩ := induction
        exact ⟨[before, after] :: parts, Nat.zero_le _, rfl,
          List.forall_mem_cons.mpr ⟨(pair _).mpr ⟨after, member, by rw [same]⟩, are⟩, rfl⟩

theorem word_bracketed_iff {opening : NodeTypeId} {items : List NodeTypeId}
    {separator closing : NodeTypeId} {word : List NodeTypeId} :
    (bracketed opening items separator closing).Word word ↔
      ∃ inner, Listed (· ∈ items) (· = separator) inner ∧
        word = opening :: (inner ++ [closing]) := by
  have list (inner : List NodeTypeId) : Word (.concat [.symbols items,
      .loop (.concat [.symbols [separator], .symbols items]) 0 none true]) inner ↔
        ∃ first ∈ items, ∃ rest,
          Further (· ∈ items) (· = separator) rest ∧ first :: rest = inner := by
    rw [word_concat_iff, wordItems_symbols_iff]
    simp only [wordItems_singleton_iff, word_separated_iff]
  have optional (inner : List NodeTypeId) : Word (.loop (.concat [.symbols items,
      .loop (.concat [.symbols [separator], .symbols items]) 0 none true]) 0 (some 1) true) inner ↔
      Listed (· ∈ items) (· = separator) inner := by
    rw [Word]
    constructor
    · rintro ⟨parts, _, few, are, rfl⟩
      match parts, few, are with
      | [], _, _ => exact .nil
      | [part], _, are =>
          obtain ⟨first, member, rest, further, rfl⟩ := (list part).mp (are part List.mem_cons_self)
          rw [List.flatten_singleton]
          exact .cons member further
    · intro listed
      cases listed with
      | nil => exact ⟨[], Nat.zero_le _, rfl, nofun, rfl⟩
      | @cons first rest member further =>
          refine ⟨[first :: rest], Nat.zero_le _, rfl, ?_, List.flatten_singleton⟩
          exact List.forall_mem_singleton.mpr ((list _).mpr ⟨first, member, rest, further, rfl⟩)
  have close (rest : List NodeTypeId) : WordItems [.symbols [closing]] rest ↔ rest = [closing] := by
    simp [wordItems_singleton_iff, Word]
  rw [bracketed, word_concat_iff, wordItems_symbols_iff]
  simp only [wordItems_cons_iff _ [.symbols [closing]], optional, close, List.mem_singleton]
  constructor
  · rintro ⟨_, rfl, _, ⟨inner, _, listed, rfl, rfl⟩, rfl⟩
    exact ⟨inner, listed, rfl⟩
  · rintro ⟨inner, listed, rfl⟩
    exact ⟨_, rfl, _, ⟨inner, _, listed, rfl, rfl⟩, rfl⟩

end SymbolPattern

end RowGrammar
