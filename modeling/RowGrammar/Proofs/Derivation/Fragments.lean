import RowGrammar.Derivation.Tokens
import RowGrammar.Proofs.Derivation.Escaping
import RowGrammar.Proofs.Derivation.Locating

/-!
# Alternatives for literals

An inferred alternative matches its literal and nothing else.  Where a word boundary has been put
after it, there is a match only if a word ends there, which is judged by word characters and not by
the alphanumeric ones that the boundary was chosen by.
-/

namespace RowGrammar.Derivation

open RowGrammar.Text RowGrammar.TokenPattern

/-! ## Boundaries -/

/-- Whether a word boundary is put after a literal. -/
def isBounded (literal : String) (followers : List (Option Char)) : Bool :=
  literal.toList.getLast?.any endsWord && !followers.any (·.any endsWord)

theorem withBoundary_eq (pattern literal : String) (followers : List (Option Char)) :
    withBoundary pattern literal followers =
      if isBounded literal followers then pattern ++ "\\b" else pattern := rfl

/-- An alternative matches where the text goes on with the literal and, if it is bounded, a word
starts or ends after it; and then it matches exactly the literal. -/
theorem exists_parse?_withBoundary (reserved : List String) (literal : String)
    (followers : List (Option Char)) :
    ∃ regex,
      Regex.parse? (withBoundary (escapeLiteral literal reserved) literal followers) = some regex ∧
      ∀ text position found, regex.matchAt text position = some found ↔
        literal.toList <+: text.toList.drop position ∧
          (isBounded literal followers →
            Regex.assertionAt text .wordBoundary (position + literal.toList.length)) ∧
          found = ⟨position, position + literal.toList.length, []⟩ := by
  have spelled := (writes_writeLiteral reserved literal.toList).imp fun _ _ each => each.spells
  have joined := (toList_escapeLiteral literal reserved).symm
  rw [withBoundary_eq]
  split_ifs with bounded
  · have extended : (writeLiteral reserved literal.toList).flatten ++ ['\\', 'b'] =
        (escapeLiteral literal reserved ++ "\\b").toList := by
      rw [joined, String.toList_append]
      rfl
    obtain ⟨regex, parsed, matches_⟩ := Regex.exists_parse?_of_spells_bounded spelled extended
    exact ⟨regex, parsed, by simpa [bounded] using matches_⟩
  · obtain ⟨regex, parsed, matches_⟩ := Regex.exists_parse?_of_spells spelled joined
    exact ⟨regex, parsed, by simpa [bounded] using matches_⟩

/-! ## Alternatives of an inference -/

/-- An inference has an alternative for a leaf type. -/
def TokenInference.Offers (inference : TokenInference) (nodeType : String) (fragment : Fragment) :
    Prop :=
  ∃ entry ∈ inference.entries, entry.nodeType = nodeType ∧ fragment ∈ entry.fragments

section

variable {leaves : List LeafOccurrence} {seeds : List Row} {example_ : Tree}

theorem mem_literals {nodeType literal : String} :
    literal ∈ TokenInference.literals leaves nodeType ↔
      ∃ leaf ∈ leaves, leaf.nodeType = nodeType ∧ leaf.text = literal := by
  simp [TokenInference.literals, and_assoc]

theorem mem_entries_infer {entry : TokenEntry} :
    entry ∈ (TokenInference.infer leaves seeds example_).entries ↔
      (∃ leaf ∈ leaves, leaf.nodeType = entry.nodeType) ∧
        entry.nodeType ∉ seeds.map (·.nodeType) ∧
        entry.fragments = (TokenInference.literals leaves entry.nodeType).map
          (TokenInference.fragment leaves (TokenInference.reservedNames seeds example_)
            entry.nodeType) := by
  simp only [TokenInference.infer, List.mem_map, List.mem_eraseDups, List.mem_filter,
    Bool.not_eq_true', ← Bool.not_eq_true, List.contains_iff_mem]
  constructor
  · rintro ⟨_, ⟨⟨leaf, member, rfl⟩, unseeded⟩, rfl⟩
    exact ⟨⟨leaf, member, rfl⟩, unseeded, rfl⟩
  · rintro ⟨⟨leaf, member, typed⟩, unseeded, fragments⟩
    refine ⟨entry.nodeType, ⟨⟨leaf, member, typed⟩, unseeded⟩, ?_⟩
    rw [← fragments]

/-- The alternatives for the leaf types that no seed has are those of their literals. -/
theorem offers_infer_iff {nodeType : String} {fragment : Fragment} :
    (TokenInference.infer leaves seeds example_).Offers nodeType fragment ↔
      nodeType ∉ seeds.map (·.nodeType) ∧
        ∃ leaf ∈ leaves, leaf.nodeType = nodeType ∧
          fragment = TokenInference.fragment leaves (TokenInference.reservedNames seeds example_)
            nodeType leaf.text := by
  constructor
  · rintro ⟨entry, listed, rfl, among⟩
    obtain ⟨_, unseeded, fragments⟩ := mem_entries_infer.mp listed
    rw [fragments] at among
    obtain ⟨_, member, rfl⟩ := List.mem_map.mp among
    obtain ⟨leaf, inside, typed, rfl⟩ := mem_literals.mp member
    exact ⟨unseeded, leaf, inside, typed, rfl⟩
  · rintro ⟨unseeded, leaf, member, rfl, rfl⟩
    have among := mem_literals.mpr ⟨leaf, member, rfl, rfl⟩
    refine ⟨⟨leaf.nodeType, (TokenInference.literals leaves leaf.nodeType).map _⟩,
      mem_entries_infer.mpr ?_, rfl, List.mem_map_of_mem among⟩
    exact ⟨⟨leaf, member, rfl⟩, unseeded, rfl⟩

end

/-! ## Leaves and their alternatives -/

/-- Between a literal and its follower there are the last character of the literal and the
follower. -/
theorem LeafOccurrence.StandsAt.assertionAt_eq {leaf : LeafOccurrence} {source : List Char}
    {position : Nat} (stands : leaf.StandsAt source position) (present : leaf.text.toList ≠ [])
    (condition : Regex.Assertion) :
    Regex.assertionAt source.toArray condition (position + leaf.text.toList.length) =
      condition.holds leaf.text.toList.getLast? leaf.follower := by
  have long := List.length_pos_iff.mpr present
  obtain ⟨after, goes⟩ := stands.goes
  have last : source[position + leaf.text.toList.length - 1]? = leaf.text.toList.getLast? := by
    rw [Nat.add_sub_assoc long, ← List.getElem?_drop, ← goes,
      List.getElem?_append_left (Nat.sub_lt long Nat.one_pos), List.getLast?_eq_getElem?]
  rw [Regex.assertionAt, if_neg (by omega), List.getElem?_toArray, List.getElem?_toArray, last,
    stands.follower_eq]

/-- Where a leaf stands, its alternative matches nothing but the literal, and it matches unless it
is bounded and no word starts or ends after the literal. -/
theorem LeafOccurrence.StandsAt.exists_matchAt_iff {leaf : LeafOccurrence} {source : List Char}
    {position : Nat} (stands : leaf.StandsAt source position) (reserved : List String)
    (followers : List (Option Char)) :
    ∃ regex, Regex.parse? (withBoundary (escapeLiteral leaf.text reserved) leaf.text followers) =
        some regex ∧
      ∀ found, regex.matchAt source.toArray position = some found ↔
        (isBounded leaf.text followers →
          Regex.wordAt leaf.text.toList.getLast? ≠ Regex.wordAt leaf.follower) ∧
        found = ⟨position, position + leaf.text.toList.length, []⟩ := by
  obtain ⟨regex, parsed, matches_⟩ := exists_parse?_withBoundary reserved leaf.text followers
  refine ⟨regex, parsed, fun found => ?_⟩
  rw [matches_, and_iff_right stands.goes]
  refine and_congr_left fun _ => imp_congr_right fun bounded => ?_
  have present : leaf.text.toList ≠ [] := by
    intro empty
    simp [isBounded, empty] at bounded
  rw [stands.assertionAt_eq present, Regex.Assertion.holds, bne_iff_ne]

/-- A literal with a boundary ends in an alphanumeric character, and no follower is one. -/
theorem not_isBounded {literal : String} {followers : List (Option Char)} {follower : Option Char}
    (among : follower ∈ followers) (ends : ∀ c ∈ literal.toList.getLast?, endsWord c → isWord c)
    (begins : ∀ c ∈ follower, isWord c → endsWord c)
    (same : Regex.wordAt literal.toList.getLast? = Regex.wordAt follower) :
    ¬isBounded literal followers := by
  intro bounded
  obtain ⟨last, unfollowed⟩ := Bool.and_eq_true_iff.mp bounded
  obtain ⟨c, last_eq, ending⟩ := (Option.any_eq_true _ _).mp last
  have word : Regex.wordAt follower := by
    rw [← same, last_eq]
    exact ends c last_eq ending
  cases follower with
  | none => cases word
  | some d =>
      have following := begins d rfl word
      have listed : followers.any (·.any endsWord) := List.any_eq_true.mpr ⟨_, among, following⟩
      rw [listed] at unfollowed
      cases unfollowed

/-- The alternative for a located leaf matches exactly the literal where the leaf stands, unless it
is bounded although no word starts or ends there.  That can only happen where the literal ends in an
alphanumeric character that is no word character, or where a word character follows it that is not
alphanumeric. -/
theorem fragment_matches {source : String} {example_ : Tree} {seeds : List Row}
    {leaves : List LeafOccurrence} (located : locateLeaves source example_ = .ok leaves)
    {leaf : LeafOccurrence} (member : leaf ∈ leaves)
    (unseeded : leaf.nodeType ∉ seeds.map (·.nodeType)) :
    (∃ fragment, (TokenInference.infer leaves seeds example_).Offers leaf.nodeType fragment ∧
      fragment.literal = leaf.text) ∧
    ∀ fragment, (TokenInference.infer leaves seeds example_).Offers leaf.nodeType fragment →
      fragment.literal = leaf.text →
      ∃ regex position, Regex.parse? fragment.pattern = some regex ∧
        leaf.StandsAt source.toList position ∧
        regex.matchAt source.toList.toArray position =
          (if isBounded leaf.text (TokenInference.followers leaves leaf.nodeType leaf.text) ∧
              Regex.wordAt leaf.text.toList.getLast? = Regex.wordAt leaf.follower then none
            else some ⟨position, position + leaf.text.toList.length, []⟩) ∧
        ((∀ c ∈ leaf.text.toList.getLast?, endsWord c → isWord c) →
          (∀ c ∈ leaf.follower, isWord c → endsWord c) →
          regex.matchAt source.toList.toArray position =
            some ⟨position, position + leaf.text.toList.length, []⟩) := by
  refine ⟨⟨_, offers_infer_iff.mpr ⟨unseeded, leaf, member, rfl, rfl⟩, rfl⟩, ?_⟩
  intro fragment offered same
  obtain ⟨_, other, _, _, rfl⟩ := offers_infer_iff.mp offered
  have literal : other.text = leaf.text := same
  obtain ⟨position, stands⟩ := exists_standsAt located member
  obtain ⟨regex, parsed, matches_⟩ := stands.exists_matchAt_iff
    (TokenInference.reservedNames seeds example_)
    (TokenInference.followers leaves leaf.nodeType leaf.text)
  refine ⟨regex, position, by rw [literal]; exact parsed, stands, ?_, fun ends begins => ?_⟩
  · split_ifs with missed
    · refine Option.eq_none_iff_forall_ne_some.mpr fun found matched => ?_
      exact ((matches_ found).mp matched).1 missed.1 missed.2
    · exact (matches_ _).mpr ⟨fun bounded unmoved => missed ⟨bounded, unmoved⟩, rfl⟩
  · have among : leaf.follower ∈ TokenInference.followers leaves leaf.nodeType leaf.text :=
      List.mem_map.mpr ⟨leaf, List.mem_filter.mpr ⟨member, by simp⟩, rfl⟩
    exact (matches_ _).mpr
      ⟨fun bounded unmoved => not_isBounded among ends begins unmoved bounded, rfl⟩

/-- A keyword, a blank and a name. -/
private def declaration : Tree :=
  .branch "Def" [.leaf "Kw" "fn", .leaf "Id" "x"]

theorem fragment_matches_keyword :
    let leaves := [⟨"Kw", "fn", 0, some ' '⟩, ⟨"Id", "x", 3, none⟩]
    locateLeaves "fn x" declaration = .ok leaves ∧
      ∃ fragment, (TokenInference.infer leaves [] declaration).Offers "Kw" fragment ∧
        ∃ regex position, Regex.parse? fragment.pattern = some regex ∧
          LeafOccurrence.StandsAt ⟨"Kw", "fn", 0, some ' '⟩ "fn x".toList position ∧
          regex.matchAt "fn x".toList.toArray position = some ⟨position, position + 2, []⟩ := by
  have located : locateLeaves "fn x" declaration =
      .ok [⟨"Kw", "fn", 0, some ' '⟩, ⟨"Id", "x", 3, none⟩] := by decide +kernel
  have unseeded : "Kw" ∉ ([] : List Row).map (·.nodeType) := List.not_mem_nil
  obtain ⟨⟨fragment, offered, same⟩, each⟩ :=
    fragment_matches located List.mem_cons_self unseeded
  obtain ⟨regex, position, parsed, stands, _, plain⟩ := each fragment offered same
  have ends : ∀ c ∈ "fn".toList.getLast?, endsWord c → isWord c := by
    rintro _ ⟨⟩ _
    decide +kernel
  have begins : ∀ c ∈ some ' ', isWord c → endsWord c := by
    rintro _ ⟨⟩ word
    exact absurd word (by decide +kernel)
  exact ⟨located, fragment, offered, regex, position, parsed, stands, plain ends begins⟩

/-- One half is alphanumeric and no word character: the boundary after it keeps its alternative from
matching where it stands. -/
theorem fragment_misses_half :
    locateLeaves "½" (.leaf "Half" "½") = .ok [⟨"Half", "½", 0, none⟩] ∧
      (TokenInference.infer [⟨"Half", "½", 0, none⟩] [] (.leaf "Half" "½")).Offers "Half"
        ⟨"½", "½\\b"⟩ ∧
      ∃ regex, Regex.parse? "½\\b" = some regex ∧ regex.matchAt #['½'] 0 = none := by
  have missed : (Regex.parse? "½\\b").bind (·.matchAt #['½'] 0) = none := by decide +kernel
  obtain ⟨regex, parsed⟩ : ∃ regex, Regex.parse? "½\\b" = some regex :=
    Option.isSome_iff_exists.mp (by decide +kernel)
  rw [parsed] at missed
  refine ⟨by decide +kernel, ?_, regex, parsed, missed⟩
  exact ⟨⟨"Half", [⟨"½", "½\\b"⟩]⟩, by decide +kernel, rfl, List.mem_singleton_self _⟩

end RowGrammar.Derivation
