import RowGrammar.Proofs.Derivation.Locating

/-!
# Earliest placement

Leaves are located whenever their literals stand in the source in order and apart from each other,
and then every leaf gets the least offset that it has in any such placement: a leaf that is found
early leaves more of the source to those after it.
-/

namespace RowGrammar

open RowGrammar.Text

/-! ## Prefixes and byte offsets -/

theorem Text.utf8Length_pos {chars : List Char} (nonempty : chars ≠ []) : 0 < utf8Length chars := by
  obtain ⟨char, others, rfl⟩ := List.exists_cons_of_ne_nil nonempty
  exact Nat.lt_of_lt_of_le char.utf8Size_pos (Nat.le_add_right _ _)

theorem Text.utf8Length_le_of_prefix {chars others : List Char} (begins : chars <+: others) :
    utf8Length chars ≤ utf8Length others := by
  obtain ⟨more, rfl⟩ := begins
  rw [utf8Length_append]
  exact Nat.le_add_right _ _

/-- Of two beginnings of a text, the one with fewer bytes is a beginning of the other one. -/
theorem Text.prefix_of_utf8Length_le {chars others whole : List Char} (begins : chars <+: whole)
    (begins' : others <+: whole) (shorter : utf8Length chars ≤ utf8Length others) :
    chars <+: others := by
  rcases List.prefix_or_prefix_of_prefix begins begins' with before | ⟨more, rfl⟩
  · exact before
  · have none : more = [] := by
      by_contra nonempty
      have positive := utf8Length_pos nonempty
      rw [utf8Length_append] at shorter
      omega
    simp [none]

namespace Derivation

/-! ## Placements -/

/-- A text stands in a source at a byte offset. -/
def StandsAt (source text : String) (offset : Nat) : Prop :=
  ∃ before after, source = before ++ text ++ after ∧ before.utf8ByteSize = offset

/-- Texts stand in a source at offsets, the first one at `start` or later and each behind the end of
the one before it. -/
inductive Placed (source : String) : Nat → List String → List Nat → Prop where
  | nil {start : Nat} : Placed source start [] []
  | cons {start offset : Nat} {text : String} {texts : List String} {offsets : List Nat} :
      start ≤ offset → StandsAt source text offset →
      Placed source (offset + text.utf8ByteSize) texts offsets →
      Placed source start (text :: texts) (offset :: offsets)

theorem standsAt_iff {source text : String} {offset : Nat} :
    StandsAt source text offset ↔
      ∃ before after, source.toList = before ++ (text.toList ++ after) ∧
        utf8Length before = offset := by
  constructor
  · rintro ⟨before, after, rfl, rfl⟩
    exact ⟨before.toList, after.toList, by simp, (utf8ByteSize_eq before).symm⟩
  · rintro ⟨before, after, whole, rfl⟩
    refine ⟨String.ofList before, String.ofList after, ?_, ?_⟩
    · apply String.toList_injective
      simp [whole]
    · rw [utf8ByteSize_eq, String.toList_ofList]

/-! ## The first place -/

/-- Where a literal stands it is found, there or earlier. -/
theorem splitAtFirst?_append (literal before after : List Char) :
    ∃ earlier rest, splitAtFirst? literal (before ++ (literal ++ after)) = some (earlier, rest) ∧
      earlier.length ≤ before.length := by
  induction before with
  | nil =>
      rw [List.nil_append]
      cases whole : literal ++ after with
      | nil =>
          have empty : literal = [] := (List.append_eq_nil_iff.mp whole).1
          exact ⟨[], [], by simp [splitAtFirst?, empty], Nat.le_refl _⟩
      | cons c chars =>
          have here : literal.isPrefixOf (c :: chars) :=
            List.isPrefixOf_iff_prefix.mpr (whole ▸ List.prefix_append literal after)
          exact ⟨[], _, by rw [splitAtFirst?, if_pos here], Nat.le_refl _⟩
  | cons c before induction =>
      obtain ⟨earlier, rest, found, shorter⟩ := induction
      rw [List.cons_append, splitAtFirst?]
      split_ifs with here
      · exact ⟨[], _, rfl, Nat.zero_le _⟩
      · exact ⟨c :: earlier, rest, by rw [found]; rfl, Nat.succ_le_succ shorter⟩

theorem locateFrom_cons_eq_ok_iff {offset : Nat} {rest : List Char} {nodeType text : String}
    {leaves : List (String × String)} {occurrences : List LeafOccurrence} :
    locateFrom offset rest ((nodeType, text) :: leaves) = .ok occurrences ↔
      ∃ before after others, splitAtFirst? text.toList rest = some (before, after) ∧
        locateFrom (offset + utf8Length before + text.utf8ByteSize) after leaves = .ok others ∧
        occurrences = ⟨nodeType, text, offset + utf8Length before, after.head?⟩ :: others := by
  rw [locateFrom]
  cases splitAtFirst? text.toList rest with
  | none => simp
  | some parts =>
      obtain ⟨before, after⟩ := parts
      simp only [bind_eq_ok_iff, pure_eq_ok_iff, Option.some.injEq, Prod.mk.injEq]
      constructor
      · rintro ⟨others, further, rfl⟩
        exact ⟨before, after, others, ⟨rfl, rfl⟩, further, rfl⟩
      · rintro ⟨_, _, others, ⟨rfl, rfl⟩, further, rfl⟩
        exact ⟨others, further, rfl⟩

section

variable {source : String} {earlier rest : List Char} {leaves : List (String × String)}
  {occurrences : List LeafOccurrence}

/-- Leaves are located in a placement. -/
theorem placed_of_locateFrom (whole : source.toList = earlier ++ rest)
    (located : locateFrom (utf8Length earlier) rest leaves = .ok occurrences) :
    occurrences.map (fun leaf => (leaf.nodeType, leaf.text)) = leaves ∧
      Placed source (utf8Length earlier) (leaves.map (·.2)) (occurrences.map (·.offset)) := by
  induction leaves generalizing earlier rest occurrences with
  | nil =>
      cases located
      exact ⟨rfl, .nil⟩
  | cons first leaves induction =>
      obtain ⟨nodeType, text⟩ := first
      obtain ⟨before, after, others, found, further, rfl⟩ := locateFrom_cons_eq_ok_iff.mp located
      have split_ : source.toList = earlier ++ before ++ (text.toList ++ after) := by
        rw [whole, eq_of_splitAtFirst? found, List.append_assoc]
      rw [← utf8Length_append] at further
      have reached : utf8Length (earlier ++ before) + text.utf8ByteSize =
          utf8Length (earlier ++ before ++ text.toList) := by
        rw [utf8ByteSize_eq, utf8Length_append _ text.toList]
      rw [reached] at further
      obtain ⟨same, placed⟩ := induction (by rw [split_, List.append_assoc _ text.toList]) further
      refine ⟨by rw [List.map_cons, same], ?_⟩
      rw [← reached, utf8Length_append] at placed
      refine .cons (Nat.le_add_right _ _) ?_ placed
      exact standsAt_iff.mpr ⟨earlier ++ before, after, split_, utf8Length_append _ _⟩

/-- Leaves that can be placed behind some part of a source are located behind it, at offsets that
are not greater. -/
theorem exists_locateFrom_of_placed {start : Nat} {texts : List String} {offsets : List Nat}
    (placed : Placed source start texts offsets) (same : leaves.map (·.2) = texts)
    (whole : source.toList = earlier ++ rest) (behind : utf8Length earlier ≤ start) :
    ∃ occurrences, locateFrom (utf8Length earlier) rest leaves = .ok occurrences ∧
      List.Forall₂ (· ≤ ·) (occurrences.map (·.offset)) offsets := by
  induction placed generalizing leaves earlier rest with
  | nil =>
      cases List.map_eq_nil_iff.mp same
      exact ⟨[], rfl, .nil⟩
  | @cons start offset text texts offsets later stands _ induction =>
      obtain ⟨⟨nodeType, text⟩, leaves, rfl, rfl, rfl⟩ := List.map_eq_cons_iff.mp same
      obtain ⟨before, after, whole', rfl⟩ := standsAt_iff.mp stands
      -- the place that is given lies in the rest, so the first one does and is no later
      obtain ⟨skipped, rfl⟩ : earlier <+: before :=
        prefix_of_utf8Length_le (whole ▸ List.prefix_append _ _) (whole' ▸ List.prefix_append _ _)
          (Nat.le_trans behind later)
      have ahead : rest = skipped ++ (text.toList ++ after) := by
        rw [whole, List.append_assoc, List.append_right_inj] at whole'
        exact whole'
      obtain ⟨first, left, found, shorter⟩ := splitAtFirst?_append text.toList skipped after
      rw [← ahead] at found
      have ahead' := eq_of_splitAtFirst? found
      have sooner : utf8Length first ≤ utf8Length skipped := by
        apply utf8Length_le_of_prefix
        exact List.prefix_of_prefix_length_le (ahead' ▸ List.prefix_append _ _)
          (ahead ▸ List.prefix_append _ _) shorter
      have reached : utf8Length (earlier ++ first ++ text.toList) =
          utf8Length earlier + utf8Length first + text.utf8ByteSize := by
        rw [utf8Length_append, utf8Length_append, utf8ByteSize_eq]
      have source_eq : source.toList = earlier ++ first ++ text.toList ++ left := by
        rw [whole, ahead']
        simp
      have room : utf8Length (earlier ++ first ++ text.toList) ≤
          utf8Length (earlier ++ skipped) + text.utf8ByteSize := by
        rw [reached, utf8Length_append]
        omega
      obtain ⟨others, further, least⟩ := induction rfl source_eq room
      rw [reached] at further
      refine ⟨_, locateFrom_cons_eq_ok_iff.mpr ⟨first, left, others, found, further, rfl⟩, ?_⟩
      refine .cons ?_ least
      change utf8Length earlier + utf8Length first ≤ utf8Length (earlier ++ skipped)
      rw [utf8Length_append]
      omega

end

/-- Where leaves cannot be located, the error names the first one that cannot. -/
theorem exists_of_locateFrom_eq_error {offset : Nat} {rest : List Char}
    {leaves : List (String × String)} {error : DeriveError}
    (failed : locateFrom offset rest leaves = .error error) :
    ∃ before nodeType text after, leaves = before ++ (nodeType, text) :: after ∧
      error = .leafNotInSource nodeType text ∧
      (∃ occurrences, locateFrom offset rest before = .ok occurrences) ∧
      locateFrom offset rest (before ++ [(nodeType, text)]) = .error error := by
  induction leaves generalizing offset rest with
  | nil => cases failed
  | cons first leaves induction =>
      obtain ⟨nodeType, text⟩ := first
      rw [locateFrom] at failed
      split at failed
      · rename_i absent
        cases failed
        refine ⟨[], nodeType, text, leaves, rfl, rfl, ⟨[], rfl⟩, ?_⟩
        rw [List.nil_append, locateFrom, absent]
      · rename_i before after found
        cases further : locateFrom (offset + utf8Length before + text.utf8ByteSize)
          after leaves with
        | ok others => simp [further, bind, Except.bind, pure, Except.pure] at failed
        | error error' =>
            obtain rfl : error' = error := by simpa [further, bind, Except.bind] using failed
            obtain ⟨earlier, name, literal, later, rfl, named, ⟨others, located⟩, stops⟩ :=
              induction further
            have here : ∃ occurrences,
                locateFrom offset rest ((nodeType, text) :: earlier) = .ok occurrences :=
              ⟨_, locateFrom_cons_eq_ok_iff.mpr ⟨before, after, others, found, located, rfl⟩⟩
            refine ⟨(nodeType, text) :: earlier, name, literal, later, rfl, named, here, ?_⟩
            rw [List.cons_append, locateFrom, found]
            simp [stops, bind, Except.bind]

/-- Leaves are located if and only if their literals can be placed in the source, and then at the
least offsets of all placements.  An error names the first leaf that cannot be placed with those
before it. -/
theorem locateLeaves_earliest (source : String) (example_ : Tree) :
    let literals := example_.leaves.map (·.2)
    match locateLeaves source example_ with
    | .ok occurrences =>
        occurrences.map (fun leaf => (leaf.nodeType, leaf.text)) = example_.leaves ∧
        Placed source 0 literals (occurrences.map (·.offset)) ∧
        ∀ offsets, Placed source 0 literals offsets →
          List.Forall₂ (· ≤ ·) (occurrences.map (·.offset)) offsets
    | .error error =>
        (∀ offsets, ¬Placed source 0 literals offsets) ∧
        ∃ before nodeType text after, example_.leaves = before ++ (nodeType, text) :: after ∧
          error = .leafNotInSource nodeType text ∧
          (∃ offsets, Placed source 0 (before.map (·.2)) offsets) ∧
          ∀ offsets, ¬Placed source 0 (before.map (·.2) ++ [text]) offsets := by
  intro literals
  have whole : source.toList = [] ++ source.toList := rfl
  have start : utf8Length [] = 0 := rfl
  have refused {leaves : List (String × String)} {error : DeriveError}
      (failed : locateFrom 0 source.toList leaves = .error error) (offsets : List Nat) :
      ¬Placed source 0 (leaves.map (·.2)) offsets := by
    intro placed
    obtain ⟨occurrences, located, _⟩ := exists_locateFrom_of_placed placed rfl whole (Nat.le_refl 0)
    rw [start, failed] at located
    cases located
  cases located : locateLeaves source example_ with
  | ok occurrences =>
      obtain ⟨same, placed⟩ := placed_of_locateFrom whole located
      refine ⟨same, placed, fun offsets other => ?_⟩
      obtain ⟨_, located', least⟩ := exists_locateFrom_of_placed other rfl whole (Nat.le_refl 0)
      rw [start] at located'
      cases located.symm.trans located'
      exact least
  | error error =>
      refine ⟨refused located, ?_⟩
      obtain ⟨before, nodeType, text, after, leaves, named, ⟨occurrences, located'⟩, stops⟩ :=
        exists_of_locateFrom_eq_error located
      refine ⟨before, nodeType, text, after, leaves, named,
        ⟨_, (placed_of_locateFrom whole located').2⟩, ?_⟩
      simpa using refused stops

/-- Literals may overlap themselves, be empty or have several bytes. -/
example :
    (locateLeaves "éaaa" (.branch "Root" [.leaf "Two" "aa", .leaf "Nil" "", .leaf "One" "a"])).map
      (·.map (·.offset)) = .ok [2, 4, 4] := by
  decide +kernel

end Derivation

end RowGrammar
