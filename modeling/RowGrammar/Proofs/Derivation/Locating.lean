import Mathlib.Data.String.Basic
import RowGrammar.Derivation.Leaves
import RowGrammar.Proofs.Digits
import RowGrammar.Proofs.Traversal

/-!
# Located leaves

Every leaf that is located stands in the source at its offset, and its follower is the character
that comes next.
-/

namespace RowGrammar

open RowGrammar.Text

theorem Text.utf8ByteSize_eq (text : String) : text.utf8ByteSize = utf8Length text.toList := by
  have lengths (chars : List Char) : String.utf8Len chars = utf8Length chars := by
    induction chars with
    | nil => rfl
    | cons c chars induction =>
        rw [String.utf8Len_cons, induction, Nat.add_comm]
        rfl
  rw [← lengths, ← String.utf8ByteSize_ofList, String.ofList_toList]

namespace Derivation

theorem eq_of_splitAtFirst? {literal chars before after : List Char}
    (found : splitAtFirst? literal chars = some (before, after)) :
    chars = before ++ (literal ++ after) := by
  induction chars generalizing before with
  | nil =>
      rw [splitAtFirst?] at found
      split_ifs at found with empty
      cases found
      simpa using empty
  | cons c chars induction =>
      rw [splitAtFirst?] at found
      split_ifs at found with here
      · cases found
        obtain ⟨rest, same⟩ := List.isPrefixOf_iff_prefix.mp here
        rw [← same, List.drop_left, List.nil_append]
      · obtain ⟨⟨earlier, rest⟩, later, same⟩ := Option.map_eq_some_iff.mp found
        cases same
        rw [induction later, List.cons_append]

/-- A leaf stands at a position of the source: its offset is that of the position, and its follower
is what comes after its literal. -/
structure LeafOccurrence.StandsAt (leaf : LeafOccurrence) (source : List Char) (position : Nat) :
    Prop where
  goes : leaf.text.toList <+: source.drop position
  offset_eq : leaf.offset = utf8Length (source.take position)
  follower_eq : leaf.follower = source[position + leaf.text.toList.length]?

theorem standsAt_append {leaf : LeafOccurrence} {before after : List Char}
    (offset : leaf.offset = utf8Length before) (follower : leaf.follower = after.head?) :
    leaf.StandsAt (before ++ (leaf.text.toList ++ after)) before.length where
  goes := by simp
  offset_eq := by simp [offset]
  follower_eq := by
    rw [follower, List.head?_eq_getElem?, List.getElem?_append_right (by omega),
      List.getElem?_append_right (by omega)]
    congr 1
    omega

/-- Leaves located in the rest of a source stand there. -/
theorem exists_standsAt_of_locateFrom {earlier rest : List Char} {leaves : List (String × String)}
    {occurrences : List LeafOccurrence}
    (located : locateFrom (utf8Length earlier) rest leaves = .ok occurrences)
    {leaf : LeafOccurrence} (member : leaf ∈ occurrences) :
    ∃ position, leaf.StandsAt (earlier ++ rest) position := by
  induction leaves generalizing earlier rest occurrences with
  | nil =>
      cases located
      cases member
  | cons first leaves induction =>
      obtain ⟨nodeType, text⟩ := first
      rw [locateFrom] at located
      split at located
      · cases located
      · rename_i before after found
        obtain ⟨others, further, done⟩ := bind_eq_ok_iff.mp located
        cases done
        have source : earlier ++ rest = earlier ++ before ++ (text.toList ++ after) := by
          rw [eq_of_splitAtFirst? found, List.append_assoc]
        have start : utf8Length earlier + utf8Length before = utf8Length (earlier ++ before) :=
          (utf8Length_append _ _).symm
        rw [source]
        rcases List.mem_cons.mp member with rfl | later
        · exact ⟨_, standsAt_append start rfl⟩
        · rw [start, utf8ByteSize_eq, ← utf8Length_append] at further
          rw [← List.append_assoc]
          exact induction further later

/-- Located leaves stand in the source. -/
theorem exists_standsAt {source : String} {example_ : Tree} {leaves : List LeafOccurrence}
    (located : locateLeaves source example_ = .ok leaves) {leaf : LeafOccurrence}
    (member : leaf ∈ leaves) : ∃ position, leaf.StandsAt source.toList position := by
  have start : locateFrom (utf8Length []) source.toList example_.leaves = .ok leaves := located
  exact exists_standsAt_of_locateFrom start member

end Derivation

end RowGrammar
