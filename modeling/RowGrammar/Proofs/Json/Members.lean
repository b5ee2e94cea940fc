import Mathlib.Data.List.Induction
import Mathlib.Data.String.Basic
import RowGrammar.Json.Basic

/-!
# Members of objects

The members of an object are in increasing order of their keys, so no key is there twice.  Of the
values that are put under a key the last one stays.
-/

namespace RowGrammar.Json

/-- Members in increasing order of their keys. -/
def Ordered (members : List (String × Json)) : Prop :=
  members.Pairwise fun earlier later => earlier.1 < later.1

/-- An entry that no entry with the same key follows. -/
def LastOf (entries : List (String × Json)) (entry : String × Json) : Prop :=
  ∃ before after, entries = before ++ entry :: after ∧ ∀ later ∈ after, later.1 ≠ entry.1

/-- The members with all of some entries put under their keys, one after the other. -/
def insertAll (members entries : List (String × Json)) : List (String × Json) :=
  entries.foldl (fun members entry => insertMember entry.1 entry.2 members) members

variable {key : String} {value : Json} {members entries : List (String × Json)}

theorem mem_insertMember_iff (ordered : Ordered members) {entry : String × Json} :
    entry ∈ insertMember key value members ↔
      entry = (key, value) ∨ (entry ∈ members ∧ entry.1 ≠ key) := by
  induction members with
  | nil => simp [insertMember]
  | cons head members induction =>
      obtain ⟨least, ordered⟩ := List.pairwise_cons.mp ordered
      have above (bound : key ≤ head.1) : ∀ other ∈ members, other.1 ≠ key :=
        fun other member => (lt_of_le_of_lt bound (least other member)).ne'
      rw [insertMember]
      split
      · rename_i before
        have later := above before.le
        have first := before.ne'
        grind
      · split
        · rename_i same
          have later := above same.le
          grind
        · rename_i apart
          rw [List.mem_cons, induction ordered]
          grind

theorem Ordered.insertMember (ordered : Ordered members) :
    Ordered (insertMember key value members) := by
  induction members with
  | nil => exact List.pairwise_singleton _ _
  | cons head members induction =>
      obtain ⟨least, ordered⟩ := List.pairwise_cons.mp ordered
      rw [Json.insertMember]
      split
      · rename_i before
        refine List.pairwise_cons.mpr ⟨?_, List.pairwise_cons.mpr ⟨least, ordered⟩⟩
        rintro entry (_ | ⟨_, later⟩)
        · exact before
        · exact before.trans (least entry later)
      · rename_i notBefore
        split
        · rename_i same
          subst same
          exact List.pairwise_cons.mpr ⟨least, ordered⟩
        · rename_i apart
          refine List.pairwise_cons.mpr ⟨?_, induction ordered⟩
          intro entry member
          rcases (mem_insertMember_iff ordered).mp member with rfl | ⟨old, _⟩
          · exact lt_of_le_of_ne (not_lt.mp notBefore) (Ne.symm apart)
          · exact least entry old

theorem insertAll_append (others : List (String × Json)) :
    insertAll members (entries ++ others) = insertAll (insertAll members entries) others :=
  List.foldl_append

theorem Ordered.insertAll (ordered : Ordered members) : Ordered (insertAll members entries) := by
  induction entries generalizing members with
  | nil => exact ordered
  | cons entry entries induction => exact induction ordered.insertMember

theorem lastOf_append_singleton_iff {entry last : String × Json} :
    LastOf (entries ++ [last]) entry ↔
      entry = last ∨ (LastOf entries entry ∧ entry.1 ≠ last.1) := by
  constructor
  · rintro ⟨before, after, split, later⟩
    rcases List.eq_nil_or_concat after with rfl | ⟨after, other, rfl⟩
    · obtain ⟨_, same⟩ := List.append_inj' split rfl
      exact .inl (List.singleton_inj.mp same).symm
    · rw [List.concat_eq_append] at split later
      rw [← List.cons_append, ← List.append_assoc] at split
      obtain ⟨rfl, same⟩ := List.append_inj' split rfl
      obtain rfl := List.singleton_inj.mp same
      refine .inr ⟨⟨before, after, rfl, fun other member => ?_⟩, ?_⟩
      · exact later other (List.mem_append_left _ member)
      · exact (later last (by simp)).symm
  · rintro (rfl | ⟨⟨before, after, rfl, later⟩, apart⟩)
    · exact ⟨entries, [], rfl, by simp⟩
    · refine ⟨before, after ++ [last], by simp, ?_⟩
      intro other member
      rcases List.mem_append.mp member with inside | final
      · exact later other inside
      · rw [List.mem_singleton.mp final]
        exact apart.symm

theorem lastOf_map_iff {α : Type} {make : α → String × Json} {items : List α}
    {entry : String × Json} :
    LastOf (items.map make) entry ↔ ∃ before item after, items = before ++ item :: after ∧
      make item = entry ∧ ∀ later ∈ after, (make later).1 ≠ entry.1 := by
  constructor
  · rintro ⟨before, after, split, later⟩
    obtain ⟨before, others, rfl, _, made⟩ := List.map_eq_append_iff.mp split
    obtain ⟨item, after, rfl, same, rfl⟩ := List.map_eq_cons_iff.mp made
    exact ⟨before, item, after, rfl, same,
      fun other member => later _ (List.mem_map_of_mem member)⟩
  · rintro ⟨before, item, after, rfl, rfl, later⟩
    exact ⟨before.map make, after.map make, List.map_append,
      fun entry member => by
        obtain ⟨other, inside, rfl⟩ := List.mem_map.mp member
        exact later other inside⟩

/-- Of the entries with a key the last one stays. -/
theorem mem_insertAll_iff {entry : String × Json} :
    entry ∈ insertAll [] entries ↔ LastOf entries entry := by
  induction entries using List.reverseRecOn with
  | nil => simp [insertAll, LastOf]
  | append_singleton entries last induction =>
      have ordered : Ordered (insertAll [] entries) := Ordered.insertAll .nil
      rw [insertAll_append, lastOf_append_singleton_iff, ← induction]
      exact mem_insertMember_iff ordered

/-- Ordered members are told by what is among them. -/
theorem Ordered.eq_of_mem_iff {others : List (String × Json)} (ordered : Ordered members)
    (ordered' : Ordered others) (same : ∀ entry, entry ∈ members ↔ entry ∈ others) :
    members = others := by
  have nodup {list : List (String × Json)} (ordered : Ordered list) : list.Nodup :=
    ordered.imp fun less same => less.ne (congrArg Prod.fst same)
  refine List.Perm.eq_of_pairwise ?_ ordered ordered' ?_
  · exact fun _ _ _ _ before after => absurd after before.not_gt
  · exact (List.perm_ext_iff_of_nodup (nodup ordered) (nodup ordered')).mpr same

/-- Members can be put into an object in any order. -/
theorem insertAll_perm {listed : List (String × Json)} (ordered : Ordered members)
    (same : listed.Perm members) : insertAll [] listed = members := by
  refine (Ordered.insertAll .nil).eq_of_mem_iff ordered fun entry => ?_
  rw [mem_insertAll_iff, ← same.mem_iff]
  have distinct : listed.Pairwise fun one other => other.1 ≠ one.1 :=
    (same.pairwise_iff fun apart => apart.symm).mpr (ordered.imp fun less => less.ne')
  constructor
  · rintro ⟨_, _, rfl, _⟩
    simp
  · intro member
    obtain ⟨before, after, rfl⟩ := List.append_of_mem member
    exact ⟨before, after, rfl,
      (List.pairwise_cons.mp (List.pairwise_append.mp distinct).2.1).1⟩

end RowGrammar.Json
