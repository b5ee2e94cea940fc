import RowGrammar.Proofs.Grammar.Reordering
import RowGrammar.Proofs.SymbolPattern.References

/-!
# Consistent registries

Node types are registered, put into groups and given primitive types in any order, and some of these
requests are refused.  The names, numbers and groups of a registry fit together at any time, a
refused request leaves no trace, and what has been assigned stays so.
-/

namespace RowGrammar.Registry

open RowGrammar.Text

/-! ## Requests -/

/-- What can be asked of a registry. -/
inductive Request where
  | register (name : String)
  | addToGroup (group : String) (member : NodeTypeId)
  | setPrimitive (id : NodeTypeId) (primitive : String)
  deriving DecidableEq, Repr

/-- The registry that a request leads to, unless it is refused. -/
def grant (registry : Registry) : Request → Except GrammarError Registry
  | .register name => (registry.register name).map (·.2)
  | .addToGroup group member => registry.addToGroup group member
  | .setPrimitive id primitive => registry.setPrimitive id primitive

/-- The registry after a request, granted or not. -/
def after (registry : Registry) (request : Request) : Registry :=
  match registry.grant request with
  | .ok next => next
  | .error _ => registry

/-- The registry after some requests. -/
def afterAll (registry : Registry) (requests : List Request) : Registry :=
  requests.foldl after registry

/-- The requests that are granted when all of them are made one after the other. -/
def granted : Registry → List Request → List Request
  | _, [] => []
  | registry, request :: requests =>
      match registry.grant request with
      | .ok next => request :: granted next requests
      | .error _ => granted registry requests

/-- A node type that is put into a group is registered already. -/
def Request.Refers (registry : Registry) : Request → Prop
  | .addToGroup _ member => member < registry.size
  | .register _ | .setPrimitive .. => True

instance (registry : Registry) : DecidablePred (Request.Refers registry)
  | .addToGroup _ member => inferInstanceAs (Decidable (member < registry.size))
  | .register _ | .setPrimitive .. => .isTrue trivial

/-- All node types that are put into groups are registered before. -/
def Admissible : Registry → List Request → Prop
  | _, [] => True
  | registry, request :: requests =>
      request.Refers registry ∧ Admissible (registry.after request) requests

instance decideAdmissible : (registry : Registry) → (requests : List Request) →
    Decidable (Admissible registry requests)
  | _, [] => .isTrue trivial
  | registry, request :: requests =>
      have := decideAdmissible (registry.after request) requests
      inferInstanceAs (Decidable (request.Refers registry ∧ _))

/-- The members that requests add to a group, as often as they do. -/
def additions (group : String) (requests : List Request) : List NodeTypeId :=
  requests.filterMap fun
    | .addToGroup other member => if other = group then some member else none
    | _ => none

/-- The members of a group in the order of their first addition.  Without any there is no group. -/
def enrolled (additions : List NodeTypeId) : Option (List NodeTypeId) :=
  if additions = [] then none else some additions.eraseDups

/-! ## What is consistent -/

/-- Two or more of the letters `A` to `Z` and `a` to `z` and underscores. -/
def ProperName (name : String) : Prop :=
  2 ≤ name.length ∧ ∀ c ∈ name.toList, ('A' ≤ c ∧ c ≤ 'Z') ∨ ('a' ≤ c ∧ c ≤ 'z') ∨ c = '_'

/-- The names, the numbers and the groups of a registry fit together. -/
structure Consistent (registry : Registry) : Prop where
  first : registry.id? unrecognizedName = some unrecognized
  /-- The numbers are those below the number of node types. -/
  dense : ∀ id, id < registry.size ↔ ∃ name, registry.id? name = some id
  inverse : ∀ name id, registry.id? name = some id ↔ id < registry.size ∧ registry.name id = name
  typeNames : ∀ name id, registry.id? name = some id → id ≠ unrecognized → ProperName name
  groupNames : ∀ name members, registry.group? name = some members → ProperName name
  apart : ∀ name, registry.id? name = none ∨ registry.group? name = none
  groupsDistinct : (registry.groups.map (·.1)).Nodup
  members : ∀ name members, registry.group? name = some members →
    members.Nodup ∧ ∀ id ∈ members, id < registry.size
  few : registry.size ≤ 10000

/-- Numbers and primitive types that one registry has assigned are the same in a later one. -/
structure KeptIn (registry later : Registry) : Prop where
  ids : ∀ name id, registry.id? name = some id → later.id? name = some id
  primitives : ∀ id primitive, registry.primitive? id = some primitive →
    later.primitive? id = some primitive

theorem properName_iff {name : String} : ProperName name ↔ isValidName name := by
  simp [ProperName, isValidName, isNameLetter, isAsciiLetter, or_assoc, or_left_comm,
    String.length_toList]

/-! ## Single requests -/

theorem grant_register_eq_ok_iff {registry next : Registry} {name : String} :
    registry.grant (.register name) = .ok next ↔ ∃ id, registry.register name = .ok (id, next) := by
  rw [grant, map_eq_ok_iff]
  exact ⟨fun ⟨⟨id, _⟩, registered, same⟩ => ⟨id, same ▸ registered⟩,
    fun ⟨id, registered⟩ => ⟨(id, next), registered, rfl⟩⟩

/-- The lists that a registry is made of fit together. -/
structure Sound (registry : Registry) : Prop where
  first : registry.names[0]? = some unrecognizedName
  distinct : registry.names.toList.Nodup
  apart : ∀ name, registry.id? name = none ∨ registry.group? name = none
  groupsDistinct : (registry.groups.map (·.1)).Nodup
  members : ∀ name members, registry.group? name = some members →
    members.Nodup ∧ ∀ id ∈ members, id < registry.size
  few : registry.size ≤ maxNodeTypes

namespace Sound

variable {registry next : Registry}

theorem empty : Sound .empty where
  first := rfl
  distinct := List.nodup_singleton _
  apart _ := .inr rfl
  groupsDistinct := List.nodup_nil
  members := nofun
  few := by decide

variable (sound : registry.Sound)

include sound

theorem register {name : String} {id : NodeTypeId}
    (registered : registry.register name = .ok (id, next)) : next.Sound := by
  obtain ⟨_, fresh, free, room, same⟩ := register_eq_ok_iff.mp registered
  cases same
  have size : ({ registry with names := registry.names.push name } : Registry).size =
      registry.size + 1 := Array.size_push _
  constructor
  case first =>
    have filled : 0 < registry.names.size := (Array.getElem?_eq_some_iff.mp sound.first).1
    rw [Array.getElem?_push_lt filled, ← sound.first, Array.getElem?_eq_getElem filled]
  case distinct =>
    rw [Array.toList_push, ← List.concat_eq_append]
    exact sound.distinct.concat (id?_eq_none_iff.mp fresh)
  case apart =>
    intro other
    rcases sound.apart other with unknown | free'
    · by_cases same : other = name
      · exact .inr (same ▸ free)
      · rw [id?_eq_none_iff] at unknown ⊢
        exact .inl (by simp [unknown, same])
    · exact .inr free'
  case groupsDistinct => exact sound.groupsDistinct
  case members =>
    intro group members found
    obtain ⟨distinct, known⟩ := sound.members group members found
    exact ⟨distinct, fun id member => by rw [size]; exact Nat.lt_succ_of_lt (known id member)⟩
  case few => rwa [size]

theorem addToGroup {group : String} {member : NodeTypeId} (known : member < registry.size)
    (added : registry.addToGroup group member = .ok next) : next.Sound := by
  obtain ⟨unused, _, rfl⟩ := addToGroup_eq_ok_iff.mp added
  have earlier : ((registry.groups.lookup group).getD []).Nodup ∧
      ∀ id ∈ (registry.groups.lookup group).getD [], id < registry.size := by
    cases found : registry.groups.lookup group with
    | none => simp
    | some members => exact sound.members group members found
  constructor
  case first => exact sound.first
  case distinct => exact sound.distinct
  case apart =>
    intro name
    by_cases same : name = group
    · exact .inl (same ▸ unused)
    · rw [group?, lookup_insertMember, if_neg same]
      exact sound.apart name
  case groupsDistinct =>
    rw [map_fst_insertMember]
    split_ifs with listed
    · exact sound.groupsDistinct
    · rw [← List.concat_eq_append]
      exact sound.groupsDistinct.concat listed
  case members =>
    intro name members found
    rw [group?, lookup_insertMember] at found
    split_ifs at found with same listed
    · exact Option.some.inj found ▸ earlier
    · rw [← Option.some.inj found, ← List.concat_eq_append]
      refine ⟨earlier.1.concat (by simpa using listed), ?_⟩
      simpa [or_imp, forall_and] using ⟨earlier.2, known⟩
    · exact sound.members name members found
  case few => exact sound.few

theorem setPrimitive {id : NodeTypeId} {primitive : String}
    (set : registry.setPrimitive id primitive = .ok next) : next.Sound := by
  rcases setPrimitive_eq_ok_iff.mp set with ⟨_, rfl⟩ | ⟨_, rfl⟩
  · exact sound
  · exact ⟨sound.first, sound.distinct, sound.apart, sound.groupsDistinct, sound.members, sound.few⟩

theorem grant {request : Request} (refers : request.Refers registry)
    (done : registry.grant request = .ok next) : next.Sound := by
  cases request with
  | register name =>
      obtain ⟨id, registered⟩ := grant_register_eq_ok_iff.mp done
      exact sound.register registered
  | addToGroup group member => exact sound.addToGroup refers done
  | setPrimitive id primitive => exact sound.setPrimitive done

theorem consistent (named : registry.Named) : registry.Consistent where
  first := (id?_eq_some_iff sound.distinct).mpr sound.first
  dense id := by
    simp only [id?_eq_some_iff sound.distinct, Array.getElem?_eq_some_iff]
    exact ⟨fun inside => ⟨_, inside, rfl⟩, fun ⟨_, inside, _⟩ => inside⟩
  inverse name id := by
    rw [id?_eq_some_iff sound.distinct, Array.getElem?_eq_some_iff]
    constructor
    · rintro ⟨inside, rfl⟩
      exact ⟨inside, by simp [Registry.name, inside]⟩
    · rintro ⟨inside, rfl⟩
      have listed : registry.names[id]? = some registry.names[id] :=
        Array.getElem?_eq_getElem inside
      exact ⟨inside, by rw [Registry.name, listed, Option.getD_some]⟩
  typeNames name id found other := by
    have listed : registry.names[id]? = some name := (id?_eq_some_iff sound.distinct).mp found
    have member : name ∈ registry.names.toList :=
      Array.mem_toList_iff.mpr (Array.mem_of_getElem? listed)
    refine properName_iff.mpr ((named name (.inl member)).resolve_left ?_)
    rintro rfl
    rw [(id?_eq_some_iff sound.distinct).mpr sound.first] at found
    exact other (Option.some.inj found).symm
  groupNames name members found := by
    have member : name ∈ registry.groups.map (·.1) := by
      by_contra absent
      rw [← group?_eq_none_iff, found] at absent
      cases absent
    refine properName_iff.mpr ((named name (.inr member)).resolve_left ?_)
    rintro rfl
    rcases sound.apart unrecognizedName with unknown | free
    · rw [(id?_eq_some_iff sound.distinct).mpr sound.first] at unknown
      cases unknown
    · rw [found] at free
      cases free
  apart := sound.apart
  groupsDistinct := sound.groupsDistinct
  members := sound.members
  few := sound.few

end Sound

/-! ## What stays -/

namespace KeptIn

variable {registry next later : Registry}

theorem refl (registry : Registry) : registry.KeptIn registry :=
  ⟨fun _ _ known => known, fun _ _ known => known⟩

theorem trans (one : registry.KeptIn next) (two : next.KeptIn later) : registry.KeptIn later :=
  ⟨fun name id known => two.ids name id (one.ids name id known),
    fun id primitive known => two.primitives id primitive (one.primitives id primitive known)⟩

end KeptIn

theorem idxOf?_append_singleton {names : List String} {name : String} (absent : name ∉ names)
    (other : String) :
    (names ++ [name]).idxOf? other =
      if other = name then some names.length else names.idxOf? other := by
  rw [List.idxOf?, List.findIdx?_append]
  by_cases same : other = name
  · have unlisted : names.findIdx? (· == other) = none := by
      rw [← List.idxOf?, List.idxOf?_eq_none_iff, same]
      exact absent
    rw [unlisted, if_pos same, same]
    simp
  · rw [if_neg same, ← List.idxOf?]
    simp [Ne.symm same]

/-- A new name gets the next number, and the others keep theirs. -/
theorem id?_push {registry : Registry} {name : String} (fresh : registry.id? name = none)
    (other : String) :
    ({ registry with names := registry.names.push name } : Registry).id? other =
      if other = name then some registry.size else registry.id? other := by
  obtain ⟨⟨names⟩, groups, primitives⟩ := registry
  simp only [id?, List.push_toArray, List.idxOf?_toArray] at fresh ⊢
  exact idxOf?_append_singleton (List.idxOf?_eq_none_iff.mp fresh) other

theorem grant_keptIn {registry next : Registry} {request : Request}
    (done : registry.grant request = .ok next) : registry.KeptIn next := by
  cases request with
  | register name =>
      obtain ⟨id, registered⟩ := grant_register_eq_ok_iff.mp done
      obtain ⟨_, fresh, _, _, same⟩ := register_eq_ok_iff.mp registered
      cases same
      refine ⟨fun other _ known => ?_, fun _ _ known => known⟩
      have apart : other ≠ name := by
        rintro rfl
        rw [fresh] at known
        cases known
      rw [id?_push fresh, if_neg apart]
      exact known
  | addToGroup group member =>
      obtain ⟨_, _, rfl⟩ := addToGroup_eq_ok_iff.mp done
      exact ⟨fun _ _ known => known, fun _ _ known => known⟩
  | setPrimitive id primitive =>
      rcases setPrimitive_eq_ok_iff.mp done with ⟨_, rfl⟩ | ⟨unset, rfl⟩
      · exact .refl _
      · refine ⟨fun _ _ known => known, fun other existing known => ?_⟩
        have apart : other ≠ id := by
          rintro rfl
          rw [unset] at known
          cases known
        rw [primitive?, List.lookup_cons, beq_eq_false_iff_ne.mpr apart]
        exact known

/-! ## Sequences of requests -/

theorem after_of_ok {registry next : Registry} {request : Request}
    (done : registry.grant request = .ok next) : registry.after request = next := by
  rw [after, done]

theorem after_of_error {registry : Registry} {request : Request} {error : GrammarError}
    (refused : registry.grant request = .error error) : registry.after request = registry := by
  rw [after, refused]

/-- A property that granted requests keep is kept by all requests. -/
theorem after_induction {registry : Registry} {request : Request} (holds : Registry → Prop)
    (start : holds registry)
    (kept : ∀ next, registry.grant request = .ok next → holds next) :
    holds (registry.after request) := by
  cases done : registry.grant request with
  | ok next =>
      rw [after_of_ok done]
      exact kept next done
  | error error =>
      rw [after_of_error done]
      exact start

theorem afterAll_sound {registry : Registry} (sound : registry.Sound) {requests : List Request}
    (admissible : Admissible registry requests) : (registry.afterAll requests).Sound := by
  induction requests generalizing registry with
  | nil => exact sound
  | cons request requests induction =>
      exact induction (after_induction Sound sound fun _ done => sound.grant admissible.1 done)
        admissible.2

theorem afterAll_reached {registry : Registry} (reached : registry.Reached)
    (requests : List Request) : (registry.afterAll requests).Reached := by
  induction requests generalizing registry with
  | nil => exact reached
  | cons request requests induction =>
      apply induction
      apply after_induction Reached reached
      intro next done
      cases request with
      | register name =>
          obtain ⟨id, registered⟩ := grant_register_eq_ok_iff.mp done
          exact reached.register registered
      | addToGroup group member => exact reached.addToGroup done
      | setPrimitive id primitive => exact reached.setPrimitive done

theorem afterAll_keptIn (registry : Registry) (requests : List Request) :
    registry.KeptIn (registry.afterAll requests) := by
  induction requests generalizing registry with
  | nil => exact .refl registry
  | cons request requests induction =>
      have step : registry.KeptIn (registry.after request) :=
        after_induction registry.KeptIn (.refl registry) fun _ done => grant_keptIn done
      exact step.trans (induction _)

/-- Refused requests can be left out, and then none is refused. -/
theorem foldlM_granted (registry : Registry) (requests : List Request) :
    (granted registry requests).foldlM grant registry = .ok (registry.afterAll requests) := by
  induction requests generalizing registry with
  | nil => rfl
  | cons request requests induction =>
      rw [granted, afterAll, List.foldl_cons]
      cases done : registry.grant request with
      | ok next =>
          rw [after_of_ok done]
          simp only [List.foldlM_cons, done]
          exact induction next
      | error error =>
          rw [after_of_error done]
          exact induction registry

theorem enrolled_append_singleton (additions : List NodeTypeId) (member : NodeTypeId) :
    enrolled (additions ++ [member]) =
      some (if ((enrolled additions).getD []).contains member then (enrolled additions).getD []
        else (enrolled additions).getD [] ++ [member]) := by
  have earlier : (enrolled additions).getD [] = additions.eraseDups := by
    rw [enrolled]
    split_ifs with none
    · rw [none]
      rfl
    · rfl
  rw [earlier, enrolled, if_neg (by simp), List.eraseDups_append]
  by_cases present : member ∈ additions
  · simp [present, List.removeAll]
  · simp [present, List.removeAll, List.eraseDups_cons]

theorem additions_append (group : String) (requests later : List Request) :
    additions group (requests ++ later) = additions group requests ++ additions group later :=
  List.filterMap_append

/-- When no request is refused, a group has the members that have been added, in the order of their
first addition. -/
theorem group?_of_foldlM {requests : List Request} {registry : Registry}
    (done : requests.foldlM grant .empty = .ok registry) (group : String) :
    registry.group? group = enrolled (additions group requests) := by
  induction requests using List.reverseRecOn generalizing registry with
  | nil =>
      cases done
      rfl
  | append_singleton requests request induction =>
      rw [List.foldlM_append] at done
      obtain ⟨middle, before, last⟩ := bind_eq_ok_iff.mp done
      have earlier := induction before
      obtain ⟨_, step, same⟩ := bind_eq_ok_iff.mp last
      obtain rfl := pure_eq_ok_iff.mp same
      rw [additions_append]
      cases request with
      | register name =>
          obtain ⟨id, registered⟩ := grant_register_eq_ok_iff.mp step
          obtain ⟨_, _, _, _, same⟩ := register_eq_ok_iff.mp registered
          cases same
          rw [show additions group [.register name] = [] from rfl, List.append_nil]
          exact earlier
      | addToGroup other member =>
          obtain ⟨_, _, rfl⟩ := addToGroup_eq_ok_iff.mp step
          rw [group?, lookup_insertMember]
          by_cases same : group = other
          · subst same
            rw [if_pos rfl, ← group?, earlier]
            have added : additions group [.addToGroup group member] = [member] := by
              simp [additions]
            rw [added, enrolled_append_singleton]
          · rw [if_neg same, ← group?, earlier]
            simp [additions, Ne.symm same]
      | setPrimitive id primitive =>
          rw [show additions group [.setPrimitive id primitive] = [] from rfl, List.append_nil]
          rcases setPrimitive_eq_ok_iff.mp step with ⟨_, rfl⟩ | ⟨_, rfl⟩
          · exact earlier
          · exact earlier

end RowGrammar.Registry
