import RowGrammar.Proofs.Grammar.Registering

/-!
# Registries with tables

A registry finds the number of a name and the members of a group by searching.  Here it is kept
together with tables of these numbers and of the places of the groups, and it is changed bit by bit,
so that an error leaves behind what has been changed before.  Each change does what the registry's
own one does, and a change that fails leaves everything as it was.
-/

namespace RowGrammar

open Registry

/-- A registry with tables of the numbers of its names and of the places of its groups.  In a table
the first entry of a name counts. -/
structure Ledger where
  names : Array String
  ids : List (String × NodeTypeId)
  groups : List (String × List NodeTypeId)
  places : List (String × Nat)
  primitives : List (NodeTypeId × String)
  deriving DecidableEq, Repr

namespace Ledger

/-! ## Changes in place -/

/-- The ledger that knows `?` only. -/
def empty : Ledger := ⟨#[unrecognizedName], [(unrecognizedName, unrecognized)], [], [], []⟩

/-- The members of a group, by its place. -/
def group? (ledger : Ledger) (group : String) : Option (List NodeTypeId) :=
  (ledger.places.lookup group).bind fun place => ledger.groups[place]?.map (·.2)

/-- A change in place.  What has been changed before an error is not taken back. -/
abbrev Change := EStateM GrammarError Ledger

def register (name : String) : Change NodeTypeId := do
  let ledger ← get
  if !isValidName name then throw (.invalidNodeTypeName name)
  else if (ledger.ids.lookup name).isSome then throw (.duplicateNodeType name)
  else if (ledger.places.lookup name).isSome then throw (.nameCollision name)
  else if maxNodeTypes ≤ ledger.names.size then throw (.tooManyNodeTypes maxNodeTypes)
  else
    let id := ledger.names.size
    modify fun ledger => { ledger with names := ledger.names.push name }
    modify fun ledger => { ledger with ids := (name, id) :: ledger.ids }
    return id

/-- The place of a group, which is new if need be. -/
def place (group : String) : Change Nat := do
  let ledger ← get
  match ledger.places.lookup group with
  | some place => return place
  | none =>
      modify fun ledger => { ledger with groups := ledger.groups ++ [(group, [])] }
      modify fun ledger =>
        { ledger with places := (group, ledger.groups.length - 1) :: ledger.places }
      return (← get).groups.length - 1

/-- A group with a member added, unless it has it already. -/
def enroll (member : NodeTypeId) : String × List NodeTypeId → String × List NodeTypeId
  | (group, members) =>
      (group, if members.contains member then members else members ++ [member])

def addToGroup (group : String) (member : NodeTypeId) : Change Unit := do
  let ledger ← get
  if (ledger.ids.lookup group).isSome then throw (.nameCollision group)
  else if !isValidName group then throw (.invalidNodeTypeName group)
  else
    let place ← place group
    modify fun ledger => { ledger with groups := ledger.groups.modify place (enroll member) }

def setPrimitive (id : NodeTypeId) (primitive : String) : Change Unit := do
  let ledger ← get
  match ledger.primitives.lookup id with
  | some existing =>
      if existing = primitive then return
      else throw (.inconsistentPrimitiveType (ledger.names[id]?.getD unrecognizedName) existing
        primitive)
  | none => modify fun ledger => { ledger with primitives := (id, primitive) :: ledger.primitives }

/-- Does what is requested. -/
def perform : Request → Change Unit
  | .register name => discard (register name)
  | .addToGroup group member => addToGroup group member
  | .setPrimitive id primitive => setPrimitive id primitive

/-- The ledger that a request leaves behind, whether or not it has failed. -/
def after (ledger : Ledger) (request : Request) : Ledger :=
  match perform request ledger with
  | .ok _ next => next
  | .error _ left => left

/-- The ledger that some requests leave behind. -/
def afterAll (ledger : Ledger) (requests : List Request) : Ledger :=
  requests.foldl after ledger

/-! ## What a change does -/

section

variable {α : Type} (ledger : Ledger)

theorem get_bind (next : Ledger → Change α) : (get >>= next) ledger = next ledger ledger :=
  rfl

theorem register_apply (name : String) :
    register name ledger =
      if !isValidName name then .error (.invalidNodeTypeName name) ledger
      else if (ledger.ids.lookup name).isSome then .error (.duplicateNodeType name) ledger
      else if (ledger.places.lookup name).isSome then .error (.nameCollision name) ledger
      else if maxNodeTypes ≤ ledger.names.size then .error (.tooManyNodeTypes maxNodeTypes) ledger
      else .ok ledger.names.size
        { ledger with
          names := ledger.names.push name
          ids := (name, ledger.names.size) :: ledger.ids } := by
  rw [register, get_bind]
  split_ifs
  all_goals rfl

theorem place_apply (group : String) :
    place group ledger =
      match ledger.places.lookup group with
      | some place => .ok place ledger
      | none => .ok ledger.groups.length
        { ledger with
          groups := ledger.groups ++ [(group, [])]
          places := (group, ledger.groups.length) :: ledger.places } := by
  rw [place, get_bind]
  cases ledger.places.lookup group with
  | some place => rfl
  | none =>
      change EStateM.Result.ok _ _ = EStateM.Result.ok _ _
      simp only [List.length_append, List.length_singleton, Nat.add_sub_cancel]

theorem addToGroup_apply (group : String) (member : NodeTypeId) :
    addToGroup group member ledger =
      if (ledger.ids.lookup group).isSome then .error (.nameCollision group) ledger
      else if !isValidName group then .error (.invalidNodeTypeName group) ledger
      else match ledger.places.lookup group with
        | some place => .ok () { ledger with groups := ledger.groups.modify place (enroll member) }
        | none => .ok () { ledger with
            groups := ledger.groups ++ [(group, [member])]
            places := (group, ledger.groups.length) :: ledger.places } := by
  rw [addToGroup, get_bind]
  split_ifs
  · rfl
  · rfl
  · change EStateM.bind _ _ _ = _
    rw [EStateM.bind, place_apply]
    cases ledger.places.lookup group with
    | some place => rfl
    | none =>
        have last : (ledger.groups ++ [(group, [])]).modify ledger.groups.length (enroll member) =
            ledger.groups ++ [(group, [member])] := by
          rw [List.modify_eq_take_cons_drop (by simp)]
          simp [enroll]
        change EStateM.Result.ok _ { ledger with groups := _, places := _ } = _
        rw [last]

end

/-! ## Ledgers of a registry -/

/-- A ledger that holds what a registry does, with the right tables. -/
structure Keeps (ledger : Ledger) (registry : Registry) : Prop where
  names : ledger.names = registry.names
  ids : ∀ name, ledger.ids.lookup name = registry.id? name
  groups : ledger.groups = registry.groups
  places : ∀ name, ledger.places.lookup name = (registry.groups.map (·.1)).idxOf? name
  primitives : ledger.primitives = registry.primitives

/-- A change has done what an update gives.  When the update fails, so has the change, and the
ledger is the one that it started with. -/
def Performs {α : Type} (ledger : Ledger) (result : EStateM.Result GrammarError Ledger α) :
    Except GrammarError (α × Registry) → Prop
  | .ok (value, next) => ∃ after, result = .ok value after ∧ after.Keeps next
  | .error error => result = .error error ledger

/-! ### Groups by their places -/

/-- The first group of a name is the one at its place. -/
theorem insertMember_of_place {groups : List (String × List NodeTypeId)} {group : String}
    {member : NodeTypeId} {place : Nat}
    (found : (groups.map (·.1)).idxOf? group = some place) :
    insertMember group member groups = groups.modify place (enroll member) := by
  induction groups generalizing place with
  | nil => cases found
  | cons first groups induction =>
      obtain ⟨other, members⟩ := first
      rw [List.map_cons, List.idxOf?_cons] at found
      rw [insertMember]
      by_cases here : other = group
      · rw [if_pos (beq_iff_eq.mpr here)] at found
        cases found
        rw [if_pos here]
        rfl
      · rw [if_neg (by simpa using here)] at found
        obtain ⟨later, inside, rfl⟩ := Option.map_eq_some_iff.mp found
        rw [if_neg here, induction inside]
        rfl

theorem insertMember_of_absent {groups : List (String × List NodeTypeId)} {group : String}
    {member : NodeTypeId} (absent : (groups.map (·.1)).idxOf? group = none) :
    insertMember group member groups = groups ++ [(group, [member])] := by
  rw [List.idxOf?_eq_none_iff] at absent
  induction groups with
  | nil => rfl
  | cons first groups induction =>
      obtain ⟨other, members⟩ := first
      rw [List.map_cons, List.mem_cons, not_or] at absent
      rw [insertMember, if_neg (Ne.symm absent.1), induction absent.2]
      rfl

theorem lookup_eq_bind_idxOf? (groups : List (String × List NodeTypeId)) (group : String) :
    groups.lookup group =
      ((groups.map (·.1)).idxOf? group).bind fun place => groups[place]?.map (·.2) := by
  induction groups with
  | nil => rfl
  | cons first groups induction =>
      obtain ⟨other, members⟩ := first
      rw [List.map_cons, List.idxOf?_cons, List.lookup_cons]
      by_cases here : other = group
      · simp [here]
      · rw [beq_eq_false_iff_ne.mpr here, beq_eq_false_iff_ne.mpr (Ne.symm here), if_neg nofun,
          Option.bind_map]
        exact induction

/-! ### What the changes give -/

theorem lookup_cons_eq_ite {α : Type} (name other : String) (value : α)
    (table : List (String × α)) :
    ((name, value) :: table).lookup other =
      if other = name then some value else table.lookup other := by
  rw [List.lookup_cons]
  by_cases same : other = name
  · rw [beq_iff_eq.mpr same, if_pos same]
  · rw [beq_eq_false_iff_ne.mpr same, if_neg same]

namespace Performs

variable {α : Type} {ledger next : Ledger} {update : Except GrammarError (α × Registry)}

theorem eq_error {result : EStateM.Result GrammarError Ledger α} {error : GrammarError}
    (performs : Performs ledger result (.error error : Except GrammarError (α × Registry))) :
    result = .error error ledger :=
  performs

theorem of_ok {value : α} (performs : ledger.Performs (.ok value next) update) :
    ∃ registry, update = .ok (value, registry) ∧ next.Keeps registry := by
  cases update with
  | error error => cases performs
  | ok result =>
      obtain ⟨_, same, keeps⟩ := performs
      cases same
      exact ⟨_, rfl, keeps⟩

theorem of_error {error : GrammarError} (performs : ledger.Performs (.error error next) update) :
    next = ledger := by
  cases update with
  | error error =>
      cases performs
      rfl
  | ok result =>
      obtain ⟨_, same, _⟩ := performs
      cases same

end Performs

namespace Keeps

theorem empty : Ledger.empty.Keeps .empty where
  names := rfl
  ids name := by
    rw [Ledger.empty, lookup_cons_eq_ite, Registry.empty, id?, List.idxOf?_toArray]
    exact (idxOf?_append_singleton List.not_mem_nil name).symm
  groups := rfl
  places _ := rfl
  primitives := rfl

variable {ledger : Ledger} {registry : Registry} (keeps : ledger.Keeps registry)

include keeps

theorem isSome_place (group : String) :
    (ledger.places.lookup group).isSome = (registry.group? group).isSome := by
  rw [Bool.eq_iff_iff, keeps.places, ← not_iff_not]
  simp [group?_eq_none_iff]

theorem group?_eq (group : String) : ledger.group? group = registry.group? group := by
  rw [Ledger.group?, keeps.places, keeps.groups, Registry.group?, lookup_eq_bind_idxOf?]

theorem register (name : String) :
    ledger.Performs (Ledger.register name ledger) (registry.register name) := by
  rw [register_apply, Registry.register, keeps.ids, keeps.isSome_place, keeps.names, size]
  split_ifs with invalid known taken full
  · rfl
  · rfl
  · rfl
  · rfl
  · have fresh : registry.id? name = none := by simpa using known
    refine ⟨_, rfl, rfl, ?_, keeps.groups, keeps.places, keeps.primitives⟩
    intro other
    rw [id?_push fresh, lookup_cons_eq_ite, keeps.ids]
    rfl

theorem addToGroup (group : String) (member : NodeTypeId) :
    ledger.Performs (Ledger.addToGroup group member ledger)
      ((registry.addToGroup group member).map ((), ·)) := by
  rw [addToGroup_apply, Registry.addToGroup, keeps.ids, keeps.places, keeps.groups]
  split_ifs with known invalid
  · rfl
  · rfl
  · cases found : (registry.groups.map (·.1)).idxOf? group with
    | some place =>
        have listed : group ∈ registry.groups.map (·.1) := by
          by_contra absent
          rw [List.idxOf?_eq_none_iff.mpr absent] at found
          cases found
        refine ⟨_, rfl, keeps.names, keeps.ids, (insertMember_of_place found).symm, ?_,
          keeps.primitives⟩
        intro other
        rw [map_fst_insertMember, if_pos listed]
        exact keeps.places other
    | none =>
        have absent : group ∉ registry.groups.map (·.1) := List.idxOf?_eq_none_iff.mp found
        refine ⟨_, rfl, keeps.names, keeps.ids, (insertMember_of_absent found).symm, ?_,
          keeps.primitives⟩
        intro other
        rw [map_fst_insertMember, if_neg absent, idxOf?_append_singleton absent,
          lookup_cons_eq_ite, keeps.places, List.length_map]

theorem setPrimitive (id : NodeTypeId) (primitive : String) :
    ledger.Performs (Ledger.setPrimitive id primitive ledger)
      ((registry.setPrimitive id primitive).map ((), ·)) := by
  rw [Ledger.setPrimitive, get_bind, keeps.primitives, keeps.names, Registry.setPrimitive,
    primitive?]
  cases registry.primitives.lookup id with
  | some existing =>
      dsimp only
      split_ifs with same
      · exact ⟨ledger, rfl, keeps⟩
      · rfl
  | none =>
      refine ⟨_, rfl, keeps.names, keeps.ids, keeps.groups, keeps.places, ?_⟩
      exact congrArg ((id, primitive) :: ·) keeps.primitives

theorem perform (request : Request) :
    ledger.Performs (Ledger.perform request ledger) ((registry.grant request).map ((), ·)) := by
  cases request with
  | register name =>
      have performs := keeps.register name
      change Performs ledger (EStateM.map _ _ ledger) _
      rw [grant, EStateM.map]
      cases done : registry.register name with
      | ok result =>
          rw [done] at performs
          obtain ⟨next, same, keeps'⟩ := performs
          rw [same]
          exact ⟨next, rfl, keeps'⟩
      | error error =>
          rw [done] at performs
          rw [performs.eq_error]
          rfl
  | addToGroup group member => exact keeps.addToGroup group member
  | setPrimitive id primitive => exact keeps.setPrimitive id primitive

theorem after (request : Request) : (ledger.after request).Keeps (registry.after request) := by
  have performs := keeps.perform request
  rw [Ledger.after, Registry.after]
  cases done : registry.grant request with
  | ok next =>
      rw [done] at performs
      obtain ⟨after, same, keeps'⟩ := performs
      rw [same]
      exact keeps'
  | error error =>
      rw [done] at performs
      rw [performs.eq_error]
      exact keeps

theorem afterAll (requests : List Request) :
    (ledger.afterAll requests).Keeps (registry.afterAll requests) := by
  induction requests generalizing ledger registry with
  | nil => exact keeps
  | cons request requests induction => exact induction (keeps.after request)

end Keeps

/-! ## Any sequence of requests -/

/-- Whatever has been requested, the tables of a ledger agree with a consistent registry, and a
request that fails leaves all of it as it was: the granted requests alone lead there, and the groups
list what these have added, in the order of first addition.  What is assigned stays assigned. -/
theorem afterAll_consistent {requests : List Request} (admissible : Admissible .empty requests) :
    let ledger := Ledger.empty.afterAll requests
    let registry := Registry.empty.afterAll requests
    let effective := granted .empty requests
    ledger.Keeps registry ∧ registry.Consistent ∧
      (∀ group, ledger.group? group = enrolled (additions group effective)) ∧
      effective.foldlM grant .empty = .ok registry ∧
      (∀ request error left, Ledger.perform request ledger = .error error left → left = ledger) ∧
      (∀ name id next, Ledger.register name ledger = .ok id next →
        id = ledger.names.size ∧ ∀ more, (next.afterAll more).ids.lookup name = some id) ∧
      (∀ id primitive next, Ledger.setPrimitive id primitive ledger = .ok () next →
        ∀ more, (next.afterAll more).primitives.lookup id = some primitive) ∧
      ∀ more, (ledger.afterAll more).Keeps (registry.afterAll more) ∧
        registry.KeptIn (registry.afterAll more) := by
  intro ledger registry effective
  have keeps : ledger.Keeps registry := Keeps.empty.afterAll requests
  have replayed := foldlM_granted .empty requests
  refine ⟨keeps, ?_, ?_, replayed, ?_, ?_, ?_, ?_⟩
  · exact (afterAll_sound .empty admissible).consistent (afterAll_reached .empty requests).named
  · intro group
    rw [keeps.group?_eq]
    exact group?_of_foldlM replayed group
  · intro request error left failed
    have performs := keeps.perform request
    rw [failed] at performs
    exact performs.of_error
  · intro name id next registered
    have performs := keeps.register name
    rw [registered] at performs
    obtain ⟨after, granted, keeps'⟩ := performs.of_ok
    obtain ⟨_, fresh, _, _, same⟩ := register_eq_ok_iff.mp granted
    cases same
    refine ⟨keeps.names ▸ rfl, fun more => ?_⟩
    rw [(keeps'.afterAll more).ids]
    apply (afterAll_keptIn _ more).ids
    rw [id?_push fresh, if_pos rfl]
  · intro id primitive next set more
    have performs := keeps.setPrimitive id primitive
    rw [set] at performs
    obtain ⟨after, granted, keeps'⟩ := performs.of_ok
    obtain ⟨_, granted, same⟩ := map_eq_ok_iff.mp granted
    cases same
    rw [(keeps'.afterAll more).primitives]
    apply (afterAll_keptIn after more).primitives
    rcases setPrimitive_eq_ok_iff.mp granted with ⟨known, rfl⟩ | ⟨_, rfl⟩
    · exact known
    · simp [primitive?]
  · exact fun more => ⟨keeps.afterAll more, afterAll_keptIn registry more⟩

/-- A type and a group, with requests that ask for a name or a primitive type that is taken. -/
def contested : List Request := [
  .register "Num", .register "Num", .addToGroup "Num" 1, .addToGroup "Value" 1, .register "Value",
  .register "Text", .addToGroup "Value" 2, .addToGroup "Value" 1, .setPrimitive 1 "number",
  .setPrimitive 1 "string", .register "x"]

theorem afterAll_contested :
    let ledger := Ledger.empty.afterAll contested
    let registry := Registry.empty.afterAll contested
    Admissible .empty contested ∧ registry.Consistent ∧
      ledger = ⟨#["?", "Num", "Text"], [("Text", 2), ("Num", 1), ("?", 0)], [("Value", [1, 2])],
        [("Value", 0)], [(1, "number")]⟩ ∧
      granted .empty contested = [.register "Num", .addToGroup "Value" 1, .register "Text",
        .addToGroup "Value" 2, .addToGroup "Value" 1, .setPrimitive 1 "number"] ∧
      ledger.group? "Value" = some [1, 2] ∧
      (∃ error left, Ledger.perform (.setPrimitive 1 "string") ledger = .error error left ∧
        left = ledger) ∧
      (registry.afterAll [.setPrimitive 1 "string"]).primitive? 1 = some "number" := by
  intro ledger registry
  have admissible : Admissible .empty contested := by decide +kernel
  have contents : ledger = ⟨#["?", "Num", "Text"], [("Text", 2), ("Num", 1), ("?", 0)],
      [("Value", [1, 2])], [("Value", 0)], [(1, "number")]⟩ := by decide +kernel
  obtain ⟨_, consistent, members, _, untouched, _, _, kept⟩ := afterAll_consistent admissible
  refine ⟨admissible, consistent, contents, by decide +kernel, ?_, ?_, ?_⟩
  · rw [members]
    decide +kernel
  · have refused : Ledger.perform (.setPrimitive 1 "string") ledger =
        .error (.inconsistentPrimitiveType "Num" "number" "string") ledger := by
      rw [contents]
      rfl
    exact ⟨_, _, refused, untouched _ _ _ refused⟩
  · exact (kept [.setPrimitive 1 "string"]).2.primitives 1 "number" (by decide +kernel)

end Ledger

end RowGrammar
