import RowGrammar.Proofs.Grammar.Reading
import RowGrammar.Proofs.SymbolPattern.Renaming

/-!
# References of parse patterns

Loading a grammar and compiling a parse pattern both look for names in the pattern: one scans the
text for runs of letters, the other resolves names where its reading meets them.  Names that can be
resolved have two letters or more, so in a pattern that compiles both find the same names, and the
compiled pattern speaks of just the node types that these names stand for.
-/

namespace RowGrammar

open RowGrammar.Text

/-! ## Names that resolve -/

namespace Registry

/-- The registries that come about by registering node types, filling groups and setting primitive
types. -/
inductive Reached : Registry → Prop where
  | empty : Reached .empty
  | register {registry after : Registry} {name : String} {id : NodeTypeId} :
      Reached registry → registry.register name = .ok (id, after) → Reached after
  | addToGroup {registry after : Registry} {group : String} {member : NodeTypeId} :
      Reached registry → registry.addToGroup group member = .ok after → Reached after
  | setPrimitive {registry after : Registry} {id : NodeTypeId} {primitive : String} :
      Reached registry → registry.setPrimitive id primitive = .ok after → Reached after

/-- Every name of a node type or a group is valid, `?` apart. -/
def Named (registry : Registry) : Prop :=
  ∀ name, name ∈ registry.names.toList ∨ name ∈ registry.groups.map (·.1) →
    name = unrecognizedName ∨ isValidName name

theorem Reached.named {registry : Registry} (reached : registry.Reached) : registry.Named := by
  induction reached with
  | empty => simp [Named, Registry.empty]
  | register _ registered induction =>
      obtain ⟨valid, _, _, _, same⟩ := register_eq_ok_iff.mp registered
      cases same
      rintro other (known | grouped)
      · rw [Array.toList_push, List.mem_append, List.mem_singleton] at known
        rcases known with earlier | rfl
        · exact induction other (.inl earlier)
        · exact .inr valid
      · exact induction other (.inr grouped)
  | addToGroup _ added induction =>
      obtain ⟨_, valid, rfl⟩ := addToGroup_eq_ok_iff.mp added
      rintro other (known | grouped)
      · exact induction other (.inl known)
      · rcases (insertMember_names _ _ _ _).mp grouped with rfl | earlier
        · exact .inr valid
        · exact induction other (.inr earlier)
  | setPrimitive _ set induction =>
      rcases setPrimitive_eq_ok_iff.mp set with ⟨_, rfl⟩ | ⟨_, rfl⟩
      · exact induction
      · exact induction

theorem Named.isValidName {registry : Registry} (named : registry.Named) {name : String}
    {ids : List NodeTypeId} (resolved : registry.resolve? name = some ids) :
    Registry.isValidName name := by
  have known : name ∈ registry.names.toList ∨ name ∈ registry.groups.map (·.1) := by
    by_contra unknown
    rw [not_or, ← id?_eq_none_iff, ← group?_eq_none_iff] at unknown
    simp [resolve?, unknown] at resolved
  rcases named name known with rfl | valid
  · cases resolved
  · exact valid

end Registry

namespace SymbolPattern

/-! ## Names in a text -/

/-- A run of letters as a name, if it is long enough for one. -/
def nameOf (run : List Char) : List String :=
  if 2 ≤ run.length then [String.ofList run] else []

/-- The names among some characters, with the letters right before them. -/
def scanNames : List Char → List Char → List String
  | run, [] => nameOf run
  | run, c :: chars =>
      if isNameLetter c then scanNames (run ++ [c]) chars else nameOf run ++ scanNames [] chars

/-- The name that a lexeme may refer by. -/
def Placed.reference? (placed : Placed) : Option String :=
  match placed.lexeme with
  | .name letters => if 2 ≤ letters.length then some (String.ofList letters) else none
  | _ => none

theorem reference?_name (offset : Nat) (letters : List Char) (lexemes : List Placed) :
    (⟨offset, .name letters⟩ :: lexemes).filterMap Placed.reference? =
      nameOf letters ++ lexemes.filterMap Placed.reference? := by
  by_cases long : 2 ≤ letters.length <;> simp [Placed.reference?, nameOf, long]

theorem reference?_of_not_name {placed : Placed} (other : ∀ letters, placed.lexeme ≠ .name letters)
    (lexemes : List Placed) :
    (placed :: lexemes).filterMap Placed.reference? = lexemes.filterMap Placed.reference? := by
  apply List.filterMap_cons_none
  unfold Placed.reference?
  split
  · rename_i letters found
    exact absurd found (other letters)
  · rfl

theorem not_isSeparator_of_isNameLetter {c : Char} (letter : isNameLetter c) :
    ¬isSeparator c := by
  intro separator
  simp only [isSeparator, Bool.or_eq_true, beq_iff_eq] at separator
  rcases separator with (((rfl | rfl) | rfl) | rfl) | rfl <;> exact absurd letter (by decide)

theorem mem_extend {offset : Nat} {c : Char} {lexemes : List Placed} {placed : Placed}
    (member : placed ∈ extend offset c lexemes) : placed.offset = offset ∨ placed ∈ lexemes := by
  unfold extend at member
  split_ifs at member
  · exact .inr member
  · split at member
    · split_ifs at member <;> grind
    · grind
  · split at member
    · split_ifs at member <;> grind
    · grind
  · grind

theorem offset_le_of_mem {offset : Nat} {chars : List Char} {placed : Placed}
    (member : placed ∈ lexemesFrom offset chars) : offset ≤ placed.offset := by
  induction chars generalizing offset with
  | nil => cases member
  | cons c chars induction =>
      rcases mem_extend member with same | later
      · exact Nat.le_of_eq same.symm
      · exact Nat.le_of_succ_le (induction later)

/-- The names that lexemes may refer by, with the letters right before `offset`. -/
def continued (run : List Char) (offset : Nat) (lexemes : List Placed) : List String :=
  match lexemes with
  | ⟨next, .name letters⟩ :: rest =>
      if next = offset then nameOf (run ++ letters) ++ rest.filterMap Placed.reference?
      else nameOf run ++ lexemes.filterMap Placed.reference?
  | _ => nameOf run ++ lexemes.filterMap Placed.reference?

theorem continued_nil (offset : Nat) (lexemes : List Placed) :
    continued [] offset lexemes = lexemes.filterMap Placed.reference? := by
  unfold continued
  split
  · split_ifs
    · exact (reference?_name _ _ _).symm
    · rfl
  · rfl

theorem continued_apart {run : List Char} {offset : Nat} {lexemes : List Placed}
    (apart : ∀ placed ∈ lexemes, placed.offset ≠ offset) :
    continued run offset lexemes = nameOf run ++ lexemes.filterMap Placed.reference? := by
  unfold continued
  split
  · exact if_neg (apart _ List.mem_cons_self)
  · rfl

theorem continued_letter (run : List Char) (offset : Nat) {c : Char} (lexemes : List Placed)
    (letter : isNameLetter c) :
    continued run offset (extend offset c lexemes) =
      continued (run ++ [c]) (offset + 1) lexemes := by
  unfold extend
  rw [if_neg (not_isSeparator_of_isNameLetter letter), if_pos letter]
  split
  · split_ifs with adjacent
    · simp [continued, adjacent]
    · simp [continued, adjacent]
  · simp [continued]

theorem continued_other (run : List Char) {offset : Nat} {c : Char} {lexemes : List Placed}
    (other : ¬isNameLetter c) (apart : ∀ placed ∈ lexemes, placed.offset ≠ offset) :
    continued run offset (extend offset c lexemes) =
      nameOf run ++ lexemes.filterMap Placed.reference? := by
  unfold extend
  rw [if_neg other]
  split_ifs
  · exact continued_apart apart
  · split
    · split_ifs <;> simp [continued, reference?_of_not_name]
    · simp [continued, reference?_of_not_name]
  · simp [continued, reference?_of_not_name]

theorem scanNames_eq (run : List Char) (offset : Nat) (chars : List Char) :
    scanNames run chars = continued run offset (lexemesFrom offset chars) := by
  induction chars generalizing run offset with
  | nil => simp [scanNames, lexemesFrom, continued]
  | cons c chars induction =>
      rw [scanNames]
      split_ifs with letter
      · rw [induction _ (offset + 1), lexemesFrom, continued_letter _ _ _ letter]
      · have apart : ∀ placed ∈ lexemesFrom (offset + 1) chars, placed.offset ≠ offset :=
          fun placed member => Nat.ne_of_gt (offset_le_of_mem member)
        rw [induction _ (offset + 1), continued_nil, lexemesFrom, continued_other run letter apart]

/-- The references of a pattern are the runs of two letters or more in its text. -/
theorem referencedNames_eq (pattern : String) :
    referencedNames pattern = scanNames [] pattern.toList := by
  rw [scanNames_eq [] 0, continued_nil]
  rfl

/-! ## Node types in a pattern -/

mutual

/-- The node types in the symbol sets of a pattern. -/
def members : SymbolPattern → List NodeTypeId
  | .empty | .any => []
  | .symbols members => members
  | .concat items => membersList items
  | .alternation branches => membersList branches
  | .loop body _ _ _ => body.members
  | .capture body => body.members
  | .look _ _ body => body.members

def membersList : List SymbolPattern → List NodeTypeId
  | [] => []
  | pattern :: patterns => pattern.members ++ membersList patterns

end

theorem membersList_eq (patterns : List SymbolPattern) :
    membersList patterns = patterns.flatMap members := by
  induction patterns with
  | nil => rfl
  | cons pattern patterns induction => rw [membersList, induction, List.flatMap_cons]

theorem members_ofItems (items : List SymbolPattern) :
    (ofItems items).members = items.flatMap members := by
  cases items with
  | nil => rfl
  | cons item items =>
      cases items with
      | nil => simp [ofItems]
      | cons other items => exact membersList_eq _

theorem members_ofBranches (branches : List SymbolPattern) :
    (ofBranches branches).members = branches.flatMap members := by
  cases branches with
  | nil => rfl
  | cons branch branches =>
      cases branches with
      | nil => simp [ofBranches]
      | cons other branches => exact membersList_eq _

/-- A node type is in what has been read of a group. -/
def Frame.Mentions (frame : Frame) (id : NodeTypeId) : Prop :=
  id ∈ frame.branches.flatMap members ∨ id ∈ frame.items.flatMap members

/-- The members of the set that is being read. -/
def Expected.members : Expected → List NodeTypeId
  | .member members => members
  | _ => []

theorem Expected.members_eq_nil {expected : Expected}
    (plain : ∀ members, expected ≠ .member members) : expected.members = [] := by
  cases expected with
  | member members => exact absurd rfl (plain members)
  | _ => rfl

/-- A node type is in the groups of a reading. -/
def Reading.Keeps (reading : Reading) (id : NodeTypeId) : Prop :=
  reading.current.Mentions id ∨ ∃ frame ∈ reading.outer, frame.Mentions id

/-- A node type is in what has been read of a pattern. -/
def Reading.Mentions (reading : Reading) (id : NodeTypeId) : Prop :=
  reading.Keeps id ∨ id ∈ reading.expected.members

namespace Frame

variable {frame : Frame} {id : NodeTypeId}

theorem mem_body : id ∈ frame.body.members ↔ frame.Mentions id := by
  rw [body, members_ofBranches, branch]
  simp [Mentions, members_ofItems]

theorem mem_pattern : id ∈ frame.pattern.members ↔ frame.Mentions id := by
  rw [← mem_body]
  obtain ⟨kind, branches, items⟩ := frame
  cases kind <;> rfl

theorem mentions_divide : frame.divide.Mentions id ↔ frame.Mentions id := by
  simp [Mentions, divide, branch, members_ofItems, or_comm]

theorem mentions_push {item : SymbolPattern} :
    (frame.push item).Mentions id ↔ frame.Mentions id ∨ id ∈ item.members := by
  simp only [Mentions, push, List.flatMap_cons, List.mem_append]
  tauto

end Frame

namespace Reading

variable {reading : Reading} {id : NodeTypeId}

theorem mentions_iff (plain : reading.expected.members = []) :
    reading.Mentions id ↔ reading.Keeps id := by
  simp [Mentions, plain]

theorem mentions_push {item : SymbolPattern} :
    (reading.push item).Mentions id ↔ reading.Keeps id ∨ id ∈ item.members := by
  rw [mentions_iff rfl, Keeps, Keeps, push, Frame.mentions_push, or_right_comm]

theorem keeps_opening (kind : GroupKind) : (reading.opening kind).Keeps id ↔ reading.Keeps id := by
  simp [Keeps, opening, Frame.fresh, Frame.Mentions]

variable (plain : reading.expected.members = [])

include plain

theorem mentions_opening (kind : GroupKind) :
    (reading.opening kind).Mentions id ↔ reading.Mentions id := by
  rw [mentions_iff rfl, mentions_iff plain, keeps_opening]

theorem mentions_quantify (least : Nat) (most : Option Nat) (stop : Nat) :
    (reading.quantify least most stop).Mentions id ↔ reading.Mentions id := by
  rw [mentions_iff plain]
  unfold quantify
  split
  · rename_i item items found
    rw [mentions_iff rfl]
    simp [Keeps, Frame.Mentions, found, members]
  · exact mentions_iff rfl

theorem mentions_makeLazy : reading.makeLazy.Mentions id ↔ reading.Mentions id := by
  rw [mentions_iff plain]
  unfold makeLazy
  split
  · rename_i body least most greedy items found
    rw [mentions_iff rfl]
    simp [Keeps, Frame.Mentions, found, members]
  · exact mentions_iff rfl

end Reading

/-! ## One lexeme -/

section

variable {registry : Registry} {nodeType : String}

/-- A step that resolves a name and goes on from what it stands for. -/
def LooksUp (nodeType name : String) (onward : List NodeTypeId → Reading)
    (step : Registry → Except GrammarError Reading) : Prop :=
  ∀ registry, step registry =
    match registry.resolve? name with
    | some ids => .ok (onward ids)
    | none => .error (.unresolvedReference nodeType name)

/-- What a step for a lexeme does that leads to `next` from a reading with the given node types. -/
inductive Advances (registry : Registry) (nodeType : String) (placed : Placed)
    (step : Registry → Except GrammarError Reading) (mentioned : NodeTypeId → Prop)
    (next : Reading) : Prop where
  /-- The step resolves nothing, so the registry does not matter. -/
  | plain :
      (∀ letters, placed.lexeme ≠ .name letters) → (∀ other, step other = .ok next) →
      (∀ id, next.Mentions id ↔ mentioned id) →
      Advances registry nodeType placed step mentioned next
  /-- The step resolves a name. -/
  | named (letters : List Char) (ids : List NodeTypeId) (onward : List NodeTypeId → Reading) :
      placed.lexeme = .name letters → registry.resolve? (String.ofList letters) = some ids →
      LooksUp nodeType (String.ofList letters) onward step → next = onward ids →
      (∀ id, next.Mentions id ↔ mentioned id ∨ id ∈ ids) →
      Advances registry nodeType placed step mentioned next

theorem Advances.congr {placed : Placed} {step : Registry → Except GrammarError Reading}
    {mentioned mentioned_ : NodeTypeId → Prop} {next : Reading}
    (advances : Advances registry nodeType placed step mentioned next)
    (same : ∀ id, mentioned id ↔ mentioned_ id) :
    Advances registry nodeType placed step mentioned_ next := by
  have equal : mentioned = mentioned_ := funext fun id => propext (same id)
  exact equal ▸ advances

theorem looksUp_resolve (letters : List Char) (onward : List NodeTypeId → Reading) :
    LooksUp nodeType (String.ofList letters) onward fun registry => do
      let ids ← resolve registry nodeType letters
      return onward ids := by
  intro registry
  dsimp only [resolve]
  cases registry.resolve? (String.ofList letters) <;> rfl

theorem sign_ne_name (c : Char) (letters : List Char) : Lexeme.sign c ≠ .name letters := nofun

theorem ItemStep.advances {reading next : Reading} {placed : Placed}
    (step : ItemStep registry reading placed next) :
    Advances registry nodeType placed (fun other => readItem other nodeType reading placed)
      reading.Keeps next := by
  cases step with
  | @name _ letters ids resolved =>
      refine .named letters ids _ rfl resolved (looksUp_resolve _ _) rfl fun id => ?_
      rw [Reading.mentions_push, members, mem_sortMembers]
  | any =>
      refine .plain (sign_ne_name _) (fun _ => rfl) fun id => ?_
      simp [Reading.mentions_push, members]
  | set => exact .plain (sign_ne_name _) (fun _ => rfl) fun _ => Reading.mentions_iff rfl
  | group => exact .plain (sign_ne_name _) (fun _ => rfl) fun _ => Reading.mentions_iff rfl
  | bar =>
      refine .plain (sign_ne_name _) (fun _ => rfl) fun id => ?_
      rw [Reading.mentions_iff rfl, Reading.Keeps, Reading.Keeps, Frame.mentions_divide]
  | close enclosing =>
      refine .plain (sign_ne_name _) (fun _ => readItem_eq_ok_iff.mpr (.close enclosing))
        fun id => ?_
      rw [Reading.mentions_push, Frame.mem_pattern, Reading.Keeps, Reading.Keeps, enclosing]
      simp [or_comm]

theorem LexemeStep.advances {reading next : Reading} {placed : Placed}
    (step : LexemeStep registry reading placed next) :
    Advances registry nodeType placed (fun other => readLexeme other nodeType reading placed)
      reading.Mentions next := by
  cases step with
  | item admits step =>
      simp only [readLexeme_of_admits _ _ admits]
      have plain := Expected.members_eq_nil admits.ne_member
      exact step.advances.congr fun _ => (Reading.mentions_iff plain).symm
  | captured opened bare step =>
      simp only [readLexeme_captured _ _ opened bare]
      have plain : reading.expected.members = [] := by
        rw [opened]
        rfl
      refine step.advances.congr fun _ => ?_
      rw [Reading.keeps_opening, Reading.mentions_iff plain]
  | quantified quantifies =>
      refine .plain quantifies.ne_name
        (fun _ => readLexeme_eq_ok_iff.mpr (.quantified quantifies)) fun _ => ?_
      exact Reading.mentions_quantify (Expected.members_eq_nil quantifies.ne_member) _ _ _
  | lazy laziness mark =>
      have plain : reading.expected.members = [] := by
        rw [laziness]
        rfl
      cases mark
      exact .plain (sign_ne_name _) (fun _ => readLexeme_eq_ok_iff.mpr (.lazy laziness rfl))
        fun _ => Reading.mentions_makeLazy plain
  | awaits awaits =>
      refine .plain awaits.ne_name (fun _ => readLexeme_eq_ok_iff.mpr (.awaits awaits))
        fun _ => ?_
      rw [Reading.mentions_iff (Expected.members_eq_nil awaits.ne_member),
        Reading.mentions_iff (Expected.members_eq_nil awaits.next_ne_member)]
      rfl
  | opened opens =>
      exact .plain opens.ne_name (fun _ => readLexeme_eq_ok_iff.mpr (.opened opens))
        fun _ => Reading.mentions_opening (Expected.members_eq_nil opens.ne_member) _
  | @member members ids letters expected name resolved =>
      simp only [readLexeme, expected, name]
      refine .named letters ids _ name resolved (looksUp_resolve _ _) rfl fun id => ?_
      simp [Reading.Mentions, Reading.Keeps, Expected.members, expected, or_assoc]
  | set expected sign present =>
      refine .plain (sign ▸ sign_ne_name _)
        (fun _ => readLexeme_eq_ok_iff.mpr (.set expected sign present)) fun id => ?_
      rw [Reading.mentions_push, members, mem_sortMembers, Reading.Mentions, expected]
      rfl

/-! ## All lexemes -/

/-- Reading lexemes resolves these names, one after the other. -/
inductive Resolves (registry : Registry) (nodeType : String) :
    Reading → List Placed → List String → Reading → Prop where
  | done {reading : Reading} : Resolves registry nodeType reading [] [] reading
  | plain {reading next stop : Reading} {placed : Placed} {lexemes : List Placed}
      {names : List String} :
      (∀ other, readLexeme other nodeType reading placed = .ok next) →
      Resolves registry nodeType next lexemes names stop →
      Resolves registry nodeType reading (placed :: lexemes) names stop
  | named {reading stop : Reading} {placed : Placed} {lexemes : List Placed}
      {names : List String} {name : String} {ids : List NodeTypeId}
      {onward : List NodeTypeId → Reading} :
      LooksUp nodeType name onward (fun other => readLexeme other nodeType reading placed) →
      registry.resolve? name = some ids →
      Resolves registry nodeType (onward ids) lexemes names stop →
      Resolves registry nodeType reading (placed :: lexemes) (name :: names) stop

/-- A step that resolves a name fails against a registry without names. -/
theorem LooksUp.eq_error {name : String} {onward : List NodeTypeId → Reading}
    {step : Registry → Except GrammarError Reading} (looksUp : LooksUp nodeType name onward step) :
    step .empty = .error (.unresolvedReference nodeType name) := by
  have unknown : Registry.empty.resolve? name = none := by
    unfold Registry.resolve?
    split_ifs with same
    · rfl
    · have absent : Registry.empty.id? name = none := by
        rw [Registry.id?_eq_none_iff]
        simpa [Registry.empty] using same
      rw [absent]
      rfl
  rw [looksUp, unknown]

theorem Resolves.unique {reading stop stop' : Reading} {lexemes : List Placed}
    {names names' : List String} (one : Resolves registry nodeType reading lexemes names stop)
    (two : Resolves registry nodeType reading lexemes names' stop') : names = names' := by
  induction one generalizing names' with
  | done =>
      cases two
      rfl
  | plain step _ induction =>
      cases two with
      | plain step' rest =>
          cases (step registry).symm.trans (step' registry)
          exact induction rest
      | named looksUp _ _ =>
          -- Against no names a lookup fails, and a step without one does not.
          cases (step .empty).symm.trans looksUp.eq_error
  | named looksUp found _ induction =>
      cases two with
      | plain step _ => cases (step .empty).symm.trans looksUp.eq_error
      | named looksUp' found' rest =>
          cases looksUp.eq_error.symm.trans looksUp'.eq_error
          cases found.symm.trans found'
          have same := (looksUp registry).symm.trans (looksUp' registry)
          simp only [found, Except.ok.injEq] at same
          rw [induction (same ▸ rest)]

/-- Lexemes that can be read resolve all their references and bring in what these stand for. -/
theorem resolves_of_foldlM (named : registry.Named) {reading stop : Reading}
    {lexemes : List Placed}
    (read : lexemes.foldlM (readLexeme registry nodeType) reading = .ok stop) :
    Resolves registry nodeType reading lexemes (lexemes.filterMap Placed.reference?) stop ∧
      ∀ id, stop.Mentions id ↔ reading.Mentions id ∨
        ∃ name ∈ lexemes.filterMap Placed.reference?,
          ∃ ids, registry.resolve? name = some ids ∧ id ∈ ids := by
  induction lexemes generalizing reading with
  | nil =>
      cases read
      exact ⟨.done, fun _ => by simp⟩
  | cons placed lexemes induction =>
      rw [List.foldlM_cons, bind_eq_ok_iff] at read
      obtain ⟨next, first, rest⟩ := read
      obtain ⟨resolves, mentions⟩ := induction rest
      cases (readLexeme_eq_ok_iff.mp first).advances with
      | plain unnamed step same =>
          rw [reference?_of_not_name unnamed]
          exact ⟨.plain step resolves, fun id => by rw [mentions, same]⟩
      | named letters ids onward lexeme found looksUp onwards same =>
          obtain ⟨offset, _⟩ := placed
          cases lexeme
          -- Only valid names resolve, so the scan has not left this one out.
          have long : nameOf letters = [String.ofList letters] := by
            have valid := named.isValidName found
            simp only [Registry.isValidName, String.toList_ofList, Bool.and_eq_true,
              decide_eq_true_eq] at valid
            exact if_pos valid.1
          rw [reference?_name, long]
          refine ⟨.named looksUp found (onwards ▸ resolves), fun id => ?_⟩
          rw [mentions, same]
          simp [found, or_assoc]

theorem mentions_of_finish {reading : Reading} {stop : Nat} {pattern : SymbolPattern}
    (finished : finish nodeType reading stop = .ok pattern) (id : NodeTypeId) :
    id ∈ pattern.members ↔ reading.Mentions id := by
  obtain ⟨settled, closed, rfl⟩ := finish_eq_ok_iff.mp finished
  have none : reading.expected.members = [] := by
    generalize reading.expected = expected at settled
    cases expected with
    | member members => cases settled
    | _ => rfl
  rw [Frame.mem_body, Reading.mentions_iff none, Reading.Keeps, closed]
  simp

/-- Compiling a pattern resolves its references in their order, and the compiled pattern speaks of
the node types they stand for. -/
theorem compile_references (named : registry.Named) {pattern : String} {compiled : SymbolPattern}
    (accepted : compile registry nodeType pattern = .ok compiled) :
    (∃ stop, Resolves registry nodeType .start (lexemesFrom 0 pattern.toList)
      (referencedNames pattern) stop) ∧
    ∀ id, id ∈ compiled.members ↔ ∃ name ∈ referencedNames pattern,
      ∃ ids, registry.resolve? name = some ids ∧ id ∈ ids := by
  obtain ⟨raw, read, counted⟩ := bind_eq_ok_iff.mp accepted
  obtain ⟨stop, lexed, finished⟩ := bind_eq_ok_iff.mp read
  obtain ⟨resolves, mentions⟩ := resolves_of_foldlM named lexed
  refine ⟨⟨stop, resolves⟩, fun id => ?_⟩
  have captured : compiled.members = raw.members := by
    split_ifs at counted
    · cases counted
    · split at counted
      · cases counted
        rfl
      · cases counted
        rfl
      · cases counted
  have blank : ¬Reading.start.Mentions id := by
    simp [Reading.Mentions, Reading.Keeps, Reading.start, Frame.fresh, Frame.Mentions,
      Expected.members]
  rw [captured, mentions_of_finish finished, mentions, or_iff_right blank]
  rfl

end

end SymbolPattern

end RowGrammar
