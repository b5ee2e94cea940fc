import RowGrammar.Proofs.SymbolPattern.Rereading

/-!
# Compiling undoes printing

Whatever has been read of a notation consists of well-formed patterns, so every compiled pattern is
well formed and has a printing.  Any printing of a well-formed pattern is compiled to the pattern,
with one capturing group around all of it if it has none.
-/

namespace RowGrammar

open RowGrammar.Text

/-! ## Names stand for something -/

namespace Registry

theorem ne_nil_of_mem_insertMember {group : String} {member : NodeTypeId}
    {groups : List (String × List NodeTypeId)} (filled : ∀ entry ∈ groups, entry.2 ≠ []) :
    ∀ entry ∈ insertMember group member groups, entry.2 ≠ [] := by
  induction groups with
  | nil =>
      intro entry inside
      cases List.mem_singleton.mp inside
      exact List.cons_ne_nil _ _
  | cons first groups induction =>
      obtain ⟨name, members⟩ := first
      have others := induction fun entry inside => filled entry (List.mem_cons_of_mem _ inside)
      have present : members ≠ [] := filled _ List.mem_cons_self
      intro entry inside
      rw [insertMember] at inside
      split_ifs at inside
      · rcases List.mem_cons.mp inside with rfl | later
        · exact present
        · exact filled entry (List.mem_cons_of_mem _ later)
      · rcases List.mem_cons.mp inside with rfl | later
        · simp
        · exact filled entry (List.mem_cons_of_mem _ later)
      · rcases List.mem_cons.mp inside with rfl | later
        · exact present
        · exact others entry later

theorem Reached.ne_nil_of_mem {registry : Registry} (reached : registry.Reached) :
    ∀ entry ∈ registry.groups, entry.2 ≠ [] := by
  induction reached with
  | empty => nofun
  | register _ registered induction =>
      obtain ⟨_, _, _, _, same⟩ := register_eq_ok_iff.mp registered
      cases same
      exact induction
  | addToGroup _ added induction =>
      obtain ⟨_, _, rfl⟩ := addToGroup_eq_ok_iff.mp added
      exact ne_nil_of_mem_insertMember induction
  | setPrimitive _ set induction =>
      rcases setPrimitive_eq_ok_iff.mp set with ⟨_, rfl⟩ | ⟨_, rfl⟩
      · exact induction
      · exact induction

theorem Reached.ne_nil {registry : Registry} (reached : registry.Reached) {name : String}
    {ids : List NodeTypeId} (resolved : registry.resolve? name = some ids) : ids ≠ [] := by
  unfold resolve? at resolved
  split_ifs at resolved
  split at resolved
  · cases resolved
    exact List.cons_ne_nil _ _
  · rw [group?, List.lookup_eq_some_iff] at resolved
    obtain ⟨before, after, groups, _⟩ := resolved
    exact reached.ne_nil_of_mem (name, ids) (by simp [groups])

end Registry

namespace SymbolPattern

variable {registry : Registry} {nodeType : String}

/-! ## What has been read is well formed -/

structure Frame.Sound (registry : Registry) (frame : Frame) : Prop where
  branches : ∀ branch ∈ frame.branches, WellFormed registry branch
  items : ∀ item ∈ frame.items, WellFormed registry item

/-- The numbers and node types that wait for the end of a quantifier or a set. -/
def Expected.Sound (registry : Registry) : Expected → Prop
  | .comma count | .most count => count < Nat.pow 2 64
  | .brace count limit? => count < Nat.pow 2 64 ∧ ∀ limit ∈ limit?, limit < Nat.pow 2 64
  | .member members => ∃ names, registry.Denotes names members
  | _ => True

structure Reading.Sound (registry : Registry) (reading : Reading) : Prop where
  current : reading.current.Sound registry
  outer : ∀ frame ∈ reading.outer, frame.Sound registry
  expected : reading.expected.Sound registry

namespace Frame.Sound

variable {frame : Frame} (sound : frame.Sound registry)

theorem fresh (kind : GroupKind) : (Frame.fresh kind).Sound registry :=
  ⟨nofun, nofun⟩

include sound

theorem push {item : SymbolPattern} (wellFormed : WellFormed registry item) :
    (frame.push item).Sound registry := by
  refine ⟨sound.branches, fun other member => ?_⟩
  rcases List.mem_cons.mp member with rfl | earlier
  · exact wellFormed
  · exact sound.items other earlier

/-- A sound group was sound before its last item. -/
theorem before {item : SymbolPattern} {items : List SymbolPattern}
    (found : frame.items = item :: items) :
    { frame with items := items }.Sound registry ∧ WellFormed registry item := by
  have all := sound.items
  rw [found] at all
  exact ⟨⟨sound.branches, fun other member => all other (List.mem_cons_of_mem _ member)⟩,
    all item List.mem_cons_self⟩

theorem branch : WellFormed registry frame.branch := by
  apply wellFormed_ofItems.mpr
  intro item member
  exact sound.items item (List.mem_reverse.mp member)

theorem divide : frame.divide.Sound registry := by
  refine ⟨fun branch member => ?_, nofun⟩
  rcases List.mem_cons.mp member with rfl | earlier
  · exact sound.branch
  · exact sound.branches branch earlier

theorem body : WellFormed registry frame.body := by
  apply (wellFormed_ofBranches (by simp)).mpr
  intro branch member
  rw [List.mem_append, List.mem_reverse, List.mem_singleton] at member
  rcases member with earlier | rfl
  · exact sound.branches branch earlier
  · exact sound.branch

theorem pattern : WellFormed registry frame.pattern := by
  have body := sound.body
  obtain ⟨kind, branches, items⟩ := frame
  cases kind with
  | capturing => exact .capture body
  | plain => exact body
  | look direction negated => exact .look body

end Frame.Sound

namespace Reading.Sound

variable {reading : Reading} (sound : reading.Sound registry)

include sound

theorem expecting {expected : Expected} (waiting : expected.Sound registry) :
    { reading with expected := expected }.Sound registry :=
  ⟨sound.current, sound.outer, waiting⟩

theorem push {item : SymbolPattern} (wellFormed : WellFormed registry item) :
    (reading.push item).Sound registry :=
  ⟨sound.current.push wellFormed, sound.outer, trivial⟩

theorem opening (kind : GroupKind) : (reading.opening kind).Sound registry := by
  refine ⟨.fresh kind, fun frame member => ?_, trivial⟩
  rcases List.mem_cons.mp member with rfl | outer
  · exact sound.current
  · exact sound.outer frame outer

theorem quantify {least : Nat} {most : Option Nat} (inBounds : InBounds least most) (stop : Nat) :
    (reading.quantify least most stop).Sound registry := by
  unfold Reading.quantify
  split
  · obtain ⟨before, wellFormed⟩ := sound.current.before ‹_›
    exact ⟨before.push (.loop inBounds wellFormed), sound.outer, trivial⟩
  · exact sound.expecting trivial

theorem makeLazy : reading.makeLazy.Sound registry := by
  unfold Reading.makeLazy
  split
  · obtain ⟨before, wellFormed⟩ := sound.current.before ‹_›
    cases wellFormed with
    | loop inBounds wellFormed =>
        exact ⟨before.push (.loop inBounds wellFormed), sound.outer, trivial⟩
  · exact sound.expecting trivial

end Reading.Sound

theorem countOf?_lt {digits : List Char} {count : Nat} (counted : countOf? digits = some count) :
    count < Nat.pow 2 64 := by
  unfold countOf? at counted
  split_ifs at counted with small
  cases counted
  exact small

theorem inBounds_unlimited {least : Nat} (small : least < Nat.pow 2 64) : InBounds least none :=
  ⟨small, by simp, by simp⟩

theorem inBounds_exactly {count : Nat} (small : count < Nat.pow 2 64) :
    InBounds count (some count) := by
  constructor
  · exact small
  · rintro _ ⟨⟩
    exact small
  · rintro _ ⟨⟩
    exact Nat.le_refl count

theorem wellFormed_sortMembers {members : List NodeTypeId} {names : List String}
    (present : members ≠ []) (denotes : registry.Denotes names members) :
    WellFormed registry (.symbols (sortMembers members)) := by
  obtain ⟨id, member⟩ := List.exists_mem_of_ne_nil members present
  have filled : sortMembers members ≠ [] := List.ne_nil_of_mem (mem_sortMembers.mpr member)
  have same : registry.Denotes names (sortMembers members) := by
    refine ⟨denotes.known, fun id => ?_⟩
    rw [mem_sortMembers, denotes.mem_iff]
  exact .symbols filled (pairwise_sortMembers members) same

/-! ## One lexeme -/

theorem Expected.Quantifies.inBounds {expected : Expected} {lexeme : Lexeme} {least : Nat}
    {most : Option Nat} (quantifies : expected.Quantifies lexeme least most)
    (sound : expected.Sound registry) : InBounds least most := by
  cases quantifies with
  | star => exact inBounds_unlimited (by decide)
  | plus => exact inBounds_unlimited (by decide)
  | optional => exact ⟨by decide, by simp, by simp⟩
  | exactly => exact inBounds_exactly sound
  | unlimited => exact inBounds_unlimited sound
  | between ordered =>
      obtain ⟨small, limited⟩ := sound
      refine ⟨small, limited, fun limit found => ?_⟩
      rw [Option.mem_def.mp found] at ordered
      simpa using ordered

theorem Expected.Awaits.sound {expected next : Expected} {placed : Placed}
    (awaits : expected.Awaits placed next) (sound : expected.Sound registry) :
    next.Sound registry := by
  cases awaits with
  | least => trivial
  | comma counted => exact countOf?_lt counted
  | most => exact sound
  | brace => exact ⟨sound, fun _ counted => countOf?_lt counted⟩
  | special => trivial
  | behind => trivial

theorem ItemStep.sound (reached : registry.Reached) {reading next : Reading} {placed : Placed}
    (step : ItemStep registry reading placed next) (sound : reading.Sound registry) :
    next.Sound registry := by
  cases step with
  | name resolved =>
      have denotes := (Registry.denotes_nil registry).append resolved
      exact sound.push (wellFormed_sortMembers (reached.ne_nil resolved) denotes)
  | any => exact sound.push .any
  | set => exact sound.expecting ⟨[], Registry.denotes_nil registry⟩
  | group => exact sound.expecting trivial
  | bar => exact ⟨sound.current.divide, sound.outer, trivial⟩
  | @close _ around outer enclosing =>
      have outers := sound.outer
      rw [enclosing] at outers
      have enclosed : (Reading.mk around outer .item).Sound registry :=
        ⟨outers around List.mem_cons_self,
          fun frame member => outers frame (List.mem_cons_of_mem _ member), trivial⟩
      exact enclosed.push sound.current.pattern

theorem LexemeStep.sound (reached : registry.Reached) {reading next : Reading} {placed : Placed}
    (step : LexemeStep registry reading placed next) (sound : reading.Sound registry) :
    next.Sound registry := by
  have waiting := sound.expected
  cases step with
  | item _ step => exact step.sound reached sound
  | captured _ _ step => exact step.sound reached (sound.opening _)
  | quantified quantifies => exact sound.quantify (quantifies.inBounds waiting) _
  | lazy _ _ => exact sound.makeLazy
  | awaits awaits => exact sound.expecting (awaits.sound waiting)
  | opened _ => exact sound.opening _
  | member expected _ resolved =>
      rw [expected] at waiting
      obtain ⟨names, denotes⟩ := waiting
      exact sound.expecting ⟨_, denotes.append resolved⟩
  | set expected _ present =>
      rw [expected] at waiting
      obtain ⟨names, denotes⟩ := waiting
      exact sound.push (wellFormed_sortMembers present denotes)

/-! ## Whole notations -/

theorem foldlM_readLexeme_sound (reached : registry.Reached) {lexemes : List Placed}
    {reading next : Reading} (sound : reading.Sound registry)
    (read : lexemes.foldlM (readLexeme registry nodeType) reading = .ok next) :
    next.Sound registry := by
  induction lexemes generalizing reading with
  | nil =>
      cases read
      exact sound
  | cons placed lexemes induction =>
      rw [List.foldlM_cons, bind_eq_ok_iff] at read
      obtain ⟨middle, first, rest⟩ := read
      exact induction ((readLexeme_eq_ok_iff.mp first).sound reached sound) rest

/-- Every pattern that a notation is read as is well formed. -/
theorem wellFormed_of_read (reached : registry.Reached) {text : String} {pattern : SymbolPattern}
    (found : read registry nodeType text = .ok pattern) : WellFormed registry pattern := by
  obtain ⟨reading, lexed, finished⟩ := bind_eq_ok_iff.mp found
  obtain ⟨_, _, rfl⟩ := finish_eq_ok_iff.mp finished
  have start : Reading.start.Sound registry := ⟨.fresh .plain, nofun, trivial⟩
  have sound := foldlM_readLexeme_sound reached start lexed
  exact sound.current.body

theorem wellFormed_of_compile (reached : registry.Reached) {text : String}
    {pattern : SymbolPattern} (compiled : compile registry nodeType text = .ok pattern) :
    WellFormed registry pattern ∧ pattern.captures = 1 ∧ pattern.capturesInLook = false := by
  obtain ⟨raw, found, counted⟩ := bind_eq_ok_iff.mp compiled
  have wellFormed := wellFormed_of_read reached found
  split_ifs at counted with inside
  · cases counted
  · rw [Bool.not_eq_true] at inside
    split at counted
    · rename_i none
      cases counted
      exact ⟨.capture wellFormed, congrArg (· + 1) none, inside⟩
    · rename_i one
      cases counted
      exact ⟨wellFormed, one, inside⟩
    · cases counted

theorem compile_of_read {text : String} {pattern : SymbolPattern}
    (found : read registry nodeType text = .ok pattern) (outside : pattern.capturesInLook = false) :
    compile registry nodeType text =
      match pattern.captures with
      | 0 => .ok (.capture pattern)
      | 1 => .ok pattern
      | count => .error (.captureGroupCount nodeType count) := by
  rw [compile, found]
  exact if_neg (by simp [outside])

/-- Compiling undoes printing.  A printing of a well-formed pattern whose lookarounds hold no
capturing groups is compiled to the pattern, with a capturing group around it if it has none, and
several groups are counted in the error.  Every well-formed pattern has a printing, and compiling
any text gives nothing but well-formed patterns with one capturing group outside lookarounds. -/
theorem compile_undoes_printing (reached : registry.Reached) (nodeType : String) :
    (∀ (pattern : SymbolPattern) (text : String), WellFormed registry pattern →
      Prints registry (.pattern pattern) text.toList → pattern.capturesInLook = false →
      (pattern.captures = 1 → compile registry nodeType text = .ok pattern) ∧
      (pattern.captures = 0 → compile registry nodeType text = .ok (.capture pattern)) ∧
      (2 ≤ pattern.captures →
        compile registry nodeType text =
          .error (.captureGroupCount nodeType pattern.captures))) ∧
    (∀ pattern : SymbolPattern, WellFormed registry pattern →
      ∃ text : String, Prints registry (.pattern pattern) text.toList) ∧
    ∀ (text : String) (pattern : SymbolPattern), compile registry nodeType text = .ok pattern →
      WellFormed registry pattern ∧ pattern.captures = 1 ∧ pattern.capturesInLook = false := by
  refine ⟨fun pattern text wellFormed printed outside => ?_, fun pattern wellFormed => ?_,
    fun text pattern compiled => wellFormed_of_compile reached compiled⟩
  · have found : read registry nodeType text = .ok pattern :=
      read_of_prints reached.named printed wellFormed
    rw [compile_of_read found outside]
    refine ⟨fun one => ?_, fun none => ?_, fun several => ?_⟩
    · rw [one]
      rfl
    · rw [none]
      rfl
    · obtain ⟨more, count⟩ := Nat.exists_eq_add_of_le' several
      rw [count]
      rfl
  · obtain ⟨chars, printed⟩ := wellFormed.exists_prints
    refine ⟨String.ofList chars, ?_⟩
    rw [String.toList_ofList]
    exact printed

/-- The node types `Num` and `Plus` and a group for the first one. -/
def operands : Registry :=
  ⟨#["?", "Num", "Plus"], [("Operand", [1])], []⟩

theorem reached_operands : operands.Reached := by
  have number : Registry.Reached ⟨#["?", "Num"], [], []⟩ := by
    apply Registry.Reached.register .empty
    exact Registry.register_eq_ok_iff.mpr
      ⟨by decide, by decide +kernel, rfl, by decide, rfl⟩
  have plus : Registry.Reached ⟨#["?", "Num", "Plus"], [], []⟩ := by
    apply number.register
    exact Registry.register_eq_ok_iff.mpr
      ⟨by decide, by decide +kernel, rfl, by decide, rfl⟩
  apply plus.addToGroup
  exact Registry.addToGroup_eq_ok_iff.mpr ⟨by decide +kernel, by decide, rfl⟩

theorem compile_undoes_printing_operand :
    operands.Reached ∧
      compile operands "Sum" "(Operand)[Plus] \x7b02,\x7d?" =
        .ok (.concat [.capture (.symbols [1]), .loop (.symbols [2]) 2 none false]) := by
  have operand : operands.Denotes ["Operand"] [1] :=
    (Registry.denotes_nil operands).append (by decide +kernel)
  have plus : operands.Denotes ["Plus"] [2] :=
    (Registry.denotes_nil operands).append (by decide +kernel)
  have first : WellFormed operands (.symbols [1]) := .symbols (by simp) (by simp) operand
  have second : WellFormed operands (.symbols [2]) := .symbols (by simp) (by simp) plus
  have wellFormed : WellFormed operands
      (.concat [.capture (.symbols [1]), .loop (.symbols [2]) 2 none false]) := by
    refine .concat (by decide) fun item member => ?_
    rcases List.mem_cons.mp member with rfl | later
    · exact .capture first
    · cases List.mem_singleton.mp later
      exact .loop (inBounds_unlimited (by decide)) second
  have group : Prints operands (.atom (.capture (.symbols [1]))) "(Operand)".toList :=
    .capture (.alone (.once (.name operand)))
  have count : PrintsCount 2 ['0', '2'] := ⟨by simp, List.all_eq_true.mp rfl, rfl⟩
  have repeated : Prints operands (.item (.loop (.symbols [2]) 2 none false))
      "[Plus] \x7b02,\x7d?".toList :=
    .loop false (.set plus (.name blank_nil (.nothing blank_nil) nofun)) blank_space
      (.atLeast blank_nil count blank_nil blank_nil)
  have printed : Prints operands
      (.pattern (.concat [.capture (.symbols [1]), .loop (.symbols [2]) 2 none false]))
      "(Operand)[Plus] \x7b02,\x7d?".toList := by
    have last := Prints.before blank_nil repeated (.nothing blank_nil) nofun
    refine .whole (.last (.before blank_nil (.once group) last ?_))
    rintro x ⟨⟩ y ⟨⟩
    decide
  exact ⟨reached_operands,
    ((compile_undoes_printing reached_operands "Sum").1 _ _ wellFormed printed rfl).1 rfl⟩

end SymbolPattern

end RowGrammar
