import RowGrammar.Proofs.Regex.Lexing
import RowGrammar.Proofs.Regex.Paths

/-!
# Joined patterns

The pattern of a whole tokenizer is the choice between its parts, each in a group.  The groups
inside a part are numbered on from the group around it, so no two parts share a number.
-/

namespace RowGrammar

namespace Regex

theorem indices_sequence (items : List Regex) :
    (sequence items).indices = items.flatMap indices := by
  induction items with
  | nil => rfl
  | cons item items induction =>
      cases items with
      | nil => simp [sequence]
      | cons next items => simpa [sequence, indices] using induction

theorem indices_choice (branches : List Regex) :
    (choice branches).indices = branches.flatMap indices := by
  induction branches with
  | nil => rfl
  | cons branch branches induction =>
      cases branches with
      | nil => simp [choice]
      | cons next branches => simpa [choice, indices] using induction

theorem renumber_sequence (number : Nat → Nat) (items : List Regex) :
    (sequence items).renumber number = sequence (items.map (renumber number)) := by
  induction items with
  | nil => rfl
  | cons item items induction =>
      cases items with
      | nil => rfl
      | cons next items => simpa [sequence, renumber] using induction

theorem renumber_choice (number : Nat → Nat) (branches : List Regex) :
    (choice branches).renumber number = choice (branches.map (renumber number)) := by
  induction branches with
  | nil => rfl
  | cons branch branches induction =>
      cases branches with
      | nil => rfl
      | cons next branches => simpa [choice, renumber] using induction

/-! ## Numbers of groups -/

/-- The numbers of the groups in a group that is being read. -/
def Frame.indices (frame : Frame) : List Nat :=
  frame.capture.toList ++ frame.branches.flatMap Regex.indices ++
    frame.items.flatMap (·.regex.indices)

/-- The numbers of all groups read so far. -/
def Builder.indices (builder : Builder) : List Nat :=
  (builder.current :: builder.outer).flatMap Frame.indices

theorem Frame.branch_indices (frame : Frame) :
    frame.branch.indices.Perm (frame.items.flatMap (·.regex.indices)) := by
  rw [branch, indices_sequence, List.flatMap_map]
  exact (List.reverse_perm frame.items).flatMap_right _

theorem Frame.body_indices (frame : Frame) :
    (frame.capture.toList ++ frame.body.indices).Perm frame.indices := by
  rw [body, indices_choice, List.flatMap_append, Frame.indices, List.append_assoc]
  refine List.Perm.append_left _ (.append ((List.reverse_perm _).flatMap_right _) ?_)
  simpa using frame.branch_indices

/-- The groups are numbered from one on in the order of their opening parentheses. -/
def Builder.Counted (builder : Builder) : Prop :=
  builder.indices.Perm (List.range' 1 builder.captures)

/-- Whether a lexeme brings no groups of its own along. -/
def Lexeme.Ungrouped (lexeme : Lexeme) : Prop :=
  ∀ regex, lexeme = .atom regex → regex.indices = []

theorem Builder.step?_counted {builder next : Builder} {lexeme : Lexeme}
    (ungrouped : lexeme.Ungrouped) (counted : builder.Counted)
    (steps : builder.step? lexeme = some next) : next.Counted := by
  cases lexeme with
  | atom regex =>
      cases steps
      have bare := ungrouped regex rfl
      simpa [Counted, indices, Frame.indices, Frame.push, bare] using counted
  | flags flags =>
      cases steps
      simpa [Counted, indices, Frame.indices, Frame.push, Regex.indices] using counted
  | openPlain flags =>
      cases steps
      exact counted
  | openCapture name =>
      simp only [step?] at steps
      split at steps
      · cases steps
      · cases steps
        rw [Counted, List.range'_1_concat, Nat.add_comm 1]
        have first : indices ⟨.fresh (some (builder.captures + 1)),
            builder.current :: builder.outer, builder.captures + 1,
            name.toList ++ builder.names⟩ = (builder.captures + 1) :: builder.indices := rfl
        rw [first]
        exact (List.Perm.cons _ counted).trans (List.perm_append_singleton _ _).symm
  | close =>
      simp only [step?] at steps
      split at steps
      · rename_i around outer waiting
        cases steps
        refine List.Perm.trans (List.perm_iff_count.mpr ?_) counted
        intro index
        have body := builder.current.body_indices.count_eq index
        rw [List.count_append] at body
        simp only [indices, waiting, List.flatMap_cons, List.count_append, Frame.push,
          Frame.indices, Regex.indices] at body ⊢
        omega
      · cases steps
  | bar =>
      cases steps
      refine List.Perm.trans (List.perm_iff_count.mpr ?_) counted
      intro index
      have branch := builder.current.branch_indices.count_eq index
      simp only [indices, List.flatMap_cons, List.flatMap_nil, List.count_append, List.count_nil,
        Frame.divide, Frame.indices]
      omega
  | quantifier least most greedy =>
      obtain ⟨current, repeats, rfl⟩ := Option.map_eq_some_iff.mp steps
      unfold Frame.quantify? at repeats
      split at repeats
      · rename_i regex items listed
        cases repeats
        simpa [Counted, indices, Frame.indices, listed, Regex.indices] using counted
      · cases repeats

/-- Every group that is open was opened and has not been closed. -/
theorem Builder.step?_outer {builder next : Builder} {lexeme : Lexeme}
    (steps : builder.step? lexeme = some next) :
    next.outer.length + [lexeme].count .close =
      builder.outer.length + [lexeme].countP Lexeme.opensGroup := by
  cases lexeme with
  | atom regex => cases steps; rfl
  | flags flags => cases steps; rfl
  | openPlain flags => cases steps; rfl
  | openCapture name =>
      simp only [step?] at steps
      split at steps
      · cases steps
      · cases steps
        rfl
  | close =>
      simp only [step?] at steps
      split at steps
      · rename_i around outer waiting
        cases steps
        rw [waiting]
        rfl
      · cases steps
  | bar => cases steps; rfl
  | quantifier least most greedy =>
      obtain ⟨current, _, rfl⟩ := Option.map_eq_some_iff.mp steps
      rfl

theorem getLast?_capture {frame next : Frame} (kept : next.capture = frame.capture)
    (outer : List Frame) :
    (next :: outer).getLast?.map Frame.capture = (frame :: outer).getLast?.map Frame.capture := by
  cases outer with
  | nil => simp [kept]
  | cons around outer => rfl

/-- The outermost frame stays the same group. -/
theorem Builder.step?_bottom {builder next : Builder} {lexeme : Lexeme}
    (steps : builder.step? lexeme = some next) :
    (next.current :: next.outer).getLast?.map Frame.capture =
      (builder.current :: builder.outer).getLast?.map Frame.capture := by
  cases lexeme with
  | atom regex => cases steps; apply getLast?_capture; rfl
  | flags flags => cases steps; apply getLast?_capture; rfl
  | openPlain flags => cases steps; rfl
  | openCapture name =>
      simp only [step?] at steps
      split at steps
      · cases steps
      · cases steps
        rfl
  | close =>
      simp only [step?] at steps
      split at steps
      · rename_i around outer waiting
        cases steps
        rw [waiting]
        apply getLast?_capture
        rfl
      · cases steps
  | bar => cases steps; apply getLast?_capture; rfl
  | quantifier least most greedy =>
      obtain ⟨current, repeats, rfl⟩ := Option.map_eq_some_iff.mp steps
      unfold Frame.quantify? at repeats
      split at repeats
      · cases repeats
        apply getLast?_capture
        rfl
      · cases repeats

section

variable {builder last : Builder} {lexeme : Lexeme} {lexemes : List Lexeme}

theorem Builder.foldlM_cons_eq_some_iff :
    (lexeme :: lexemes).foldlM Builder.step? builder = some last ↔
      ∃ next, builder.step? lexeme = some next ∧ lexemes.foldlM Builder.step? next = some last := by
  simp [List.foldlM_cons, Option.bind_eq_some_iff]

theorem Builder.foldlM_append_eq_some_iff {later : List Lexeme} :
    (lexemes ++ later).foldlM Builder.step? builder = some last ↔
      ∃ next, lexemes.foldlM Builder.step? builder = some next ∧
        later.foldlM Builder.step? next = some last := by
  simp [List.foldlM_append, Option.bind_eq_some_iff]

theorem Builder.foldlM_counted (ungrouped : ∀ lexeme ∈ lexemes, lexeme.Ungrouped)
    (counted : builder.Counted) (run : lexemes.foldlM Builder.step? builder = some last) :
    last.Counted := by
  induction lexemes generalizing builder with
  | nil =>
      cases run
      exact counted
  | cons lexeme lexemes induction =>
      obtain ⟨next, steps, run⟩ := foldlM_cons_eq_some_iff.mp run
      apply induction _ _ run
      · intro lexeme member
        exact ungrouped lexeme (List.mem_cons_of_mem _ member)
      · exact step?_counted (ungrouped lexeme List.mem_cons_self) counted steps

theorem Builder.foldlM_outer (run : lexemes.foldlM Builder.step? builder = some last) :
    last.outer.length + lexemes.count .close =
      builder.outer.length + lexemes.countP Lexeme.opensGroup := by
  induction lexemes generalizing builder with
  | nil =>
      cases run
      rfl
  | cons lexeme lexemes induction =>
      obtain ⟨next, steps, run⟩ := foldlM_cons_eq_some_iff.mp run
      have first := step?_outer steps
      have rest := induction run
      rw [← List.singleton_append, List.count_append, List.countP_append]
      omega

theorem Builder.foldlM_bottom (run : lexemes.foldlM Builder.step? builder = some last) :
    (last.current :: last.outer).getLast?.map Frame.capture =
      (builder.current :: builder.outer).getLast?.map Frame.capture := by
  induction lexemes generalizing builder with
  | nil =>
      cases run
      rfl
  | cons lexeme lexemes induction =>
      obtain ⟨next, steps, run⟩ := foldlM_cons_eq_some_iff.mp run
      exact (induction run).trans (step?_bottom steps)

end

/-! ## Reading a pattern inside a group -/

/-- The same group with the numbers inside it moved on. -/
structure Frame.Shifted (offset : Nat) (frame twin : Frame) : Prop where
  branches : twin.branches = frame.branches.map (renumber (· + offset))
  items : twin.items = frame.items.map fun item =>
    ⟨item.regex.renumber (· + offset), item.repeatable⟩

namespace Frame.Shifted

variable {offset : Nat} {frame twin : Frame}

theorem fresh (capture other : Option Nat) : Shifted offset (.fresh capture) (.fresh other) :=
  ⟨rfl, rfl⟩

theorem branch (shifted : Shifted offset frame twin) :
    twin.branch = frame.branch.renumber (· + offset) := by
  rw [Frame.branch, Frame.branch, renumber_sequence, shifted.items]
  simp [List.map_reverse, Function.comp_def]

theorem body (shifted : Shifted offset frame twin) :
    twin.body = frame.body.renumber (· + offset) := by
  rw [Frame.body, Frame.body, renumber_choice, shifted.branches, shifted.branch]
  simp [List.map_reverse]

theorem push (shifted : Shifted offset frame twin) {regex other : Regex}
    (same : other = regex.renumber (· + offset)) (repeatable : Bool) :
    Shifted offset (frame.push ⟨regex, repeatable⟩) (twin.push ⟨other, repeatable⟩) :=
  ⟨shifted.branches, by simp [Frame.push, shifted.items, same]⟩

theorem divide (shifted : Shifted offset frame twin) : Shifted offset frame.divide twin.divide :=
  ⟨by simp [Frame.divide, shifted.branches, shifted.branch], rfl⟩

theorem quantify? (shifted : Shifted offset frame twin) {least : Nat} {most : Option Nat}
    {greedy : Bool} {next follower : Frame}
    (repeats : frame.quantify? least most greedy = some next)
    (repeated : twin.quantify? least most greedy = some follower) :
    Shifted offset next follower ∧ next.capture = frame.capture ∧
      follower.capture = twin.capture := by
  unfold Frame.quantify? at repeats repeated
  rw [shifted.items] at repeated
  split at repeats
  · rename_i regex items listed
    cases repeats
    rw [listed] at repeated
    cases repeated
    exact ⟨⟨shifted.branches, rfl⟩, rfl, rfl⟩
  · cases repeats

end Frame.Shifted

/-- The open groups of a pattern, the innermost one first, and the same groups when the pattern is
read inside the group `group`, which other groups are around. -/
inductive Inside (group : Nat) (around : List Frame) : List Frame → List Frame → Prop where
  | bottom {frame twin : Frame} : frame.Shifted group twin → twin.capture = some group →
      Inside group around [frame] (twin :: around)
  | deeper {frame twin : Frame} {frames twins : List Frame} : frame.Shifted group twin →
      twin.capture = frame.capture.map (· + group) → Inside group around frames twins →
      Inside group around (frame :: frames) (twin :: twins)

namespace Inside

variable {group : Nat} {around : List Frame}

theorem shifted {frame twin : Frame} {frames twins : List Frame}
    (inside : Inside group around (frame :: frames) (twin :: twins)) :
    frame.Shifted group twin := by
  cases inside with
  | bottom shifted _ => exact shifted
  | deeper shifted _ _ => exact shifted

theorem replace {frame twin next follower : Frame} {frames twins : List Frame}
    (inside : Inside group around (frame :: frames) (twin :: twins))
    (shifted : next.Shifted group follower) (kept : next.capture = frame.capture)
    (keeps : follower.capture = twin.capture) :
    Inside group around (next :: frames) (follower :: twins) := by
  cases inside with
  | bottom _ captures => exact .bottom shifted (keeps.trans captures)
  | deeper _ captures below => exact .deeper shifted (keeps ▸ kept ▸ captures) below

end Inside

/-- A builder and the builder of the same pattern inside a group. -/
def Builder.Inside (group : Nat) (around : List Frame) (builder twin : Builder) : Prop :=
  Regex.Inside group around (builder.current :: builder.outer) (twin.current :: twin.outer) ∧
    twin.captures = builder.captures + group

theorem Builder.Inside.step? {group : Nat} {around : List Frame} {builder twin : Builder}
    (inside : Builder.Inside group around builder twin) {lexeme : Lexeme}
    (ungrouped : lexeme.Ungrouped) {next follower : Builder}
    (steps : builder.step? lexeme = some next) (follows : twin.step? lexeme = some follower) :
    Builder.Inside group around next follower := by
  obtain ⟨frames, captures⟩ := inside
  cases lexeme with
  | atom regex =>
      cases steps
      cases follows
      have same : regex = regex.renumber (· + group) :=
        (renumber_eq_self (by simp [ungrouped regex rfl])).symm
      exact ⟨frames.replace (frames.shifted.push same true) rfl rfl, captures⟩
  | flags flags =>
      cases steps
      cases follows
      exact ⟨frames.replace (frames.shifted.push rfl false) rfl rfl, captures⟩
  | openPlain flags =>
      cases steps
      cases follows
      exact ⟨.deeper (.fresh _ _) rfl frames, captures⟩
  | openCapture name =>
      simp only [Builder.step?] at steps follows
      split at steps
      · cases steps
      · split at follows
        · cases follows
        · cases steps
          cases follows
          refine ⟨.deeper (.fresh _ _) ?_ frames, ?_⟩
          · simp only [Frame.fresh, captures, Option.map_some, Option.some.injEq]
            omega
          · simp only [captures]
            omega
  | close =>
      simp only [Builder.step?] at steps follows
      split at steps
      · rename_i frame outer waiting
        rw [waiting] at frames
        cases frames with
        | deeper shifted capture below =>
            split at follows
            · rename_i waits
              rw [waits] at below
              cases steps
              cases follows
              refine ⟨below.replace (below.shifted.push ?_ true) rfl rfl, captures⟩
              rw [capture, shifted.body]
              rfl
            · cases follows
      · cases steps
  | bar =>
      cases steps
      cases follows
      exact ⟨frames.replace frames.shifted.divide rfl rfl, captures⟩
  | quantifier least most greedy =>
      obtain ⟨current, repeats, rfl⟩ := Option.map_eq_some_iff.mp steps
      obtain ⟨other, repeated, rfl⟩ := Option.map_eq_some_iff.mp follows
      obtain ⟨shifted, kept, keeps⟩ := frames.shifted.quantify? repeats repeated
      exact ⟨frames.replace shifted kept keeps, captures⟩

theorem Builder.Inside.foldlM {group : Nat} {around : List Frame} {lexemes : List Lexeme}
    (ungrouped : ∀ lexeme ∈ lexemes, lexeme.Ungrouped) {builder twin last end_ : Builder}
    (inside : Builder.Inside group around builder twin)
    (run : lexemes.foldlM Builder.step? builder = some last)
    (follows : lexemes.foldlM Builder.step? twin = some end_) :
    Builder.Inside group around last end_ := by
  induction lexemes generalizing builder twin with
  | nil =>
      cases run
      cases follows
      exact inside
  | cons lexeme lexemes induction =>
      obtain ⟨next, steps, run⟩ := foldlM_cons_eq_some_iff.mp run
      obtain ⟨follower, step, follows⟩ := foldlM_cons_eq_some_iff.mp follows
      apply induction _ _ run follows
      · intro lexeme member
        exact ungrouped lexeme (List.mem_cons_of_mem _ member)
      · exact inside.step? (ungrouped lexeme List.mem_cons_self) steps step

/-- Lexemes that are read as a whole pattern. -/
structure Reads (lexemes : List Lexeme) (regex : Regex) : Prop where
  ungrouped : ∀ lexeme ∈ lexemes, lexeme.Ungrouped
  complete : ∃ builder, lexemes.foldlM Builder.step? .start = some builder ∧
    builder.outer = [] ∧ builder.current.body = regex

theorem Reads.counted {lexemes : List Lexeme} {regex : Regex} (reads : Reads lexemes regex) :
    ∃ builder, lexemes.foldlM Builder.step? .start = some builder ∧ builder.outer = [] ∧
      builder.current.body = regex ∧ builder.captures = regex.captureCount ∧
      regex.indices.Perm (List.range' 1 regex.captureCount) := by
  obtain ⟨builder, run, outermost, rfl⟩ := reads.complete
  have start : Builder.start.Counted := List.Perm.refl []
  have counted := Builder.foldlM_counted reads.ungrouped start run
  have bottom := Builder.foldlM_bottom run
  rw [outermost] at bottom
  have whole : builder.current.capture = none := by
    simpa [Builder.start, Frame.fresh] using bottom
  have numbers : builder.current.body.indices.Perm (List.range' 1 builder.captures) := by
    refine List.Perm.trans ?_ counted
    simpa [Builder.indices, outermost, whole] using builder.current.body_indices
  have size : builder.captures = builder.current.body.captureCount := by
    simpa using numbers.length_eq.symm
  exact ⟨builder, run, outermost, rfl, size, size ▸ numbers⟩

/-- Lexemes in a group of their own become their pattern in that group. -/
theorem Reads.enclosed {lexemes : List Lexeme} {regex : Regex} (reads : Reads lexemes regex)
    {builder last : Builder}
    (run : (Lexeme.openCapture none :: (lexemes ++ [.close])).foldlM Builder.step? builder =
      some last) :
    last.current = builder.current.push ⟨.group (some (builder.captures + 1))
        (regex.renumber (· + (builder.captures + 1))), true⟩ ∧
      last.outer = builder.outer ∧
      last.captures = builder.captures + 1 + regex.captureCount := by
  obtain ⟨first, opens, run⟩ := Builder.foldlM_cons_eq_some_iff.mp run
  obtain ⟨middle, inner, run⟩ := Builder.foldlM_append_eq_some_iff.mp run
  obtain ⟨_, closes, finished⟩ := Builder.foldlM_cons_eq_some_iff.mp run
  cases finished
  cases opens
  obtain ⟨alone, complete, outermost, rfl, size, _⟩ := reads.counted
  have start : Builder.Inside (builder.captures + 1) (builder.current :: builder.outer) .start
      ⟨.fresh (some (builder.captures + 1)), builder.current :: builder.outer,
        builder.captures + 1, [] ++ builder.names⟩ :=
    ⟨.bottom (.fresh _ _) rfl, (Nat.zero_add _).symm⟩
  obtain ⟨frames, captures⟩ := start.foldlM reads.ungrouped complete inner
  obtain ⟨current, outer, count, names⟩ := middle
  dsimp only at frames captures
  rw [outermost] at frames
  cases frames with
  | deeper _ _ below => cases below
  | bottom shifted capture =>
      cases closes
      refine ⟨?_, rfl, ?_⟩
      · rw [capture, shifted.body]
      · dsimp only
        omega

/-- The patterns, each in a group, of which the first has the number `first`. -/
def enclosed : Nat → List Regex → List Regex
  | _, [] => []
  | first, regex :: regexes =>
      .group (some first) (regex.renumber (· + first)) ::
        enclosed (first + regex.captureCount + 1) regexes

theorem Reads.joined {lists : List (List Lexeme)} {regexes : List Regex}
    (each : List.Forall₂ Reads lists regexes) (present : regexes ≠ []) {builder last : Builder}
    (empty : builder.current.items = [])
    (run : (joinedLexemes lists).foldlM Builder.step? builder = some last) :
    last.current.body =
      choice
        (builder.current.branches.reverse ++ Regex.enclosed (builder.captures + 1) regexes) := by
  induction each generalizing builder with
  | nil => exact absurd rfl present
  | @cons lexemes regex lists regexes first rest induction =>
      cases rest with
      | nil =>
          obtain ⟨current, _, _⟩ := first.enclosed run
          simp [current, Frame.body, Frame.branch, Frame.push, empty, Regex.enclosed, sequence]
      | cons second rest =>
          rw [joinedLexemes_cons_cons] at run
          obtain ⟨middle, opens, run⟩ := Builder.foldlM_append_eq_some_iff.mp run
          obtain ⟨next, divides, run⟩ := Builder.foldlM_cons_eq_some_iff.mp run
          obtain ⟨current, _, captures⟩ := first.enclosed opens
          cases divides
          rw [induction (by simp) rfl run]
          have on : builder.captures + 1 + regex.captureCount + 1 = middle.captures + 1 := by
            rw [captures]
          simp [current, on, Frame.divide, Frame.branch, Frame.push, empty, Regex.enclosed,
            sequence]

/-! ## Parsing -/

theorem parse?_eq_some {pattern : String} {regex : Regex} (parsed : parse? pattern = some regex) :
    ∃ lexemes builder, lexemes? pattern.toList = some lexemes ∧
      lexemes.foldlM Builder.step? .start = some builder ∧ builder.outer = [] ∧
      builder.current.body = regex := by
  simp only [parse?, Option.bind_eq_bind, Option.bind_eq_some_iff, Option.pure_def,
    Option.some.injEq] at parsed
  obtain ⟨lexemes, lexed, builder, run, whole, finishes, _, _, rfl⟩ := parsed
  unfold Builder.finish? at finishes
  split at finishes
  · rename_i outermost
    cases finishes
    exact ⟨lexemes, builder, lexed, run, List.isEmpty_iff.mp outermost, rfl⟩
  · cases finishes

theorem not_atom_of_groupStart? {flags : Flags} {chars rest : List Char} {regex : Regex} :
    groupStart? flags chars ≠ some (.atom regex, rest) := by
  have named {chars : List Char} : groupName? chars ≠ some (.atom regex, rest) := by
    intro read
    unfold groupName? at read
    dsimp only at read
    split at read
    · split at read
      · obtain ⟨_, _, equality⟩ := Option.bind_eq_some_iff.mp read
        cases equality
      · cases read
    · cases read
  intro read
  rw [groupStart?_eq_some_iff] at read
  generalize flags.skip chars = chars at read
  cases read with
  | marked read => exact named read
  | named _ _ read => exact named read

theorem not_atom_of_quantifier {flags : Flags} {least : Nat} {most : Option Nat}
    {chars rest : List Char} {regex : Regex} :
    quantifier flags least most chars ≠ (.atom regex, rest) := by
  unfold quantifier
  split
  · simp
  · simp

theorem ungrouped_of_lexeme? {flags : Flags} {chars rest : List Char} {lexeme : Lexeme}
    (read : lexeme? flags chars = some (lexeme, rest)) : lexeme.Ungrouped := by
  rintro regex rfl
  unfold lexeme? at read
  split at read
  case h_2 => exact absurd read not_atom_of_groupStart?
  case h_5 =>
    obtain ⟨_, _, equality⟩ := Option.map_eq_some_iff.mp read
    cases equality
    rfl
  case h_6 => exact absurd (Option.some.inj read) not_atom_of_quantifier
  case h_7 => exact absurd (Option.some.inj read) not_atom_of_quantifier
  case h_8 => exact absurd (Option.some.inj read) not_atom_of_quantifier
  case h_9 =>
    obtain ⟨_, _, equality⟩ := Option.map_eq_some_iff.mp read
    exact absurd equality not_atom_of_quantifier
  case h_10 =>
    obtain ⟨_, _, equality⟩ := Option.map_eq_some_iff.mp read
    cases equality
    rfl
  case h_13 =>
    obtain ⟨⟨primitive, _⟩, _, equality⟩ := Option.map_eq_some_iff.mp read
    cases primitive with
    | literal c => cases equality; rfl
    | set set => cases equality; rfl
    | assertion condition => cases equality; rfl
  all_goals
    cases read
    try rfl

theorem ungrouped_of_lexemesFrom {fuel : Nat} {flags : Flags} {outer : List Flags}
    {chars : List Char} {lexemes : List Lexeme}
    (reads : lexemesFrom fuel flags outer chars = some lexemes) :
    ∀ lexeme ∈ lexemes, lexeme.Ungrouped := by
  induction fuel generalizing flags outer chars lexemes with
  | zero => cases reads
  | succ fuel induction =>
      by_cases present : flags.skip chars = []
      · unfold lexemesFrom at reads
        rw [present] at reads
        cases reads
        simp
      · obtain ⟨lexeme, rest, inner, around, later, read, _, continues, rfl⟩ :=
          (lexemesFrom_succ_eq_some_iff present).mp reads
        intro other member
        rcases List.mem_cons.mp member with rfl | inside
        · exact ungrouped_of_lexeme? read
        · exact induction continues other inside

theorem reads_of_parse? {pattern : String} {regex : Regex} (parsed : parse? pattern = some regex) :
    ∃ lexemes, lexemes? pattern.toList = some lexemes ∧ Reads lexemes regex := by
  obtain ⟨lexemes, builder, lexed, run, outermost, body⟩ := parse?_eq_some parsed
  exact ⟨lexemes, lexed, ungrouped_of_lexemesFrom lexed, builder, run, outermost, body⟩

/-- The groups of a pattern are numbered from one on. -/
theorem bounds_of_mem_indices {pattern : String} {regex : Regex}
    (parsed : parse? pattern = some regex) {index : Nat} (member : index ∈ regex.indices) :
    1 ≤ index ∧ index ≤ regex.captureCount := by
  obtain ⟨lexemes, _, reads⟩ := reads_of_parse? parsed
  obtain ⟨_, _, _, _, _, numbers⟩ := reads.counted
  have inside := List.mem_range'_1.mp (numbers.subset member)
  omega

theorem Reads.enclosable {lexemes : List Lexeme} {regex : Regex} (reads : Reads lexemes regex)
    (plain : ∀ lexeme ∈ lexemes, lexeme.switchesLayout = false) : Enclosable lexemes := by
  obtain ⟨builder, run, outermost, _⟩ := reads.complete
  refine ⟨?_, ?_, plain⟩
  · have depth := Builder.foldlM_outer run
    rw [outermost] at depth
    simpa [Builder.start] using depth
  · rintro least most greedy later rfl
    obtain ⟨_, steps, _⟩ := Builder.foldlM_cons_eq_some_iff.mp run
    cases steps

/-- The pattern of a whole tokenizer is the choice between its parts, each in a group. -/
theorem parse?_compositePattern {patterns : List String} {regexes : List Regex}
    (each : List.Forall₂ (fun pattern regex => parse? pattern = some regex) patterns regexes)
    (unspaced : ∀ pattern ∈ patterns, switchesLayout pattern = false) (present : patterns ≠ [])
    {composite : Regex} (parsed : parse? (Tokenizer.compositePattern patterns) = some composite) :
    composite = choice (Regex.enclosed 1 regexes) := by
  obtain ⟨lexemes, builder, lexed, run, _, rfl⟩ := parse?_eq_some parsed
  have lists : ∃ lists, List.Forall₂ (fun chars lexemes =>
      lexemes? chars = some lexemes ∧ Enclosable lexemes) (patterns.map String.toList) lists ∧
      List.Forall₂ Reads lists regexes := by
    clear lexed run present parsed
    induction each with
    | nil => exact ⟨[], .nil, .nil⟩
    | @cons pattern regex patterns regexes first rest induction =>
        obtain ⟨lists, lexes, reads⟩ := induction fun pattern member =>
          unspaced pattern (List.mem_cons_of_mem _ member)
        obtain ⟨lexemes, lexed, read⟩ := reads_of_parse? first
        have plain := unspaced pattern List.mem_cons_self
        simp only [switchesLayout, lexed, Option.any_some, List.any_eq_false] at plain
        have enclosable := read.enclosable fun lexeme member => by simpa using plain lexeme member
        exact ⟨lexemes :: lists, .cons ⟨lexed, enclosable⟩ lexes, .cons read reads⟩
  obtain ⟨lists, lexes, reads⟩ := lists
  rw [toList_compositePattern] at lexed
  have joined := lexemesFrom_joined lexes lexed
  subst joined
  apply Reads.joined reads _ rfl run
  intro empty
  rw [empty] at each
  cases each
  exact present rfl

end Regex

end RowGrammar
