import RowGrammar.Proofs.Traversal
import RowGrammar.SymbolPattern.Compile

/-!
# Steps of reading a pattern

All that one lexeme can do to what has been read of a pattern.  The lexemes of quantifiers and of
the starts of groups do the same whatever names are known, so what they do is stated without a
registry.
-/

namespace RowGrammar.SymbolPattern

/-! ## Items -/

/-- A lexeme is read as an item, a bar or the end of a group. -/
inductive ItemStep (registry : Registry) (reading : Reading) : Placed → Reading → Prop where
  | name {offset : Nat} {letters : List Char} {ids : List NodeTypeId} :
      registry.resolve? (String.ofList letters) = some ids →
      ItemStep registry reading ⟨offset, .name letters⟩
        (reading.push (.symbols (sortMembers ids)))
  | any {offset : Nat} : ItemStep registry reading ⟨offset, .sign '.'⟩ (reading.push .any)
  | set {offset : Nat} :
      ItemStep registry reading ⟨offset, .sign '['⟩ { reading with expected := .member [] }
  | group {offset : Nat} :
      ItemStep registry reading ⟨offset, .sign '('⟩ { reading with expected := .opened offset }
  | bar {offset : Nat} :
      ItemStep registry reading ⟨offset, .sign '|'⟩
        { reading with current := reading.current.divide, expected := .item }
  | close {offset : Nat} {around : Frame} {outer : List Frame} :
      reading.outer = around :: outer →
      ItemStep registry reading ⟨offset, .sign ')'⟩
        (Reading.push ⟨around, outer, .item⟩ reading.current.pattern)

variable {registry : Registry} {nodeType : String}

theorem resolve_eq_ok_iff {letters : List Char} {ids : List NodeTypeId} :
    resolve registry nodeType letters = .ok ids ↔
      registry.resolve? (String.ofList letters) = some ids := by
  unfold resolve
  cases registry.resolve? (String.ofList letters) <;> simp

theorem readItem_eq_ok_iff {reading next : Reading} {placed : Placed} :
    readItem registry nodeType reading placed = .ok next ↔
      ItemStep registry reading placed next := by
  constructor
  · intro read
    obtain ⟨offset, lexeme⟩ := placed
    unfold readItem at read
    dsimp only at read
    split at read
    · obtain ⟨ids, resolved, made⟩ := bind_eq_ok_iff.mp read
      cases made
      exact .name (resolve_eq_ok_iff.mp resolved)
    · cases read
      exact .any
    · cases read
      exact .set
    · cases read
      exact .group
    · cases read
      exact .bar
    · split at read
      · cases read
        exact .close ‹_›
      · cases read
    · cases read
  · intro step
    cases step with
    | name resolved => exact bind_eq_ok_iff.mpr ⟨_, resolve_eq_ok_iff.mpr resolved, rfl⟩
    | any => rfl
    | set => rfl
    | group => rfl
    | bar => rfl
    | close enclosing => simp only [readItem, enclosing]

/-! ## Lexemes that resolve nothing -/

/-- The lexeme is read as an item, a bar or the end of a group. -/
def Expected.Admits (placed : Placed) : Expected → Prop
  | .item => True
  | .quantifier => placed.lexeme ∉ [.sign '*', .sign '+', .sign '?', .sign '\x7b']
  | .laziness stop => placed ≠ ⟨stop, .sign '?'⟩
  | _ => False

/-- The lexeme ends a quantifier. -/
inductive Expected.Quantifies : Expected → Lexeme → Nat → Option Nat → Prop where
  | star : Quantifies .quantifier (.sign '*') 0 none
  | plus : Quantifies .quantifier (.sign '+') 1 none
  | optional : Quantifies .quantifier (.sign '?') 0 (some 1)
  | exactly {count : Nat} : Quantifies (.comma count) (.sign '\x7d') count (some count)
  | unlimited {least : Nat} : Quantifies (.most least) (.sign '\x7d') least none
  | between {least : Nat} {most : Option Nat} :
      ¬most.any (· < least) → Quantifies (.brace least most) (.sign '\x7d') least most

/-- The lexeme is in the middle of a quantifier or of the start of a special group. -/
inductive Expected.Awaits : Expected → Placed → Expected → Prop where
  | least {offset : Nat} : Awaits .quantifier ⟨offset, .sign '\x7b'⟩ .least
  | comma {offset least : Nat} {digits : List Char} :
      countOf? digits = some least → Awaits .least ⟨offset, .number digits⟩ (.comma least)
  | most {offset least : Nat} : Awaits (.comma least) ⟨offset, .sign ','⟩ (.most least)
  | brace {offset least : Nat} {digits : List Char} :
      Awaits (.most least) ⟨offset, .number digits⟩ (.brace least (countOf? digits))
  | special {offset : Nat} :
      Awaits (.opened offset) ⟨offset + 1, .sign '?'⟩ (.special (offset + 1))
  | behind {offset : Nat} :
      Awaits (.special offset) ⟨offset + 1, .sign '<'⟩ (.behind (offset + 1))

/-- The lexeme ends the start of a special group. -/
inductive Expected.Opens : Expected → Placed → GroupKind → Prop where
  | plain {offset : Nat} : Opens (.special offset) ⟨offset + 1, .sign ':'⟩ .plain
  | ahead {offset : Nat} : Opens (.special offset) ⟨offset + 1, .sign '='⟩ (.look .ahead false)
  | notAhead {offset : Nat} : Opens (.special offset) ⟨offset + 1, .sign '!'⟩ (.look .ahead true)
  | behind {offset : Nat} : Opens (.behind offset) ⟨offset + 1, .sign '='⟩ (.look .behind false)
  | notBehind {offset : Nat} : Opens (.behind offset) ⟨offset + 1, .sign '!'⟩ (.look .behind true)

namespace Expected

variable {expected : Expected} {placed : Placed}

theorem Admits.ne_member (admits : expected.Admits placed) :
    ∀ members, expected ≠ .member members := by
  rintro members rfl
  cases admits

theorem Quantifies.ne_member {lexeme : Lexeme} {least : Nat} {most : Option Nat}
    (quantifies : expected.Quantifies lexeme least most) :
    ∀ members, expected ≠ .member members := by
  rintro members rfl
  cases quantifies

theorem Quantifies.ne_name {lexeme : Lexeme} {least : Nat} {most : Option Nat}
    (quantifies : expected.Quantifies lexeme least most) :
    ∀ letters, lexeme ≠ .name letters := by
  rintro letters rfl
  cases quantifies

theorem Awaits.ne_member {next : Expected} (awaits : expected.Awaits placed next) :
    ∀ members, expected ≠ .member members := by
  rintro members rfl
  cases awaits

theorem Awaits.next_ne_member {next : Expected} (awaits : expected.Awaits placed next) :
    ∀ members, next ≠ .member members := by
  rintro members rfl
  cases awaits

theorem Awaits.ne_name {next : Expected} (awaits : expected.Awaits placed next) :
    ∀ letters, placed.lexeme ≠ .name letters := by
  cases awaits <;> exact nofun

theorem Opens.ne_member {kind : GroupKind} (opens : expected.Opens placed kind) :
    ∀ members, expected ≠ .member members := by
  rintro members rfl
  cases opens

theorem Opens.ne_name {kind : GroupKind} (opens : expected.Opens placed kind) :
    ∀ letters, placed.lexeme ≠ .name letters := by
  cases opens <;> exact nofun

end Expected

/-! ## Lexemes -/

/-- What reading a lexeme makes of what has been read. -/
inductive LexemeStep (registry : Registry) (reading : Reading) (placed : Placed) :
    Reading → Prop where
  | item {next : Reading} :
      reading.expected.Admits placed → ItemStep registry reading placed next →
      LexemeStep registry reading placed next
  /-- The first item of a capturing group, whose start is nothing but a parenthesis. -/
  | captured {offset : Nat} {next : Reading} :
      reading.expected = .opened offset → placed ≠ ⟨offset + 1, .sign '?'⟩ →
      ItemStep registry (reading.opening .capturing) placed next →
      LexemeStep registry reading placed next
  | quantified {least : Nat} {most : Option Nat} :
      reading.expected.Quantifies placed.lexeme least most →
      LexemeStep registry reading placed (reading.quantify least most (placed.offset + 1))
  | lazy {stop : Nat} :
      reading.expected = .laziness stop → placed = ⟨stop, .sign '?'⟩ →
      LexemeStep registry reading placed reading.makeLazy
  | awaits {expected : Expected} :
      reading.expected.Awaits placed expected →
      LexemeStep registry reading placed { reading with expected }
  | opened {kind : GroupKind} :
      reading.expected.Opens placed kind →
      LexemeStep registry reading placed (reading.opening kind)
  | member {members ids : List NodeTypeId} {letters : List Char} :
      reading.expected = .member members → placed.lexeme = .name letters →
      registry.resolve? (String.ofList letters) = some ids →
      LexemeStep registry reading placed { reading with expected := .member (members ++ ids) }
  | set {members : List NodeTypeId} :
      reading.expected = .member members → placed.lexeme = .sign ']' → members ≠ [] →
      LexemeStep registry reading placed (reading.push (.symbols (sortMembers members)))

theorem readLexeme_of_admits (registry : Registry) (nodeType : String) {reading : Reading}
    {placed : Placed} (admits : reading.expected.Admits placed) :
    readLexeme registry nodeType reading placed =
      readItem registry nodeType reading placed := by
  obtain ⟨current, outer, expected⟩ := reading
  cases expected with
  | item => rfl
  | quantifier =>
      simp only [Expected.Admits, List.mem_cons, List.not_mem_nil, or_false, not_or] at admits
      -- None of the four signs is read, which leaves the last alternative.
      obtain ⟨star, plus, optional, brace⟩ := admits
      simp only [readLexeme]
  | laziness stop => exact if_neg admits
  | _ => cases admits

theorem readLexeme_captured (registry : Registry) (nodeType : String) {reading : Reading}
    {placed : Placed} {offset : Nat} (opened : reading.expected = .opened offset)
    (bare : placed ≠ ⟨offset + 1, .sign '?'⟩) :
    readLexeme registry nodeType reading placed =
      readItem registry nodeType (reading.opening .capturing) placed := by
  simp only [readLexeme, opened, if_neg bare]

section

variable {current : Frame} {outer : List Frame} {placed : Placed} {next : Reading}

theorem quantifier_step
    (read : readLexeme registry nodeType ⟨current, outer, .quantifier⟩ placed = .ok next) :
    LexemeStep registry ⟨current, outer, .quantifier⟩ placed next := by
  by_cases admits : Expected.quantifier.Admits placed
  · rw [readLexeme_of_admits registry nodeType admits] at read
    exact .item admits (readItem_eq_ok_iff.mp read)
  · obtain ⟨offset, lexeme⟩ := placed
    simp only [Expected.Admits, List.mem_cons, List.not_mem_nil, or_false, not_not] at admits
    rcases admits with rfl | rfl | rfl | rfl
    · cases read
      exact .quantified .star
    · cases read
      exact .quantified .plus
    · cases read
      exact .quantified .optional
    · cases read
      exact .awaits .least

theorem member_step {members : List NodeTypeId}
    (read : readLexeme registry nodeType ⟨current, outer, .member members⟩ placed = .ok next) :
    LexemeStep registry ⟨current, outer, .member members⟩ placed next := by
  simp only [readLexeme] at read
  split at read
  · obtain ⟨ids, resolved, made⟩ := bind_eq_ok_iff.mp read
    cases made
    exact .member rfl ‹_› (resolve_eq_ok_iff.mp resolved)
  · split_ifs at read with vacant
    · cases read
    · cases read
      exact .set rfl ‹_› (mt List.isEmpty_iff.mpr vacant)
  · cases read

theorem special_step {offset : Nat}
    (read : readLexeme registry nodeType ⟨current, outer, .special offset⟩ placed = .ok next) :
    LexemeStep registry ⟨current, outer, .special offset⟩ placed next := by
  simp only [readLexeme] at read
  split_ifs at read with plain ahead barred back
  · cases read
    cases plain
    exact .opened .plain
  · cases read
    cases ahead
    exact .opened .ahead
  · cases read
    cases barred
    exact .opened .notAhead
  · cases read
    cases back
    exact .awaits .behind
  · cases read

end

theorem lexemeStep_of_readLexeme {reading next : Reading} {placed : Placed}
    (read : readLexeme registry nodeType reading placed = .ok next) :
    LexemeStep registry reading placed next := by
  obtain ⟨current, outer, expected⟩ := reading
  obtain ⟨offset, lexeme⟩ := placed
  cases expected with
  | item => exact .item trivial (readItem_eq_ok_iff.mp read)
  | quantifier => exact quantifier_step read
  | laziness stop =>
      simp only [readLexeme] at read
      split_ifs at read with mark
      · cases read
        exact .lazy rfl mark
      · exact .item mark (readItem_eq_ok_iff.mp read)
  | least =>
      simp only [readLexeme] at read
      split at read
      · split at read
        · cases read
          exact .awaits (.comma ‹_›)
        · cases read
      · cases read
  | comma least =>
      simp only [readLexeme] at read
      split at read
      · cases read
        exact .quantified .exactly
      · cases read
        exact .awaits .most
      · cases read
  | most least =>
      simp only [readLexeme] at read
      split at read
      · cases read
        exact .quantified .unlimited
      · cases read
        exact .awaits .brace
      · cases read
  | brace least most =>
      simp only [readLexeme] at read
      split at read
      · split_ifs at read with reversed
        · cases read
        · cases read
          exact .quantified (.between reversed)
      · cases read
  | member members => exact member_step read
  | opened start =>
      simp only [readLexeme] at read
      split_ifs at read with mark
      · cases read
        cases mark
        exact .awaits .special
      · exact .captured rfl mark (readItem_eq_ok_iff.mp read)
  | special start => exact special_step read
  | behind start =>
      simp only [readLexeme] at read
      split_ifs at read with back barred
      · cases read
        cases back
        exact .opened .behind
      · cases read
        cases barred
        exact .opened .notBehind
      · cases read

theorem readLexeme_of_lexemeStep {reading next : Reading} {placed : Placed}
    (step : LexemeStep registry reading placed next) :
    readLexeme registry nodeType reading placed = .ok next := by
  cases step with
  | item admits step =>
      rw [readLexeme_of_admits registry nodeType admits]
      exact readItem_eq_ok_iff.mpr step
  | captured opened bare step =>
      rw [readLexeme_captured registry nodeType opened bare]
      exact readItem_eq_ok_iff.mpr step
  | quantified quantifies =>
      obtain ⟨current, outer, expected⟩ := reading
      obtain ⟨offset, lexeme⟩ := placed
      cases quantifies with
      | between ordered => simp [readLexeme, ordered]
      | _ => rfl
  | lazy laziness mark => simp [readLexeme, laziness, mark]
  | awaits awaits =>
      obtain ⟨current, outer, expected⟩ := reading
      cases awaits with
      | comma counted => simp [readLexeme, counted]
      | _ => simp [readLexeme]
  | opened opens =>
      obtain ⟨current, outer, expected⟩ := reading
      cases opens <;> simp [readLexeme]
  | member expected name resolved =>
      simp only [readLexeme, expected, name]
      exact bind_eq_ok_iff.mpr ⟨_, resolve_eq_ok_iff.mpr resolved, rfl⟩
  | set expected sign present => simp [readLexeme, expected, sign, present]

theorem readLexeme_eq_ok_iff {reading next : Reading} {placed : Placed} :
    readLexeme registry nodeType reading placed = .ok next ↔
      LexemeStep registry reading placed next :=
  ⟨lexemeStep_of_readLexeme, readLexeme_of_lexemeStep⟩

/-! ## Ends of patterns -/

/-- The pattern may end here. -/
def Expected.Settled : Expected → Prop
  | .item | .quantifier | .laziness _ => True
  | _ => False

theorem finish_eq_ok_iff {reading : Reading} {stop : Nat} {pattern : SymbolPattern} :
    finish nodeType reading stop = .ok pattern ↔
      reading.expected.Settled ∧ reading.outer = [] ∧ reading.current.body = pattern := by
  obtain ⟨current, outer, expected⟩ := reading
  cases expected <;> cases outer <;> simp [finish, malformed, Expected.Settled]

end RowGrammar.SymbolPattern
