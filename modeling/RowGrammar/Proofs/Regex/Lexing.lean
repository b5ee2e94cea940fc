import Mathlib.Data.List.Forall2
import RowGrammar.Proofs.Regex.Settled
import RowGrammar.Token.Tokenizer

/-!
# Lexemes of joined patterns

Patterns in parentheses, with bars between them, have the lexemes of the single patterns.  A flag
that one of them switches on is off again after its closing parenthesis.
-/

namespace RowGrammar

namespace Regex

/-- Whether a lexeme makes blank characters and comments layout. -/
def Lexeme.switchesLayout : Lexeme → Bool
  | .flags inner | .openPlain inner => inner.spaced
  | _ => false

/-- Whether a pattern makes blank characters and comments layout somewhere. -/
def switchesLayout (pattern : String) : Bool :=
  (lexemes? pattern.toList).any (·.any Lexeme.switchesLayout)

def Lexeme.opensGroup : Lexeme → Bool
  | .openPlain _ | .openCapture _ => true
  | _ => false

/-- The flags after a lexeme and those around each group that is open then. -/
def enter? (flags : Flags) (outer : List Flags) : Lexeme → Option (Flags × List Flags)
  | .flags inner => some (inner, outer)
  | .openPlain inner => some (inner, flags :: outer)
  | .openCapture _ => some (flags, flags :: outer)
  | .close =>
      match outer with
      | around :: outer => some (around, outer)
      | [] => none
  | .atom _ | .bar | .quantifier _ _ _ => some (flags, outer)

theorem lexemesFrom_succ_eq_some_iff {fuel : Nat} {flags : Flags} {outer : List Flags}
    {chars : List Char} {lexemes : List Lexeme} (present : flags.skip chars ≠ []) :
    lexemesFrom (fuel + 1) flags outer chars = some lexemes ↔
      ∃ lexeme rest inner around later, lexeme? flags (flags.skip chars) = some (lexeme, rest) ∧
        enter? flags outer lexeme = some (inner, around) ∧
        lexemesFrom fuel inner around rest = some later ∧ lexemes = lexeme :: later := by
  have body : lexemesFrom (fuel + 1) flags outer chars =
      (lexeme? flags (flags.skip chars)).bind fun read =>
        (enter? flags outer read.1).bind fun entered =>
          (lexemesFrom fuel entered.1 entered.2 read.2).bind fun later =>
            some (read.1 :: later) := by
    conv => lhs; unfold lexemesFrom
    split
    · rename_i empty
      exact absurd empty present
    · congr 1
      funext read
      obtain ⟨lexeme, rest⟩ := read
      cases lexeme with
      | close => cases outer <;> rfl
      | _ => rfl
  simp only [body, Option.bind_eq_some_iff, Option.some.injEq, Prod.exists]
  constructor
  · rintro ⟨lexeme, rest, read, inner, around, enters, later, reads, rfl⟩
    exact ⟨lexeme, rest, inner, around, later, read, enters, reads, rfl⟩
  · rintro ⟨lexeme, rest, inner, around, later, read, enters, reads, rfl⟩
    exact ⟨lexeme, rest, read, inner, around, enters, later, reads, rfl⟩

theorem lexemesFrom_succ_eq_some_iff_of_unspaced {fuel : Nat} {flags : Flags} {outer : List Flags}
    {chars : List Char} {lexemes : List Lexeme} (unspaced : flags.spaced = false)
    (present : chars ≠ []) :
    lexemesFrom (fuel + 1) flags outer chars = some lexemes ↔
      ∃ lexeme rest inner around later, lexeme? flags chars = some (lexeme, rest) ∧
        enter? flags outer lexeme = some (inner, around) ∧
        lexemesFrom fuel inner around rest = some later ∧ lexemes = lexeme :: later := by
  have skips := skip_eq_self unspaced chars
  rw [lexemesFrom_succ_eq_some_iff (by rwa [skips]), skips]

theorem unspaced_of_enter? {flags inner : Flags} {outer around : List Flags} {lexeme : Lexeme}
    (enters : enter? flags outer lexeme = some (inner, around))
    (unspaced : ∀ each ∈ flags :: outer, each.spaced = false)
    (plain : lexeme.switchesLayout = false) :
    ∀ each ∈ inner :: around, each.spaced = false := by
  have here := unspaced flags List.mem_cons_self
  cases lexeme with
  | close =>
      cases outer with
      | nil => cases enters
      | cons first outer =>
          cases enters
          exact fun each member => unspaced each (List.mem_cons_of_mem _ member)
  | flags new =>
      cases enters
      intro each member
      rcases List.mem_cons.mp member with rfl | outside
      · exact plain
      · exact unspaced each (List.mem_cons_of_mem _ outside)
  | openPlain new =>
      cases enters
      intro each member
      rcases List.mem_cons.mp member with rfl | outside
      · exact plain
      · exact unspaced each outside
  | openCapture name =>
      cases enters
      intro each member
      rcases List.mem_cons.mp member with rfl | outside
      · exact here
      · exact unspaced each outside
  | atom regex => cases enters; exact unspaced
  | bar => cases enters; exact unspaced
  | quantifier least most greedy => cases enters; exact unspaced

/-- A place in a pattern: the flags there, those around each open group, and what is left. -/
structure Place where
  flags : Flags
  outer : List Flags
  chars : List Char

/-- Lexemes that lie between two places of a pattern, none of them inside layout. -/
inductive Lexes : Place → List Lexeme → Place → Prop where
  | done {place : Place} : place.flags.spaced = false → Lexes place [] place
  | next {place last : Place} {lexeme : Lexeme} {lexemes : List Lexeme} {rest : List Char}
      {flags : Flags} {outer : List Flags} :
      place.flags.spaced = false → lexeme? place.flags place.chars = some (lexeme, rest) →
      enter? place.flags place.outer lexeme = some (flags, outer) →
      Lexes ⟨flags, outer, rest⟩ lexemes last →
      Lexes place (lexeme :: lexemes) last

namespace Lexes

theorem trans {first middle last : Place} {lexemes later : List Lexeme}
    (lexes : Lexes first lexemes middle) (further : Lexes middle later last) :
    Lexes first (lexemes ++ later) last := by
  induction lexes with
  | done _ => exact further
  | next unspaced read enters _ induction => exact .next unspaced read enters (induction further)

/-- A closing parenthesis behind the pattern and groups around it do not change its lexemes. -/
theorem append_close {first last : Place} {lexemes : List Lexeme}
    (lexes : Lexes first lexemes last) (base : List Flags) (more : List Char) :
    Lexes ⟨first.flags, first.outer ++ base, first.chars ++ ')' :: more⟩ lexemes
      ⟨last.flags, last.outer ++ base, last.chars ++ ')' :: more⟩ := by
  induction lexes with
  | done unspaced => exact .done unspaced
  | @next place last lexeme lexemes rest flags outer unspaced read enters _ induction =>
      refine .next unspaced (lexeme?_settled unspaced _ _ _ read more) ?_ induction
      cases lexeme with
      | close =>
          cases around : place.outer with
          | nil =>
              rw [around] at enters
              cases enters
          | cons inner around_ =>
              rw [around] at enters
              cases enters
              rfl
      | atom regex => cases enters; rfl
      | flags inner => cases enters; rfl
      | openPlain inner => cases enters; rfl
      | openCapture name => cases enters; rfl
      | bar => cases enters; rfl
      | quantifier least most greedy => cases enters; rfl

/-- Reading a whole pattern starts with the lexemes up to any place of it. -/
theorem lexemesFrom {first last : Place} {lexemes : List Lexeme}
    (lexes : Lexes first lexemes last) {fuel : Nat} {all : List Lexeme}
    (reads : Regex.lexemesFrom fuel first.flags first.outer first.chars = some all) :
    ∃ fuel later, Regex.lexemesFrom fuel last.flags last.outer last.chars = some later ∧
      all = lexemes ++ later := by
  induction lexes generalizing fuel all with
  | done _ => exact ⟨fuel, all, reads, rfl⟩
  | @next place last lexeme lexemes rest flags outer unspaced read enters _ induction =>
      cases fuel with
      | zero => cases reads
      | succ fuel =>
          have present : place.chars ≠ [] := by
            intro empty
            rw [empty] at read
            cases read
          obtain ⟨_, _, _, _, later, read_, enters_, reads_, rfl⟩ :=
            (lexemesFrom_succ_eq_some_iff_of_unspaced unspaced present).mp reads
          cases read.symm.trans read_
          cases enters.symm.trans enters_
          obtain ⟨fuel_, later_, continues, equality⟩ := induction reads_
          exact ⟨fuel_, later_, continues, congrArg _ equality⟩

theorem unspaced {first last : Place} {lexemes : List Lexeme} (lexes : Lexes first lexemes last) :
    last.flags.spaced = false := by
  induction lexes with
  | done unspaced => exact unspaced
  | next _ _ _ _ induction => exact induction

/-- The groups still open are those opened and not closed. -/
theorem outer_length {first last : Place} {lexemes : List Lexeme}
    (lexes : Lexes first lexemes last) :
    last.outer.length + lexemes.count .close =
      first.outer.length + lexemes.countP Lexeme.opensGroup := by
  induction lexes with
  | done _ => rfl
  | @next place last lexeme lexemes rest flags outer _ _ enters _ induction =>
      cases lexeme with
      | close =>
          cases around : place.outer with
          | nil =>
              rw [around] at enters
              cases enters
          | cons inner around_ =>
              rw [around] at enters
              cases enters
              dsimp only at induction
              rw [List.countP_cons_of_neg (by decide), List.count_cons_self, List.length_cons]
              omega
      | atom regex => cases enters; simpa [Lexeme.opensGroup] using induction
      | flags inner => cases enters; simpa [Lexeme.opensGroup] using induction
      | openPlain inner =>
          cases enters
          rw [List.countP_cons_of_pos rfl, List.count_cons_of_ne (by simp)]
          rw [List.length_cons] at induction
          omega
      | openCapture name =>
          cases enters
          rw [List.countP_cons_of_pos rfl, List.count_cons_of_ne (by simp)]
          rw [List.length_cons] at induction
          omega
      | bar => cases enters; simpa [Lexeme.opensGroup] using induction
      | quantifier least most greedy => cases enters; simpa [Lexeme.opensGroup] using induction

end Lexes

theorem lexes_of_lexemesFrom {fuel : Nat} (place : Place) {lexemes : List Lexeme}
    (reads : lexemesFrom fuel place.flags place.outer place.chars = some lexemes)
    (unspaced : ∀ flags ∈ place.flags :: place.outer, flags.spaced = false)
    (plain : ∀ lexeme ∈ lexemes, lexeme.switchesLayout = false) :
    ∃ flags outer, Lexes place lexemes ⟨flags, outer, []⟩ := by
  induction fuel generalizing place lexemes with
  | zero => cases reads
  | succ fuel induction =>
      obtain ⟨flags, outer, chars⟩ := place
      have here : flags.spaced = false := unspaced flags List.mem_cons_self
      by_cases present : chars = []
      · subst present
        unfold lexemesFrom at reads
        rw [skip_eq_self here] at reads
        cases reads
        exact ⟨flags, outer, .done here⟩
      · obtain ⟨lexeme, rest, inner, around, later, read, enters, continues, rfl⟩ :=
          (lexemesFrom_succ_eq_some_iff_of_unspaced here present).mp reads
        have still := unspaced_of_enter? enters unspaced (plain lexeme List.mem_cons_self)
        have later (lexeme : Lexeme) (member : lexeme ∈ later) := plain lexeme
          (List.mem_cons_of_mem _ member)
        obtain ⟨flags_, outer_, lexes⟩ := induction ⟨inner, around, rest⟩ continues still later
        exact ⟨flags_, outer_, .next here read enters lexes⟩

/-! ## Joined patterns -/

/-- The patterns in parentheses, with bars between them. -/
def joined : List (List Char) → List Char
  | [] => []
  | [chars] => '(' :: (chars ++ [')'])
  | chars :: patterns => '(' :: (chars ++ ')' :: '|' :: joined patterns)

/-- The lexemes of patterns in parentheses, with bars between them. -/
def joinedLexemes : List (List Lexeme) → List Lexeme
  | [] => []
  | [lexemes] => .openCapture none :: (lexemes ++ [.close])
  | lexemes :: patterns =>
      .openCapture none :: (lexemes ++ .close :: .bar :: joinedLexemes patterns)

theorem joinedLexemes_cons_cons (lexemes next : List Lexeme) (lists : List (List Lexeme)) :
    joinedLexemes (lexemes :: next :: lists) =
      (.openCapture none :: (lexemes ++ [.close])) ++ .bar :: joinedLexemes (next :: lists) := by
  simp [joinedLexemes]

theorem toList_compositePattern (patterns : List String) :
    (Tokenizer.compositePattern patterns).toList = joined (patterns.map String.toList) := by
  unfold Tokenizer.compositePattern
  induction patterns with
  | nil => simp [joined]
  | cons pattern patterns induction =>
      cases patterns with
      | nil => simp [joined]
      | cons next patterns =>
          rw [List.map_cons] at induction
          rw [List.map_cons, List.map_cons, String.intercalate_cons_cons, String.toList_append,
            induction]
          simp [joined]

/-- A pattern whose lexemes can be put into parentheses: it opens and closes the same groups and
does not start with a repetition. -/
structure Enclosable (lexemes : List Lexeme) : Prop where
  balanced : lexemes.count .close = lexemes.countP Lexeme.opensGroup
  unrepeated : ∀ least most greedy later, lexemes ≠ .quantifier least most greedy :: later
  plain : ∀ lexeme ∈ lexemes, lexeme.switchesLayout = false

theorem groupStart?_of_unrepeated {fuel : Nat} {chars : List Char} {lexemes : List Lexeme}
    (reads : lexemesFrom fuel .initial [] chars = some lexemes) (enclosable : Enclosable lexemes)
    (more : List Char) :
    groupStart? .initial (chars ++ ')' :: more) =
      some (.openCapture none, chars ++ ')' :: more) := by
  have unasked : ∀ tail, chars ≠ '?' :: tail := by
    rintro tail rfl
    cases fuel with
    | zero => cases reads
    | succ fuel =>
        obtain ⟨lexeme, _, _, _, later, read, _, _, equality⟩ :=
          (lexemesFrom_succ_eq_some_iff_of_unspaced rfl (by simp)).mp reads
        simp only [lexeme?, Option.some.injEq] at read
        unfold quantifier at read
        split at read
        · cases read
          exact enclosable.unrepeated _ _ _ _ equality
        · cases read
          exact enclosable.unrepeated _ _ _ _ equality
  rw [groupStart?_eq_some_iff, skip_eq_self rfl]
  exact .capturing (ne_cons_append_close (by decide) unasked more)

theorem Lexes.enclosed {fuel : Nat} {chars : List Char} {lexemes : List Lexeme}
    (reads : Regex.lexemesFrom fuel .initial [] chars = some lexemes)
    (enclosable : Enclosable lexemes) (more : List Char) :
    Lexes ⟨.initial, [], '(' :: (chars ++ ')' :: more)⟩
      (.openCapture none :: (lexemes ++ [.close])) ⟨.initial, [], more⟩ := by
  obtain ⟨flags, outer, lexes⟩ := lexes_of_lexemesFrom ⟨.initial, [], chars⟩ reads
    (by simp [Flags.initial]) enclosable.plain
  have depth := lexes.outer_length
  rw [enclosable.balanced] at depth
  have closed : outer = [] := by
    apply List.length_eq_zero_iff.mp
    simpa using depth
  subst closed
  have unspaced : flags.spaced = false := lexes.unspaced
  have opens := groupStart?_of_unrepeated reads enclosable more
  refine .next rfl opens rfl ?_
  apply (lexes.append_close [.initial] more).trans
  exact .next unspaced rfl rfl (.done rfl)

/-- The lexemes of joined patterns are those of the patterns, each in a group. -/
theorem lexemesFrom_joined {patterns : List (List Char)} {lists : List (List Lexeme)}
    (each : List.Forall₂ (fun chars lexemes =>
      lexemes? chars = some lexemes ∧ Enclosable lexemes) patterns lists)
    {fuel : Nat} {all : List Lexeme}
    (reads : lexemesFrom fuel .initial [] (joined patterns) = some all) :
    all = joinedLexemes lists := by
  have nothing {fuel : Nat} {later : List Lexeme}
      (reads : lexemesFrom fuel .initial [] [] = some later) : later = [] := by
    cases fuel with
    | zero => cases reads
    | succ fuel =>
        unfold lexemesFrom at reads
        rw [skip_eq_self rfl] at reads
        cases reads
        rfl
  induction each generalizing fuel all with
  | nil => exact nothing reads
  | @cons chars lexemes patterns lists first rest induction =>
      obtain ⟨lexed, enclosable⟩ := first
      cases rest with
      | nil =>
          obtain ⟨_, later, finishes, rfl⟩ := (Lexes.enclosed lexed enclosable []).lexemesFrom reads
          rw [nothing finishes]
          simp [joinedLexemes]
      | cons second rest =>
          obtain ⟨_, later, continues, rfl⟩ :=
            (Lexes.enclosed lexed enclosable ('|' :: joined _)).lexemesFrom reads
          have bar (chars : List Char) :
              Lexes ⟨.initial, [], '|' :: chars⟩ [.bar] ⟨.initial, [], chars⟩ := by
            have reads : lexeme? .initial ('|' :: chars) = some (.bar, chars) := rfl
            exact .next rfl reads rfl (.done rfl)
          obtain ⟨_, last, finishes, rfl⟩ := (bar _).lexemesFrom continues
          rw [induction finishes, joinedLexemes_cons_cons]
          rfl

end Regex

end RowGrammar
