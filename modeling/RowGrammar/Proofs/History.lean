import RowGrammar.Proofs.Reduction.Counterparts

/-!
# Histories of sessions

Whatever has been asked of a session before, it only has more nodes than a fresh one.  Tokens of a
text stand for the same leaves in both, and without a node limit they are parsed in the same way.
-/

namespace RowGrammar

open NodeTable

/-- What can be asked of a session. -/
inductive Session.Call where
  | tokenize (text : String) (options : TokenizeOptions)
  | parse (tokens : List Token) (options : ParseOptions)

namespace Engine

/-- The session after a call, whether the call succeeds or fails. -/
def perform (engine : Engine) (session : Session) : Session.Call → Session
  | .tokenize text options => (engine.tokenizeIn session text options).2
  | .parse tokens options => (engine.parseIn session tokens options).2

/-- The session after calls, one after the other. -/
def replay (engine : Engine) (session : Session) (calls : List Session.Call) : Session :=
  calls.foldl engine.perform session

theorem tokenizeIn_grows (engine : Engine) (session : Session) (text : String)
    (options : TokenizeOptions) :
    ∃ added, session.nodes.Grows added (engine.tokenizeIn session text options).2.nodes := by
  rw [tokenizeIn_eq]
  exact (Session.addPieces_holds engine.grammar 0 (engine.scanned text options).pieces session).1

theorem perform_grows (engine : Engine) (session : Session) (call : Session.Call) :
    ∃ added, session.nodes.Grows added (engine.perform session call).nodes := by
  cases call with
  | tokenize text options => exact engine.tokenizeIn_grows session text options
  | parse tokens options => exact Session.parseIn_grows engine session tokens options

/-- No call changes a node that is there. -/
theorem replay_grows (engine : Engine) (session : Session) (calls : List Session.Call) :
    ∃ added, session.nodes.Grows added (engine.replay session calls).nodes := by
  induction calls generalizing session with
  | nil => exact ⟨[], .refl _⟩
  | cons call calls induction =>
      obtain ⟨added, grows⟩ := engine.perform_grows session call
      obtain ⟨further, grew⟩ := induction (engine.perform session call)
      exact ⟨added ++ further, grows.trans grew⟩

end Engine

namespace Session

/-- Pieces become tokens with the same leaves in every session. -/
theorem addPieces_twins (grammar : Grammar) (registry : Registry) (index : Nat)
    (pieces : List Piece) (session other : Session) :
    Twins registry (addPieces grammar index pieces session).2.nodes
      (addPieces grammar index pieces other).2.nodes
      ((addPieces grammar index pieces session).1.filterMap Token.symbol?)
      ((addPieces grammar index pieces other).1.filterMap Token.symbol?) := by
  induction pieces generalizing index session other with
  | nil => exact .nil
  | cons piece pieces induction =>
      rw [addPieces_cons, addPieces_cons]
      have later := induction (index + 1) (session.addPiece grammar piece).2
        (other.addPiece grammar piece).2
      cases suppressed : grammar.isSuppressed piece.nodeType with
      | true =>
          have unchanged (session : Session) :
              session.addPiece grammar piece = (none, session) := by
            simp [addPiece, suppressed]
          rw [unchanged, unchanged] at later ⊢
          exact later
      | false =>
          have pushed (session : Session) : session.addPiece grammar piece =
              (some session.nodes.size,
                ⟨session.nodes.push ⟨piece.nodeType, .text piece.text⟩⟩) := by
            simp [addPiece, suppressed]
          have leaf (table : NodeTable) :
              (table.push ⟨piece.nodeType, .text piece.text⟩).Shows registry
                ⟨piece.nodeType, table.size⟩ (.leaf (registry.name piece.nodeType) piece.text) := by
            constructor
            · rw [get?_push_size]
              rfl
            · simp [tree?, treeWithin, get?_push_size]
          rw [pushed, pushed] at later ⊢
          obtain ⟨⟨added, grows⟩, _⟩ := addPieces_holds grammar (index + 1) pieces
            ⟨session.nodes.push ⟨piece.nodeType, .text piece.text⟩⟩
          obtain ⟨⟨added', grows'⟩, _⟩ := addPieces_holds grammar (index + 1) pieces
            ⟨other.nodes.push ⟨piece.nodeType, .text piece.text⟩⟩
          exact .cons ⟨rfl, _, (leaf session.nodes).mono grows, (leaf other.nodes).mono grows'⟩
            later

end Session

namespace Engine

open Grammar

/-- Two lists of tokens with the same leaves are parsed in the same way. -/
theorem parseIn_twins {engine : Engine} (compiled : engine.Compiled) {session other : Session}
    {tokens tokens' : List Token} {options : ParseOptions} (unlimited : options.maxNodes = none)
    (twins : Twins engine.grammar.registry session.nodes other.nodes
      (tokens.filterMap Token.symbol?) (tokens'.filterMap Token.symbol?)) :
    (engine.parseIn session tokens options).1.map ParseReport.outcome =
      (engine.parseIn other tokens' options).1.map ParseReport.outcome := by
  have apart : (engine.reduction options).grammar.NamesApart := compiled.namesApart
  have abreast := (engine.reduction options).parse_abreast apart unlimited
    (options.parser.getD engine.grammar.mainParser)
    (.start session.nodes other.nodes) twins
  rw [parseIn_eq, parseIn_eq]
  generalize (engine.reduction options).parse _ _ (.start session.nodes) = result at abreast ⊢
  generalize (engine.reduction options).parse _ _ (.start other.nodes) = result' at abreast ⊢
  cases abreast with
  | error error state state' => rfl
  | ok _ outcome => exact congrArg Except.ok outcome.symm

/-- A session never loses or changes a node, and what came before, in between and after makes no
difference to a parse without a node limit: it ends as it does when the text of its tokens is
tokenized and parsed in a session of its own. -/
theorem parseIn_replayed {engine : Engine} (compiled : engine.Compiled) :
    (∀ (session : Session) (calls : List Session.Call), ∃ added,
      session.nodes.Grows added (engine.replay session calls).nodes) ∧
    ∀ {earlier later : List Session.Call} {text : String} {reading : TokenizeOptions}
      {tokens : List Token} {middle : Session},
      engine.tokenizeIn (engine.replay .start earlier) text reading = (.ok tokens, middle) →
      ∃ tokens' fresh, engine.tokenizeIn .start text reading = (.ok tokens', fresh) ∧
        ∀ options : ParseOptions, options.maxNodes = none →
          (engine.parseIn (engine.replay middle later) tokens options).1.map
              ParseReport.outcome =
            (engine.parseIn fresh tokens' options).1.map ParseReport.outcome := by
  refine ⟨engine.replay_grows, ?_⟩
  intro earlier later text reading tokens middle tokenized
  rw [tokenizeIn_eq, Prod.mk.injEq] at tokenized
  obtain ⟨made, rfl⟩ := tokenized
  rw [tokenizeIn_eq]
  cases failure : (engine.scanned text reading).failure with
  | some error =>
      rw [failure] at made
      cases made
  | none =>
      rw [failure] at made
      cases made
      refine ⟨_, _, rfl, ?_⟩
      intro options unlimited
      obtain ⟨added, grows⟩ := engine.replay_grows
        ((engine.replay .start earlier).addPieces engine.grammar 0
          (engine.scanned text reading).pieces).2 later
      have twins := Session.addPieces_twins engine.grammar engine.grammar.registry 0
        (engine.scanned text reading).pieces (engine.replay .start earlier) .start
      exact parseIn_twins compiled unlimited (twins.mono grows (.refl _))

/-- Calls that fail and calls that succeed leave their nodes in front of those of a text, which are
then parsed twice. -/
theorem parseIn_late :
    (nestedEngine.parseIn
        (nestedEngine.replay
          (nestedEngine.tokenizeIn
            (nestedEngine.replay .start
              [.tokenize "ab" ⟨none, true⟩, .parse [] {}, .tokenize "a" {}]) "aa" {}).2
          [.parse [⟨1, "a", 0, some 2⟩, ⟨1, "a", 1, some 3⟩] {}, .tokenize "aaa" {}])
        [⟨1, "a", 0, some 2⟩, ⟨1, "a", 1, some 3⟩] {}).1.map ParseReport.outcome =
      (nestedEngine.parseIn (nestedEngine.tokenizeIn .start "aa" {}).2
        [⟨1, "a", 0, some 0⟩, ⟨1, "a", 1, some 1⟩] {}).1.map ParseReport.outcome := by
  have late : (nestedEngine.tokenizeIn (nestedEngine.replay .start
        [.tokenize "ab" ⟨none, true⟩, .parse [] {}, .tokenize "a" {}]) "aa" {}).1 =
      .ok [⟨1, "a", 0, some 2⟩, ⟨1, "a", 1, some 3⟩] := by decide +kernel
  have made : (nestedEngine.tokenizeIn .start "aa" {}).1 =
      .ok [⟨1, "a", 0, some 0⟩, ⟨1, "a", 1, some 1⟩] := by decide +kernel
  obtain ⟨tokens, fresh, tokenized, all⟩ :=
    (parseIn_replayed (.ofRows ofRows_nestedRows)).2 (Prod.ext late rfl)
  have first := congrArg Prod.fst tokenized
  rw [made] at first
  cases first
  have second := congrArg Prod.snd tokenized
  rw [second]
  exact all {} rfl

end Engine

end RowGrammar
