import RowGrammar.Proofs.Derivation.Reordering

/-!
# Correcting the order of inferred rows

A correction moves alternatives and loses none.  There are no more orders than it may try, so it
goes on until it succeeds, fails or comes back.  It succeeds where the tokens are the leaves, and
only there, unless a pattern has the character in it by which signatures separate patterns.
-/

namespace RowGrammar.Derivation

open RowGrammar.Text

namespace TokenInference

/-! ## Rounds -/

section

variable (parser source : String) (leaves : List LeafOccurrence) (seeds : List Row)

/-- One round of the correction: the next order, or the error to end with, if any. -/
def round (inference : TokenInference) : Except (Option DeriveError) TokenInference :=
  match inference.tokenizeWith parser source (leaves.map (·.nodeType)) seeds with
  | .error error => .error (some error)
  | .ok tokens =>
      match mismatch? 0 tokens leaves with
      | none =>
          if tokens.length ≠ leaves.length then
            .error (some (.tokenCountMismatch leaves.length tokens.length))
          else .error none
      | some (index, token, leaf) =>
          match inference.reorder index token leaf with
          | .error error => .error (some error)
          | .ok moved => .ok moved

theorem correctFrom_succ (fuel : Nat) (seen : List String) (inference : TokenInference) :
    correctFrom parser source leaves seeds (fuel + 1) seen inference =
      if inference.signature ∈ seen then (some .tokenizerLoop, inference)
      else
        match inference.round parser source leaves seeds with
        | .error error => (error, inference)
        | .ok moved =>
            correctFrom parser source leaves seeds fuel (inference.signature :: seen) moved := by
  rw [correctFrom, round]
  simp only [List.contains_iff_mem]
  split_ifs with again
  · rfl
  · cases inference.tokenizeWith parser source (leaves.map (·.nodeType)) seeds with
    | error error => rfl
    | ok tokens =>
        cases differs : mismatch? 0 tokens leaves with
        | none =>
            simp only [differs]
            split_ifs <;> rfl
        | some found =>
            obtain ⟨index, token, leaf⟩ := found
            simp only [differs]
            cases inference.reorder index token leaf <;> rfl

/-- The tokens that matter are the leaves. -/
def Exact (inference : TokenInference) : Prop :=
  inference.tokenizeWith parser source (leaves.map (·.nodeType)) seeds =
    .ok (leaves.map fun leaf => (leaf.nodeType, leaf.text))

/-- What the correction comes to from an order, where the orders with the signatures in `seen` have
been tried before, however many rounds it takes. -/
inductive Corrects :
    List String → TokenInference → Option DeriveError × TokenInference → Prop where
  | returns {seen : List String} {inference : TokenInference} :
      inference.signature ∈ seen → Corrects seen inference (some .tokenizerLoop, inference)
  | ends {seen : List String} {inference : TokenInference} {error : Option DeriveError} :
      inference.signature ∉ seen → inference.round parser source leaves seeds = .error error →
      Corrects seen inference (error, inference)
  | goes {seen : List String} {inference moved : TokenInference}
      {result : Option DeriveError × TokenInference} :
      inference.signature ∉ seen → inference.round parser source leaves seeds = .ok moved →
      Corrects (inference.signature :: seen) moved result → Corrects seen inference result

end

theorem mismatch?_eq_none_iff {index : Nat} {tokens : List (String × String)}
    {leaves : List LeafOccurrence} :
    mismatch? index tokens leaves = none ∧ tokens.length = leaves.length ↔
      tokens = leaves.map fun leaf => (leaf.nodeType, leaf.text) := by
  induction tokens generalizing index leaves with
  | nil => cases leaves <;> simp [mismatch?]
  | cons token tokens induction =>
      cases leaves with
      | nil => simp [mismatch?]
      | cons leaf leaves =>
          rw [mismatch?, List.map_cons, List.cons.injEq, ← @induction (index + 1) leaves]
          split_ifs with differs
          · simp only [false_and, false_iff, not_and]
            rintro rfl
            simp at differs
          · rw [not_or, not_not, not_not] at differs
            simp [Prod.ext_iff, differs]

section

variable {parser source : String} {leaves : List LeafOccurrence} {seeds : List Row}
  {start inference : TokenInference} {seen : List String}
  {result other : Option DeriveError × TokenInference}

/-- A round ends without an error where the tokens are the leaves. -/
theorem round_eq_error_none_iff :
    inference.round parser source leaves seeds = .error none ↔
      inference.Exact parser source leaves seeds := by
  rw [round, Exact]
  cases inference.tokenizeWith parser source (leaves.map (·.nodeType)) seeds with
  | error error => simp
  | ok tokens =>
      rw [Except.ok.injEq, ← @mismatch?_eq_none_iff 0]
      dsimp only
      split
      · split_ifs with counted <;> simp_all
      · split <;> simp_all

/-- A round goes on with an order of the same alternatives. -/
theorem round_eq_ok {moved : TokenInference}
    (goes : inference.round parser source leaves seeds = .ok moved) :
    inference.Reordered moved ∧ ∃ tokens, inference.tokenizeWith parser source
      (leaves.map (·.nodeType)) seeds = .ok tokens := by
  rw [round] at goes
  split at goes
  · cases goes
  · rename_i tokens tokenized
    refine ⟨?_, tokens, tokenized⟩
    split at goes
    · split_ifs at goes
    · split at goes
      · cases goes
      · cases goes
        exact reordered_of_reorder ‹_›

/-! ## The correction -/

theorem Corrects.unique (one : Corrects parser source leaves seeds seen inference result)
    (two : Corrects parser source leaves seeds seen inference other) : result = other := by
  induction one with
  | returns again =>
      cases two with
      | returns _ => rfl
      | ends fresh _ => exact absurd again fresh
      | goes fresh _ _ => exact absurd again fresh
  | ends fresh ended =>
      cases two with
      | returns again => exact absurd again fresh
      | ends _ ended' =>
          cases ended.symm.trans ended'
          rfl
      | goes _ gone _ => cases ended.symm.trans gone
  | goes fresh gone _ induction =>
      cases two with
      | returns again => exact absurd again fresh
      | ends _ ended => cases gone.symm.trans ended
      | goes _ gone' later =>
          cases gone.symm.trans gone'
          exact induction later

theorem Corrects.reordered (corrects : Corrects parser source leaves seeds seen inference result) :
    inference.Reordered result.2 := by
  induction corrects with
  | returns _ => exact .refl _
  | ends _ _ => exact .refl _
  | goes _ gone _ induction => exact (round_eq_ok gone).1.trans induction

theorem Corrects.exact (corrects : Corrects parser source leaves seeds seen inference result)
    (succeeds : result.1 = none) : result.2.Exact parser source leaves seeds := by
  induction corrects with
  | returns _ => cases succeeds
  | ends _ ended =>
      cases succeeds
      exact round_eq_error_none_iff.mp ended
  | goes _ _ _ induction => exact induction succeeds

/-- Signatures of different orders of some alternatives tell how they tokenize. -/
def Telling (parser source : String) (leaves : List LeafOccurrence) (seeds : List Row)
    (start : TokenInference) : Prop :=
  ∀ one two, start.Reordered one → start.Reordered two → one.signature = two.signature →
    ∀ tokens, one.tokenizeWith parser source (leaves.map (·.nodeType)) seeds = .ok tokens →
      two.tokenizeWith parser source (leaves.map (·.nodeType)) seeds = .ok tokens

/-- Where signatures are telling, an order that comes back has been found wrong before. -/
theorem Corrects.succeeds (corrects : Corrects parser source leaves seeds seen inference result)
    (telling : Telling parser source leaves seeds start) (reordered : start.Reordered inference)
    (tried : ∀ text ∈ seen, ∃ one moved, start.Reordered one ∧ one.signature = text ∧
      one.round parser source leaves seeds = .ok moved)
    (exact_ : result.2.Exact parser source leaves seeds) : result.1 = none := by
  induction corrects with
  | @returns _ inference again =>
      obtain ⟨one, moved, before, same, gone⟩ := tried _ again
      obtain ⟨_, tokens, tokenized⟩ := round_eq_ok gone
      have again_ := telling one inference before reordered same tokens tokenized
      have exact_ : one.Exact parser source leaves seeds := by
        rw [Exact, tokenized, ← again_]
        exact exact_
      cases gone.symm.trans (round_eq_error_none_iff.mpr exact_)
  | ends _ ended =>
      cases ended.symm.trans (round_eq_error_none_iff.mpr exact_)
      rfl
  | goes _ gone _ induction =>
      refine induction (reordered.trans (round_eq_ok gone).1) ?_ exact_
      intro text member
      rcases List.mem_cons.mp member with rfl | earlier
      · exact ⟨_, _, reordered, rfl, gone⟩
      · exact tried text earlier

/-- No more orders can be tried than there are. -/
theorem length_le_orderBound (distinct : seen.Nodup)
    (tried : ∀ text ∈ seen, ∃ one, start.Reordered one ∧ one.signature = text) :
    seen.length ≤ start.orderBound := by
  have signatures : (start.arrangements.map signature).length = start.orderBound := by
    rw [List.length_map, length_arrangements]
  rw [← signatures]
  refine (List.subperm_of_subset distinct fun text member => ?_).length_le
  obtain ⟨one, reordered, rfl⟩ := tried text member
  exact List.mem_map_of_mem (mem_arrangements reordered)

/-- With a round left for every order that has not been tried, the correction comes to its end. -/
theorem corrects_correctFrom {fuel : Nat} (reordered : start.Reordered inference)
    (distinct : seen.Nodup)
    (tried : ∀ text ∈ seen, ∃ one, start.Reordered one ∧ one.signature = text)
    (room : start.orderBound < fuel + seen.length) :
    Corrects parser source leaves seeds seen inference
      (correctFrom parser source leaves seeds fuel seen inference) := by
  induction fuel generalizing seen inference with
  | zero =>
      have bounded := length_le_orderBound distinct tried
      omega
  | succ fuel induction =>
      rw [correctFrom_succ]
      split_ifs with again
      · exact .returns again
      · split
        · exact .ends again ‹_›
        · rename_i moved gone
          refine .goes again gone (induction (reordered.trans (round_eq_ok gone).1)
            (List.nodup_cons.mpr ⟨again, distinct⟩) ?_ ?_)
          · exact List.forall_mem_cons.mpr ⟨⟨inference, reordered, rfl⟩, tried⟩
          · rw [List.length_cons]
            omega

/-! ## Telling signatures -/

theorem tokenizeWith_congr {one two : TokenInference} {leafTypes : List String}
    (same : Grammar.cleaned (seeds ++ one.rows parser) =
      Grammar.cleaned (seeds ++ two.rows parser)) :
    one.tokenizeWith parser source leafTypes seeds =
      two.tokenizeWith parser source leafTypes seeds := by
  have loads : Grammar.load (seeds ++ one.rows parser) =
      Grammar.load (seeds ++ two.rows parser) := by
    change ((Grammar.cleaned (seeds ++ one.rows parser)).foldlM Grammar.addRow .empty >>= _) = _
    rw [same]
    rfl
  rw [tokenizeWith, tokenizeWith, Engine.ofRows, Engine.ofRows, loads]

/-- Rows of a grammar have proper names, and each its own. -/
theorem valid_of_tokenizeWith {leafTypes : List String} {tokens : List (String × String)}
    (present : isBlankText parser = false)
    (tokenized : inference.tokenizeWith parser source leafTypes seeds = .ok tokens) :
    (∀ name ∈ inference.entries.map (·.nodeType), Registry.isValidName (trim name)) ∧
      ((inference.entries.map (·.nodeType)).map trim).Nodup := by
  rw [tokenizeWith] at tokenized
  split at tokenized
  · cases tokenized
  · rename_i engine made
    obtain ⟨grammar, loaded, _⟩ := bind_eq_ok_iff.mp made
    have readable := (Grammar.load_eq_ok_iff.mp loaded).1
    have kept : (inference.rows parser).filter (fun row => !row.isBlank) =
        inference.rows parser := by
      refine List.filter_eq_self.mpr fun row member => ?_
      obtain ⟨entry, _, rfl⟩ := List.mem_map.mp member
      simpa [Row.isBlank, Row.token] using present
    have types : ((inference.rows parser).map Row.trimmed).map (·.nodeType) =
        (inference.entries.map (·.nodeType)).map trim := by
      simp [rows, Row.trimmed, Row.token, Function.comp_def]
    rw [Grammar.cleaned, List.filter_append, List.map_append, kept] at readable
    constructor
    · intro name member
      have among : trim name ∈ ((inference.rows parser).map Row.trimmed).map (·.nodeType) :=
        types ▸ List.mem_map_of_mem member
      obtain ⟨row, listed, same⟩ := List.mem_map.mp among
      exact same ▸ (readable.each row (List.mem_append_right _ listed)).named
    · rw [← types]
      have distinct := readable.distinct
      rw [List.map_append] at distinct
      exact (List.nodup_append.mp distinct).2.1

/-- Signatures are telling where no pattern has the character that ends patterns in them. -/
theorem telling_of_plain (plain : ∀ entry ∈ start.entries, ∀ fragment ∈ entry.fragments,
    '\x00' ∉ fragment.pattern.toList) : Telling parser source leaves seeds start := by
  intro one two before after same tokens tokenized
  suffices cleaned : Grammar.cleaned (seeds ++ one.rows parser) =
      Grammar.cleaned (seeds ++ two.rows parser) from
    (tokenizeWith_congr cleaned).symm.trans tokenized
  cases blank : isBlankText parser with
  | true =>
      have dropped (inference : TokenInference) :
          Grammar.cleaned (seeds ++ inference.rows parser) = Grammar.cleaned seeds := by
        have nothing : (inference.rows parser).filter (fun row => !row.isBlank) = [] := by
          refine List.filter_eq_nil_iff.mpr fun row member => ?_
          obtain ⟨entry, _, rfl⟩ := List.mem_map.mp member
          simpa [Row.isBlank, Row.token] using blank
        rw [Grammar.cleaned, List.filter_append, nothing, List.append_nil, Grammar.cleaned]
      rw [dropped, dropped]
  | false =>
      obtain ⟨valid, distinct⟩ := valid_of_tokenizeWith blank tokenized
      have plain' : ∀ entry ∈ one.entries, ∀ fragment ∈ entry.fragments,
          '\x00' ∉ fragment.pattern.toList := by
        intro entry listed fragment member
        obtain ⟨other, listed', member'⟩ := before.exists_fragment listed member
        exact plain other listed' fragment member'
      rw [rows_eq_of_signature_eq (before.symm.trans after) valid distinct plain' same]

end

/-- The correction comes to an end, after moving alternatives only; when it succeeds the tokens are
the leaves; and when no pattern has the character in it that ends patterns in signatures, it
succeeds whenever they are where it ends. -/
theorem correct_exact (inference : TokenInference) (parser source : String)
    (leaves : List LeafOccurrence) (seeds : List Row) :
    (∀ result, Corrects parser source leaves seeds [] inference result ↔
      result = inference.correct parser source leaves seeds) ∧
    inference.Reordered (inference.correct parser source leaves seeds).2 ∧
    ((inference.correct parser source leaves seeds).1 = none →
      (inference.correct parser source leaves seeds).2.Exact parser source leaves seeds) ∧
    ((∀ entry ∈ inference.entries, ∀ fragment ∈ entry.fragments,
        '\x00' ∉ fragment.pattern.toList) →
      (inference.correct parser source leaves seeds).2.Exact parser source leaves seeds →
      (inference.correct parser source leaves seeds).1 = none) := by
  have corrects : Corrects parser source leaves seeds [] inference
      (inference.correct parser source leaves seeds) :=
    corrects_correctFrom (.refl inference) List.nodup_nil nofun (Nat.lt_succ_self _)
  refine ⟨fun result => ⟨fun other => other.unique corrects, ?_⟩, corrects.reordered,
    corrects.exact, fun plain exact_ => ?_⟩
  · rintro rfl
    exact corrects
  · exact corrects.succeeds (telling_of_plain plain) (.refl inference) nofun exact_

/-- The leaves of `= ==`. -/
def equalLeaves : List LeafOccurrence :=
  [⟨"Gets", "=", 0, some ' '⟩, ⟨"Equal", "==", 2, none⟩]

def equalSeeds : List Row :=
  [.token "main" "Blank" "\\s+"]

def equalInference : TokenInference :=
  infer equalLeaves equalSeeds (.branch "Pair" [.leaf "Gets" "=", .leaf "Equal" "=="])

/-- The shorter operator comes first in the source and has to give way to the longer one. -/
theorem correct_exact_equal :
    (∀ entry ∈ equalInference.entries, ∀ fragment ∈ entry.fragments,
      '\x00' ∉ fragment.pattern.toList) ∧
    (equalInference.correct "main" "= ==" equalLeaves equalSeeds).2 =
      ⟨equalInference.entries.reverse⟩ ∧
    Exact "main" "= ==" equalLeaves equalSeeds ⟨equalInference.entries.reverse⟩ ∧
    (equalInference.correct "main" "= ==" equalLeaves equalSeeds).1 = none := by
  have plain : ∀ entry ∈ equalInference.entries, ∀ fragment ∈ entry.fragments,
      '\x00' ∉ fragment.pattern.toList := by decide +kernel
  have final : (equalInference.correct "main" "= ==" equalLeaves equalSeeds).2 =
      ⟨equalInference.entries.reverse⟩ := by decide +kernel
  have exact_ : Exact "main" "= ==" equalLeaves equalSeeds ⟨equalInference.entries.reverse⟩ :=
    eq_ok_of_toOption (by decide +kernel)
  obtain ⟨_, _, _, succeeds⟩ :=
    correct_exact equalInference "main" "= ==" equalLeaves equalSeeds
  exact ⟨plain, final, exact_, succeeds plain (final ▸ exact_)⟩

/-- A text with the character in it that ends patterns in signatures. -/
def nulSource : String :=
  "Ab+\x00Ab+;Ab+\x00Ab+"

def nulTree : Tree :=
  .branch "Root" [.leaf "Tt" "Ab+", .leaf "Nul" "\x00", .leaf "Tt" "Ab+", .leaf "Semi" ";",
    .leaf "Tt" "Ab+\x00Ab+"]

def nulLeaves : List LeafOccurrence :=
  [⟨"Tt", "Ab+", 0, some '\x00'⟩, ⟨"Nul", "\x00", 3, some 'A'⟩, ⟨"Tt", "Ab+", 4, some ';'⟩,
    ⟨"Semi", ";", 7, some 'A'⟩, ⟨"Tt", "Ab+\x00Ab+", 8, none⟩]

/-- The name of the second seed has a blank character before it, so the word `Ab` is not reserved
and stands for the pattern of this seed, which matches more at the start of the text. -/
def nulSeeds : List Row :=
  [.token "main" "WS" "\\s+", .token "other" " Ab" "^[A]b|[A]b\\+\\x00[A]b|[A]b"]

/-- The alternatives for `Tt` in a given order, and those for the other types. -/
def nulInference (fragments : List Fragment) : TokenInference :=
  ⟨[⟨"Tt", fragments⟩, ⟨"Nul", [⟨"\x00", "\x00"⟩]⟩, ⟨"Semi", [⟨";", ";"⟩]⟩]⟩

theorem infer_nulLeaves : infer nulLeaves nulSeeds nulTree =
    nulInference [⟨"Ab+\x00Ab+", "Ab\\+\x00Ab\\+"⟩, ⟨"Ab+", "Ab\\+"⟩] := by
  have types : ((nulLeaves.map (·.nodeType)).filter fun name =>
      !(nulSeeds.map (·.nodeType)).contains name).eraseDups = ["Tt", "Nul", "Semi"] := by
    decide +kernel
  have texts : literals nulLeaves "Tt" = ["Ab+\x00Ab+", "Ab+"] := by
    have found : ((nulLeaves.filter (·.nodeType == "Tt")).map (·.text)).eraseDups =
        ["Ab+", "Ab+\x00Ab+"] := by decide +kernel
    rw [literals, found]
    simp [List.mergeSort, List.merge]
    decide
  simp only [infer, types, List.map_cons, texts]
  decide +kernel

/-- Both orders of the alternatives have the same signature, so the other one counts as tried
although it is the right one. -/
theorem correct_returns :
    locateLeaves nulSource nulTree = .ok nulLeaves ∧
    (infer nulLeaves nulSeeds nulTree).correct "main" nulSource nulLeaves nulSeeds =
      (some .tokenizerLoop,
        nulInference [⟨"Ab+", "Ab\\+"⟩, ⟨"Ab+\x00Ab+", "Ab\\+\x00Ab\\+"⟩]) ∧
    Exact "main" nulSource nulLeaves nulSeeds
      (nulInference [⟨"Ab+", "Ab\\+"⟩, ⟨"Ab+\x00Ab+", "Ab\\+\x00Ab\\+"⟩]) := by
  refine ⟨by decide +kernel, ?_, eq_ok_of_toOption (by decide +kernel)⟩
  rw [infer_nulLeaves]
  decide +kernel

end TokenInference

end RowGrammar.Derivation
