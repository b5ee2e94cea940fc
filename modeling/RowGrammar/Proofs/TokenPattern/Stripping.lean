import Mathlib.Data.List.Forall2
import RowGrammar.TokenPattern.Expand

/-!
# Dropping layout

Layout is dropped from left to right, and all there is to know on the way is whether the next
character is escaped.  So it can be dropped from an inserted text before or after the text is
inserted: the characters around the text stay, and what escapes stops at them.
-/

namespace RowGrammar.TokenPattern

open RowGrammar.Text

/-- Whether a character escapes the next one, which it does unless it is escaped itself. -/
def escapes (escaped : Bool) (c : Char) : Bool :=
  !escaped && c == '\\'

/-- Whether the character after these is escaped. -/
def dangles (escaped : Bool) (chars : List Char) : Bool :=
  chars.foldl escapes escaped

/-- The characters without layout, where the first of them may be escaped. -/
def stripFrom : Bool → List Char → List Char
  | _, [] => []
  | escaped, c :: chars =>
      if !escaped && isBlank c then stripFrom (escapes escaped c) chars
      else c :: stripFrom (escapes escaped c) chars

theorem escapes_of_ne {c : Char} (plain : c ≠ '\\') (escaped : Bool) :
    escapes escaped c = false := by
  simp [escapes, plain]

theorem ne_backslash_of_isBlank {c : Char} (blank : isBlank c) : c ≠ '\\' := by
  rintro rfl
  exact absurd blank (by decide)

/-- What is dropped is not escaped and escapes nothing. -/
theorem escapes_of_dropped {escaped : Bool} {c : Char} (dropped : !escaped && isBlank c) :
    escapes escaped c = escaped := by
  obtain ⟨unescaped, blank⟩ : escaped = false ∧ isBlank c := by simpa using dropped
  rw [escapes_of_ne (ne_backslash_of_isBlank blank), unescaped]

theorem stripChars_eq (chars : List Char) : stripChars chars = stripFrom false chars := by
  fun_induction stripChars chars with
  | case1 => rfl
  | case2 => rfl
  | case3 escaped chars induction =>
      have seen : isBlank '\\' = false := by decide
      simp [stripFrom, escapes, seen, induction]
  | case4 c chars alone unescaped blank induction =>
      simp [stripFrom, escapes_of_ne (ne_backslash_of_isBlank blank), blank, induction]
  | case5 c chars alone unescaped blank induction =>
      have plain : c ≠ '\\' := by
        rintro rfl
        cases chars with
        | nil => exact alone rfl rfl
        | cons escaped chars => exact unescaped escaped chars rfl rfl
      simp [stripFrom, escapes_of_ne plain, blank, induction]

theorem stripFrom_append (escaped : Bool) (chars more : List Char) :
    stripFrom escaped (chars ++ more) =
      stripFrom escaped chars ++ stripFrom (dangles escaped chars) more := by
  induction chars generalizing escaped with
  | nil => rfl
  | cons c chars induction =>
      rw [List.cons_append, stripFrom, stripFrom, dangles, List.foldl_cons, induction]
      split_ifs <;> rfl

theorem dangles_append (escaped : Bool) (chars more : List Char) :
    dangles escaped (chars ++ more) = dangles (dangles escaped chars) more :=
  List.foldl_append

theorem dangles_cons (escaped : Bool) (c : Char) (chars : List Char) :
    dangles escaped (c :: chars) = dangles (escapes escaped c) chars := rfl

theorem dangles_stripFrom (escaped : Bool) (chars : List Char) :
    dangles escaped (stripFrom escaped chars) = dangles escaped chars := by
  induction chars generalizing escaped with
  | nil => rfl
  | cons c chars induction =>
      rw [stripFrom]
      split_ifs with dropped
      · rw [dangles_cons, escapes_of_dropped dropped, induction]
      · rw [dangles_cons, induction, dangles_cons]

theorem stripFrom_stripFrom (escaped : Bool) (chars : List Char) :
    stripFrom escaped (stripFrom escaped chars) = stripFrom escaped chars := by
  induction chars generalizing escaped with
  | nil => rfl
  | cons c chars induction =>
      rw [stripFrom]
      split_ifs with dropped
      · rw [escapes_of_dropped dropped, induction]
      · rw [stripFrom, if_neg dropped, induction]

/-! ## Texts that differ in layout -/

/-- Texts that differ in layout only, wherever a character is read that may be escaped. -/
structure SameButLayout (escaped : Bool) (one two : List Char) : Prop where
  strips : stripFrom escaped one = stripFrom escaped two
  dangles : dangles escaped one = dangles escaped two

namespace SameButLayout

variable {escaped : Bool} {one two three four : List Char}

theorem refl (chars : List Char) : SameButLayout escaped chars chars :=
  ⟨rfl, rfl⟩

theorem strip (chars : List Char) : SameButLayout false (stripChars chars) chars := by
  rw [stripChars_eq]
  exact ⟨stripFrom_stripFrom false chars, dangles_stripFrom false chars⟩

theorem append (first : SameButLayout escaped one two)
    (second : ∀ escaped, SameButLayout escaped three four) :
    SameButLayout escaped (one ++ three) (two ++ four) := by
  constructor
  · rw [stripFrom_append, stripFrom_append, first.strips, first.dangles, (second _).strips]
  · rw [dangles_append, dangles_append, first.dangles, (second _).dangles]

/-- A character that is neither layout nor a backslash ends an escape before it. -/
theorem cons {c : Char} (seen : isBlank c = false) (plain : c ≠ '\\')
    (same : SameButLayout false one two) : SameButLayout escaped (c :: one) (c :: two) := by
  constructor
  · rw [stripFrom, stripFrom, seen, escapes_of_ne plain, same.strips]
  · rw [dangles_cons, dangles_cons, escapes_of_ne plain, same.dangles]

end SameButLayout

theorem SameButLayout.alternatives {texts others : List String}
    (same : List.Forall₂ (fun text other => SameButLayout false text.toList other.toList)
      texts others) :
    SameButLayout false ("|".intercalate texts).toList ("|".intercalate others).toList := by
  induction same with
  | nil => exact .refl _
  | @cons text other texts others first rest induction =>
      cases rest with
      | nil => simpa using first
      | cons second rest =>
          rw [String.intercalate_cons_cons, String.intercalate_cons_cons]
          simp only [String.toList_append, List.append_assoc]
          exact first.append fun _ => .cons (by decide) (by decide) induction

/-- Dropping the layout of alternatives does not show once they are written out in a pattern. -/
theorem SameButLayout.inlined {texts others : List String}
    (same : List.Forall₂ (fun text other => SameButLayout false text.toList other.toList)
      texts others) (escaped : Bool) :
    SameButLayout escaped (inlined texts).toList (inlined others).toList := by
  unfold TokenPattern.inlined
  simp only [String.toList_append]
  have inside := (SameButLayout.alternatives same).append fun _ => .refl [')']
  exact .cons (by decide) (by decide)
    (.cons (by decide) (by decide) (.cons (by decide) (by decide) inside))

end RowGrammar.TokenPattern
