/-
# TeiidSyndesis.Server.TablePattern — the tables a table pattern names.

`createServiceVdb` tells the DDL visitor which tables of a schema it wants by a regular expression:
the quoted names of the tables, with a bar between them.  Here such an expression is read back.  Only
quotes, escapes and bars occur in it outside of quotes, so its matches are the texts of its
alternatives.

Main results:
* `readAlternatives_quoted` — a quoted name is read as itself;
* `alternatives_tablePattern` — so the alternatives of a table pattern are its tables.
-/
import TeiidSyndesis.Server.ServiceVdbGenerator

namespace TeiidSyndesis.Server

open TeiidSyndesis.Model

/-- The expression for the tables of a schema. -/
def tablePattern (tables : List String) : String := "|".intercalate (tables.map patternQuote)

/-- Where the reader of an expression stands. -/
inductive ReadMode
  | plain
  /-- behind a backslash -/
  | escape
  | quote
  /-- behind a backslash inside of a quote -/
  | quoteEscape
  deriving DecidableEq, Repr

/-- The alternatives of the rest of an expression, the first of which has begun with a text. -/
def readAlternatives : ReadMode → List Char → List Char → List String
  | _, text, [] => [String.ofList text]
  | .plain, text, c :: cs =>
      if c = '\\' then readAlternatives .escape text cs
      else if c = '|' then String.ofList text :: readAlternatives .plain [] cs
      else readAlternatives .plain (text ++ [c]) cs
  | .escape, text, c :: cs =>
      if c = 'Q' then readAlternatives .quote text cs
      else readAlternatives .plain (text ++ [c]) cs
  | .quote, text, c :: cs =>
      if c = '\\' then readAlternatives .quoteEscape text cs
      else readAlternatives .quote (text ++ [c]) cs
  | .quoteEscape, text, c :: cs =>
      if c = 'E' then readAlternatives .plain text cs
      else if c = '\\' then readAlternatives .quoteEscape (text ++ [c]) cs
      else readAlternatives .quote (text ++ ['\\', c]) cs

/-- The texts an expression matches. -/
def alternatives (pattern : String) : List String := readAlternatives .plain [] pattern.toList

/-- Inside of a quote a character stands for itself, unless it begins an end marker. -/
theorem readAlternatives_literal {text cs : List Char} {b c : Char} (h : b = '\\' → c ≠ 'E') :
    readAlternatives .quote text (b :: c :: cs) =
      readAlternatives .quote (text ++ [b]) (c :: cs) := by
  by_cases hb : b = '\\'
  · subst hb
    by_cases hc : c = '\\'
    · subst hc
      rfl
    · simp [readAlternatives, h rfl, hc]
  · simp [readAlternatives, hb]

/-- An end marker in a name is taken apart. -/
theorem quoted_endMarker (cs : List Char) :
    patternQuote.quoted ('\\' :: 'E' :: cs) = "\\E\\\\E\\Q".toList ++ patternQuote.quoted cs := by
  rw [patternQuote.quoted.eq_def]
  split
  · rename_i heq
    simp only [List.cons.injEq, true_and] at heq
    rw [heq]
  · rename_i hno heq
    rw [List.cons.injEq] at heq
    exact (hno cs heq.1.symm heq.2.symm).elim
  · rename_i heq
    cases heq

/-- Other characters are taken as they are. -/
theorem quoted_cons {c : Char} {cs : List Char} (h : ∀ tail, c = '\\' → cs = 'E' :: tail → False) :
    patternQuote.quoted (c :: cs) = c :: patternQuote.quoted cs := by
  rw [patternQuote.quoted.eq_def]
  split
  · rename_i tail heq
    rw [List.cons.injEq] at heq
    exact (h tail heq.1 heq.2).elim
  · rename_i heq
    rw [List.cons.injEq] at heq
    rw [heq.1, heq.2]
  · rename_i heq
    cases heq

theorem quoted_nil : patternQuote.quoted [] = [] := by
  rw [patternQuote.quoted.eq_def]

/-- The quoted form of a text starts with an `E` only if the text does. -/
theorem quoted_head {cs rest : List Char} {c : Char} {tail : List Char}
    (h : patternQuote.quoted cs ++ '\\' :: rest = c :: tail) (hE : c = 'E') :
    ∃ tail', cs = 'E' :: tail' := by
  subst hE
  induction cs using patternQuote.quoted.induct with
  | case1 cs ih =>
      rw [quoted_endMarker] at h
      exact absurd (List.cons.inj h).1 (by decide)
  | case2 c cs hc ih =>
      rw [quoted_cons hc, List.cons_append, List.cons.injEq] at h
      exact ⟨cs, by rw [h.1]⟩
  | case3 =>
      rw [quoted_nil] at h
      exact absurd (List.cons.inj h).1 (by decide)

/-- The quoted form of a text is read back as the text. -/
theorem readAlternatives_quoted (cs text rest : List Char) :
    readAlternatives .quote text (patternQuote.quoted cs ++ '\\' :: 'E' :: rest) =
      readAlternatives .plain (text ++ cs) rest := by
  induction cs using patternQuote.quoted.induct generalizing text with
  | case1 cs ih =>
      -- the quote is left for an escaped backslash
      have hleave : readAlternatives .quote text ("\\E\\\\E\\Q".toList ++
          (patternQuote.quoted cs ++ '\\' :: 'E' :: rest)) =
          readAlternatives .quote (text ++ ['\\'] ++ ['E'])
            (patternQuote.quoted cs ++ '\\' :: 'E' :: rest) := rfl
      rw [quoted_endMarker, List.append_assoc, hleave, ih]
      simp
  | case2 c cs hc ih =>
      rw [quoted_cons hc, List.cons_append]
      obtain ⟨d, tail, htail⟩ : ∃ d tail,
          patternQuote.quoted cs ++ '\\' :: 'E' :: rest = d :: tail :=
        List.exists_cons_of_ne_nil (by simp)
      have hliteral : c = '\\' → d ≠ 'E' := by
        intro hbackslash hE
        obtain ⟨tail', hcs⟩ := quoted_head htail hE
        exact hc tail' hbackslash hcs
      rw [htail, readAlternatives_literal hliteral, ← htail, ih, List.append_assoc]
      rfl
  | case3 =>
      rw [quoted_nil]
      simp [readAlternatives]

theorem toList_patternQuote (name : String) :
    (patternQuote name).toList = '\\' :: 'Q' :: (patternQuote.quoted name.toList ++ ['\\', 'E']) := by
  simp [patternQuote]

/-- The expression of some tables matches their names and nothing else. -/
theorem alternatives_tablePattern {tables : List String} (h : tables ≠ []) :
    alternatives (tablePattern tables) = tables := by
  unfold alternatives tablePattern
  rw [String.toList_intercalate]
  induction tables with
  | nil => exact absurd rfl h
  | cons table tables ih =>
      have hquote : ∀ rest, readAlternatives .plain [] ((patternQuote table).toList ++ rest) =
          readAlternatives .plain table.toList rest := by
        intro rest
        rw [toList_patternQuote]
        have hread := readAlternatives_quoted table.toList [] rest
        simpa [readAlternatives] using hread
      cases tables with
      | nil =>
          have hend := hquote []
          simp only [List.append_nil] at hend
          simp [hend, readAlternatives]
      | cons table' tables =>
          have hrest := ih (List.cons_ne_nil _ _)
          simp only [List.map_cons, List.intercalate_cons_cons, List.append_assoc] at hrest ⊢
          rw [hquote]
          have hbar : ∀ rest, readAlternatives .plain table.toList ("|".toList ++ rest) =
              table :: readAlternatives .plain [] rest := by
            intro rest
            show String.ofList table.toList :: readAlternatives .plain [] rest = _
            rw [String.ofList_toList]
          rw [hbar, hrest]

end TeiidSyndesis.Server
