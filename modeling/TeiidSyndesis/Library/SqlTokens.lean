/-
# TeiidSyndesis.Library.SqlTokens — the tokens of an SQL text.

A reader with one character of memory turns a text into words, quotations and symbols.  A quotation
stands in single quotes, as a string literal, or in double quotes, as a name; a doubled quote in it
stands for one.  White space and comments part tokens.

The tokens of a text are those of its parts where the parts are parted by a separator.  A text spliced
between two quotes is what the quotation denotes exactly if it has no such quote.

Nothing here names a program.

Main results:
* `tokensFrom_append` — reading goes on where it has ended;
* `scan_quote`, `lt_length_quote` — a quotation is one token, and longer than its text;
* `Parted.sqlTokens_append`, `consists_intercalate` — tokens of texts that are parted;
* `content_spliced_lt`, `content_spliced_ne` — what becomes of a text that is spliced between quotes.
-/
import Mathlib.Data.List.Basic

namespace TeiidSyndesis.Library.Sql

/-! ## The reader -/

inductive Mark
  | single
  | double
  deriving DecidableEq, Repr

/-- How they are written. -/
def Mark.char : Mark → Char
  | .single => '\''
  | .double => '"'

/-- Words, quotations and symbols. -/
inductive Token
  | word (text : List Char)
  | quotation (mark : Mark) (text : List Char)
  | symbol (c : Char)
  deriving DecidableEq, Repr

/-- A letter, a digit, or another character of names; all that is not ASCII counts as a letter. -/
def isWordChar (c : Char) : Bool := c.isAlphanum || c ∈ ['_', '@', '#'] || decide (127 < c.toNat)

/-- Where the reader stands: between two tokens, in a word, in a quotation or behind a quote that closes
it unless it is doubled, behind a dash or a slash that may open a comment, or in a comment (`star` behind
an asterisk that may close it). -/
inductive Reader
  | between
  | word (text : List Char)
  | inside (mark : Mark) (text : List Char)
  | closing (mark : Mark) (text : List Char)
  | dash
  | slash
  | line
  | block
  | star
  deriving DecidableEq, Repr

namespace Reader

/-- A character that no earlier one decides about. -/
def start (c : Char) : List Token × Reader :=
  if isWordChar c then ([], .word [c])
  else if c = '\'' then ([], .inside .single [])
  else if c = '"' then ([], .inside .double [])
  else if c = '-' then ([], .dash)
  else if c = '/' then ([], .slash)
  else if c.isWhitespace then ([], .between)
  else ([.symbol c], .between)

/-- A token that the character ends, and the character itself. -/
def after (token : Token) (c : Char) : List Token × Reader := (token :: (start c).1, (start c).2)

/-- One character, with the tokens it completes. -/
def read (reader : Reader) (c : Char) : List Token × Reader :=
  match reader with
  | .between => start c
  | .word text => if isWordChar c then ([], .word (text ++ [c])) else after (.word text) c
  | .inside mark text =>
      if c = mark.char then ([], .closing mark text) else ([], .inside mark (text ++ [c]))
  | .closing mark text =>
      -- a quote doubled stands for one, and the quotation goes on
      if c = mark.char then ([], .inside mark (text ++ [c])) else after (.quotation mark text) c
  | .dash => if c = '-' then ([], .line) else after (.symbol '-') c
  | .slash => if c = '*' then ([], .block) else after (.symbol '/') c
  | .line => ([], if c = '\n' ∨ c = '\r' then .between else .line)
  | .block => ([], if c = '*' then .star else .block)
  | .star => ([], if c = '/' then .between else if c = '*' then .star else .block)

/-- What is left to report at the end of a text, if it may end there. -/
def finish : Reader → Option (List Token)
  | .between | .line => some []
  | .word text => some [.word text]
  | .closing mark text => some [.quotation mark text]
  | .dash => some [.symbol '-']
  | .slash => some [.symbol '/']
  | .inside _ _ | .block | .star => none

/-- Reading a list of characters. -/
def scan : Reader → List Char → List Token × Reader
  | reader, [] => ([], reader)
  | reader, c :: cs =>
      let (tokens, next) := reader.read c
      let (rest, last) := scan next cs
      (tokens ++ rest, last)

/-- Reading two texts in a row. -/
theorem scan_append (reader : Reader) (cs cs' : List Char) :
    scan reader (cs ++ cs') =
      ((scan reader cs).1 ++ (scan (scan reader cs).2 cs').1, (scan (scan reader cs).2 cs').2) := by
  induction cs generalizing reader with
  | nil => rfl
  | cons c cs ih => simp only [List.cons_append, scan, ih, List.append_assoc]

/-- The tokens from a place on; `none` where a quotation or a comment does not end. -/
def tokensFrom (reader : Reader) (cs : List Char) : Option (List Token) :=
  (scan reader cs).2.finish.map ((scan reader cs).1 ++ ·)

/-- The tokens of two texts in a row. -/
theorem tokensFrom_append (reader : Reader) (cs cs' : List Char) :
    tokensFrom reader (cs ++ cs') =
      (tokensFrom (scan reader cs).2 cs').map ((scan reader cs).1 ++ ·) := by
  unfold tokensFrom
  rw [scan_append, Option.map_map]
  refine congrArg (Option.map · _) (funext fun tokens => ?_)
  exact List.append_assoc _ _ _

/-- The tokens of one character more. -/
theorem tokensFrom_cons (reader : Reader) (c : Char) (cs : List Char) :
    tokensFrom reader (c :: cs) = (tokensFrom (reader.read c).2 cs).map ((reader.read c).1 ++ ·) := by
  have h := tokensFrom_append reader [c] cs
  simpa [scan] using h

end Reader

open Reader

/-- The tokens of a text, if its last one ends. -/
def sqlTokens (text : String) : Option (List Token) := tokensFrom .between text.toList

/-! ## Words and quotations -/

theorem start_of_isWordChar {c : Char} (h : isWordChar c = true) : start c = ([], .word [c]) := if_pos h

theorem scan_word {text : List Char} (h : ∀ c ∈ text, isWordChar c = true) (read : List Char) :
    scan (.word read) text = ([], .word (read ++ text)) := by
  induction text generalizing read with
  | nil => simp [scan]
  | cons c text ih =>
      rw [List.forall_mem_cons] at h
      simp [scan, Reader.read, h.1, ih h.2]

/-- The characters of a text inside a quotation. -/
def doubled (mark : Mark) (text : List Char) : List Char :=
  text.flatMap fun c => if c = mark.char then [c, c] else [c]

/-- The quotation that denotes a text. -/
def quote (mark : Mark) (text : List Char) : List Char :=
  mark.char :: (doubled mark text ++ [mark.char])

/-- A text without the quote is not changed. -/
theorem doubled_of_not_mem {mark : Mark} {text : List Char} (h : mark.char ∉ text) :
    doubled mark text = text := by
  unfold doubled
  induction text with
  | nil => rfl
  | cons c text ih =>
      rw [List.mem_cons, not_or] at h
      rw [List.flatMap_cons, if_neg (Ne.symm h.1), ih h.2]
      rfl

/-- A quotation is longer than what it denotes. -/
theorem lt_length_quote (mark : Mark) (text : List Char) : text.length < (quote mark text).length := by
  have hle : text.length ≤ (doubled mark text).length := by
    unfold doubled
    induction text with
    | nil => exact Nat.le_refl _
    | cons c text ih =>
        rw [List.flatMap_cons, List.length_append, List.length_cons]
        split
        · simp only [List.length_cons, List.length_nil]
          omega
        · simp only [List.length_cons, List.length_nil]
          omega
  unfold quote
  rw [List.length_cons, List.length_append]
  omega

/-- A text with doubled quotes is read as itself. -/
theorem scan_doubled (mark : Mark) (text read : List Char) :
    scan (.inside mark read) (doubled mark text) = ([], .inside mark (read ++ text)) := by
  induction text generalizing read with
  | nil => simp [doubled, scan]
  | cons c text ih =>
      unfold doubled at ih ⊢
      rw [List.flatMap_cons, scan_append]
      by_cases hmark : c = mark.char
      · simp [hmark, scan, Reader.read, ih]
      · simp [hmark, scan, Reader.read, ih]

/-- A quotation is read as its text. -/
theorem scan_quote (mark : Mark) (text : List Char) :
    scan .between (quote mark text) = ([], .closing mark text) := by
  have hopen : start mark.char = ([], .inside mark []) := by
    cases mark with
    | single => decide
    | double => decide
  unfold quote
  simp [scan, Reader.read, hopen, scan_append, scan_doubled]

/-! ## Separators -/

/-- The tokens of what has been read, where the last one is complete before a separator. -/
def Reader.ending : Reader → Option (List Token)
  | .between => some []
  | .word text => some [.word text]
  | .closing mark text => some [.quotation mark text]
  | _ => none

/-- A character that ends words and quotations and begins no token of several characters. -/
def isSeparator (c : Char) : Bool := (start c).2 == .between

/-- A reader that may stop may stop at the end. -/
theorem finish_of_ending {reader : Reader} {tokens : List Token} (h : reader.ending = some tokens) :
    reader.finish = some tokens := by
  cases reader with
  | between => exact h
  | word text => exact h
  | closing mark text => exact h
  | _ => cases h

/-- A reader that may stop stops at a separator. -/
theorem read_of_ending {reader : Reader} {tokens : List Token} (h : reader.ending = some tokens)
    {c : Char} (hc : isSeparator c = true) : reader.read c = (tokens ++ (start c).1, .between) := by
  have hstart : (start c).2 = .between := by simpa [isSeparator] using hc
  cases reader with
  | between =>
      cases h
      show start c = ((start c).1, .between)
      rw [← hstart]
  | word text =>
      have hword : isWordChar c = false := by
        by_contra hne
        rw [start_of_isWordChar (by simpa using hne)] at hstart
        cases hstart
      cases h
      simp [Reader.read, Reader.after, hword, hstart]
  | closing mark text =>
      have hmark : c ≠ mark.char := by
        rintro rfl
        cases mark with
        | single => exact absurd hc (by decide)
        | double => exact absurd hc (by decide)
      cases h
      simp [Reader.read, Reader.after, hmark, hstart]
  | _ => cases h

/-- A separator and what follows are read as if nothing were in front. -/
theorem scan_of_ending {reader : Reader} {tokens : List Token} (h : reader.ending = some tokens)
    {c : Char} (hc : isSeparator c = true) (cs : List Char) :
    scan reader (c :: cs) =
      (tokens ++ (scan .between (c :: cs)).1, (scan .between (c :: cs)).2) := by
  have hfirst : Reader.between.read c = ((start c).1, .between) := by
    apply Prod.ext
    · rfl
    · show (start c).2 = .between
      simpa [isSeparator] using hc
  simp only [scan, read_of_ending h hc, hfirst, List.append_assoc]

/-! ## Texts of tokens of one kind -/

/-- What a text is read as, and how the reader is left. -/
def scanned (text : String) : List Token × Reader := scan .between text.toList

/-- All tokens of the text have a property, and a separator ends the last one. -/
def Consists (P : Token → Prop) (text : String) : Prop :=
  ∃ last, (scanned text).2.ending = some last ∧ ∀ t ∈ (scanned text).1 ++ last, P t

/-- All tokens of the text have a property, and it ends between two tokens. -/
def Parted (P : Token → Prop) (text : String) : Prop :=
  (scanned text).2 = .between ∧ ∀ t ∈ (scanned text).1, P t

variable {P : Token → Prop} {text next : String}

instance [DecidablePred P] (text : String) : Decidable (Parted P text) :=
  inferInstanceAs (Decidable (_ ∧ _))

/-- The text begins with a separator. -/
def startsWithSeparator (text : String) : Bool := text.toList.head?.any isSeparator

theorem Parted.consists (h : Parted P text) : Consists P text := by
  refine ⟨[], ?_, ?_⟩
  · rw [h.1]
    rfl
  · rw [List.append_nil]
    exact h.2

theorem Consists.sqlTokens (h : Consists P text) : ∃ ts, Sql.sqlTokens text = some ts ∧ ∀ t ∈ ts, P t := by
  obtain ⟨last, hlast, hall⟩ := h
  have hfinish : (scan .between text.toList).2.finish = some last := finish_of_ending hlast
  refine ⟨(scanned text).1 ++ last, ?_, hall⟩
  unfold Sql.sqlTokens tokensFrom
  rw [hfinish]
  rfl

theorem scanned_append (h : (scanned text).2 = .between) (next : String) :
    scanned (text ++ next) = ((scanned text).1 ++ (scanned next).1, (scanned next).2) := by
  unfold scanned at h ⊢
  rw [String.toList_append, scan_append, h]

/-- Behind a text that ends between two tokens another one is read as it would be alone. -/
theorem Parted.sqlTokens_append (h : Parted P text) (next : String) :
    sqlTokens (text ++ next) = (sqlTokens next).map ((scanned text).1 ++ ·) := by
  have hreader : (scan .between text.toList).2 = .between := h.1
  unfold sqlTokens
  rw [String.toList_append, tokensFrom_append, hreader]
  rfl

theorem Parted.append_consists (h : Parted P text) (hnext : Consists P next) :
    Consists P (text ++ next) := by
  obtain ⟨last, hlast, hall⟩ := hnext
  refine ⟨last, ?_, ?_⟩
  · rw [scanned_append h.1]
    exact hlast
  · rw [scanned_append h.1, List.append_assoc]
    exact List.forall_mem_append.mpr ⟨h.2, hall⟩

/-- Parted texts side by side. -/
theorem Parted.append (h : Parted P text) (hnext : Parted P next) : Parted P (text ++ next) := by
  unfold Parted
  rw [scanned_append h.1]
  exact ⟨hnext.1, List.forall_mem_append.mpr ⟨h.2, hnext.2⟩⟩

/-- A separator parts what is in front of it from what follows. -/
theorem Consists.append (h : Consists P text) (hnext : Parted P next)
    (hseparator : startsWithSeparator next = true) : Parted P (text ++ next) := by
  obtain ⟨last, hlast, hall⟩ := h
  obtain ⟨c, cs, hc, hchars⟩ : ∃ c cs, isSeparator c = true ∧ next.toList = c :: cs := by
    unfold startsWithSeparator at hseparator
    cases hchars : next.toList with
    | nil => simp [hchars] at hseparator
    | cons c cs => exact ⟨c, cs, by simpa [hchars] using hseparator, rfl⟩
  have hscan : scanned (text ++ next) =
      ((scanned text).1 ++ (last ++ (scanned next).1), (scanned next).2) := by
    unfold scanned at hlast ⊢
    rw [String.toList_append, scan_append, hchars, scan_of_ending hlast hc]
  unfold Parted
  rw [hscan, ← List.append_assoc]
  exact ⟨hnext.1, List.forall_mem_append.mpr ⟨hall, hnext.2⟩⟩

theorem consists_of_word (h : ∀ c ∈ text.toList, isWordChar c = true) (hword : P (.word text.toList)) :
    Consists P text := by
  unfold Consists scanned
  cases htext : text.toList with
  | nil => exact ⟨[], rfl, nofun⟩
  | cons c cs =>
      rw [htext] at h hword
      rw [List.forall_mem_cons] at h
      have hscan : scan .between (c :: cs) = ([], .word (c :: cs)) := by
        simp [scan, Reader.read, start_of_isWordChar h.1, scan_word h.2]
      rw [hscan]
      exact ⟨_, rfl, List.forall_mem_singleton.mpr hword⟩

theorem consists_quote {mark : Mark} {chars : List Char} (h : P (.quotation mark chars)) :
    Consists P (String.ofList (quote mark chars)) := by
  unfold Consists scanned
  rw [String.toList_ofList, scan_quote]
  exact ⟨_, rfl, List.forall_mem_singleton.mpr h⟩

/-- Texts with a separator between any two. -/
theorem consists_intercalate {separator : String} (h : Parted P separator)
    (hseparator : startsWithSeparator separator = true) {texts : List String}
    (htexts : ∀ text ∈ texts, Consists P text) : Consists P (separator.intercalate texts) := by
  induction texts with
  | nil => exact ⟨[], rfl, nofun⟩
  | cons text texts ih =>
      rw [List.forall_mem_cons] at htexts
      cases texts with
      | nil => simpa using htexts.1
      | cons next texts =>
          rw [String.intercalate_cons_cons]
          have hparted : Parted P (text ++ separator) := htexts.1.append h hseparator
          exact hparted.append_consists (ih htexts.2)

/-! ## Texts between quotes -/

/-- What the quotation denotes that the characters stand in, up to the quote that closes it. -/
def content (mark : Mark) : List Char → List Char
  | [] => []
  | [c] => if c = mark.char then [] else [c]
  | c :: c' :: cs =>
      if c = mark.char then if c' = mark.char then c :: content mark cs else []
      else c :: content mark (c' :: cs)

/-- A reader inside a quotation reports it first. -/
theorem tokensFrom_inside {mark : Mark} {cs read : List Char} {tokens : List Token}
    (h : tokensFrom (.inside mark read) cs = some tokens) :
    ∃ rest, tokens = .quotation mark (read ++ content mark cs) :: rest := by
  induction cs using content.induct mark generalizing read tokens with
  | case1 => cases h
  | case2 =>
      -- the quote that closes it ends the text
      simp only [tokensFrom_cons, Reader.read, if_pos] at h
      cases h
      exact ⟨[], by simp [content, scan]⟩
  | case3 c hc =>
      simp only [tokensFrom_cons, Reader.read, if_neg hc] at h
      cases h
  | case4 cs ih =>
      -- a doubled quote
      simp only [tokensFrom_cons, Reader.read, if_pos, Option.map_map] at h
      obtain ⟨later, hlater, rfl⟩ := Option.map_eq_some_iff.mp h
      obtain ⟨rest, rfl⟩ := ih hlater
      exact ⟨rest, by simp [content]⟩
  | case5 c' cs hc' =>
      -- the quote closes it, and the next character starts another token
      simp only [tokensFrom_cons, Reader.read, if_pos, if_neg hc', Reader.after, Option.map_map] at h
      obtain ⟨later, _, rfl⟩ := Option.map_eq_some_iff.mp h
      exact ⟨(start c').1 ++ later, by simp [content, hc']⟩
  | case6 c c' cs hc ih =>
      rw [tokensFrom_cons] at h
      simp only [Reader.read, if_neg hc] at h
      obtain ⟨later, hlater, rfl⟩ := Option.map_eq_some_iff.mp h
      obtain ⟨rest, rfl⟩ := ih hlater
      exact ⟨rest, by simp [content, hc]⟩

/-- A text with a quote in it, between quotes: what is read ends in the text and is shorter, or it goes on
behind the text and has more other characters. -/
theorem content_spliced_lt {mark : Mark} {next : Char} (hnext : next ≠ mark.char)
    (text rest : List Char) :
    let read := content mark (text ++ mark.char :: next :: rest)
    (read.length ≤ text.length ∧ (mark.char ∈ text → read.length < text.length)) ∨
      text.countP (· ≠ mark.char) < read.countP (· ≠ mark.char) := by
  induction text using content.induct mark with
  | case1 => simp [content, hnext]
  | case2 =>
      -- the last character and the closing quote make a pair
      right
      cases rest with
      | nil => simp [content, hnext]
      | cons c rest => simp [content, hnext]
  | case3 c hc =>
      left
      simp [content, hc, hnext, Ne.symm hc]
  | case4 cs ih =>
      -- a pair in the text is read as one character
      simp only [List.cons_append, content, if_pos] at ih ⊢
      rcases ih with ⟨hle, _⟩ | hlt
      · left
        simp only [List.length_cons]
        omega
      · right
        simpa using hlt
  | case5 c' cs hc' =>
      -- a single quote in the text ends what is read
      left
      simp [content, hc']
  | case6 c c' cs hc ih =>
      simp only [List.cons_append, content, if_neg hc] at ih ⊢
      rcases ih with ⟨hle, hlt⟩ | hlt
      · left
        simp only [List.length_cons] at hle hlt ⊢
        refine ⟨by omega, fun hmem => ?_⟩
        have := hlt ((List.mem_cons.mp hmem).resolve_left (Ne.symm hc))
        omega
      · right
        have hcount (l : List Char) :
            (c :: l).countP (· ≠ mark.char) = l.countP (· ≠ mark.char) + 1 :=
          List.countP_cons_of_pos (by simpa using hc)
        rw [hcount, hcount]
        omega

/-- Between quotes, a text with a quote in it is not what is read. -/
theorem content_spliced_ne {mark : Mark} {next : Char} (hnext : next ≠ mark.char) {text : List Char}
    (h : mark.char ∈ text) (rest : List Char) :
    content mark (text ++ mark.char :: next :: rest) ≠ text := by
  intro heq
  have hlt := content_spliced_lt hnext text rest
  simp only [heq] at hlt
  rcases hlt with ⟨_, hlt⟩ | hlt
  · have := hlt h
    omega
  · omega

end TeiidSyndesis.Library.Sql
