/-
# TeiidSyndesis.Library.Statements — texts of several SQL statements.

A text is cut at every semicolon that stands outside quotes and comments, and pieces without a token are
dropped.  A reader with one character of memory turns the characters into items first: a token character,
a blank (white space or a comment) or a cut.  A quote or a block comment has to end, a line comment ends
with its line or with the text.

The main result is about texts put one after another, each of one statement: the whole has the
statements of its parts exactly if there is a cut between any two neighbours.

Main results:
* `scan_append`, `statements_append_cut` — reading and cutting go along with appending;
* `exists_around`, `Around.statements_eq` — what a text of one statement looks like;
* `Around.append_gap`, `Around.statements_append` — and two such texts, one after the other;
* `statements_flatten_iff` — any number of them;
* `reads_semicolon_line`, `closed_of_getLast?` — when a text ends with a cut.
-/
import Mathlib.Data.List.Chain
import Mathlib.Data.List.Forall2
import Mathlib.Data.List.TakeWhile

namespace TeiidSyndesis.Library

/-! ## Items -/

/-- What the reader makes of a character. -/
inductive Item
  | char (c : Char)
  | blank
  | cut
  deriving DecidableEq, Repr

/-- Where the reader stands: outside quotes and comments, after a dash or a slash that may open a
comment, inside quotes, or inside a comment (`star` after an asterisk that may close it). -/
inductive Mode
  | code
  | dash
  | slash
  | single
  | double
  | line
  | block
  | star
  deriving DecidableEq, Repr

namespace Mode

/-- One character outside quotes and comments. -/
def readCode (c : Char) : List Item × Mode :=
  if c = ';' then ([.cut], .code)
  else if c = '-' then ([], .dash)
  else if c = '/' then ([], .slash)
  else if c = '\'' then ([.char c], .single)
  else if c = '"' then ([.char c], .double)
  else if c.isWhitespace then ([.blank], .code)
  else ([.char c], .code)

/-- One character, with the items it completes. -/
def read (mode : Mode) (c : Char) : List Item × Mode :=
  match mode with
  | .code => readCode c
  | .dash => if c = '-' then ([.blank], .line) else (.char '-' :: (readCode c).1, (readCode c).2)
  | .slash => if c = '*' then ([.blank], .block) else (.char '/' :: (readCode c).1, (readCode c).2)
  | .single => ([.char c], if c = '\'' then .code else .single)
  | .double => ([.char c], if c = '"' then .code else .double)
  | .line => ([], if c = '\n' ∨ c = '\r' then .code else .line)
  | .block => ([], if c = '*' then .star else .block)
  | .star => ([], if c = '/' then .code else if c = '*' then .star else .block)

/-- What is left to report at the end of a text, if it may end there. -/
def finish : Mode → Option (List Item)
  | .code | .line => some []
  | .dash => some [.char '-']
  | .slash => some [.char '/']
  | .single | .double | .block | .star => none

/-- Reading a list of characters, from a mode to the mode it ends in. -/
def scan : Mode → List Char → List Item × Mode
  | mode, [] => ([], mode)
  | mode, c :: cs =>
      let (items, next) := mode.read c
      let (rest, last) := scan next cs
      (items ++ rest, last)

/-- Reading two texts in a row goes on where the first has ended. -/
theorem scan_append (mode : Mode) (cs cs' : List Char) :
    scan mode (cs ++ cs') =
      ((scan mode cs).1 ++ (scan (scan mode cs).2 cs').1, (scan (scan mode cs).2 cs').2) := by
  induction cs generalizing mode with
  | nil => rfl
  | cons c cs ih => simp only [List.cons_append, scan, ih, List.append_assoc]

end Mode

/-- The items of a text, if all its quotes and comments end. -/
def itemsOf (text : String) : Option (List Item) :=
  (Mode.scan .code text.toList).2.finish.map ((Mode.scan .code text.toList).1 ++ ·)

/-- The text ends in a line comment. -/
def EndsInComment (text : String) : Prop := (Mode.scan .code text.toList).2 = .line

instance (text : String) : Decidable (EndsInComment text) :=
  inferInstanceAs (Decidable (_ = _))

/-! ## Statements -/

/-- The first piece and those that follow, one for each cut. -/
def pieces : List Item → List Item × List (List Item)
  | [] => ([], [])
  | .cut :: items => ([], (pieces items).1 :: (pieces items).2)
  | item :: items => (item :: (pieces items).1, (pieces items).2)

def isBlank (item : Item) : Bool := item == .blank

/-- A piece without the blanks around it. -/
def trim (piece : List Item) : List Item :=
  ((piece.dropWhile isBlank).reverse.dropWhile isBlank).reverse

/-- A statement is the items between its first and its last token. -/
abbrev Statement := List Item

/-- The statement of a piece that has one. -/
def statementOf (piece : List Item) : Option Statement :=
  if trim piece = [] then none else some (trim piece)

/-- The statements of a text. -/
def statements (items : List Item) : List Statement :=
  ((pieces items).1 :: (pieces items).2).filterMap statementOf

/-- The statements of a text; `none` where a quote or a block comment does not end. -/
def split (text : String) : Option (List Statement) := (itemsOf text).map statements

/-! ## Pieces -/

/-- A cut separates the pieces of two texts. -/
theorem pieces_append_cut (items items' : List Item) :
    pieces (items ++ .cut :: items') =
      ((pieces items).1, (pieces items).2 ++ (pieces items').1 :: (pieces items').2) := by
  induction items with
  | nil => rfl
  | cons item items ih =>
      cases item with
      | cut => simp [pieces, ih]
      | _ => simp [pieces, ih]

/-- A cut separates the statements of two texts. -/
theorem statements_append_cut (items items' : List Item) :
    statements (items ++ .cut :: items') = statements items ++ statements items' := by
  unfold statements
  rw [pieces_append_cut, ← List.cons_append, List.filterMap_append]

/-- Without a cut there is one piece. -/
theorem pieces_of_noCut {piece : List Item} (h : .cut ∉ piece) : pieces piece = (piece, []) := by
  induction piece with
  | nil => rfl
  | cons item piece ih =>
      rw [List.mem_cons, not_or] at h
      cases item with
      | cut => exact absurd rfl h.1
      | _ => simp [pieces, ih h.2]

/-- Without a cut there is one statement at most. -/
theorem statements_of_noCut {piece : List Item} (h : .cut ∉ piece) :
    statements piece = (statementOf piece).toList := by
  unfold statements
  rw [pieces_of_noCut h]
  cases hpiece : statementOf piece <;> simp [hpiece]

/-- Every list of items is a piece, or a piece with a cut and a list behind it. -/
theorem pieceInduction {P : List Item → Prop} (hpiece : ∀ piece, .cut ∉ piece → P piece)
    (hcut : ∀ piece items, .cut ∉ piece → P items → P (piece ++ .cut :: items))
    (items : List Item) : P items := by
  induction hlength : items.length using Nat.strong_induction_on generalizing items with
  | _ n ih =>
      by_cases hmem : Item.cut ∈ items
      · obtain ⟨piece, rest, rfl, hfirst⟩ := List.eq_append_cons_of_mem hmem
        refine hcut piece rest hfirst (ih rest.length ?_ rest rfl)
        rw [← hlength, List.length_append, List.length_cons]
        omega
      · exact hpiece items hmem

/-- Nothing is left of a piece exactly if it is blank. -/
theorem trim_eq_nil_iff {piece : List Item} : trim piece = [] ↔ ∀ item ∈ piece, isBlank item := by
  unfold trim
  rw [List.reverse_eq_nil_iff, List.dropWhile_eq_nil_iff]
  constructor
  · intro h item hmem
    rw [← @List.takeWhile_append_dropWhile _ isBlank piece] at hmem
    rcases List.mem_append.mp hmem with hmem | hmem
    · exact (List.mem_takeWhile_imp hmem)
    · exact h item (List.mem_reverse.mpr hmem)
  · intro h item hmem
    exact h item ((List.dropWhile_sublist isBlank).subset (List.mem_reverse.mp hmem))

/-- No blank comes first. -/
def Starts (items : List Item) : Prop := ∃ item rest, items = item :: rest ∧ isBlank item = false

/-- Nothing is dropped in front of a token. -/
theorem dropWhile_of_starts {items : List Item} (h : Starts items) (items' : List Item) :
    (items ++ items').dropWhile isBlank = items ++ items' := by
  obtain ⟨item, rest, rfl, hitem⟩ := h
  rw [List.cons_append, List.dropWhile_cons, if_neg (by simp [hitem])]

/-- What a statement is: no cut, and no blank at either end. -/
structure Solid (s : Statement) : Prop where
  noCut : .cut ∉ s
  starts : Starts s
  ends : Starts s.reverse

/-- The blanks around a statement are dropped. -/
theorem trim_blanks {before after : List Item} {s : Statement} (hs : Solid s)
    (hbefore : ∀ item ∈ before, isBlank item) (hafter : ∀ item ∈ after, isBlank item) :
    trim (before ++ (s ++ after)) = s := by
  unfold trim
  rw [List.dropWhile_append_of_pos hbefore, dropWhile_of_starts hs.starts, List.reverse_append,
    List.dropWhile_append_of_pos (by simpa using hafter), ← List.append_nil s.reverse,
    dropWhile_of_starts hs.ends, List.append_nil, List.reverse_reverse]

/-- What is left begins with a token. -/
theorem starts_dropWhile {items : List Item} (h : items.dropWhile isBlank ≠ []) :
    Starts (items.dropWhile isBlank) := by
  cases hdrop : items.dropWhile isBlank with
  | nil => exact absurd hdrop h
  | cons item rest =>
      have hhead := List.head_dropWhile_not isBlank h
      simp only [hdrop, List.head_cons] at hhead
      exact ⟨item, rest, rfl, hhead⟩

theorem Starts.of_append {items items' : List Item} (h : Starts (items ++ items'))
    (hne : items ≠ []) : Starts items := by
  obtain ⟨item, rest, heq, hitem⟩ := h
  cases items with
  | nil => exact absurd rfl hne
  | cons other items =>
      cases heq
      exact ⟨_, items, rfl, hitem⟩

/-- A piece with a statement has blanks around it. -/
theorem exists_of_statementOf {piece : List Item} {s : Statement} (hpiece : .cut ∉ piece)
    (h : statementOf piece = some s) :
    ∃ before after, piece = before ++ (s ++ after) ∧ Solid s ∧
      (∀ item ∈ before, isBlank item) ∧ ∀ item ∈ after, isBlank item := by
  unfold statementOf at h
  split at h
  · cases h
  · rename_i hne
    cases h
    have hrest : (piece.dropWhile isBlank).reverse.dropWhile isBlank ≠ [] :=
      fun hnil => hne (List.reverse_eq_nil_iff.mpr hnil)
    -- the piece is its leading blanks, the trimmed part and its trailing blanks
    have hsplit : piece.dropWhile isBlank =
        trim piece ++ ((piece.dropWhile isBlank).reverse.takeWhile isBlank).reverse := by
      unfold trim
      rw [← List.reverse_append, List.takeWhile_append_dropWhile, List.reverse_reverse]
    have hdrop : piece.dropWhile isBlank ≠ [] := by
      intro hnil
      rw [hnil] at hrest
      exact hrest rfl
    have hwhole : piece = piece.takeWhile isBlank ++
        (trim piece ++ ((piece.dropWhile isBlank).reverse.takeWhile isBlank).reverse) := by
      rw [← hsplit, List.takeWhile_append_dropWhile]
    refine ⟨_, _, hwhole, ⟨?_, ?_, ?_⟩, ?_, ?_⟩
    · intro hcut
      apply hpiece
      rw [hwhole]
      exact List.mem_append_right _ (List.mem_append_left _ hcut)
    · have hstarts := starts_dropWhile hdrop
      rw [hsplit] at hstarts
      exact hstarts.of_append hne
    · unfold trim
      rw [List.reverse_reverse]
      exact starts_dropWhile hrest
    · intro item hmem
      exact List.mem_takeWhile_imp hmem
    · intro item hmem
      exact List.mem_takeWhile_imp (List.mem_reverse.mp hmem)

/-! ## Gaps between statements -/

/-- What may stand around the statements of a text. -/
def isGap (item : Item) : Bool := item == .blank || item == .cut

theorem isBlank_of_isGap {piece : List Item} (hcut : .cut ∉ piece)
    (h : ∀ item ∈ piece, isGap item) : ∀ item ∈ piece, isBlank item := by
  intro item hmem
  have hitem := h item hmem
  have hne : item ≠ .cut := fun heq => hcut (heq ▸ hmem)
  simpa [isGap, isBlank, hne] using hitem

theorem isGap_of_isBlank {item : Item} (h : isBlank item) : isGap item := by
  simp only [isBlank, beq_iff_eq] at h
  rw [h]
  rfl

/-- A gap in front changes no statement. -/
theorem statements_cons_gap {item : Item} (h : isGap item) (items : List Item) :
    statements (item :: items) = statements items := by
  cases item with
  | char c => cases h
  | cut => exact statements_append_cut [] items
  | blank =>
      have hpiece : statementOf (.blank :: (pieces items).1) = statementOf (pieces items).1 := rfl
      unfold statements
      rw [pieces, List.filterMap_cons, List.filterMap_cons, hpiece]
      simp

/-- Gaps in front of a text do not matter. -/
theorem statements_gap_append {gap : List Item} (h : ∀ item ∈ gap, isGap item) (items : List Item) :
    statements (gap ++ items) = statements items := by
  induction gap with
  | nil => rfl
  | cons item gap ih =>
      rw [List.forall_mem_cons] at h
      rw [List.cons_append, statements_cons_gap h.1, ih h.2]

/-- A gap has none. -/
theorem statements_of_gap {gap : List Item} (h : ∀ item ∈ gap, isGap item) : statements gap = [] := by
  have hnil := statements_gap_append h []
  rw [List.append_nil] at hnil
  exact hnil

/-- A text without statements is a gap. -/
theorem isGap_of_statements_eq_nil {items : List Item} (h : statements items = []) :
    ∀ item ∈ items, isGap item := by
  induction items using pieceInduction with
  | hpiece piece hcut =>
      rw [statements_of_noCut hcut, Option.toList_eq_nil_iff] at h
      have htrim : trim piece = [] := by
        by_contra hne
        rw [statementOf, if_neg hne] at h
        cases h
      intro item hmem
      exact isGap_of_isBlank (trim_eq_nil_iff.mp htrim item hmem)
  | hcut piece items hcut ih =>
      rw [statements_append_cut, List.append_eq_nil_iff, statements_of_noCut hcut,
        Option.toList_eq_nil_iff] at h
      have htrim : trim piece = [] := by
        by_contra hne
        rw [statementOf, if_neg hne] at h
        cases h.1
      intro item hmem
      rcases List.mem_append.mp hmem with hmem | hmem
      · exact isGap_of_isBlank (trim_eq_nil_iff.mp htrim item hmem)
      · rcases List.mem_cons.mp hmem with rfl | hmem
        · rfl
        · exact ih h.2 item hmem

/-- One statement with gaps around it. -/
structure Around (items : List Item) (s : Statement) (before after : List Item) : Prop where
  eq : items = before ++ (s ++ after)
  solid : Solid s
  before : ∀ item ∈ before, isGap item
  after : ∀ item ∈ after, isGap item

/-- A text of one statement has gaps around it. -/
theorem exists_around {items : List Item} {s : Statement} (h : statements items = [s]) :
    ∃ before after, Around items s before after := by
  induction items using pieceInduction with
  | hpiece piece hcut =>
      rw [statements_of_noCut hcut, Option.toList_eq_singleton_iff] at h
      obtain ⟨before, after, heq, hs, hbefore, hafter⟩ := exists_of_statementOf hcut h
      exact ⟨before, after, heq, hs, fun item hmem => isGap_of_isBlank (hbefore item hmem),
        fun item hmem => isGap_of_isBlank (hafter item hmem)⟩
  | hcut piece items hcut ih =>
      rw [statements_append_cut, statements_of_noCut hcut] at h
      cases hpiece : statementOf piece with
      | none =>
          -- the statement is behind the cut
          rw [hpiece] at h
          obtain ⟨before, after, haround⟩ := ih h
          have hgap : statements piece = [] := by rw [statements_of_noCut hcut, hpiece]; rfl
          refine ⟨piece ++ .cut :: before, after, ?_, haround.solid, ?_, haround.after⟩
          · rw [haround.eq]
            simp
          · intro item hmem
            rcases List.mem_append.mp hmem with hmem | hmem
            · exact isGap_of_statements_eq_nil hgap item hmem
            · rcases List.mem_cons.mp hmem with rfl | hmem
              · rfl
              · exact haround.before item hmem
      | some s' =>
          rw [hpiece] at h
          obtain ⟨rfl, hrest⟩ := List.cons_eq_cons.mp h
          obtain ⟨before, after, heq, hs, hbefore, hafter⟩ := exists_of_statementOf hcut hpiece
          refine ⟨before, after ++ .cut :: items, ?_, hs,
            fun item hmem => isGap_of_isBlank (hbefore item hmem), ?_⟩
          · rw [heq]
            simp
          · intro item hmem
            rcases List.mem_append.mp hmem with hmem | hmem
            · exact isGap_of_isBlank (hafter item hmem)
            · rcases List.mem_cons.mp hmem with rfl | hmem
              · rfl
              · exact isGap_of_statements_eq_nil hrest item hmem

/-- A statement with gaps around it is the one statement of its text. -/
theorem Around.statements_eq {items before after : List Item} {s : Statement}
    (h : Around items s before after) : statements items = [s] := by
  -- up to the first cut there is the statement and blanks
  have hpiece : ∀ gap : List Item, .cut ∉ gap → (∀ item ∈ gap, isGap item) →
      statements (s ++ gap) = [s] := by
    intro gap hcut hgap
    have hnoCut : Item.cut ∉ s ++ gap := by
      rw [List.mem_append, not_or]
      exact ⟨h.solid.noCut, hcut⟩
    have htrim : trim (s ++ gap) = s :=
      @trim_blanks [] gap s h.solid (fun _ hmem => nomatch hmem) (isBlank_of_isGap hcut hgap)
    have hne : s ≠ [] := by
      obtain ⟨_, _, hs, _⟩ := h.solid.starts
      rw [hs]
      simp
    rw [statements_of_noCut hnoCut, statementOf, htrim, if_neg hne]
    rfl
  rw [h.eq, statements_gap_append h.before]
  by_cases hcut : Item.cut ∈ after
  · obtain ⟨gap, rest, hafter, hgap⟩ := List.eq_append_cons_of_mem hcut
    have hall := h.after
    rw [hafter] at hall
    rw [hafter, ← List.append_assoc, statements_append_cut,
      hpiece gap hgap fun item hmem => hall item (List.mem_append_left _ hmem),
      statements_of_gap fun item hmem =>
        hall item (List.mem_append_right _ (List.mem_cons_of_mem _ hmem))]
    rfl
  · exact hpiece after hcut h.after

/-! ## Texts put one after another -/

/-- A cut comes before the first token. -/
def Leads (items : List Item) : Prop := .cut ∈ items.takeWhile isGap

/-- A cut comes after the last token. -/
def Closed (items : List Item) : Prop := .cut ∈ items.reverse.takeWhile isGap

instance (items : List Item) : Decidable (Leads items) := inferInstanceAs (Decidable (_ ∈ _))

instance (items : List Item) : Decidable (Closed items) := inferInstanceAs (Decidable (_ ∈ _))

theorem isGap_eq_false {s : Statement} (hcut : .cut ∉ s) {item : Item} (hmem : item ∈ s)
    (h : isBlank item = false) : isGap item = false := by
  have hne : item ≠ .cut := fun heq => hcut (heq ▸ hmem)
  simpa [isGap, isBlank, hne] using h

/-- A gap ends where the statement begins. -/
theorem takeWhile_gap {gap : List Item} (h : ∀ item ∈ gap, isGap item) {s : Statement}
    (hs : Starts s) (hcut : .cut ∉ s) (items : List Item) :
    (gap ++ (s ++ items)).takeWhile isGap = gap := by
  obtain ⟨item, rest, rfl, hitem⟩ := hs
  have hstop := isGap_eq_false hcut List.mem_cons_self hitem
  rw [List.takeWhile_append_of_pos h, List.cons_append, List.takeWhile_cons,
    if_neg (by simp [hstop]), List.append_nil]

/-- A text leads with a cut exactly if there is one before its statement. -/
theorem Around.leads_iff {items before after : List Item} {s : Statement}
    (h : Around items s before after) : Leads items ↔ .cut ∈ before := by
  unfold Leads
  rw [h.eq, takeWhile_gap h.before h.solid.starts h.solid.noCut]

/-- It is closed exactly if there is one behind it. -/
theorem Around.closed_iff {items before after : List Item} {s : Statement}
    (h : Around items s before after) : Closed items ↔ .cut ∈ after := by
  have hreverse : items.reverse = after.reverse ++ (s.reverse ++ before.reverse) := by
    rw [h.eq]
    simp
  unfold Closed
  rw [hreverse, takeWhile_gap (by simpa using h.after) h.solid.ends (by simpa using h.solid.noCut),
    List.mem_reverse]

/-- Gaps at either end belong to the gaps around the statement. -/
theorem Around.append_gap {items before after front back : List Item} {s : Statement}
    (h : Around items s before after) (hfront : ∀ item ∈ front, isGap item)
    (hback : ∀ item ∈ back, isGap item) :
    Around (front ++ (items ++ back)) s (front ++ before) (after ++ back) := by
  refine ⟨?_, h.solid, ?_, ?_⟩
  · rw [h.eq]
    simp
  · exact fun item hmem => (List.mem_append.mp hmem).elim (hfront item) (h.before item)
  · exact fun item hmem => (List.mem_append.mp hmem).elim (h.after item) (hback item)

/-- A cut between a statement and a text keeps the two apart. -/
theorem statements_append_of_cut {items before after gap rest : List Item} {s : Statement}
    (h : Around items s before after) (hgap : ∀ item ∈ gap, isGap item)
    (hcut : .cut ∈ after ∨ .cut ∈ gap) :
    statements (items ++ (gap ++ rest)) = s :: statements (gap ++ rest) := by
  have hafter : ∀ item ∈ after ++ gap, isGap item :=
    fun item hmem => (List.mem_append.mp hmem).elim (h.after item) (hgap item)
  obtain ⟨front, back, hsplit⟩ := List.append_of_mem (List.mem_append.mpr hcut)
  rw [hsplit] at hafter
  have hfront : statements (before ++ (s ++ front)) = [s] :=
    Around.statements_eq ⟨rfl, h.solid, h.before, fun item hmem =>
      hafter item (List.mem_append_left _ hmem)⟩
  have hback : ∀ item ∈ back, isGap item :=
    fun item hmem => hafter item (List.mem_append_right _ (List.mem_cons_of_mem _ hmem))
  calc statements (items ++ (gap ++ rest))
      = statements (before ++ (s ++ (after ++ gap)) ++ rest) := by rw [h.eq]; simp
    _ = statements (before ++ (s ++ front) ++ .cut :: (back ++ rest)) := by rw [hsplit]; simp
    _ = [s] ++ statements (back ++ rest) := by rw [statements_append_cut, hfront]
    _ = s :: statements (gap ++ rest) := by
        rw [statements_gap_append hback, statements_gap_append hgap]
        rfl

/-- Two neighbours with a cut between them. -/
theorem Around.statements_append {items before after items' before' after' : List Item}
    {s s' : Statement} (h : Around items s before after) (h' : Around items' s' before' after')
    (hcut : .cut ∈ after ∨ .cut ∈ before') (rest : List Item) :
    statements (items ++ (items' ++ rest)) = s :: statements (items' ++ rest) := by
  have heq : items' ++ rest = before' ++ (s' ++ (after' ++ rest)) := by
    rw [h'.eq]
    simp
  rw [heq]
  exact statements_append_of_cut h h'.before hcut

/-- A piece in front of a statement, without a cut in between, adds none. -/
theorem length_statements_of_noCut {piece items : List Item} (hcut : .cut ∉ piece)
    (hstarts : Starts items) (hitems : ¬items.head? = some .cut) :
    (statements (piece ++ items)).length = (statements items).length := by
  obtain ⟨item, rest, rfl, hitem⟩ := hstarts
  -- a part without a cut goes into the first piece of what follows
  have hpieces : ∀ piece : List Item, .cut ∉ piece → ∀ items : List Item,
      pieces (piece ++ items) = (piece ++ (pieces items).1, (pieces items).2) := by
    intro piece hcut items
    induction piece with
    | nil => rfl
    | cons item piece ih =>
        rw [List.mem_cons, not_or] at hcut
        cases item with
        | cut => exact absurd rfl hcut.1
        | _ => simp [pieces, ih hcut.2]
  have hfirst : item ∈ (pieces (item :: rest)).1 := by
    cases item with
    | cut => exact absurd rfl hitems
    | _ => exact List.mem_cons_self
  have htoken : ∀ piece : List Item, item ∈ piece → (statementOf piece).isSome := by
    intro piece hmem
    have hne : trim piece ≠ [] := by
      intro hnil
      rw [trim_eq_nil_iff.mp hnil item hmem] at hitem
      cases hitem
    rw [statementOf, if_neg hne]
    rfl
  obtain ⟨s, hs⟩ := Option.isSome_iff_exists.mp (htoken _ hfirst)
  obtain ⟨s', hs'⟩ := Option.isSome_iff_exists.mp
    (htoken (piece ++ (pieces (item :: rest)).1) (List.mem_append_right _ hfirst))
  unfold statements
  rw [hpieces piece hcut, List.filterMap_cons_some hs, List.filterMap_cons_some hs']
  rfl

/-- Without one, the statement runs into the next. -/
theorem Around.length_statements_append {items before after items' before' after' : List Item}
    {s s' : Statement} (h : Around items s before after) (h' : Around items' s' before' after')
    (hcut : ¬(.cut ∈ after ∨ .cut ∈ before')) (rest : List Item) :
    (statements (items ++ (items' ++ rest))).length = (statements (items' ++ rest)).length := by
  rw [not_or] at hcut
  -- with no cut between them the two statements are read as one
  have hpiece : Item.cut ∉ s ++ (after ++ before') := by
    simp only [List.mem_append, not_or]
    exact ⟨h.solid.noCut, hcut.1, hcut.2⟩
  obtain ⟨item, tail, hs', hitem⟩ := h'.solid.starts
  have hhead : item ≠ .cut := by
    intro heq
    apply h'.solid.noCut
    rw [hs', heq]
    exact List.mem_cons_self
  have hstarts : Starts (s' ++ (after' ++ rest)) := ⟨item, tail ++ (after' ++ rest), by rw [hs']; rfl, hitem⟩
  have hnot : ¬(s' ++ (after' ++ rest)).head? = some .cut := by
    rw [hs']
    simpa using hhead
  calc (statements (items ++ (items' ++ rest))).length
      = (statements (before ++ ((s ++ (after ++ before')) ++ (s' ++ (after' ++ rest))))).length := by
        rw [h.eq, h'.eq]; simp
    _ = (statements (s' ++ (after' ++ rest))).length := by
        rw [statements_gap_append h.before, length_statements_of_noCut hpiece hstarts hnot]
    _ = (statements (items' ++ rest)).length := by
        rw [h'.eq, List.append_assoc, List.append_assoc, statements_gap_append h'.before]

/-- There are never more statements than texts. -/
theorem length_statements_flatten_le {blocks : List (List Item)} {ss : List Statement}
    (h : List.Forall₂ (fun block s => ∃ before after, Around block s before after) blocks ss) :
    (statements blocks.flatten).length ≤ ss.length := by
  induction h with
  | nil => exact Nat.le_refl 0
  | @cons block s blocks ss hblock hrest ih =>
      obtain ⟨before, after, hblock⟩ := hblock
      rw [List.flatten_cons, List.length_cons]
      cases hrest with
      | nil =>
          rw [List.flatten_nil, List.append_nil, hblock.statements_eq]
          simp
      | @cons block' s' blocks ss hblock' hrest =>
          obtain ⟨before', after', hblock'⟩ := hblock'
          rw [List.flatten_cons] at ih ⊢
          by_cases hcut : Item.cut ∈ after ∨ Item.cut ∈ before'
          · rw [hblock.statements_append hblock' hcut, List.length_cons]
            omega
          · rw [hblock.length_statements_append hblock' hcut]
            omega

/-- Texts of one statement each, put one after another, have just these statements exactly if there is a
cut between any two neighbours. -/
theorem statements_flatten_iff {blocks : List (List Item)} {ss : List Statement}
    (h : List.Forall₂ (fun block s => ∃ before after, Around block s before after) blocks ss) :
    statements blocks.flatten = ss ↔
      blocks.IsChain fun block block' => Closed block ∨ Leads block' := by
  induction h with
  | nil => exact iff_of_true rfl .nil
  | @cons block s blocks ss hblock hrest ih =>
      obtain ⟨before, after, hblock⟩ := hblock
      cases hrest with
      | nil =>
          rw [List.flatten_cons, List.flatten_nil, List.append_nil, hblock.statements_eq]
          exact iff_of_true rfl (.singleton block)
      | @cons block' s' blocks ss hblock' hrest =>
          have hlength := length_statements_flatten_le (.cons hblock' hrest)
          obtain ⟨before', after', hblock'⟩ := hblock'
          rw [List.isChain_cons_cons, hblock.closed_iff, hblock'.leads_iff, ← ih]
          simp only [List.flatten_cons] at hlength ⊢
          by_cases hcut : Item.cut ∈ after ∨ Item.cut ∈ before'
          · rw [hblock.statements_append hblock' hcut, List.cons_eq_cons]
            simp [hcut]
          -- merged statements are one fewer, so the lists differ in length
          · refine iff_of_false ?_ (fun hboth => hcut hboth.1)
            intro heq
            have hmerged := hblock.length_statements_append hblock' hcut blocks.flatten
            rw [heq, List.length_cons] at hmerged
            omega

/-! ## Reading texts one after another -/

/-- The characters are read as these items, and the reader is back outside quotes and comments. -/
def Reads (cs : List Char) (items : List Item) : Prop := Mode.scan .code cs = (items, .code)

theorem reads_nil : Reads [] [] := rfl

theorem reads_semicolon : Reads [';'] [.cut] := rfl

/-- Texts that are read, one after the other. -/
theorem Reads.append {cs cs' : List Char} {items items' : List Item} (h : Reads cs items)
    (h' : Reads cs' items') : Reads (cs ++ cs') (items ++ items') := by
  unfold Reads at *
  rw [Mode.scan_append, h, h']

/-- Splitting a text that is read. -/
theorem split_of_reads {text : String} {items : List Item} (h : Reads text.toList items) :
    split text = some (statements items) := by
  unfold split itemsOf
  rw [show Mode.scan .code text.toList = (items, .code) from h]
  show some (statements (items ++ [])) = some (statements items)
  rw [List.append_nil]

/-- A text has items exactly if its last mode may end there. -/
theorem exists_finish {text : String} {items : List Item} (h : itemsOf text = some items) :
    ∃ rest, (Mode.scan .code text.toList).2.finish = some rest ∧
      items = (Mode.scan .code text.toList).1 ++ rest := by
  obtain ⟨rest, hrest, hitems⟩ := Option.map_eq_some_iff.mp h
  exact ⟨rest, hrest, hitems.symm⟩

/-- Whatever may end with the text ends with the line. -/
theorem Mode.scan_newline {mode : Mode} {rest : List Item} (h : mode.finish = some rest) :
    mode.scan ['\n'] = (rest ++ (if mode = .line then [] else [.blank]), .code) := by
  cases mode <;> cases h <;> rfl

/-- A semicolon at the end of a line cuts, unless it is in a line comment. -/
theorem Mode.scan_semicolon_newline {mode : Mode} {rest : List Item} (h : mode.finish = some rest) :
    mode.scan [';', '\n'] = (rest ++ (if mode = .line then [] else [.cut, .blank]), .code) := by
  cases mode <;> cases h <;> rfl

/-- A text on a line of its own. -/
theorem reads_line {text : String} {items : List Item} (h : itemsOf text = some items) :
    Reads (text.toList ++ ['\n']) (items ++ if EndsInComment text then [] else [.blank]) := by
  obtain ⟨rest, hrest, rfl⟩ := exists_finish h
  unfold Reads
  rw [Mode.scan_append, Mode.scan_newline hrest, List.append_assoc]
  rfl

/-- A semicolon behind a text is read as a cut, unless the text ends in a line comment. -/
theorem reads_semicolon_line {text : String} {items : List Item} (h : itemsOf text = some items) :
    Reads (text.toList ++ [';', '\n'])
      (items ++ if EndsInComment text then [] else [.cut, .blank]) := by
  obtain ⟨rest, hrest, rfl⟩ := exists_finish h
  unfold Reads
  rw [Mode.scan_append, Mode.scan_semicolon_newline hrest, List.append_assoc]
  rfl

/-- A semicolon at the end of a text cuts, unless it is in a line comment. -/
theorem Mode.read_semicolon_last {mode : Mode} {rest : List Item}
    (h : (mode.read ';').2.finish = some rest) (hline : (mode.read ';').2 ≠ .line) :
    ∃ front, (mode.read ';').1 ++ rest = front ++ [.cut] := by
  cases mode with
  | code =>
      cases h
      exact ⟨[], rfl⟩
  | dash =>
      cases h
      exact ⟨[.char '-'], rfl⟩
  | slash =>
      cases h
      exact ⟨[.char '/'], rfl⟩
  | line => exact absurd rfl hline
  | single | double | block | star => cases h

/-- A semicolon at the end of a text is a cut, or belongs to a line comment. -/
theorem closed_of_getLast? {text : String} {items : List Item} (h : itemsOf text = some items)
    (hlast : text.toList.getLast? = some ';') (hline : ¬EndsInComment text) : Closed items := by
  obtain ⟨cs, hcs⟩ := List.getLast?_eq_some_iff.mp hlast
  obtain ⟨rest, hrest, rfl⟩ := exists_finish h
  unfold EndsInComment at hline
  rw [hcs, Mode.scan_append] at hrest hline ⊢
  obtain ⟨front, hfront⟩ := Mode.read_semicolon_last hrest hline
  have hitems : (Mode.scan .code cs).1 ++ ((Mode.scan (Mode.scan .code cs).2 [';']).1 ++ rest) =
      (Mode.scan .code cs).1 ++ front ++ [.cut] := by
    rw [List.append_assoc, ← hfront]
    simp [Mode.scan]
  unfold Closed
  rw [List.append_assoc, hitems, List.reverse_append]
  exact List.mem_cons_self

end TeiidSyndesis.Library
