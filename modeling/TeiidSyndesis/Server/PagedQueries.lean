/-
# TeiidSyndesis.Server.PagedQueries — queries of a VDB, as a whole and page by page.

`query` runs the text it is given, or, where an offset or a limit is asked for, a text that has the query in
parentheses and a `LIMIT` behind it.  The two texts are put together without a look at the query: what
ends it may also end the parentheses, or hide them.  The Teiid server is given by what it makes of the
items of a text.

Main results:
* `itemsOf_paged` — what the items of the paged text are, whatever the query does with them;
* `populate_page`, `page_eq` — pages of a result;
* `executeQuery_paged`, `query_whole`, `query_paged` — the two ways of asking;
* `agrees_iff` — exactly when a page is that part of the whole;
* `semicolon_refused` — and a query that has no pages.
-/
import Mathlib.Data.Bool.AllAny
import TeiidSyndesis.Library.Results
import TeiidSyndesis.Library.Statements
import TeiidSyndesis.Model.Entities

namespace TeiidSyndesis.Server

open TeiidSyndesis.Library

/-! ## Results -/

/-- A value of a result, or null among the others; the text that is made of it may fail. -/
inductive Value
  | array (json : Option String)
  | blob
  | clob
  | geospatial (text : Option String)
  | other (value : Option String)
  deriving DecidableEq, Repr

/-- A column of a result. -/
structure QSColumn where
  type : String
  name : String
  label : String
  deriving DecidableEq, Repr

/-- A result, as the server gives it. -/
structure ResultSet where
  columns : List QSColumn
  rows : List (List Value)
  deriving DecidableEq, Repr

/-- A row, as it is answered. -/
abbrev QSRow := List (Option String)

structure QSResult where
  columns : List QSColumn
  rows : List QSRow
  deriving DecidableEq, Repr

/-- How a query fails. -/
inductive QueryFailure
  /-- `ResponseStatusException`, where the server refuses the text -/
  | badRequest
  | kException
  | outOfMemory
  deriving DecidableEq, Repr

/-- What is added to a row for a value. -/
def Value.added : Value → Except QueryFailure (Option String)
  | .array (some json) => .ok (some json)
  | .array none => .error .kException
  | .blob => .ok (some "blob")
  | .clob => .ok (some "clob")
  | .geospatial (some text) => .ok (some text)
  | .geospatial none => .error .kException
  | .other value => .ok value

/-- `Integer.MAX_VALUE`, also the most elements a list has. -/
def maxInt : Nat := 2147483647

/-- The loop over the rows of a result. -/
def populate (rs : ResultSet) : Except QueryFailure QSResult := do
  let rows ← rs.rows.mapM fun row => row.mapM Value.added
  if maxInt < rows.length then .error .outOfMemory else pure ⟨rs.columns, rows⟩

/-! ## query -/

/-- No limit is asked for. -/
def noLimit : Int := -1

/-- No offset is asked for. -/
def noOffset : Int := 0

/-- The offset and the limit as they stand in the text. -/
def pageOffset (offset : Int) : Nat := (max 0 offset).toNat

/-- The limit that is written. -/
def pageLimit (limit : Int) : Nat := if limit < 0 then maxInt else limit.toNat

/-- What is put in front of a query. -/
def viewStart : String := "SELECT * FROM ("

/-- What is put behind it. -/
def viewEnd : String := ") x"

/-- The clause for the page. -/
def limitText (o l : Nat) : String := " LIMIT " ++ toString o ++ ", " ++ toString l

/-- The text that is run for a page. -/
def pagedText (text : String) (offset limit : Int) : String :=
  viewStart ++ text ++ viewEnd ++ limitText (pageOffset offset) (pageLimit limit)

/-- A VDB that can be queried: the result for the items of a text, where these are accepted. -/
structure QueryServer where
  execute : List Item → Option ResultSet

namespace QueryServer

/-- A quote or a comment that does not end is refused. -/
def executeQuery (server : QueryServer) (text : String) : Option ResultSet :=
  (itemsOf text).bind server.execute

/-- `query`: the text as it is, or the paged text. -/
def query (server : QueryServer) (text : String) (offset limit : Int) :
    Except QueryFailure QSResult :=
  let text := if offset ≠ noOffset ∨ limit ≠ noLimit then pagedText text offset limit else text
  match server.executeQuery text with
  | none => .error .badRequest
  | some rs => populate rs

/-! ## What is asked for -/

/-- The rows from an offset on, at most as many as the limit if it is not negative. -/
def page (offset limit : Int) (rows : List α) : List α :=
  let rest := rows.drop (max 0 offset).toNat
  if limit < 0 then rest else rest.take limit.toNat

/-- The page is accepted and has the rows of the whole result that belong to it. -/
def Agrees (server : QueryServer) (text : String) (offset limit : Int) (whole : QSResult) : Prop :=
  ∃ result, server.query text offset limit = .ok result ∧ result.rows = page offset limit whole.rows

/-- The items of a text that is read from the start. -/
def items (text : String) : List Item := (Mode.scan .code text.toList).1

/-- What the server makes of a query with this result, and of the texts with it in parentheses.  An inline
view returns the rows of its query, and `LIMIT o, l` keeps `l` rows from `o` on; a semicolon cannot stand in
parentheses, and parentheses have to be closed. -/
structure Understands (server : QueryServer) (query : List Item) (rs : ResultSet) (o l : Nat) :
    Prop where
  accepts : server.execute query = some rs
  inlineView : .cut ∉ query → ∃ columns,
    server.execute (items viewStart ++ query ++ items viewEnd) = some ⟨columns, rs.rows⟩
  limit : ∀ view, server.execute (items viewStart ++ query ++ items viewEnd) = some view →
    ∃ columns,
      server.execute (items viewStart ++ query ++ items viewEnd ++ items (limitText o l)) =
        some ⟨columns, (view.rows.drop o).take l⟩
  semicolon : .cut ∈ query →
    server.execute (items viewStart ++ query ++ items viewEnd ++ items (limitText o l)) = none
  parenthesis : server.execute (items viewStart ++ query) = none

/-! ## How the paged text is read -/

/-- Characters that leave the reader outside quotes and comments. -/
def IsPlain (c : Char) : Prop := c ∉ ['-', '/', '\'', '"']

instance (c : Char) : Decidable (IsPlain c) := inferInstanceAs (Decidable (_ ∉ _))

/-- A plain character leaves the reader in code. -/
theorem readCode_of_plain {c : Char} (h : IsPlain c) : (Mode.readCode c).2 = .code := by
  simp only [IsPlain, List.mem_cons, List.not_mem_nil, or_false, not_or] at h
  obtain ⟨hdash, hslash, hsingle, hdouble⟩ := h
  unfold Mode.readCode
  rw [if_neg hdash, if_neg hslash, if_neg hsingle, if_neg hdouble]
  split
  · rfl
  · split <;> rfl

/-- A text of such characters is read by itself. -/
theorem reads_of_plain {cs : List Char} (h : ∀ c ∈ cs, IsPlain c) :
    Reads cs (Mode.scan .code cs).1 := by
  have hmode : (Mode.scan .code cs).2 = .code := by
    induction cs with
    | nil => rfl
    | cons c cs ih =>
        obtain ⟨hc, hcs⟩ := List.forall_mem_cons.mp h
        show (Mode.scan (Mode.readCode c).2 cs).2 = .code
        rw [readCode_of_plain hc]
        exact ih hcs
  exact Prod.ext rfl hmode

/-- A line comment hides what is on its line. -/
theorem scan_line {cs : List Char} (h : ∀ c ∈ cs, c ≠ '\n' ∧ c ≠ '\r') :
    Mode.scan .line cs = ([], .line) := by
  induction cs with
  | nil => rfl
  | cons c cs ih =>
      obtain ⟨⟨hn, hr⟩, hcs⟩ := List.forall_mem_cons.mp h
      have hread : Mode.read .line c = ([], .line) := by
        unfold Mode.read
        rw [if_neg (not_or.mpr ⟨hn, hr⟩)]
      have hrest := ih hcs
      simp only [Mode.scan, hread, hrest, List.append_nil]

/-- A parenthesis completes what the text may have left open, unless it is part of a line comment. -/
theorem scan_parenthesis {mode : Mode} {rest : List Item} (h : mode.finish = some rest)
    (hline : mode ≠ .line) (cs : List Char) :
    mode.scan (')' :: cs) =
      (rest ++ (Mode.scan .code (')' :: cs)).1, (Mode.scan .code (')' :: cs)).2) := by
  cases mode with
  | code =>
      cases h
      rfl
  | dash =>
      cases h
      rfl
  | slash =>
      cases h
      rfl
  | line => exact absurd rfl hline
  | single | double | block | star => cases h

/-- Plain, and not the end of a line. -/
def IsInline (c : Char) : Prop := IsPlain c ∧ c ≠ '\n' ∧ c ≠ '\r'

instance (c : Char) : Decidable (IsInline c) := inferInstanceAs (Decidable (_ ∧ _ ∧ _))

theorem inline_of_digit {c : Char} (h : c.isDigit = true) : IsInline c := by
  refine ⟨fun hmem => ?_, ?_, ?_⟩
  · simp only [List.mem_cons, List.not_mem_nil, or_false] at hmem
    rcases hmem with rfl | rfl | rfl | rfl <;> cases h
  · rintro rfl
    cases h
  · rintro rfl
    cases h

theorem inline_of_number {n : Nat} {c : Char} (h : c ∈ (toString n).toList) : IsInline c := by
  rw [Nat.toString_eq_ofList_toDigits, String.toList_ofList] at h
  exact inline_of_digit (Nat.isDigit_of_mem_toDigits (by decide) (by decide) h)

theorem inline_of_limitText {o l : Nat} {c : Char} (h : c ∈ (limitText o l).toList) : IsInline c := by
  have hword : ∀ c ∈ " LIMIT ".toList, IsInline c :=
    List.all_iff_forall_prop.mp (by decide)
  have hcomma : ∀ c ∈ ", ".toList, IsInline c := List.all_iff_forall_prop.mp (by decide)
  unfold limitText at h
  simp only [String.toList_append, List.mem_append] at h
  rcases h with ((h | h) | h) | h
  · exact hword c h
  · exact inline_of_number h
  · exact hcomma c h
  · exact inline_of_number h

theorem inline_of_viewEnd {c : Char} (h : c ∈ viewEnd.toList) : IsInline c := by
  have hview : ∀ c ∈ viewEnd.toList, IsInline c := List.all_iff_forall_prop.mp (by decide)
  exact hview c h

theorem reads_viewStart : Reads viewStart.toList (items viewStart) :=
  reads_of_plain (List.all_iff_forall_prop.mp (by decide))

/-- What stands behind a query, when the reader is outside quotes and comments. -/
theorem reads_behind (o l : Nat) :
    Reads (viewEnd.toList ++ (limitText o l).toList) (items viewEnd ++ items (limitText o l)) :=
  (reads_of_plain fun _ hc => (inline_of_viewEnd hc).1).append
    (reads_of_plain fun _ hc => (inline_of_limitText hc).1)

/-- The text in parentheses is read as it is read alone, unless it ends in a line comment, which hides what
is behind it. -/
theorem scan_behind {text : String} {rest : List Item}
    (h : (Mode.scan .code text.toList).2.finish = some rest) (o l : Nat) :
    Mode.scan .code (text.toList ++ (viewEnd.toList ++ (limitText o l).toList)) =
      if EndsInComment text then ((Mode.scan .code text.toList).1, .line)
      else
        ((Mode.scan .code text.toList).1 ++ (rest ++ (items viewEnd ++ items (limitText o l))),
          .code) := by
  rw [Mode.scan_append]
  split
  · rename_i hline
    have hinline : ∀ c ∈ viewEnd.toList ++ (limitText o l).toList, c ≠ '\n' ∧ c ≠ '\r' := by
      intro c hc
      rcases List.mem_append.mp hc with hc | hc
      · exact (inline_of_viewEnd hc).2
      · exact (inline_of_limitText hc).2
    rw [show (Mode.scan .code text.toList).2 = .line from hline, scan_line hinline, List.append_nil]
  · rename_i hline
    have hbehind : Mode.scan .code (viewEnd.toList ++ (limitText o l).toList) = _ := reads_behind o l
    have hparenthesis := scan_parenthesis h hline ([' ', 'x'] ++ (limitText o l).toList)
    have hscan : (Mode.scan .code text.toList).2.scan (viewEnd.toList ++ (limitText o l).toList) =
        (rest ++ (items viewEnd ++ items (limitText o l)), .code) := by
      refine hparenthesis.trans ?_
      rw [show ')' :: ([' ', 'x'] ++ (limitText o l).toList) =
        viewEnd.toList ++ (limitText o l).toList from rfl, hbehind]
    rw [hscan]

/-- The items of the paged text. -/
theorem itemsOf_paged {text : String} {query : List Item} (h : itemsOf text = some query)
    (o l : Nat) :
    itemsOf (viewStart ++ text ++ viewEnd ++ limitText o l) =
      some
        (if EndsInComment text then items viewStart ++ query
          else items viewStart ++ query ++ items viewEnd ++ items (limitText o l)) := by
  obtain ⟨rest, hrest, rfl⟩ := exists_finish h
  have hstart : Mode.scan .code viewStart.toList = _ := reads_viewStart
  unfold itemsOf
  rw [String.toList_append, String.toList_append, String.toList_append, List.append_assoc,
    List.append_assoc, Mode.scan_append, hstart, scan_behind hrest]
  split
  · rename_i hline
    have hnil : rest = [] := by
      rw [show (Mode.scan .code text.toList).2 = .line from hline] at hrest
      cases hrest
      rfl
    rw [hnil]
    simp [Mode.finish]
  · simp [Mode.finish]

/-! ## Pages of a result -/

/-- An answer has all rows, and no more than fit. -/
theorem populate_eq_ok {rs : ResultSet} {result : QSResult} (h : populate rs = .ok result) :
    List.Forall₂ (fun row added => row.mapM Value.added = .ok added) rs.rows result.rows ∧
      result.rows.length ≤ maxInt := by
  obtain ⟨rows, hrows, h⟩ := bind_eq_ok.mp h
  split at h
  · cases h
  · rename_i hlength
    cases h
    exact ⟨mapM_eq_ok.mp hrows, Nat.le_of_not_lt hlength⟩

/-- Some of the rows can be added if all can. -/
theorem populate_page {rs : ResultSet} {whole : QSResult} (h : populate rs = .ok whole)
    (columns : List QSColumn) (o l : Nat) :
    populate ⟨columns, (rs.rows.drop o).take l⟩ = .ok ⟨columns, (whole.rows.drop o).take l⟩ := by
  obtain ⟨hrows, hlength⟩ := populate_eq_ok h
  refine bind_eq_ok.mpr ⟨_, mapM_eq_ok.mpr (List.forall₂_take l (List.forall₂_drop o hrows)), ?_⟩
  rw [if_neg]
  · rfl
  · rw [List.length_take, List.length_drop]
    omega

/-- A list has at most as many rows as an unlimited page may have. -/
theorem page_eq {rows : List α} (h : rows.length ≤ maxInt) (offset limit : Int) :
    page offset limit rows = (rows.drop (pageOffset offset)).take (pageLimit limit) := by
  unfold page pageLimit pageOffset
  split
  · refine (List.take_of_length_le ?_).symm
    rw [List.length_drop]
    omega
  · rfl

/-! ## Paged queries -/

variable {server : QueryServer} {text : String} {query : List Item} {rs : ResultSet}
  {offset limit : Int}

/-- A query that ends in a line comment hides what is behind it. -/
theorem executeQuery_paged (hquery : itemsOf text = some query) :
    server.executeQuery (pagedText text offset limit) =
      server.execute
        (if EndsInComment text then items viewStart ++ query
          else items viewStart ++ query ++ items viewEnd ++
            items (limitText (pageOffset offset) (pageLimit limit))) := by
  unfold executeQuery pagedText
  rw [itemsOf_paged hquery]
  rfl

/-- Without a page the text itself is run. -/
theorem query_whole (server : QueryServer) (text : String) :
    server.query text noOffset noLimit =
      match server.executeQuery text with
      | none => .error .badRequest
      | some rs => populate rs := by
  unfold query
  rw [if_neg (by simp)]

/-- With one the paged text is. -/
theorem query_paged (server : QueryServer) (text : String)
    (h : ¬(offset = noOffset ∧ limit = noLimit)) :
    server.query text offset limit =
      match server.executeQuery (pagedText text offset limit) with
      | none => .error .badRequest
      | some rs => populate rs := by
  unfold query
  rw [if_pos (not_and_or.mp h)]

/-- A text that the server refuses has no page. -/
theorem not_agrees_of_refused {whole : QSResult} (h : ¬(offset = noOffset ∧ limit = noLimit))
    (hrefused : server.executeQuery (pagedText text offset limit) = none) :
    ¬server.Agrees text offset limit whole := by
  rintro ⟨result, hresult, -⟩
  rw [query_paged server text h, hrefused] at hresult
  cases hresult

/-- A page of a query agrees with the whole result exactly if it is the whole result that is asked for, or
the text of the query has no semicolon and does not end in a line comment. -/
theorem agrees_iff {whole : QSResult} (hquery : itemsOf text = some query)
    (h : server.Understands query rs (pageOffset offset) (pageLimit limit))
    (hwhole : server.query text noOffset noLimit = .ok whole) :
    server.Agrees text offset limit whole ↔
      (offset = noOffset ∧ limit = noLimit) ∨ (.cut ∉ query ∧ ¬EndsInComment text) := by
  by_cases hpaged : offset = noOffset ∧ limit = noLimit
  · obtain ⟨rfl, rfl⟩ := hpaged
    refine iff_of_true ⟨whole, hwhole, ?_⟩ (.inl ⟨rfl, rfl⟩)
    rfl
  rw [or_iff_right hpaged]
  have hpopulate : populate rs = .ok whole := by
    have haccepts : server.executeQuery text = some rs := by
      unfold executeQuery
      rw [hquery]
      exact h.accepts
    rw [query_whole, haccepts] at hwhole
    exact hwhole
  constructor
  -- a comment at the end swallows the parenthesis that closes the inline view; a semicolon ends it
  · intro hagrees
    have hcomment : ¬EndsInComment text := by
      intro hcomment
      refine not_agrees_of_refused hpaged ?_ hagrees
      rw [executeQuery_paged hquery, if_pos hcomment]
      exact h.parenthesis
    refine ⟨fun hcut => ?_, hcomment⟩
    refine not_agrees_of_refused hpaged ?_ hagrees
    rw [executeQuery_paged hquery, if_neg hcomment]
    exact h.semicolon hcut
  -- the text is a query expression, so the inline view gives its rows and the limit a slice of them
  · rintro ⟨hcut, hcomment⟩
    obtain ⟨viewColumns, hview⟩ := h.inlineView hcut
    obtain ⟨columns, hlimit⟩ := h.limit _ hview
    refine ⟨⟨columns, (whole.rows.drop (pageOffset offset)).take (pageLimit limit)⟩, ?_,
      (page_eq (populate_eq_ok hpopulate).2 offset limit).symm⟩
    rw [query_paged server text hpaged, executeQuery_paged hquery, if_neg hcomment, hlimit]
    exact populate_page hpopulate columns _ _

/-- The ids of the orders, one in a row. -/
def ordersOf (ids : List String) : ResultSet where
  columns := [{ type := "string", name := "id", label := "id" }]
  rows := ids.map fun id => [.other (some id)]

/-- A server that answers these texts, by their items. -/
def answering (table : List (List Item × ResultSet)) : QueryServer where
  execute query := table.lookup query

def ordersQuery : String := "SELECT id FROM orders"

/-- Three orders, with the second of them as a page. -/
def ordersServer : QueryServer :=
  answering
    [(items ordersQuery, ordersOf ["a", "b", "c"]),
      (items viewStart ++ items ordersQuery ++ items viewEnd, ordersOf ["a", "b", "c"]),
      (items viewStart ++ items ordersQuery ++ items viewEnd ++ items (limitText 1 1),
        ordersOf ["b"])]

/-- The server understands it. -/
theorem ordersServer_understands :
    ordersServer.Understands (items ordersQuery) (ordersOf ["a", "b", "c"]) 1 1 where
  accepts := by decide
  inlineView _ := ⟨(ordersOf []).columns, by decide⟩
  limit view hview := by
    have hsame : some view = some (ordersOf ["a", "b", "c"]) := hview.symm.trans (by decide)
    cases hsame
    exact ⟨(ordersOf []).columns, by decide⟩
  semicolon hcut := absurd hcut (by decide)
  parenthesis := by decide

theorem agrees_iff_orders :
    ordersServer.Agrees ordersQuery 1 1
      ⟨(ordersOf []).columns, [[some "a"], [some "b"], [some "c"]]⟩ :=
  (agrees_iff (by decide) ordersServer_understands (by decide)).mpr
    (.inr ⟨by decide, by decide⟩)

/-- With a semicolon behind it the query is answered as a whole, and refused page by page. -/
theorem semicolon_refused :
    ¬∀ (server : QueryServer) (text : String) (query : List Item) (rs : ResultSet)
      (offset limit : Int) (whole : QSResult), itemsOf text = some query →
        server.Understands query rs (pageOffset offset) (pageLimit limit) →
          server.query text noOffset noLimit = .ok whole →
            server.Agrees text offset limit whole := by
  intro h
  have hagrees := h (answering [(items "SELECT id FROM orders;", ordersOf ["a"])])
    "SELECT id FROM orders;" (items "SELECT id FROM orders;") (ordersOf ["a"]) 0 10
    ⟨(ordersOf []).columns, [[some "a"]]⟩ (by decide)
    { accepts := by decide
      inlineView := fun hcut => absurd (by decide) hcut
      limit := fun view hview => by
        have hnone : none = some view := (show _ = none by decide).symm.trans hview
        cases hnone
      semicolon := fun _ => by decide
      parenthesis := by decide }
    (by decide)
  exact not_agrees_of_refused (by decide) (by decide) hagrees

end QueryServer

end TeiidSyndesis.Server
