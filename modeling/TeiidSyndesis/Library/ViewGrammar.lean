/-
# TeiidSyndesis.Library.ViewGrammar — CREATE VIEW statements as texts.

A grammar by recursive descent: the columns and keys of a header, an optional annotation, the items of the
SELECT list and the tables of the FROM clause, each list parted by commas.  A statement is written with a
spelling, which says how a name is written and which token it is read as; aliases are written as they
are.  What is written is read back: `readView_text`.

Nothing here names a program.

Main results:
* `Reads`, `ReadsApart` — a text with its tokens, and what may stand next to it;
* `sqlTokens_text` — a statement that can be written has the tokens it should have;
* `commaList_commas`, `element_tokens`, `itemRef_tokens`, `tableRef_tokens` — each part of the grammar
  reads its own tokens back;
* `viewStatement_tokens`, `readView_text` — so does the grammar.
-/
import TeiidSyndesis.Library.Relations
import TeiidSyndesis.Library.SqlTokens

namespace TeiidSyndesis.Library.Sql

/-! ## The grammar -/

/-- What is read from the front of some tokens, and the tokens behind it. -/
abbrev Read (β : Type) := List Token → Option (β × List Token)

namespace ViewGrammar

/-- A word is a keyword in any case. -/
def keyword (text : String) : List Token → Option (List Token)
  | .word chars :: rest => if chars.map Char.toUpper = text.toList then some rest else none
  | _ => none

def symbol (c : Char) : List Token → Option (List Token)
  | .symbol c' :: rest => if c' = c then some rest else none
  | _ => none

/-- A name is a word or stands in double quotes. -/
def identifier : Read String
  | .word chars :: rest => some (String.ofList chars, rest)
  | .quotation .double chars :: rest => some (String.ofList chars, rest)
  | _ => none

/-- One or more, with commas between them. -/
def separated {β : Type} (item : Read β) : Nat → Read (List β)
  | 0, _ => none
  | fuel + 1, tokens => do
      let (b, rest) ← item tokens
      match symbol ',' rest with
      | some rest => do
          let (bs, rest) ← separated item fuel rest
          pure (b :: bs, rest)
      | none => pure ([b], rest)

/-- There are no more of them than tokens and one. -/
def commaList {β : Type} (item : Read β) : Read (List β) := fun tokens =>
  separated item (tokens.length + 1) tokens

/-- `PRIMARY KEY(` or `UNIQUE(`. -/
def keyHead : Read Bool := fun tokens =>
  match (keyword "PRIMARY" tokens).bind fun rest => (keyword "KEY" rest).bind (symbol '(') with
  | some rest => some (true, rest)
  | none => ((keyword "UNIQUE" tokens).bind (symbol '(')).map (false, ·)

/-- A column, or a key. -/
def element : Read Element := fun tokens =>
  match keyHead tokens with
  | some (primary, rest) => do
      let (columns, rest) ← commaList identifier rest
      let rest ← symbol ')' rest
      pure (.key primary columns, rest)
  | none => do
      let (name, rest) ← identifier tokens
      pure (.column name, rest)

/-- The annotation, where there is one. -/
def optionClause : Read (Option String) := fun tokens =>
  match keyword "OPTIONS" tokens with
  | some rest => do
      let rest ← symbol '(' rest
      let rest ← keyword "ANNOTATION" rest
      match rest with
      | .quotation .single chars :: rest => do
          let rest ← symbol ')' rest
          pure (some (String.ofList chars), rest)
      | _ => none
  | none => some (none, tokens)

/-- An item of the SELECT list. -/
def itemRef : Read ItemRef := fun tokens => do
  let (first, rest) ← identifier tokens
  match symbol '.' rest with
  | some rest => do
      let (name, rest) ← identifier rest
      pure ({ qualifier := some first, name := name }, rest)
  | none => pure ({ qualifier := none, name := first }, rest)

/-- A table of the FROM clause, with its alias. -/
def tableRef : Read TableRef := fun tokens => do
  let (schema, rest) ← identifier tokens
  let rest ← symbol '.' rest
  let (table, rest) ← identifier rest
  match keyword "AS" rest with
  | some rest => do
      let (tableAlias, rest) ← identifier rest
      pure ({ schema := schema, table := table, tableAlias := some tableAlias }, rest)
  | none => pure ({ schema := schema, table := table, tableAlias := none }, rest)

/-- The statement, part by part. -/
def viewStatement (tokens : List Token) : Option ViewStatement := do
  let rest ← keyword "CREATE" tokens
  let rest ← keyword "VIEW" rest
  let (name, rest) ← identifier rest
  let rest ← symbol '(' rest
  let (elements, rest) ← commaList element rest
  let rest ← symbol ')' rest
  let (description, rest) ← optionClause rest
  let rest ← keyword "AS" rest
  let rest ← keyword "SELECT" rest
  let (items, rest) ← commaList itemRef rest
  let rest ← keyword "FROM" rest
  let (tables, rest) ← commaList tableRef rest
  if rest = [] then
    some
      { name := name, elements := elements, description := description, items := items, tables := tables }
  else none

end ViewGrammar

/-- The CREATE VIEW statement a text is. -/
def readView (text : String) : Option ViewStatement := (sqlTokens text).bind ViewGrammar.viewStatement

/-! ## Texts and their tokens -/

/-- The text has these tokens, and a separator ends the last one. -/
def Reads (text : String) (tokens : List Token) : Prop :=
  ∃ last, (scanned text).2.ending = some last ∧ (scanned text).1 ++ last = tokens

/-- The text has these tokens, and ends between two. -/
def ReadsApart (text : String) (tokens : List Token) : Prop := scanned text = (tokens, .between)

instance (text : String) (tokens : List Token) : Decidable (ReadsApart text tokens) :=
  inferInstanceAs (Decidable (_ = _))

section Texts

variable {text next : String} {tokens more : List Token}

/-- A text that is read has these tokens. -/
theorem Reads.sqlTokens (h : Reads text tokens) : Sql.sqlTokens text = some tokens := by
  obtain ⟨last, hlast, rfl⟩ := h
  have hfinish : (Reader.scan .between text.toList).2.finish = some last := finish_of_ending hlast
  unfold Sql.sqlTokens Reader.tokensFrom
  rw [hfinish]
  rfl

/-- What may stand next to anything can be read by itself. -/
theorem ReadsApart.reads (h : ReadsApart text tokens) : Reads text tokens := by
  unfold ReadsApart at h
  unfold Reads
  rw [h]
  exact ⟨[], rfl, List.append_nil _⟩

/-- Two such texts side by side. -/
theorem ReadsApart.append (h : ReadsApart text tokens) (hnext : ReadsApart next more) :
    ReadsApart (text ++ next) (tokens ++ more) := by
  unfold ReadsApart at h hnext ⊢
  rw [scanned_append (by rw [h]), h, hnext]

/-- Such a text in front of any other. -/
theorem ReadsApart.append_reads (h : ReadsApart text tokens) (hnext : Reads next more) :
    Reads (text ++ next) (tokens ++ more) := by
  obtain ⟨last, hlast, rfl⟩ := hnext
  unfold ReadsApart at h
  unfold Reads
  rw [scanned_append (by rw [h]), h]
  exact ⟨last, hlast, List.append_assoc _ _ _⟩

/-- A separator ends the last token. -/
theorem Reads.append (h : Reads text tokens) (hnext : ReadsApart next more)
    (hseparator : startsWithSeparator next = true) : ReadsApart (text ++ next) (tokens ++ more) := by
  obtain ⟨last, hlast, rfl⟩ := h
  obtain ⟨c, cs, hc, hchars⟩ : ∃ c cs, isSeparator c = true ∧ next.toList = c :: cs := by
    unfold startsWithSeparator at hseparator
    cases hchars : next.toList with
    | nil => simp [hchars] at hseparator
    | cons c cs => exact ⟨c, cs, by simpa [hchars] using hseparator, rfl⟩
  unfold ReadsApart at hnext ⊢
  unfold scanned at hlast hnext ⊢
  rw [String.toList_append, Reader.scan_append, hchars, scan_of_ending hlast hc, ← hchars, hnext,
    List.append_assoc]

/-- A name that can be written as it is. -/
def IsWord (name : String) : Prop := name ≠ "" ∧ ∀ c ∈ name.toList, isWordChar c = true

/-- A word is one token. -/
theorem reads_word (h : IsWord text) : Reads text [.word text.toList] := by
  obtain ⟨hne, hword⟩ := h
  unfold Reads scanned
  cases htext : text.toList with
  | nil => exact absurd (String.toList_inj.mp (htext.trans String.toList_empty.symm)) hne
  | cons c cs =>
      rw [htext, List.forall_mem_cons] at hword
      have hscan : Reader.scan .between (c :: cs) = ([], .word (c :: cs)) := by
        simp [Reader.scan, Reader.read, start_of_isWordChar hword.1, scan_word hword.2]
      rw [hscan]
      exact ⟨_, rfl, rfl⟩

/-- A quotation is one token, whatever is in it. -/
theorem reads_quote (mark : Mark) (chars : List Char) :
    Reads (String.ofList (quote mark chars)) [.quotation mark chars] := by
  unfold Reads scanned
  rw [String.toList_ofList, scan_quote]
  exact ⟨_, rfl, rfl⟩

/-- What stands between commas is read one after another. -/
theorem reads_commas {β : Type} {write : β → String} {print : β → List Token} {xs : List β}
    (h : ∀ x ∈ xs, Reads (write x) (print x)) :
    Reads (", ".intercalate (xs.map write)) ([Token.symbol ','].intercalate (xs.map print)) := by
  have hcomma : ReadsApart ", " [.symbol ','] := by decide
  induction xs with
  | nil => exact ⟨[], rfl, rfl⟩
  | cons x xs ih =>
      rw [List.forall_mem_cons] at h
      cases xs with
      | nil => simpa using h.1
      | cons next xs =>
          have hrest := ih h.2
          rw [List.map_cons, List.map_cons, String.intercalate_cons_cons, List.map_cons, List.map_cons,
            List.intercalate_cons_cons]
          exact (h.1.append hcomma (by decide)).append_reads hrest

end Texts

/-! ## Writing a statement -/

/-- How names are written, and what they are read as. -/
structure Spelling where
  write : String → String
  token : String → Token
  reads : ∀ name, name ≠ "" → Reads (write name) [token name]
  identifier : ∀ name rest, ViewGrammar.identifier (token name :: rest) = some (name, rest)

section Writing

variable (s : Spelling)

/-- How an element is written. -/
def Element.text : Element → String
  | .column name => s.write name
  | .key primary columns =>
      (if primary then "PRIMARY KEY(" else "UNIQUE(") ++ ", ".intercalate (columns.map s.write) ++ ")"

/-- How an item is written. -/
def ItemRef.text (item : ItemRef) : String :=
  match item.qualifier with
  | some qualifier => qualifier ++ "." ++ s.write item.name
  | none => s.write item.name

/-- How a table is written. -/
def TableRef.text (t : TableRef) : String :=
  s.write t.schema ++ "." ++ s.write t.table ++
    match t.tableAlias with
    | some tableAlias => " AS " ++ tableAlias
    | none => ""

/-- How the annotation is written. -/
def annotationText : Option String → String
  | some text => "OPTIONS (ANNOTATION " ++ String.ofList (quote .single text.toList) ++ ") "
  | none => ""

/-- How the statement is written. -/
def ViewStatement.text (v : ViewStatement) : String :=
  "CREATE VIEW " ++ s.write v.name ++ " (" ++ ", ".intercalate (v.elements.map (·.text s)) ++ ") " ++
    annotationText v.description ++ "AS \nSELECT " ++ ", ".intercalate (v.items.map (·.text s)) ++
    "\nFROM " ++ ", ".intercalate (v.tables.map (·.text s))

/-! ## The tokens of a statement -/

/-- Groups of tokens with commas between them. -/
abbrev commas {β : Type} (print : β → List Token) (xs : List β) : List Token :=
  [Token.symbol ','].intercalate (xs.map print)

/-- What a key starts with. -/
def keyTokens (primary : Bool) : List Token :=
  if primary then [.word "PRIMARY".toList, .word "KEY".toList, .symbol '(']
  else [.word "UNIQUE".toList, .symbol '(']

/-- The tokens of an element. -/
def Element.tokens : Element → List Token
  | .column name => [s.token name]
  | .key primary columns =>
      keyTokens primary ++ (commas (fun name => [s.token name]) columns ++ [.symbol ')'])

/-- The tokens of an item. -/
def ItemRef.tokens (item : ItemRef) : List Token :=
  match item.qualifier with
  | some qualifier => [.word qualifier.toList, .symbol '.', s.token item.name]
  | none => [s.token item.name]

/-- The tokens of a table. -/
def TableRef.tokens (t : TableRef) : List Token :=
  [s.token t.schema, .symbol '.', s.token t.table] ++
    match t.tableAlias with
    | some tableAlias => [.word "AS".toList, .word tableAlias.toList]
    | none => []

/-- The tokens of the annotation. -/
def annotationTokens : Option String → List Token
  | some text => [.word "OPTIONS".toList, .symbol '(', .word "ANNOTATION".toList,
      .quotation .single text.toList, .symbol ')']
  | none => []

/-- The tokens of the statement. -/
def ViewStatement.tokens (v : ViewStatement) : List Token :=
  .word "CREATE".toList :: .word "VIEW".toList :: s.token v.name :: .symbol '(' ::
    (commas (Element.tokens s) v.elements ++ .symbol ')' :: (annotationTokens v.description ++
      .word "AS".toList :: .word "SELECT".toList :: (commas (ItemRef.tokens s) v.items ++
        .word "FROM".toList :: commas (TableRef.tokens s) v.tables)))

end Writing

/-! ## Statements that can be written -/

/-- The names are there; a key has columns. -/
def Element.Named : Element → Prop
  | .column name => name ≠ ""
  | .key _ columns => columns ≠ [] ∧ ∀ name ∈ columns, name ≠ ""

/-- All lists have members, all names are there and the aliases are words. -/
structure ViewStatement.Writable (v : ViewStatement) : Prop where
  name : v.name ≠ ""
  elements : v.elements ≠ []
  named : ∀ e ∈ v.elements, e.Named
  items : v.items ≠ []
  itemNames : ∀ item ∈ v.items, item.name ≠ "" ∧ ∀ qualifier ∈ item.qualifier, IsWord qualifier
  tables : v.tables ≠ []
  tableNames : ∀ t ∈ v.tables, t.schema ≠ "" ∧ t.table ≠ "" ∧ ∀ tableAlias ∈ t.tableAlias, IsWord tableAlias

/-! ## What is written has the tokens of the statement -/

section Written

variable {s : Spelling}

theorem reads_element {e : Element} (h : e.Named) : Reads (e.text s) (e.tokens s) := by
  cases e with
  | column name => exact s.reads name h
  | key primary columns =>
      have hnames : Reads (", ".intercalate (columns.map s.write))
          (commas (fun name => [s.token name]) columns) :=
        reads_commas fun name hname => s.reads name (h.2 name hname)
      have hclose : ReadsApart ")" [.symbol ')'] := by decide
      have hopen : ReadsApart (if primary then "PRIMARY KEY(" else "UNIQUE(") (keyTokens primary) := by
        cases primary with
        | true => decide
        | false => decide
      have hkey := ((hopen.append_reads hnames).append hclose (by decide)).reads
      rw [List.append_assoc] at hkey
      exact hkey

theorem reads_dotted {front back : String} {token token' : Token} (hfront : Reads front [token])
    (hback : Reads back [token']) : Reads (front ++ "." ++ back) [token, .symbol '.', token'] := by
  have hdot : ReadsApart "." [.symbol '.'] := by decide
  exact (hfront.append hdot (by decide)).append_reads hback

theorem reads_item {item : ItemRef} (hname : item.name ≠ "")
    (hqualifier : ∀ qualifier ∈ item.qualifier, IsWord qualifier) :
    Reads (item.text s) (item.tokens s) := by
  unfold ItemRef.text ItemRef.tokens
  cases h : item.qualifier with
  | none => exact s.reads _ hname
  | some qualifier => exact reads_dotted (reads_word (hqualifier qualifier h)) (s.reads _ hname)

theorem reads_table {t : TableRef} (hschema : t.schema ≠ "") (htable : t.table ≠ "")
    (halias : ∀ tableAlias ∈ t.tableAlias, IsWord tableAlias) : Reads (t.text s) (t.tokens s) := by
  have hdotted := reads_dotted (s.reads _ hschema) (s.reads _ htable)
  unfold TableRef.text TableRef.tokens
  cases h : t.tableAlias with
  | none =>
      rw [String.append_empty, List.append_nil]
      exact hdotted
  | some tableAlias =>
      have has : ReadsApart " AS " [.word "AS".toList] := by decide
      have hnamed := (hdotted.append has (by decide)).append_reads (reads_word (halias tableAlias h))
      rwa [String.append_assoc] at hnamed

theorem readsApart_annotationText (description : Option String) :
    ReadsApart (annotationText description) (annotationTokens description) := by
  cases description with
  | none => rfl
  | some text =>
      have hopen : ReadsApart "OPTIONS (ANNOTATION "
          [.word "OPTIONS".toList, .symbol '(', .word "ANNOTATION".toList] := by decide
      have hclose : ReadsApart ") " [.symbol ')'] := by decide
      exact (hopen.append_reads (reads_quote .single text.toList)).append hclose (by decide)

/-- What is written has the tokens of the statement, part by part. -/
theorem sqlTokens_text {v : ViewStatement} (h : v.Writable) :
    sqlTokens (v.text s) = some (v.tokens s) := by
  have hcreate : ReadsApart "CREATE VIEW " [.word "CREATE".toList, .word "VIEW".toList] := by decide
  have hopen : ReadsApart " (" [.symbol '('] := by decide
  have hclose : ReadsApart ") " [.symbol ')'] := by decide
  have hselect : ReadsApart "AS \nSELECT " [.word "AS".toList, .word "SELECT".toList] := by decide
  have hfrom : ReadsApart "\nFROM " [.word "FROM".toList] := by decide
  have helements : Reads _ (commas (Element.tokens s) v.elements) :=
    reads_commas fun e he => reads_element (h.named e he)
  have hitems : Reads _ (commas (ItemRef.tokens s) v.items) :=
    reads_commas fun item hitem => reads_item (h.itemNames item hitem).1 (h.itemNames item hitem).2
  have htables : Reads _ (commas (TableRef.tokens s) v.tables) :=
    reads_commas fun t ht =>
      reads_table (h.tableNames t ht).1 (h.tableNames t ht).2.1 (h.tableNames t ht).2.2
  have hheader := (((hcreate.append_reads (s.reads _ h.name)).append hopen (by decide)).append_reads
    helements).append hclose (by decide)
  have hquery := (((hheader.append (readsApart_annotationText v.description)).append hselect).append_reads
    hitems).append hfrom (by decide)
  have hall := (hquery.append_reads htables).sqlTokens
  unfold ViewStatement.text
  rw [hall]
  simp [ViewStatement.tokens]

end Written

/-! ## What is read back -/

namespace ViewGrammar

section Reading

variable {s : Spelling}

theorem keyword_word {text : String} (h : text.toList.map Char.toUpper = text.toList) (rest : List Token) :
    keyword text (.word text.toList :: rest) = some rest := if_pos h

/-- A list is read back if its members are, with what can follow them behind. -/
theorem separated_commas {β : Type} {item : Read β} {print : β → List Token} {Follows : List Token → Prop}
    (hcomma : ∀ rest, Follows (.symbol ',' :: rest)) {xs : List β}
    (hitem : ∀ x ∈ xs, ∀ rest, Follows rest → item (print x ++ rest) = some (x, rest)) (hxs : xs ≠ [])
    {rest : List Token} (hrest : Follows rest) (hend : symbol ',' rest = none) {fuel : Nat}
    (hfuel : xs.length ≤ fuel) : separated item fuel (commas print xs ++ rest) = some (xs, rest) := by
  induction xs generalizing fuel with
  | nil => exact absurd rfl hxs
  | cons x xs ih =>
      rw [List.forall_mem_cons] at hitem
      obtain ⟨fuel, rfl⟩ : ∃ n, fuel = n + 1 := ⟨fuel - 1, by simp at hfuel; omega⟩
      cases xs with
      | nil =>
          have hread : item (commas print [x] ++ rest) = some (x, rest) := by
            simpa [commas] using hitem.1 rest hrest
          unfold separated
          rw [hread]
          simp [hend]
      | cons next xs =>
          -- a comma is behind `x`, and so it is read
          have hsplit : commas print (x :: next :: xs) ++ rest =
              print x ++ (.symbol ',' :: (commas print (next :: xs) ++ rest)) := by
            simp [commas, List.intercalate_cons_cons]
          have hmore : separated item fuel (commas print (next :: xs) ++ rest) = some (next :: xs, rest) :=
            ih hitem.2 (List.cons_ne_nil _ _) (by simp at hfuel ⊢; omega)
          unfold separated
          rw [hsplit, hitem.1 _ (hcomma _)]
          simp [symbol, hmore]

theorem length_commas {β : Type} (print : β → List Token) (xs : List β) :
    xs.length ≤ (commas print xs).length + 1 := by
  induction xs with
  | nil => exact Nat.zero_le _
  | cons x xs ih =>
      cases xs with
      | nil => simp
      | cons next xs =>
          simp only [commas, List.map_cons, List.intercalate_cons_cons, List.length_append,
            List.length_cons, List.length_nil] at ih ⊢
          omega

/-- A list is read back, item by item, where each item is. -/
theorem commaList_commas {β : Type} {item : Read β} {print : β → List Token}
    {Follows : List Token → Prop} (hcomma : ∀ rest, Follows (.symbol ',' :: rest)) {xs : List β}
    (hitem : ∀ x ∈ xs, ∀ rest, Follows rest → item (print x ++ rest) = some (x, rest)) (hxs : xs ≠ [])
    {rest : List Token} (hrest : Follows rest) (hend : symbol ',' rest = none) :
    commaList item (commas print xs ++ rest) = some (xs, rest) := by
  refine separated_commas hcomma hitem hxs hrest hend ?_
  have hlength := length_commas print xs
  rw [List.length_append]
  omega

/-- A comma or a closing bracket. -/
def Closed (tokens : List Token) : Prop := ∃ c rest, tokens = .symbol c :: rest ∧ c ≠ '('

/-- A list of names is read back up to the closing parenthesis. -/
theorem commaList_identifier {names : List String} (h : names ≠ []) (rest : List Token) :
    commaList identifier (commas (fun name => [s.token name]) names ++ .symbol ')' :: rest) =
      some (names, .symbol ')' :: rest) :=
  @commaList_commas _ identifier _ (fun _ => True) (fun _ => trivial) names
    (fun name _ rest _ => s.identifier name rest) h _ trivial rfl

/-- No key starts where a name is followed by a symbol that opens nothing. -/
theorem keyHead_eq_none (token : Token) {rest : List Token} (h : Closed rest) :
    keyHead (token :: rest) = none := by
  obtain ⟨c, rest, rfl, hc⟩ := h
  have hkey : keyword "KEY" (.symbol c :: rest) = none := rfl
  have hopen : symbol '(' (.symbol c :: rest) = none := if_neg hc
  have hword (text : String) :
      keyword text (token :: .symbol c :: rest) = none ∨
        keyword text (token :: .symbol c :: rest) = some (.symbol c :: rest) := by
    cases token with
    | word chars =>
        unfold keyword
        dsimp only
        split
        · exact .inr rfl
        · exact .inl rfl
    | quotation mark chars => exact .inl rfl
    | symbol c => exact .inl rfl
  -- neither `KEY` nor an opening bracket comes behind the token
  unfold keyHead
  rcases hword "PRIMARY" with hprimary | hprimary <;> rcases hword "UNIQUE" with hunique | hunique <;>
    simp [hprimary, hunique, hkey, hopen]

theorem keyHead_keyTokens (primary : Bool) (rest : List Token) :
    keyHead (keyTokens primary ++ rest) = some (primary, rest) := by
  cases primary with
  | true => simp [keyTokens, keyHead, keyword, symbol]
  | false => simp [keyTokens, keyHead, keyword, symbol]

/-- An element is read back up to the next comma, or the end of the header. -/
theorem element_tokens {e : Element} (h : e.Named) {rest : List Token} (hrest : Closed rest) :
    element (e.tokens s ++ rest) = some (e, rest) := by
  cases e with
  | column name =>
      unfold element
      show (match keyHead (s.token name :: rest) with | some (primary, rest) => _ | none => _) = _
      rw [keyHead_eq_none _ hrest]
      show (identifier (s.token name :: rest) >>= _) = _
      rw [s.identifier]
      rfl
  | key primary columns =>
      have htokens : (Element.key primary columns).tokens s ++ rest =
          keyTokens primary ++ (commas (fun name => [s.token name]) columns ++ .symbol ')' :: rest) := by
        simp [Element.tokens]
      unfold element
      rw [htokens, keyHead_keyTokens]
      refine Option.bind_eq_some_iff.mpr ⟨_, commaList_identifier h.1 rest, ?_⟩
      exact Option.bind_eq_some_iff.mpr ⟨rest, rfl, rfl⟩

/-- An item is read back: whether it is qualified shows in the token behind it. -/
theorem itemRef_tokens (item : ItemRef) {rest : List Token} (hrest : symbol '.' rest = none) :
    itemRef (item.tokens s ++ rest) = some (item, rest) := by
  obtain ⟨qualifier, name⟩ := item
  cases qualifier with
  | none =>
      show (identifier (s.token name :: rest) >>= _) = _
      rw [s.identifier]
      simp [hrest]
  | some qualifier =>
      show (identifier (s.token name :: rest) >>= _) = _
      rw [s.identifier, String.ofList_toList]
      rfl

/-- A table is read back: whether it has an alias shows in the token behind it. -/
theorem tableRef_tokens (t : TableRef) {rest : List Token} (hrest : keyword "AS" rest = none) :
    tableRef (t.tokens s ++ rest) = some (t, rest) := by
  obtain ⟨schema, table, tableAlias⟩ := t
  cases tableAlias with
  | none =>
      show (identifier (s.token schema :: .symbol '.' :: s.token table :: rest) >>= _) = _
      rw [s.identifier]
      show (identifier (s.token table :: rest) >>= _) = _
      rw [s.identifier]
      simp [hrest]
  | some tableAlias =>
      show (identifier (s.token schema :: .symbol '.' :: s.token table :: _) >>= _) = _
      rw [s.identifier]
      show (identifier (s.token table :: _) >>= _) = _
      rw [s.identifier]
      simp [keyword, identifier]

/-- The annotation is read back, or none where there is none. -/
theorem optionClause_tokens (text : Option String) {rest : List Token}
    (hrest : keyword "OPTIONS" rest = none) :
    optionClause (annotationTokens text ++ rest) = some (text, rest) := by
  cases text with
  | none =>
      unfold optionClause
      rw [annotationTokens, List.nil_append, hrest]
  | some text =>
      have hoptions : keyword "OPTIONS" (annotationTokens (some text) ++ rest) =
          some (.symbol '(' :: .word "ANNOTATION".toList :: .quotation .single text.toList ::
            .symbol ')' :: rest) := keyword_word (by decide) _
      unfold optionClause
      rw [hoptions]
      refine Option.bind_eq_some_iff.mpr ⟨_, rfl, ?_⟩
      refine Option.bind_eq_some_iff.mpr ⟨_, keyword_word (by decide) _, ?_⟩
      refine Option.bind_eq_some_iff.mpr ⟨rest, rfl, ?_⟩
      show some (some (String.ofList text.toList), rest) = _
      rw [String.ofList_toList]

/-- The tokens of a statement are the statement. -/
theorem viewStatement_tokens {v : ViewStatement} (h : v.Writable) :
    viewStatement (v.tokens s) = some v := by
  have helements : ∀ rest, commaList element (commas (Element.tokens s) v.elements ++ .symbol ')' :: rest) =
      some (v.elements, .symbol ')' :: rest) := fun rest =>
    @commaList_commas _ element _ Closed (fun rest => ⟨',', rest, rfl, by decide⟩) v.elements
      (fun e he _ hrest => element_tokens (h.named e he) hrest) h.elements _
      ⟨')', rest, rfl, by decide⟩ rfl
  have hitems : ∀ rest, commaList itemRef
      (commas (ItemRef.tokens s) v.items ++ .word "FROM".toList :: rest) =
        some (v.items, .word "FROM".toList :: rest) := fun rest =>
    @commaList_commas _ itemRef _ (fun rest => symbol '.' rest = none) (fun _ => rfl) v.items
      (fun item _ _ hrest => itemRef_tokens item hrest) h.items _ rfl rfl
  have htables : commaList tableRef (commas (TableRef.tokens s) v.tables) = some (v.tables, []) := by
    have hlist := @commaList_commas _ tableRef (TableRef.tokens s)
      (fun rest => keyword "AS" rest = none) (fun _ => rfl) v.tables
      (fun t _ _ hrest => tableRef_tokens t hrest) h.tables [] rfl rfl
    rwa [List.append_nil] at hlist
  unfold viewStatement ViewStatement.tokens
  refine Option.bind_eq_some_iff.mpr ⟨_, keyword_word (by decide) _, ?_⟩
  refine Option.bind_eq_some_iff.mpr ⟨_, keyword_word (by decide) _, ?_⟩
  refine Option.bind_eq_some_iff.mpr ⟨_, s.identifier _ _, ?_⟩
  refine Option.bind_eq_some_iff.mpr ⟨_, rfl, ?_⟩
  refine Option.bind_eq_some_iff.mpr ⟨_, helements _, ?_⟩
  refine Option.bind_eq_some_iff.mpr ⟨_, rfl, ?_⟩
  refine Option.bind_eq_some_iff.mpr ⟨_, optionClause_tokens v.description rfl, ?_⟩
  refine Option.bind_eq_some_iff.mpr ⟨_, keyword_word (by decide) _, ?_⟩
  refine Option.bind_eq_some_iff.mpr ⟨_, keyword_word (by decide) _, ?_⟩
  refine Option.bind_eq_some_iff.mpr ⟨_, hitems _, ?_⟩
  refine Option.bind_eq_some_iff.mpr ⟨_, keyword_word (by decide) _, ?_⟩
  exact Option.bind_eq_some_iff.mpr ⟨_, htables, rfl⟩

end Reading

end ViewGrammar

/-- A statement that can be written is read back. -/
theorem readView_text {s : Spelling} {v : ViewStatement} (h : v.Writable) : readView (v.text s) = some v := by
  unfold readView
  rw [sqlTokens_text h]
  exact ViewGrammar.viewStatement_tokens h

end TeiidSyndesis.Library.Sql
