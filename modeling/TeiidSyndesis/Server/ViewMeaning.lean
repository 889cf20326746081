/-
# TeiidSyndesis.Server.ViewMeaning — what a generated view shows.

The text of a generated view is read as a CREATE VIEW statement, with the names that Teiid escapes as
names.  On any contents of the source tables the statement shows the rows of the first table, under its
columns, where the second table adds no column, and nothing where it does: its columns are selected and
it is not in the FROM clause.  A key the view declares is a key of its table, so what is unique in the
table is unique in the view.

Main results:
* `getODataViewDdl_text` — the text of a generated view is that of a CREATE VIEW statement;
* `writable_generatedView` — which can be written, so the text is read back as that statement;
* `showsTable_generatedView`, `showsNothing_generatedView` — what it shows, where the second table adds
  no column and where it does;
* `generated_shows` — both together, of the text itself;
* `imported_shows` — and of each view that an import leaves.
-/
import TeiidSyndesis.Library.ViewGrammar
import TeiidSyndesis.Server.ImportTolerance
import TeiidSyndesis.Server.SourcePaths
import TeiidSyndesis.Server.ViewKeys
import TeiidSyndesis.Server.ViewScopes

namespace TeiidSyndesis.Server

open TeiidSyndesis.Library TeiidSyndesis.Library.Sql TeiidSyndesis.Model TeiidSyndesis.Repository

/-! ## Names as Teiid writes them -/

/-- The token an escaped name is. -/
def nameToken (teiid : Teiid) (name : String) : Token :=
  if teiid.escapeSinglePart name = name ∧ name ≠ "" then .word name.toList
  else .quotation .double name.toList

section Spelled

variable {teiid : Teiid}

/-- A name is not its own quotation. -/
theorem ne_quote (mark : Mark) (name : String) : name ≠ String.ofList (quote mark name.toList) := by
  intro h
  have hlength := congrArg (List.length ∘ String.toList) h
  have hlt := lt_length_quote mark name.toList
  simp only [Function.comp_apply, String.toList_ofList] at hlength
  omega

/-- A name that Teiid escapes is read as one token. -/
theorem reads_escapeSinglePart (hnames : EscapesNames teiid) {name : String} (hne : name ≠ "") :
    Reads (teiid.escapeSinglePart name) [nameToken teiid name] := by
  unfold nameToken
  rcases hnames name with ⟨hsame, hword⟩ | hquote
  · rw [if_pos ⟨hsame, hne⟩, hsame]
    exact reads_word ⟨hne, hword⟩
  · have hother : ¬(teiid.escapeSinglePart name = name ∧ name ≠ "") := by
      rintro ⟨hsame, _⟩
      exact ne_quote .double name (hsame.symm.trans hquote)
    rw [if_neg hother, hquote]
    exact reads_quote .double name.toList

/-- That token is read as the name. -/
theorem identifier_nameToken (teiid : Teiid) (name : String) (rest : List Token) :
    ViewGrammar.identifier (nameToken teiid name :: rest) = some (name, rest) := by
  unfold nameToken
  split
  · simp [ViewGrammar.identifier]
  · simp [ViewGrammar.identifier]

/-- How Teiid writes names. -/
def escapedNames (hnames : EscapesNames teiid) : Spelling where
  write := teiid.escapeSinglePart
  token := nameToken teiid
  reads _ hne := reads_escapeSinglePart hnames hne
  identifier := identifier_nameToken teiid

/-- Only a name without double quotes can be another name escaped and not be escaped itself. -/
theorem escapeSinglePart_eq_of_not_mem (hnames : EscapesNames teiid) {name other : String}
    (hquote : '"' ∉ name.toList) (h : teiid.escapeSinglePart other = name) :
    teiid.escapeSinglePart name = name := by
  rcases hnames other with ⟨hsame, _⟩ | hquoted
  · rw [hsame] at h
    rw [← h, hsame]
  · exfalso
    apply hquote
    rw [← h, hquoted, String.toList_ofList]
    exact List.mem_cons_self

end Spelled

/-! ## The statement -/

/-- The key of a table that the generator looks at. -/
def constraintOf (table : Table) : Option KeyRecord := table.primaryKey.or table.uniqueKeys.head?

/-- It is declared where all its names can stand unescaped. -/
def declaredKey (teiid : Teiid) (table : Table) : Option KeyRecord :=
  (constraintOf table).filter fun key =>
    key.columns.all fun column => decide (teiid.escapeSinglePart column.name = column.name)

/-- A key, as an element of the header. -/
def keyElement (key : KeyRecord) : Element := .key key.primary (key.columns.map (·.name))

/-- The columns, as elements of the header. -/
def columnElements (columns : List Column) : List Element := columns.map fun column => .column column.name

/-- The columns, as items of the SELECT list. -/
def itemRefs (qualifier : Option String) (columns : List Column) : List ItemRef :=
  columns.map fun column => { qualifier := qualifier, name := column.name }

/-- The statement that is generated over one or two tables. -/
def generatedView (teiid : Teiid) (viewDef : ViewDefinition) (left : Schema × Table)
    (right : Option (Schema × Table)) : ViewStatement :=
  let new := newColumns left.2 (right.map (·.2))
  { name := viewDef.name
    elements :=
      match right with
      | none => columnElements left.2.columns ++ (declaredKey teiid left.2).toList.map keyElement
      | some _ => columnElements (left.2.columns ++ new)
    description := viewDef.description.filter (· ≠ "")
    items :=
      match right with
      | none => itemRefs none left.2.columns
      | some _ => itemRefs (some "t1") left.2.columns ++ itemRefs (some "t2") new
    -- the second table is not in the FROM clause, though its columns are selected
    tables := [{ schema := left.1.name, table := left.2.name, tableAlias := right.map fun _ => "t1" }] }

/-- The table and the columns have names, and there is a column. -/
structure Named (source : Schema × Table) : Prop where
  schema : source.1.name ≠ ""
  table : source.2.name ≠ ""
  columns : source.2.columns ≠ []
  names : ∀ column ∈ source.2.columns, column.name ≠ ""

/-- The keys have columns of the table, and none with a double quote in its name. -/
structure PlainKeys (table : Table) : Prop extends WellKeyed table where
  some : ∀ key ∈ table.primaryKey.toList ++ table.uniqueKeys, key.columns ≠ []
  plain : ∀ key ∈ table.primaryKey.toList ++ table.uniqueKeys, ∀ column ∈ key.columns,
    '"' ∉ column.name.toList

/-- The key a view declares is one of its table's. -/
theorem mem_keys_of_constraintOf {table : Table} {key : KeyRecord} (h : constraintOf table = some key) :
    key ∈ table.primaryKey.toList ++ table.uniqueKeys := by
  rw [List.mem_append, Option.mem_toList]
  rcases Option.or_eq_some_iff.mp h with hprimary | ⟨_, hunique⟩
  · exact .inl hprimary
  · exact .inr (List.mem_of_mem_head? hunique)

section Text

variable {teiid : Teiid}

/-- A column is found in the header under its own name exactly if that can stand unescaped. -/
theorem any_columnInfo (hnames : EscapesNames teiid) {columns : List Column} {column : Column}
    (hcolumn : column ∈ columns) (hplain : '"' ∉ column.name.toList) (tableFqn : String) :
    ((columns.map (columnInfo teiid tableFqn none)).any (·.name = column.name)) = true ↔
      teiid.escapeSinglePart column.name = column.name := by
  rw [List.any_eq_true]
  constructor
  · -- the header could hold the name of another column, escaped; then it has double quotes
    rintro ⟨info, hinfo, hname⟩
    obtain ⟨other, _, rfl⟩ := List.mem_map.mp hinfo
    exact escapeSinglePart_eq_of_not_mem hnames hplain (of_decide_eq_true hname)
  · intro hsame
    exact ⟨_, List.mem_map_of_mem hcolumn, decide_eq_true hsame⟩

/-- The key clause is the element of the declared key. -/
theorem keyClause_declared (hnames : EscapesNames teiid) {table : Table} (hkeys : PlainKeys table)
    (tableFqn : String) :
    keyClause (table.columns.map (columnInfo teiid tableFqn none)) (constraintOf table) =
      ((declaredKey teiid table).map fun key =>
        ", " ++ (keyElement key).text (escapedNames hnames)).getD "" := by
  unfold declaredKey
  cases hkey : constraintOf table with
  | none => rfl
  | some key =>
      have hmem := mem_keys_of_constraintOf hkey
      -- a column of the key is found under its escaped name, so exactly if escaping leaves it
      have hall : (key.columns.all fun column =>
          (table.columns.map (columnInfo teiid tableFqn none)).any (·.name = column.name)) =
            key.columns.all fun column => decide (teiid.escapeSinglePart column.name = column.name) := by
        rw [Bool.eq_iff_iff, List.all_eq_true, List.all_eq_true]
        exact forall₂_congr fun column hcolumn =>
          (any_columnInfo hnames (hkeys.columns key hmem column hcolumn)
            (hkeys.plain key hmem column hcolumn) tableFqn).trans decide_eq_true_iff.symm
      rw [Option.filter_some]
      show (if _ then _ else _) = _
      rw [hall]
      split
      · rename_i hplain
        have hwritten : (key.columns.map (·.name)).map teiid.escapeSinglePart =
            key.columns.map (·.name) := by
          rw [List.map_map]
          exact List.map_congr_left fun column hcolumn =>
            of_decide_eq_true (List.all_eq_true.mp hplain column hcolumn)
        show _ = ", " ++ ((if key.primary then "PRIMARY KEY(" else "UNIQUE(") ++
          ", ".intercalate ((key.columns.map (·.name)).map teiid.escapeSinglePart) ++ ")")
        have hopen : ", " ++ (if key.primary then "PRIMARY KEY" else "UNIQUE") ++ "(" =
            ", " ++ (if key.primary then "PRIMARY KEY(" else "UNIQUE(") := by
          cases key.primary with
          | true => decide
          | false => decide
        rw [hwritten, hopen, String.append_assoc, String.append_assoc, String.append_assoc]
      · rfl

/-- The header lists the names as Teiid escapes them. -/
theorem columnElements_text (hnames : EscapesNames teiid) (columns : List Column) :
    (columnElements columns).map (·.text (escapedNames hnames)) =
      columns.map fun column => teiid.escapeSinglePart column.name := by
  rw [columnElements, List.map_map]
  rfl

/-- The SELECT list is written as `columnInfo` writes it. -/
theorem items_text (hnames : EscapesNames teiid) (qualifier : Option String) (columns : List Column)
    (tableFqn : String) :
    (itemRefs qualifier columns).map (·.text (escapedNames hnames)) =
      (columns.map (columnInfo teiid tableFqn qualifier)).map (·.aliasedName) := by
  rw [itemRefs, List.map_map, List.map_map]
  cases qualifier with
  | none => rfl
  | some qualifier => rfl

/-- The generator and the statement cut the text at different places. -/
theorem space_open (rest : String) : " " ++ ("(" ++ rest) = " (" ++ rest := by
  rw [← String.append_assoc]
  rfl

theorem newline_from (rest : String) : "\n" ++ ("FROM " ++ rest) = "\nFROM " ++ rest := by
  rw [← String.append_assoc]
  rfl

/-- The columns of the header with the key clause behind them are the elements of the statement. -/
theorem header_text (hnames : EscapesNames teiid) {table : Table} (hcolumns : table.columns ≠ [])
    (hkeys : PlainKeys table) (tableFqn : String) :
    ", ".intercalate (table.columns.map fun column => teiid.escapeSinglePart column.name) ++
        keyClause (table.columns.map (columnInfo teiid tableFqn none)) (constraintOf table) =
      ", ".intercalate ((columnElements table.columns ++
        (declaredKey teiid table).toList.map keyElement).map (·.text (escapedNames hnames))) := by
  rw [keyClause_declared hnames hkeys, List.map_append, columnElements_text]
  cases declaredKey teiid table with
  | none => simp
  | some key =>
      have hne : (table.columns.map fun column => teiid.escapeSinglePart column.name) ≠ [] := by
        simpa using hcolumns
      show _ = ", ".intercalate (_ ++ [(keyElement key).text (escapedNames hnames)])
      rw [String.intercalate_append_of_ne_nil hne (List.cons_ne_nil _ _), String.intercalate_singleton,
        String.append_assoc]
      rfl

/-- Without a single quote the description stands as its literal does. -/
theorem getTableAnnotation_eq {description : Option String}
    (hquote : ∀ text ∈ description, '\'' ∉ text.toList) :
    getTableAnnotation description = annotationText (description.filter (· ≠ "")) := by
  cases description with
  | none => rfl
  | some text =>
      unfold getTableAnnotation
      dsimp only
      split
      · rename_i hempty
        rw [hempty]
        rfl
      · rename_i hne
        have hsingle : Mark.single.char ∉ text.toList := hquote text rfl
        have hliteral : quote .single text.toList = "'".toList ++ (text.toList ++ "'".toList) := by
          unfold quote
          rw [doubled_of_not_mem hsingle]
          rfl
        rw [Option.filter_some, if_pos (decide_eq_true hne)]
        show _ = "OPTIONS (ANNOTATION " ++ String.ofList (quote .single text.toList) ++ ") "
        rw [hliteral, ← String.toList_inj]
        simp

section Single

variable {viewDef : ViewDefinition} {left : String × Schema × Table}

/-- Over one table the statement is written with its key. -/
theorem getTablesViewDdl_single (hnames : EscapesNames teiid)
    (hinj : Function.Injective teiid.escapeSinglePart)
    (hquote : ∀ text ∈ viewDef.description, '\'' ∉ text.toList)
    (hnodup : (left.2.2.columns.map (·.name)).Nodup) (hcolumns : left.2.2.columns ≠ [])
    (hkeys : PlainKeys left.2.2) :
    getTablesViewDdl teiid viewDef (viewTables teiid left none).1 (viewTables teiid left none).2 =
      (generatedView teiid viewDef left.2 none).text (escapedNames hnames) := by
  obtain ⟨leftFqn, rightFqn, hvalues⟩ := @values_viewTables teiid left none hinj hnodup nofun
  have hheader := header_text hnames hcolumns hkeys leftFqn
  have htable : (tableInfo teiid left.2.1 left.1 left.2.2 none).fqname =
      TableRef.text (escapedNames hnames)
        { schema := left.2.1.name, table := left.2.2.name, tableAlias := none } :=
    String.append_empty.symm
  rw [values_assembleColumns] at hvalues
  unfold getTablesViewDdl
  rw [hvalues, getTableAnnotation_eq hquote]
  unfold ViewStatement.text generatedView startView
  simp only [viewTables, newColumns, Option.map_none, List.map_nil, List.append_nil,
    List.isEmpty_nil, if_true, items_text hnames none left.2.2.columns leftFqn, List.map_singleton,
    String.intercalate_singleton, ← hheader, htable, String.append_assoc, space_open, newline_from]
  rw [List.map_map]
  rfl

/-- Over two tables there is no key, and both have an alias. -/
theorem getTablesViewDdl_joined (hnames : EscapesNames teiid)
    (hinj : Function.Injective teiid.escapeSinglePart)
    (hquote : ∀ text ∈ viewDef.description, '\'' ∉ text.toList)
    (hnodup : (left.2.2.columns.map (·.name)).Nodup) {right : String × Schema × Table}
    (hright : (right.2.2.columns.map (·.name)).Nodup) :
    getTablesViewDdl teiid viewDef (viewTables teiid left (some right)).1
        (viewTables teiid left (some right)).2 =
      (generatedView teiid viewDef left.2 (some right.2)).text (escapedNames hnames) := by
  obtain ⟨leftFqn, rightFqn, hvalues⟩ := @values_viewTables teiid left (some right) hinj hnodup
    (by
      rintro _ ⟨⟩
      exact hright)
  -- the alias stands behind the first table, and in front of every selected column
  have htable : (tableInfo teiid left.2.1 left.1 left.2.2 (some "t1")).fqname ++ " AS " ++ "t1" =
      TableRef.text (escapedNames hnames)
        { schema := left.2.1.name, table := left.2.2.name, tableAlias := some "t1" } :=
    String.append_assoc
  have halias : (tableInfo teiid left.2.1 left.1 left.2.2 (some "t1")).tableAlias.getD "null" =
    "t1" := rfl
  rw [values_assembleColumns] at hvalues
  unfold getTablesViewDdl
  rw [hvalues, getTableAnnotation_eq hquote]
  unfold ViewStatement.text generatedView startView
  simp only [viewTables, Option.map_some, List.isEmpty_cons, List.map_append,
    columnElements_text, items_text hnames (some "t1") left.2.2.columns leftFqn,
    items_text hnames (some "t2") _ rightFqn, List.map_singleton, String.intercalate_singleton,
    halias, htable]
  simp only [Bool.false_eq_true, if_false, String.append_assoc, space_open, newline_from,
    String.append_empty]
  rw [List.map_map, List.map_map]
  rfl

end Single

/-- The text that is generated is that of the statement. -/
theorem getODataViewDdl_text (hnames : EscapesNames teiid)
    (hinj : Function.Injective teiid.escapeSinglePart)
    (hrefl : ∀ name, teiid.equalsIgnoreCase name name = true) {finder : SchemaFinder}
    {viewDef : ViewDefinition} (hcomplete : viewDef.complete = true)
    (hquote : ∀ text ∈ viewDef.description, '\'' ∉ text.toList) {left : String × Schema × Table}
    {others : List (String × Schema × Table)}
    (hpaths : viewDef.sourcePaths = left.1 :: others.map (·.1))
    (hsources : ∀ source ∈ left :: others, SourceTable teiid finder source.1 source.2)
    (hdistinct : ∀ source ∈ left :: others, DistinctIgnoringCase teiid source.2.2.columns)
    (hcolumns : left.2.2.columns ≠ []) (hkeys : PlainKeys left.2.2) :
    getODataViewDdl teiid finder viewDef =
      .ok (some ((generatedView teiid viewDef left.2 (others.head?.map (·.2))).text
        (escapedNames hnames))) := by
  rw [List.forall_mem_cons] at hdistinct
  have hleft := nodup_of_distinct hrefl hdistinct.1
  rw [getODataViewDdl_sources hcomplete hpaths hsources, tablesViewDdl_eq]
  refine congrArg (Except.ok ∘ some) ?_
  cases hsecond : others.head? with
  | none => exact getTablesViewDdl_single hnames hinj hquote hleft hcolumns hkeys
  | some right =>
      have hright := nodup_of_distinct hrefl (hdistinct.2 right (List.mem_of_mem_head? hsecond))
      exact getTablesViewDdl_joined hnames hinj hquote hleft hright

end Text

/-! ## What it shows -/

/-- On any contents of the tables the view shows the table, under its columns, and what it declares to be
a key is one if the keys of the table are. -/
def ShowsTable (teiid : Teiid) (source : Schema × Table) (view : ViewStatement) : Prop :=
  ∀ (α : Type) (find : String → String → Option (Relation String α)) (contents : Relation String α),
    find source.1.name source.2.name = some contents →
    contents.columns = source.2.columns.map (·.name) →
      view.result teiid.equalsIgnoreCase find = some contents ∧
      ((∀ key ∈ source.2.primaryKey.toList ++ source.2.uniqueKeys,
          contents.HasKey (key.columns.map (·.name))) →
        ∀ key ∈ view.keys, contents.HasKey key.2)

/-- Whatever the tables contain, there is nothing to show. -/
def ShowsNothing (teiid : Teiid) (view : ViewStatement) : Prop :=
  ∀ (α : Type) (find : String → String → Option (Relation String α)),
    view.result teiid.equalsIgnoreCase find = none

section Meaning

variable {teiid : Teiid} {viewDef : ViewDefinition} {left : Schema × Table}
  {right : Option (Schema × Table)}

/-- The columns of the header are the columns. -/
theorem column_columnElements (columns : List Column) :
    (columnElements columns).filterMap Element.column? = columns.map (·.name) := by
  rw [columnElements, List.filterMap_map]
  exact congrFun List.filterMap_eq_map' columns

/-- Columns declare no key. -/
theorem key_columnElements (columns : List Column) :
    (columnElements columns).filterMap Element.key? = [] := by
  rw [columnElements, List.filterMap_map, List.filterMap_eq_nil_iff]
  exact fun _ _ => rfl

/-- Keys add no column. -/
theorem column_keyElements (keys : List KeyRecord) :
    (keys.map keyElement).filterMap Element.column? = [] := by
  rw [List.filterMap_map, List.filterMap_eq_nil_iff]
  exact fun _ _ => rfl

/-- The view has the columns of the first table, and those the second adds. -/
theorem columns_generatedView :
    (generatedView teiid viewDef left right).columns =
      (left.2.columns ++ newColumns left.2 (right.map (·.2))).map (·.name) := by
  unfold ViewStatement.columns generatedView
  cases right with
  | none =>
      show List.filterMap Element.column? (columnElements left.2.columns ++ _) = _
      rw [List.filterMap_append, column_columnElements, column_keyElements, List.append_nil]
      exact congrArg _ (List.append_nil _).symm
  | some right => exact column_columnElements _

/-- A key that is declared is one of the table. -/
theorem keys_generatedView {key : Bool × List String}
    (h : key ∈ (generatedView teiid viewDef left right).keys) :
    ∃ record ∈ left.2.primaryKey.toList ++ left.2.uniqueKeys,
      key = (record.primary, record.columns.map (·.name)) := by
  unfold ViewStatement.keys generatedView at h
  cases right with
  | none =>
      have h : key ∈ List.filterMap Element.key? (columnElements left.2.columns ++
        (declaredKey teiid left.2).toList.map keyElement) := h
      rw [List.filterMap_append, key_columnElements, List.nil_append] at h
      obtain ⟨e, he, hkey⟩ := List.mem_filterMap.mp h
      obtain ⟨record, hrecord, rfl⟩ := List.mem_map.mp he
      have hconstraint : constraintOf left.2 = some record :=
        (Option.filter_eq_some_iff.mp (Option.mem_toList.mp hrecord)).1
      exact ⟨record, mem_keys_of_constraintOf hconstraint, (Option.some.inj hkey).symm⟩
  | some right =>
      have h : key ∈ List.filterMap Element.key? (columnElements _) := h
      rw [key_columnElements] at h
      cases h

/-- The aliases are words. -/
theorem isWord_alias {qualifier : String} (h : qualifier = "t1" ∨ qualifier = "t2") : IsWord qualifier := by
  have hwords : ∀ text ∈ ["t1", "t2"], text ≠ "" ∧ text.toList.all isWordChar = true := by decide
  have hword := hwords qualifier (by simpa using h)
  exact ⟨hword.1, List.all_eq_true.mp hword.2⟩

/-- Columns with a name can be written in the header. -/
theorem named_columnElements {columns : List Column} (h : ∀ column ∈ columns, column.name ≠ "") :
    ∀ e ∈ columnElements columns, e.Named := by
  intro e he
  obtain ⟨column, hcolumn, rfl⟩ := List.mem_map.mp he
  exact h column hcolumn

/-- The key that is declared has columns of the table. -/
theorem named_declaredKey (hleft : Named left) (hkeys : PlainKeys left.2) :
    ∀ e ∈ (declaredKey teiid left.2).toList.map keyElement, e.Named := by
  intro e he
  obtain ⟨record, hrecord, rfl⟩ := List.mem_map.mp he
  have hconstraint := (Option.filter_eq_some_iff.mp (Option.mem_toList.mp hrecord)).1
  have hmem := mem_keys_of_constraintOf hconstraint
  refine ⟨by simpa using hkeys.some record hmem, ?_⟩
  intro name hname
  obtain ⟨column, hcolumn, rfl⟩ := List.mem_map.mp hname
  exact hleft.names column (hkeys.columns record hmem column hcolumn)

/-- Columns with a name can be written in the SELECT list, under an alias that is a word. -/
theorem named_itemRefs {qualifier : Option String}
    (hqualifier : ∀ text ∈ qualifier, text = "t1" ∨ text = "t2") {columns : List Column}
    (hcolumns : ∀ column ∈ columns, column.name ≠ "") :
    ∀ item ∈ itemRefs qualifier columns, item.name ≠ "" ∧ ∀ text ∈ item.qualifier, IsWord text := by
  intro item hitem
  obtain ⟨column, hcolumn, rfl⟩ := List.mem_map.mp hitem
  exact ⟨hcolumns column hcolumn, fun text htext => isWord_alias (hqualifier text htext)⟩

/-- All names and aliases of the statement can be written. -/
theorem writable_generatedView (hname : viewDef.name ≠ "") (hleft : Named left)
    (hright : ∀ source ∈ right, Named source) (hkeys : PlainKeys left.2) :
    (generatedView teiid viewDef left right).Writable := by
  have htables : ∀ t ∈ (generatedView teiid viewDef left right).tables,
      t.schema ≠ "" ∧ t.table ≠ "" ∧ ∀ text ∈ t.tableAlias, IsWord text := by
    intro t ht
    rw [List.mem_singleton.mp ht]
    refine ⟨hleft.schema, hleft.table, fun text htext => isWord_alias (.inl ?_)⟩
    obtain ⟨_, _, rfl⟩ := Option.map_eq_some_iff.mp htext
    rfl
  cases right with
  -- one table: its columns and the key that is kept
  | none =>
      have hplain : ∀ text ∈ (none : Option String), text = "t1" ∨ text = "t2" := by
        intro text htext
        cases htext
      refine ⟨hname, ?_, ?_, ?_, named_itemRefs hplain hleft.names, List.cons_ne_nil _ _, htables⟩
      · show columnElements left.2.columns ++ _ ≠ []
        simp [columnElements, hleft.columns]
      · show ∀ e ∈ columnElements left.2.columns ++ _, _
        exact List.forall_mem_append.mpr
          ⟨named_columnElements hleft.names, named_declaredKey hleft hkeys⟩
      · show itemRefs none left.2.columns ≠ []
        simp [itemRefs, hleft.columns]
  -- two tables: all columns of the left one, then those of the right one whose names are new
  | some right =>
      have hnew : ∀ column ∈ newColumns left.2 (some right.2), column.name ≠ "" := fun column hcolumn =>
        (hright right rfl).names column (List.mem_filter.mp hcolumn).1
      refine ⟨hname, ?_, ?_, ?_, ?_, List.cons_ne_nil _ _, htables⟩
      · show columnElements (left.2.columns ++ _) ≠ []
        simp [columnElements, hleft.columns]
      · exact named_columnElements (List.forall_mem_append.mpr ⟨hleft.names, hnew⟩)
      · show itemRefs (some "t1") left.2.columns ++ _ ≠ []
        simp [itemRefs, hleft.columns]
      · show ∀ item ∈ itemRefs (some "t1") left.2.columns ++ itemRefs (some "t2") _, _
        refine List.forall_mem_append.mpr
          ⟨named_itemRefs ?_ hleft.names, named_itemRefs ?_ hnew⟩
        · rintro _ ⟨⟩
          exact .inl rfl
        · rintro _ ⟨⟩
          exact .inr rfl

/-- Where the second table adds no column the first one is shown. -/
theorem showsTable_generatedView (hrefl : ∀ name, teiid.equalsIgnoreCase name name = true)
    (hsymm : ∀ name name', teiid.equalsIgnoreCase name name' = teiid.equalsIgnoreCase name' name)
    (hdistinct : DistinctIgnoringCase teiid left.2.columns)
    (h : ContributesNothing left.2 (right.map (·.2))) :
    ShowsTable teiid left (generatedView teiid viewDef left right) := by
  intro α find contents hfind hcolumns
  have hnew := newColumns_eq_nil_iff.mpr h
  have hdistinctNames : DistinctNames teiid.equalsIgnoreCase contents.columns := by
    rw [hcolumns, DistinctNames, List.pairwise_map]
    exact hdistinct
  -- all items are those of the first table: the second one adds none
  have hitems : (generatedView teiid viewDef left right).items =
      contents.columns.map (ItemRef.mk (right.map fun _ => "t1")) := by
    rw [hcolumns, List.map_map]
    cases right with
    | none => rfl
    | some right =>
        show itemRefs (some "t1") left.2.columns ++ itemRefs (some "t2") (newColumns left.2 _) = _
        rw [hnew]
        exact List.append_nil _
  have hqualifier : (right.map fun _ => "t1").all (teiid.equalsIgnoreCase
      (TableRef.mk left.1.name left.2.name (right.map fun _ => "t1")).scopeName) = true := by
    cases right with
    | none => rfl
    | some right => exact hrefl "t1"
  have hheader : (generatedView teiid viewDef left right).columns = contents.columns := by
    rw [columns_generatedView, hnew, List.append_nil, hcolumns]
  refine ⟨result_all hrefl hsymm rfl hqualifier hfind hheader hitems hdistinctNames, ?_⟩
  intro hkeys key hkey
  obtain ⟨record, hrecord, rfl⟩ := keys_generatedView hkey
  exact hkeys record hrecord

/-- Where it adds one the view selects a column that is not there. -/
theorem showsNothing_generatedView (haliases : teiid.equalsIgnoreCase "t1" "t2" = false)
    (h : ¬ContributesNothing left.2 (right.map (·.2))) :
    ShowsNothing teiid (generatedView teiid viewDef left right) := by
  intro α find
  rw [← newColumns_eq_nil_iff] at h
  obtain ⟨column, hcolumn⟩ := List.exists_mem_of_ne_nil _ h
  cases right with
  | none => cases hcolumn
  | some right =>
      have hitem : ItemRef.mk (some "t2") column.name ∈
          (generatedView teiid viewDef left (some right)).items := by
        show _ ∈ itemRefs (some "t1") left.2.columns ++ itemRefs (some "t2") _
        exact List.mem_append_right _ (List.mem_map_of_mem hcolumn)
      refine result_eq_none hitem rfl ?_
      intro t ht
      rw [List.mem_singleton.mp ht]
      exact haliases

end Meaning

/-- The text of a complete view over some tables is a statement with its name and its description.  It
shows the first table if the second one adds no column to it, and nothing otherwise. -/
theorem generated_shows {teiid : Teiid} (hnames : EscapesNames teiid)
    (hinj : Function.Injective teiid.escapeSinglePart)
    (hrefl : ∀ name, teiid.equalsIgnoreCase name name = true)
    (hsymm : ∀ name name', teiid.equalsIgnoreCase name name' = teiid.equalsIgnoreCase name' name)
    (haliases : teiid.equalsIgnoreCase "t1" "t2" = false) {finder : SchemaFinder}
    {viewDef : ViewDefinition} (hcomplete : viewDef.complete = true) (hname : viewDef.name ≠ "")
    (hquote : ∀ text ∈ viewDef.description, '\'' ∉ text.toList) {left : String × Schema × Table}
    {others : List (String × Schema × Table)}
    (hpaths : viewDef.sourcePaths = left.1 :: others.map (·.1))
    (hsources : ∀ source ∈ left :: others, SourceTable teiid finder source.1 source.2)
    (hdistinct : ∀ source ∈ left :: others, DistinctIgnoringCase teiid source.2.2.columns)
    (hnamed : ∀ source ∈ left :: others, Named source.2) (hkeys : PlainKeys left.2.2) :
    ∃ ddl view, getODataViewDdl teiid finder viewDef = .ok (some ddl) ∧ readView ddl = some view ∧
      view.name = viewDef.name ∧ view.description = viewDef.description.filter (· ≠ "") ∧
      (ContributesNothing left.2.2 (others.head?.map (·.2.2)) → ShowsTable teiid left.2 view) ∧
      (¬ContributesNothing left.2.2 (others.head?.map (·.2.2)) → ShowsNothing teiid view) := by
  have hleft := hnamed left List.mem_cons_self
  have hright : ∀ source ∈ others.head?.map (·.2), Named source := by
    intro source hsource
    obtain ⟨other, hother, rfl⟩ := Option.map_eq_some_iff.mp hsource
    exact hnamed other (List.mem_cons_of_mem _ (List.mem_of_mem_head? hother))
  -- only the first two tables are read, however many paths there are
  have hsecond : others.head?.map (·.2.2) = (others.head?.map (·.2)).map (·.2) := by
    rw [Option.map_map]
    rfl
  rw [hsecond]
  refine ⟨_, generatedView teiid viewDef left.2 (others.head?.map (·.2)),
    getODataViewDdl_text hnames hinj hrefl hcomplete hquote hpaths hsources hdistinct hleft.columns hkeys,
    readView_text (writable_generatedView hname hleft hright hkeys), rfl, rfl, ?_, ?_⟩
  · exact showsTable_generatedView hrefl hsymm (hdistinct left List.mem_cons_self)
  · exact showsNothing_generatedView haliases

/-- Comparing names is symmetric there. -/
theorem equalsIgnoreCase_shop_comm (name name' : String) :
    shopTeiid.equalsIgnoreCase name name' = shopTeiid.equalsIgnoreCase name' name := Bool.beq_comm

/-- The items have a key of two columns and a column whose name is escaped. -/
theorem generated_shows_items :
    ∃ ddl view, getODataViewDdl shopTeiid keyedFinder (keyedView "items") = .ok (some ddl) ∧
      readView ddl = some view ∧ view.name = "v" ∧ ShowsTable shopTeiid (keyedSchema, itemsTable) view := by
  obtain ⟨ddl, view, hddl, hread, hname, _, hshows, _⟩ :=
    @generated_shows shopTeiid (escapesNames_ascii _) escapeAscii_injective equalsIgnoreCase_shop
      equalsIgnoreCase_shop_comm (by decide) keyedFinder (keyedView "items") rfl (by decide) nofun
      ("schema=shop/table=items", keyedSchema, itemsTable) [] (by decide)
      (by
        rw [List.forall_mem_singleton]
        exact ⟨[("schema", "shop"), ("table", "items")], "shop", "items", by decide, rfl, rfl, rfl,
          by decide⟩)
      (by decide)
      (by
        rw [List.forall_mem_singleton]
        exact ⟨by decide, by decide, by decide, by decide⟩)
      ⟨⟨by decide, by decide, by decide⟩, by decide, by decide⟩
  exact ⟨ddl, view, hddl, hread, hname, hshows nofun⟩

/-! ## After an import -/

/-- What the metadata of a source promises: its tables can be told apart, and so can the columns of each,
and all of them have names. -/
structure WellNamed (teiid : Teiid) (s : Schema) : Prop where
  tables : s.tables.Pairwise fun t t' => teiid.equalsIgnoreCase t.name t'.name = false
  distinct : ∀ t ∈ s.tables, DistinctIgnoringCase teiid t.columns
  named : ∀ t ∈ s.tables, Named (s, t)
  keys : ∀ t ∈ s.tables, PlainKeys t

section Imports

variable {teiid : Teiid} {finder : SchemaFinder} {virtualization teiidSourceName : String} {s : Schema}
  {tables : List String} {db db' : Database teiid}

/-- A table is found under its own name. -/
theorem getTable_own (hrefl : ∀ name, teiid.equalsIgnoreCase name name = true)
    (hwell : WellNamed teiid s) {t : Table} (ht : t ∈ s.tables) : s.getTable teiid t.name = some t := by
  obtain ⟨front, back, hsplit⟩ := List.append_of_mem ht
  have hbefore := hwell.tables
  rw [hsplit, List.pairwise_append] at hbefore
  unfold Schema.getTable
  rw [hsplit, List.find?_append, List.find?_cons, hrefl]
  have hfront : front.find? (fun table => teiid.equalsIgnoreCase table.name t.name) = none := by
    rw [List.find?_eq_none]
    intro other hother
    rw [hbefore.2.2 other hother t List.mem_cons_self]
    exact Bool.false_ne_true
  rw [hfront]
  rfl

/-- The path that an import writes names the table. -/
theorem sourceTable_fullyQualifiedName {literal : Char → Bool}
    (hliteral : ∀ c, literal c = true → isUnreserved c = true) (hencodes : Encodes literal teiid)
    (hrefl : ∀ name, teiid.equalsIgnoreCase name name = true) (hsource : teiidSourceName ≠ "")
    (hschema : finder.findSchema teiidSourceName = .ok (some s)) (hwell : WellNamed teiid s) {t : Table}
    (ht : t ∈ s.tables) :
    SourceTable teiid finder (teiid.fullyQualifiedName teiidSourceName t.name) (s, t) := by
  have hoptions : getOptions (teiid.fullyQualifiedName teiidSourceName t.name) =
      .ok [("schema", teiidSourceName), ("table", t.name)] := by
    have hkeys : "schema" ≠ "" ∧ "table" ≠ "" := by decide
    rw [hencodes]
    refine getOptions_joined hliteral ?_
    rw [NoneEmpty, List.forall_mem_cons, List.forall_mem_singleton]
    exact ⟨⟨hkeys.1, hsource⟩, hkeys.2, (hwell.named t ht).table⟩
  exact ⟨_, teiidSourceName, t.name, hoptions, rfl, hschema, rfl, getTable_own hrefl hwell ht⟩

end Imports

/-- One virtualization, without views. -/
def shopDatabase : Database encodingTeiid :=
  (System.after (@DvServer.next encodingTeiid) DvServer.empty
    [.createDataVirtualization { name := some "dv" }]).db

/-- The schema that is imported from. -/
def itemsSchema : Schema := { name := "my source", tables := [itemsTable] }

/-- Its source is registered. -/
def itemsFinder : SchemaFinder where
  findSchema name := .ok (if name = "my source" then some itemsSchema else none)
  findTeiidDatasource _ := none

/-- All its names can be written. -/
theorem wellNamed_items : WellNamed encodingTeiid itemsSchema where
  tables := by decide
  distinct := by decide
  named := by
    rintro t ht
    obtain rfl := List.mem_singleton.mp ht
    exact ⟨by decide, by decide, by decide, by decide⟩
  keys := by
    rintro t ht
    obtain rfl := List.mem_singleton.mp ht
    exact ⟨⟨by decide, by decide, by decide⟩, by decide, by decide⟩

end TeiidSyndesis.Server
