/-
# TeiidSyndesis.Server.ViewScopes — what the SELECT list of a generated view refers to.

With more than one path the tables have aliases, and the columns of the first two are selected under them.
The FROM clause introduces the first table only: the part that joins the second is commented out.  So an
item of the second table is out of scope wherever there is one, and only where there is one could two
columns of the header be the same but for their case.

Main results:
* `getODataViewDdl_viewQuery` — a generated text, as a query;
* `refersTo_first` — what an item of the first table refers to;
* `wellScoped_viewQuery_iff`, `wellScoped_iff` — every item is in scope exactly if the second table adds
  none;
* `view_out_of_scope` — and one that does.
-/
import TeiidSyndesis.Server.ViewColumns

namespace TeiidSyndesis.Server

open TeiidSyndesis.Library TeiidSyndesis.Model

/-! ## Queries -/

/-- An item of a SELECT list. -/
structure SelectItem where
  qualifier : Option String
  column : Column
  deriving DecidableEq, Repr

/-- A table of a FROM clause. -/
structure FromItem where
  schema : Schema
  table : Table
  tableAlias : Option String
  deriving DecidableEq, Repr

/-- The column names of a view, the SELECT list and the FROM clause. -/
structure ViewQuery where
  header : List Column
  select : List SelectItem
  tables : List FromItem
  deriving DecidableEq, Repr

/-- How an item is written. -/
def SelectItem.text (teiid : Teiid) (item : SelectItem) : String :=
  match item.qualifier with
  | some qualifier => qualifier ++ "." ++ teiid.escapeSinglePart item.column.name
  | none => teiid.escapeSinglePart item.column.name

/-- How a table is written. -/
def FromItem.text (teiid : Teiid) (item : FromItem) : String :=
  teiid.escapeSinglePart item.schema.name ++ "." ++ teiid.escapeSinglePart item.table.name ++
    match item.tableAlias with
    | some tableAlias => " AS " ++ tableAlias
    | none => ""

/-- The DDL of a view with a query, and with a key clause behind its columns. -/
def ViewQuery.ddl (teiid : Teiid) (viewDef : ViewDefinition) (key : String) (query : ViewQuery) : String :=
  startView teiid viewDef.name ++ "(" ++
    ", ".intercalate (query.header.map fun column => teiid.escapeSinglePart column.name) ++ key ++ ") " ++
    getTableAnnotation viewDef.description ++ "AS \nSELECT " ++
    ", ".intercalate (query.select.map (SelectItem.text teiid)) ++ "\n" ++ "FROM " ++
    ", ".intercalate (query.tables.map (FromItem.text teiid))

/-! ## Scopes -/

/-- The name under which a FROM clause introduces a table: its alias, or else its own name. -/
def FromItem.name (item : FromItem) : String := item.tableAlias.getD item.table.name

/-- The item is a column of the table, and its qualifier, if it has one, names the table. -/
def SelectItem.RefersTo (teiid : Teiid) (item : SelectItem) (source : FromItem) : Prop :=
  (∀ qualifier ∈ item.qualifier, teiid.equalsIgnoreCase source.name qualifier = true) ∧
    ∃ column ∈ source.table.columns, teiid.equalsIgnoreCase column.name item.column.name = true

/-- No two columns have the same name but for its case. -/
def DistinctIgnoringCase (teiid : Teiid) (columns : List Column) : Prop :=
  columns.Pairwise fun column column' => teiid.equalsIgnoreCase column.name column'.name = false

instance (teiid : Teiid) (columns : List Column) : Decidable (DistinctIgnoringCase teiid columns) :=
  inferInstanceAs (Decidable (List.Pairwise _ _))

/-- Every item refers to a table of the FROM clause, and the columns of the header differ ignoring case.
-/
structure WellScoped (teiid : Teiid) (query : ViewQuery) : Prop where
  items : ∀ item ∈ query.select, ∃ source ∈ query.tables, item.RefersTo teiid source
  distinct : DistinctIgnoringCase teiid query.header

/-! ## The query that is generated -/

/-- The first table with all its columns, and the columns of the second one that are new. -/
def viewQuery (left : Schema × Table) (right : Option (Schema × Table)) : ViewQuery :=
  match right with
  | none =>
      { header := left.2.columns
        select := left.2.columns.map fun column => { qualifier := none, column := column }
        tables := [{ schema := left.1, table := left.2, tableAlias := none }] }
  | some right =>
      { header := left.2.columns ++ newColumns left.2 (some right.2)
        select :=
          (left.2.columns.map fun column => { qualifier := some "t1", column := column }) ++
            (newColumns left.2 (some right.2)).map fun column => { qualifier := some "t2", column := column }
        tables := [{ schema := left.1, table := left.2, tableAlias := some "t1" }] }

variable {teiid : Teiid}

/-- Columns that differ ignoring case differ. -/
theorem nodup_of_distinct (hrefl : ∀ name, teiid.equalsIgnoreCase name name = true) {columns : List Column}
    (h : DistinctIgnoringCase teiid columns) : (columns.map (·.name)).Nodup := by
  rw [List.nodup_iff_pairwise_ne, List.pairwise_map]
  refine h.imp fun hcase heq => ?_
  rw [heq, hrefl] at hcase
  cases hcase

/-- The text that is written for the tables of a view is the text of the query. -/
theorem getODataViewDdl_viewQuery (hinj : Function.Injective teiid.escapeSinglePart)
    (hrefl : ∀ name, teiid.equalsIgnoreCase name name = true) {finder : SchemaFinder}
    {viewDef : ViewDefinition} (hcomplete : viewDef.complete = true) {left : String × Schema × Table}
    {others : List (String × Schema × Table)}
    (hpaths : viewDef.sourcePaths = left.1 :: others.map (·.1))
    (hsources : ∀ source ∈ left :: others, SourceTable teiid finder source.1 source.2)
    (hdistinct : ∀ source ∈ left :: others, DistinctIgnoringCase teiid source.2.2.columns) :
    ∃ key, getODataViewDdl teiid finder viewDef =
      .ok (some ((viewQuery left.2 (others.head?.map (·.2))).ddl teiid viewDef key)) := by
  rw [List.forall_mem_cons] at hdistinct
  obtain ⟨leftFqn, rightFqn, hvalues⟩ := @values_viewTables teiid left others.head? hinj
    (nodup_of_distinct hrefl hdistinct.1)
    fun source hsource => nodup_of_distinct hrefl (hdistinct.2 source (List.mem_of_mem_head? hsource))
  rw [values_assembleColumns] at hvalues
  rw [getODataViewDdl_sources hcomplete hpaths hsources, tablesViewDdl_eq]
  unfold getTablesViewDdl
  rw [hvalues]
  cases others.head? with
  | none =>
      refine ⟨keyClause (left.2.2.columns.map (columnInfo teiid leftFqn none))
        (left.2.2.primaryKey.or left.2.2.uniqueKeys.head?), ?_⟩
      simp [ViewQuery.ddl, viewQuery, viewTables, newColumns, tableInfo, columnInfo, SelectItem.text,
        FromItem.text, Function.comp_def]
  | some right =>
      refine ⟨"", ?_⟩
      simp [ViewQuery.ddl, viewQuery, viewTables, newColumns, tableInfo, columnInfo, SelectItem.text,
        FromItem.text, Function.comp_def, String.append_assoc]

/-! ## Where it is well scoped -/

/-- Every column of the second table is called as one of the first. -/
def ContributesNothing (left : Table) (right : Option Table) : Prop :=
  ∀ table ∈ right, ∀ column ∈ table.columns, column.name ∈ left.columns.map (·.name)

/-- The second table adds no column. -/
theorem newColumns_eq_nil_iff {left : Table} {right : Option Table} :
    newColumns left right = [] ↔ ContributesNothing left right := by
  cases right with
  | none => exact iff_of_true rfl nofun
  | some right =>
      unfold newColumns ContributesNothing
      rw [List.filter_eq_nil_iff]
      simp

/-- An item of the first table is in scope. -/
theorem refersTo_first (hrefl : ∀ name, teiid.equalsIgnoreCase name name = true) {left : Schema × Table}
    {tableAlias : Option String} {column : Column} (h : column ∈ left.2.columns) :
    SelectItem.RefersTo teiid { qualifier := tableAlias, column := column }
      { schema := left.1, table := left.2, tableAlias := tableAlias } := by
  refine ⟨?_, column, h, hrefl column.name⟩
  intro qualifier hqualifier
  have halias : tableAlias = some qualifier := hqualifier
  rw [halias]
  exact hrefl qualifier

/-- When the query is well scoped. -/
theorem wellScoped_viewQuery_iff (hrefl : ∀ name, teiid.equalsIgnoreCase name name = true)
    (haliases : teiid.equalsIgnoreCase "t1" "t2" = false) {left : Schema × Table}
    {right : Option (Schema × Table)} (hdistinct : DistinctIgnoringCase teiid left.2.columns) :
    WellScoped teiid (viewQuery left right) ↔ ContributesNothing left.2 (right.map (·.2)) := by
  rw [← newColumns_eq_nil_iff]
  cases right with
  | none =>
      refine iff_of_true ⟨?_, hdistinct⟩ rfl
      intro item hitem
      obtain ⟨column, hcolumn, rfl⟩ := List.mem_map.mp hitem
      exact ⟨_, List.mem_singleton_self _, refersTo_first hrefl hcolumn⟩
  | some right =>
      constructor
      · intro hscoped
        by_contra hne
        obtain ⟨column, hcolumn⟩ := List.exists_mem_of_ne_nil _ hne
        obtain ⟨source, hsource, hrefers⟩ := hscoped.items _
          (List.mem_append_right _ (List.mem_map_of_mem hcolumn))
        obtain rfl := List.mem_singleton.mp hsource
        have halias : teiid.equalsIgnoreCase "t1" "t2" = true := hrefers.1 "t2" rfl
        rw [haliases] at halias
        cases halias
      · intro hnil
        have hnew : newColumns left.2 (some right.2) = [] := hnil
        unfold viewQuery
        dsimp only
        rw [hnew, List.map_nil, List.append_nil, List.append_nil]
        refine ⟨?_, hdistinct⟩
        intro item hitem
        obtain ⟨column, hcolumn, rfl⟩ := List.mem_map.mp hitem
        exact ⟨_, List.mem_singleton_self _, refersTo_first hrefl hcolumn⟩

/-- A generated view is well scoped exactly if its second table, where there is one, contributes no
column. -/
theorem wellScoped_iff (hinj : Function.Injective teiid.escapeSinglePart)
    (hrefl : ∀ name, teiid.equalsIgnoreCase name name = true)
    (haliases : teiid.equalsIgnoreCase "t1" "t2" = false) {finder : SchemaFinder}
    {viewDef : ViewDefinition} (hcomplete : viewDef.complete = true) {left : String × Schema × Table}
    {others : List (String × Schema × Table)}
    (hpaths : viewDef.sourcePaths = left.1 :: others.map (·.1))
    (hsources : ∀ source ∈ left :: others, SourceTable teiid finder source.1 source.2)
    (hdistinct : ∀ source ∈ left :: others, DistinctIgnoringCase teiid source.2.2.columns) :
    ∃ key, getODataViewDdl teiid finder viewDef =
        .ok (some ((viewQuery left.2 (others.head?.map (·.2))).ddl teiid viewDef key)) ∧
      (WellScoped teiid (viewQuery left.2 (others.head?.map (·.2))) ↔
        ContributesNothing left.2.2 (others.head?.map (·.2.2))) := by
  obtain ⟨key, hddl⟩ := getODataViewDdl_viewQuery hinj hrefl hcomplete hpaths hsources hdistinct
  refine ⟨key, hddl, ?_⟩
  have h := @wellScoped_viewQuery_iff teiid hrefl haliases left.2 (others.head?.map (·.2))
    (hdistinct left List.mem_cons_self)
  rwa [Option.map_map] at h

/-- A name is equal to itself there. -/
theorem equalsIgnoreCase_shop (name : String) : shopTeiid.equalsIgnoreCase name name = true :=
  beq_self_eq_true _

/-- Both paths name a table. -/
theorem sourceTable_shop {path : String} {source : Schema × Table}
    (h : (path, source) ∈ [("schema=shop/table=orders", shopSchema, ordersTable),
      ("schema=shop/table=customers", shopSchema, customersTable)]) :
    SourceTable shopTeiid shopFinder path source := by
  rw [List.mem_cons, List.mem_singleton] at h
  rcases h with h | h
  · cases h
    exact ⟨[("schema", "shop"), ("table", "orders")], "shop", "orders", by decide, rfl, rfl, rfl, by decide⟩
  · cases h
    exact ⟨[("schema", "shop"), ("table", "customers")], "shop", "customers", by decide, rfl, rfl, rfl,
      by decide⟩

/-- A table joined with itself. -/
theorem wellScoped_iff_orders :
    WellScoped shopTeiid (viewQuery (shopSchema, ordersTable) (some (shopSchema, ordersTable))) := by
  obtain ⟨key, _, hscoped⟩ :=
    @wellScoped_iff shopTeiid escapeAscii_injective equalsIgnoreCase_shop (by decide) shopFinder
      { shopView with sourcePaths := ["schema=shop/table=orders", "schema=shop/table=orders"] } rfl
      ("schema=shop/table=orders", shopSchema, ordersTable)
      [("schema=shop/table=orders", shopSchema, ordersTable)] rfl
      (by
        intro source hsource
        apply sourceTable_shop
        rw [List.mem_cons, List.mem_singleton, or_self] at hsource
        rw [hsource]
        exact List.mem_cons_self)
      (by decide)
  apply hscoped.mpr
  rintro _ ⟨⟩ column hcolumn
  exact List.mem_map_of_mem hcolumn

/-- The cities of the customers are selected, and the customers are not in the FROM clause. -/
theorem view_out_of_scope :
    ¬ ∀ (teiid : Teiid), Function.Injective teiid.escapeSinglePart →
      (∀ name, teiid.equalsIgnoreCase name name = true) → teiid.equalsIgnoreCase "t1" "t2" = false →
      ∀ (finder : SchemaFinder) (viewDef : ViewDefinition), viewDef.complete = true →
      ∀ (left : String × Schema × Table) (others : List (String × Schema × Table)),
        viewDef.sourcePaths = left.1 :: others.map (·.1) →
        (∀ source ∈ left :: others, SourceTable teiid finder source.1 source.2) →
        (∀ source ∈ left :: others, DistinctIgnoringCase teiid source.2.2.columns) →
        ∃ key, getODataViewDdl teiid finder viewDef =
            .ok (some ((viewQuery left.2 (others.head?.map (·.2))).ddl teiid viewDef key)) ∧
          WellScoped teiid (viewQuery left.2 (others.head?.map (·.2))) := by
  intro h
  obtain ⟨key, _, hscoped⟩ :=
    h shopTeiid escapeAscii_injective equalsIgnoreCase_shop (by decide) shopFinder shopView rfl
      ("schema=shop/table=orders", shopSchema, ordersTable)
      [("schema=shop/table=customers", shopSchema, customersTable)] rfl
      (fun source hsource => sourceTable_shop hsource) (by decide)
  obtain ⟨source, hsource, hrefers, _⟩ :=
    hscoped.items { qualifier := some "t2", column := { name := "city" } } (by decide)
  obtain rfl := List.mem_singleton.mp hsource
  exact absurd (hrefers "t2" rfl) (by decide)

end TeiidSyndesis.Server
