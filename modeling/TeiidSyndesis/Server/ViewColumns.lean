/-
# TeiidSyndesis.Server.ViewColumns — the columns of a generated view, loop by loop.

`getODataViewDdl` collects the columns of its tables in a linked map, writes the header from its values,
remembering the names, and then writes the SELECT list from these names, each looked up in the map
again.  The two loops decide on their own where a comma goes.  Here both are followed as they are
written; they agree with the shorter description of the text in `getTablesViewDdl`, and the i-th item of
the one list is the i-th of the other.

Main results:
* `projectColumns_eq`, `selectColumns_eq`, `selected_eq` — what each loop writes;
* `tablesViewDdl_eq` — together they write what `getTablesViewDdl` says;
* `getODataViewDdl_sources`, `getODataViewDdl_tables` — for the sources of a view;
* `getODataViewDdl_linesUp` — and the columns of header and SELECT list are the same, in the same order.
-/
import TeiidSyndesis.Library.LinkedMap
import TeiidSyndesis.Library.Results
import TeiidSyndesis.Server.ParsableFlag

namespace TeiidSyndesis.Server

open TeiidSyndesis.Library TeiidSyndesis.Model

/-! ## The loops -/

/-- All columns of the left table, in order, then those of the right table with new names. -/
def assembleColumns (left : TableInfo) (right : Option TableInfo) : LinkedMap ColumnInfo.name :=
  let columns := left.columnInfos.foldl LinkedMap.put LinkedMap.empty
  match right with
  | none => columns
  | some right => right.columnInfos.foldl LinkedMap.putIfAbsent columns

/-- The loop over the columns: the text, and the names that have been projected. -/
def projectColumns : List ColumnInfo → String → LinkedMap (id : String → String) →
    String × LinkedMap (id : String → String)
  | [], sb, selected => (sb, selected)
  | info :: infos, sb, selected =>
      let sb := sb ++ info.name
      let sb := if infos.isEmpty then sb else sb ++ ", "
      projectColumns infos sb (selected.putIfAbsent info.name)

/-- The loop over the names; a name that is not in the map is skipped, with its comma. -/
def selectColumns (columns : LinkedMap ColumnInfo.name) : List String → String → String
  | [], sb => sb
  | name :: names, sb =>
      match columns.get name with
      | none => selectColumns columns names sb
      | some col =>
          let sb := sb ++ col.aliasedName
          let sb := if names.isEmpty then sb else sb ++ ", "
          selectColumns columns names sb

/-- The method, from its first statement to its last. -/
def tablesViewDdl (teiid : Teiid) (viewDef : ViewDefinition) (left : TableInfo)
    (rest : List TableInfo) : String :=
  let columns := assembleColumns left rest.head?
  let sb := startView teiid viewDef.name ++ "("
  let (sb, selectedProjColumnNames) := projectColumns columns.values sb LinkedMap.empty
  let sb := if rest.isEmpty then sb ++ keyClause columns.values left.constraint else sb
  let sb := sb ++ ") " ++ getTableAnnotation viewDef.description ++ "AS \nSELECT "
  let sb := selectColumns columns selectedProjColumnNames.values sb
  let sb := sb ++ "\n" ++ "FROM "
  if rest.isEmpty then sb ++ left.fqname
  else sb ++ left.fqname ++ " AS " ++ left.tableAlias.getD "null"

/-! ## What the loops write -/

/-- The loop over the header. -/
theorem projectColumns_eq {infos : List ColumnInfo} (sb : String)
    {selected : LinkedMap (id : String → String)} :
    projectColumns infos sb selected =
      (sb ++ ", ".intercalate (infos.map (·.name)),
        (infos.map (·.name)).foldl LinkedMap.putIfAbsent selected) := by
  induction infos generalizing sb selected with
  | nil => simp [projectColumns]
  | cons info infos ih =>
      rw [projectColumns, ih]
      cases infos with
      | nil => simp
      | cons next infos => simp [String.intercalate_cons_cons, String.append_assoc]

/-- The loop over the SELECT list finds what the first has remembered. -/
theorem selectColumns_eq {columns : LinkedMap ColumnInfo.name} {infos : List ColumnInfo}
    (h : ∀ info ∈ infos, info ∈ columns.values) (sb : String) :
    selectColumns columns (infos.map (·.name)) sb =
      sb ++ ", ".intercalate (infos.map (·.aliasedName)) := by
  induction infos generalizing sb with
  | nil => simp [selectColumns]
  | cons info infos ih =>
      have hget := columns.get_of_mem (h info List.mem_cons_self)
      rw [List.map_cons, selectColumns, hget]
      dsimp only
      rw [ih fun i hi => h i (List.mem_cons_of_mem _ hi)]
      cases infos with
      | nil => simp
      | cons next infos => simp [String.intercalate_cons_cons, String.append_assoc]

/-- The names that have been projected, in the order of the columns. -/
theorem selected_eq (columns : LinkedMap ColumnInfo.name) (sb : String) :
    (projectColumns columns.values sb LinkedMap.empty).2.values = columns.values.map (·.name) := by
  have hnames : ((columns.values.map (·.name)).map (id : String → String)).Nodup := by
    rw [List.map_id]
    exact columns.nodup
  rw [projectColumns_eq]
  dsimp only
  rw [LinkedMap.values_foldl_putIfAbsent hnames]
  simp [LinkedMap.keys]

/-! ## The shorter description of the text -/

/-- Putting a column, seen on the values. -/
theorem values_put (m : LinkedMap ColumnInfo.name) (info : ColumnInfo) :
    (m.put info).values = putColumn m.values info := by
  have hany : m.values.any (fun column => decide (column.name = info.name)) = true ↔
      info.name ∈ m.keys := by
    simp [LinkedMap.keys]
  unfold LinkedMap.put putColumn
  by_cases hold : info.name ∈ m.keys
  · rw [if_pos (hany.mpr hold)]
    exact if_pos hold
  · rw [if_neg fun h => hold (hany.mp h)]
    exact if_neg hold

/-- Putting one only where its name is new. -/
theorem values_putIfAbsent (m : LinkedMap ColumnInfo.name) (info : ColumnInfo) :
    (m.putIfAbsent info).values =
      if m.values.any (fun column => decide (column.name = info.name)) then m.values
      else m.values ++ [info] := by
  have hany : m.values.any (fun column => decide (column.name = info.name)) = true ↔
      info.name ∈ m.keys := by
    simp [LinkedMap.keys]
  unfold LinkedMap.putIfAbsent LinkedMap.containsKey
  by_cases hold : info.name ∈ m.keys
  · rw [if_pos (hany.mpr hold), if_pos (decide_eq_true hold)]
  · rw [if_neg fun h => hold (hany.mp h), if_neg (by simpa using hold),
      LinkedMap.values_put_of_new hold]

/-- The columns that are collected. -/
theorem values_assembleColumns (left : TableInfo) (right : Option TableInfo) :
    (assembleColumns left right).values = projectedColumns left right := by
  have hleft : (left.columnInfos.foldl LinkedMap.put LinkedMap.empty).values =
      left.columnInfos.foldl putColumn [] :=
    (List.foldl_hom LinkedMap.values fun m info => (values_put m info).symm).symm
  unfold assembleColumns projectedColumns
  cases right with
  | none => exact hleft
  | some right =>
      dsimp only
      rw [← hleft]
      exact (List.foldl_hom LinkedMap.values fun m info => (values_putIfAbsent m info).symm).symm

/-- The loops write what `getTablesViewDdl` says. -/
theorem tablesViewDdl_eq (teiid : Teiid) (viewDef : ViewDefinition) (left : TableInfo)
    (rest : List TableInfo) :
    tablesViewDdl teiid viewDef left rest = getTablesViewDdl teiid viewDef left rest := by
  unfold tablesViewDdl getTablesViewDdl
  dsimp only
  rw [selected_eq, selectColumns_eq fun _ h => h, projectColumns_eq, values_assembleColumns]
  cases rest with
  | nil => simp [String.append_assoc]
  | cons right rest => simp [String.append_assoc]

/-! ## The tables of a view -/

/-- The schema and the table a source path names. -/
def SourceTable (teiid : Teiid) (finder : SchemaFinder) (path : String) (source : Schema × Table) :
    Prop :=
  ∃ options connectionName tableName, getOptions path = .ok options ∧
    optionValue options 0 = .ok connectionName ∧
    finder.findSchema connectionName = .ok (some source.1) ∧
    optionValue options 1 = .ok tableName ∧ source.1.getTable teiid tableName = some source.2

/-- The table of one path, in front of the others. -/
theorem sourceTableInfos_cons {teiid : Teiid} {finder : SchemaFinder} {path : String}
    {source : Schema × Table} (h : SourceTable teiid finder path source) (aliased : Bool)
    (paths : List String) (index : Nat) {rest : List TableInfo}
    (hrest : sourceTableInfos teiid finder aliased paths (index + 1) = .ok (some rest)) :
    sourceTableInfos teiid finder aliased (path :: paths) index =
      .ok (some (tableInfo teiid source.1 path source.2
        (if aliased then some ("t" ++ toString (index + 1)) else none) :: rest)) := by
  obtain ⟨options, connectionName, tableName, hoptions, hconnection, hschema, hname, htable⟩ := h
  rw [sourceTableInfos]
  refine bind_eq_ok.mpr ⟨options, hoptions, ?_⟩
  refine bind_eq_ok.mpr ⟨connectionName, hconnection, ?_⟩
  refine bind_eq_ok.mpr ⟨some source.1, hschema, ?_⟩
  refine bind_eq_ok.mpr ⟨tableName, hname, ?_⟩
  rw [htable]
  exact bind_eq_ok.mpr ⟨some rest, hrest, rfl⟩

/-- The tables of one or two paths; two have aliases. -/
def viewTables (teiid : Teiid) (left : String × Schema × Table)
    (right : Option (String × Schema × Table)) : TableInfo × List TableInfo :=
  match right with
  | none => (tableInfo teiid left.2.1 left.1 left.2.2 none, [])
  | some right =>
      (tableInfo teiid left.2.1 left.1 left.2.2 (some "t1"),
        [tableInfo teiid right.2.1 right.1 right.2.2 (some "t2")])

/-- All paths are resolved; of the tables that follow the first, the generator looks at one. -/
theorem sourceTableInfos_sources {teiid : Teiid} {finder : SchemaFinder}
    {sources : List (String × Schema × Table)}
    (h : ∀ source ∈ sources, SourceTable teiid finder source.1 source.2) (aliased : Bool) (index : Nat) :
    ∃ infos, sourceTableInfos teiid finder aliased (sources.map (·.1)) index = .ok (some infos) ∧
      infos.head? = sources.head?.map fun source =>
        tableInfo teiid source.2.1 source.1 source.2.2
          (if aliased then some ("t" ++ toString (index + 1)) else none) := by
  induction sources generalizing index with
  | nil => exact ⟨[], rfl, rfl⟩
  | cons source sources ih =>
      rw [List.forall_mem_cons] at h
      obtain ⟨infos, hinfos, _⟩ := ih h.2 (index + 1)
      exact ⟨_, sourceTableInfos_cons h.1 aliased _ index hinfos, rfl⟩

/-- The text depends on the first two tables. -/
theorem getODataViewDdl_sources {teiid : Teiid} {finder : SchemaFinder} {viewDef : ViewDefinition}
    (hcomplete : viewDef.complete = true) {left : String × Schema × Table}
    {others : List (String × Schema × Table)}
    (hpaths : viewDef.sourcePaths = left.1 :: others.map (·.1))
    (h : ∀ source ∈ left :: others, SourceTable teiid finder source.1 source.2) :
    getODataViewDdl teiid finder viewDef =
      .ok (some (tablesViewDdl teiid viewDef (viewTables teiid left others.head?).1
        (viewTables teiid left others.head?).2)) := by
  rw [List.forall_mem_cons] at h
  -- tables get aliases exactly if there is a second path
  have haliased : decide (1 < viewDef.sourcePaths.length) = others.head?.isSome := by
    rw [hpaths]
    cases others with
    | nil => rfl
    | cons right others => simp
  obtain ⟨infos, hothers, hhead⟩ := sourceTableInfos_sources h.2 others.head?.isSome 1
  have hinfos := sourceTableInfos_cons h.1 others.head?.isSome _ 0 hothers
  rw [← hpaths] at hinfos
  unfold getODataViewDdl getSourceTableInfos
  rw [if_pos hcomplete, if_pos hcomplete, haliased]
  refine bind_eq_ok.mpr ⟨_, hinfos, ?_⟩
  rw [tablesViewDdl_eq]
  cases others with
  | nil =>
      obtain rfl := List.head?_eq_none_iff.mp hhead
      rfl
  | cons right others =>
      obtain ⟨more, rfl⟩ := List.head?_eq_some_iff.mp hhead
      rfl

/-- The text over one table or two. -/
theorem getODataViewDdl_tables {teiid : Teiid} {finder : SchemaFinder} {viewDef : ViewDefinition}
    (hcomplete : viewDef.complete = true) {left : String × Schema × Table}
    {right : Option (String × Schema × Table)}
    (hpaths : viewDef.sourcePaths = left.1 :: (right.map (·.1)).toList)
    (hleft : SourceTable teiid finder left.1 left.2)
    (hright : ∀ source ∈ right, SourceTable teiid finder source.1 source.2) :
    getODataViewDdl teiid finder viewDef =
      .ok (some (tablesViewDdl teiid viewDef (viewTables teiid left right).1
        (viewTables teiid left right).2)) := by
  have hall : ∀ source ∈ left :: right.toList, SourceTable teiid finder source.1 source.2 := by
    rw [List.forall_mem_cons]
    exact ⟨hleft, fun source hsource => hright source (Option.mem_toList.mp hsource)⟩
  have hone : right.toList.head? = right := by
    cases right with
    | none => rfl
    | some right => rfl
  have h := getODataViewDdl_sources hcomplete (by rw [hpaths, Option.toList_map]) hall
  rwa [hone] at h

/-! ## The columns line up -/

/-- The columns of the second table whose name does not occur in the first. -/
def newColumns (left : Table) (right : Option Table) : List Column :=
  match right with
  | none => []
  | some right => right.columns.filter fun column => column.name ∉ left.columns.map (·.name)

/-- What stands before the i-th item of the SELECT list: with two tables, the alias of its own. -/
def itemAlias (left : Table) (right : Option Table) (i : Nat) : String :=
  match right with
  | none => ""
  | some _ => if i < left.columns.length then "t1." else "t2."

/-- The header and the SELECT list of a view over one or two tables. -/
structure LinesUp (teiid : Teiid) (left : Table) (right : Option Table) (header select : List String) :
    Prop where
  columns : header =
    (left.columns ++ newColumns left right).map fun column => teiid.escapeSinglePart column.name
  once : header.Nodup
  lengths : select.length = header.length
  items : ∀ i (hi : i < header.length), select[i]? = some (itemAlias left right i ++ header[i])

variable {teiid : Teiid} {left : String × Schema × Table} {right : Option (String × Schema × Table)}

/-- The names in the header are the escaped names of the columns. -/
theorem map_columnInfos (teiid : Teiid) (table : Table) (tableFqn : String) (tableAlias : Option String) :
    (table.columns.map (columnInfo teiid tableFqn tableAlias)).map (·.name) =
      (table.columns.map (·.name)).map teiid.escapeSinglePart := by
  rw [List.map_map, List.map_map]
  rfl

/-- Distinct columns have distinct names there. -/
theorem nodup_columnInfos (hinj : Function.Injective teiid.escapeSinglePart) {table : Table}
    (h : (table.columns.map (·.name)).Nodup) (tableFqn : String) (tableAlias : Option String) :
    ((table.columns.map (columnInfo teiid tableFqn tableAlias)).map (·.name)).Nodup := by
  rw [map_columnInfos]
  exact h.map hinj

/-- A name is new in its escaped form exactly when it is new. -/
theorem filter_columnInfos (hinj : Function.Injective teiid.escapeSinglePart) {left : Table}
    {names : List String} (hnames : names = (left.columns.map (·.name)).map teiid.escapeSinglePart)
    (right : Table) (tableFqn : String) (tableAlias : Option String) :
    ((right.columns.map (columnInfo teiid tableFqn tableAlias)).filter fun info => info.name ∉ names) =
      (newColumns left (some right)).map (columnInfo teiid tableFqn tableAlias) := by
  rw [List.filter_map, hnames]
  refine congrArg _ (List.filter_congr fun column _ => decide_eq_decide.mpr (not_congr ?_))
  exact List.mem_map_of_injective hinj

/-- The linked map holds the columns of the first table and the new ones of the second. -/
theorem values_viewTables (hinj : Function.Injective teiid.escapeSinglePart)
    (hleft : (left.2.2.columns.map (·.name)).Nodup)
    (hright : ∀ source ∈ right, (source.2.2.columns.map (·.name)).Nodup) :
    ∃ leftFqn rightFqn,
      (assembleColumns (viewTables teiid left right).1 (viewTables teiid left right).2.head?).values =
        left.2.2.columns.map (columnInfo teiid leftFqn (right.map fun _ => "t1")) ++
          (newColumns left.2.2 (right.map (·.2.2))).map (columnInfo teiid rightFqn (some "t2")) := by
  have hput {tableFqn : String} {tableAlias : Option String} :
      ((left.2.2.columns.map (columnInfo teiid tableFqn tableAlias)).foldl LinkedMap.put
        (LinkedMap.empty : LinkedMap ColumnInfo.name)).values =
          left.2.2.columns.map (columnInfo teiid tableFqn tableAlias) :=
    LinkedMap.values_foldl_put (nodup_columnInfos hinj hleft _ _)
  cases right with
  | none => exact ⟨_, "", hput.trans (List.append_nil _).symm⟩
  | some right =>
      refine ⟨(tableInfo teiid left.2.1 left.1 left.2.2 none).fqname,
        (tableInfo teiid right.2.1 right.1 right.2.2 none).fqname,
        (LinkedMap.values_foldl_putIfAbsent (nodup_columnInfos hinj (hright right rfl) _ _)).trans ?_⟩
      refine congrArg₂ _ hput (filter_columnInfos hinj ?_ _ _ _)
      rw [LinkedMap.keys, ← map_columnInfos]
      exact congrArg _ hput

/-- Lists made of the two groups of columns line up. -/
theorem linesUp_of_values {columns : LinkedMap ColumnInfo.name} {leftFqn rightFqn : String}
    (h : columns.values =
      left.2.2.columns.map (columnInfo teiid leftFqn (right.map fun _ => "t1")) ++
        (newColumns left.2.2 (right.map (·.2.2))).map (columnInfo teiid rightFqn (some "t2"))) :
    LinesUp teiid left.2.2 (right.map (·.2.2)) (columns.values.map (·.name))
      (columns.values.map (·.aliasedName)) := by
  refine ⟨?_, columns.nodup, by simp, ?_⟩
  · rw [h, List.map_append, List.map_append, List.map_map, List.map_map]
    rfl
  · intro i hi
    rw [List.length_map] at hi
    rw [List.getElem?_map, List.getElem?_eq_getElem hi, List.getElem_map, Option.map_some]
    refine congrArg some ?_
    simp only [h]
    cases right with
    | none =>
        simp only [h, Option.map_none, newColumns, List.map_nil, List.append_nil, List.length_map] at hi
        simp [itemAlias, newColumns, columnInfo]
    | some right =>
        by_cases hlt : i < left.2.2.columns.length
        · rw [List.getElem_append_left (by simpa using hlt), List.getElem_map]
          simp [itemAlias, hlt, columnInfo]
        · rw [List.getElem_append_right (by simpa using hlt), List.getElem_map]
          simp [itemAlias, hlt, columnInfo]

/-- The header and the SELECT list of a complete view over one or two tables line up, and no column is
lost. -/
theorem getODataViewDdl_linesUp (hinj : Function.Injective teiid.escapeSinglePart)
    {finder : SchemaFinder} {viewDef : ViewDefinition} (hcomplete : viewDef.complete = true)
    (hpaths : viewDef.sourcePaths = left.1 :: (right.map (·.1)).toList)
    (hleft : SourceTable teiid finder left.1 left.2)
    (hright : ∀ source ∈ right, SourceTable teiid finder source.1 source.2)
    (hdistinct : (left.2.2.columns.map (·.name)).Nodup)
    (hdistinct' : ∀ source ∈ right, (source.2.2.columns.map (·.name)).Nodup) :
    ∃ header select key,
      LinesUp teiid left.2.2 (right.map (·.2.2)) header select ∧ (right.isSome → key = "") ∧
      getODataViewDdl teiid finder viewDef =
        .ok (some (startView teiid viewDef.name ++ "(" ++ ", ".intercalate header ++ key ++ ") " ++
          getTableAnnotation viewDef.description ++ "AS \nSELECT " ++ ", ".intercalate select ++ "\n" ++
          "FROM " ++ teiid.escapeSinglePart left.2.1.name ++ "." ++
          teiid.escapeSinglePart left.2.2.name ++ (if right.isSome then " AS t1" else ""))) := by
  obtain ⟨leftFqn, rightFqn, hvalues⟩ := values_viewTables hinj hdistinct hdistinct'
  refine ⟨_, _, if right.isSome then "" else
    keyClause (assembleColumns (viewTables teiid left right).1
      (viewTables teiid left right).2.head?).values (viewTables teiid left right).1.constraint,
    linesUp_of_values hvalues, fun h => if_pos h, ?_⟩
  rw [getODataViewDdl_tables hcomplete hpaths hleft hright]
  unfold tablesViewDdl
  dsimp only
  rw [selected_eq, selectColumns_eq fun _ h => h, projectColumns_eq]
  -- the text differs in the aliases and, with one table, in the key
  cases right with
  | none => simp [viewTables, tableInfo, String.append_assoc]
  | some right => simp [viewTables, tableInfo, String.append_assoc]

/-- Two different names are escaped differently. -/
theorem escapeAscii_injective : Function.Injective escapeAscii := by
  intro name name' h
  have hread := leadingName_escapeAscii name []
  rw [h, leadingName_escapeAscii] at hread
  exact hread.symm

/-- Two tables that share a column. -/
def ordersTable : Table :=
  { name := "orders", columns := [{ name := "id" }, { name := "customer name" }] }

/-- Another table, which shares a column with it. -/
def customersTable : Table :=
  { name := "customers", columns := [{ name := "id" }, { name := "city" }] }

/-- The schema of both. -/
def shopSchema : Schema := { name := "shop", tables := [ordersTable, customersTable] }

/-- Whose source is registered. -/
def shopFinder : SchemaFinder where
  findSchema name := .ok (if name = "shop" then some shopSchema else none)
  findTeiidDatasource _ := none

/-- A view over both. -/
def shopView : ViewDefinition :=
  { name := "v", dataVirtualizationName := "dv", complete := true
    sourcePaths := ["schema=shop/table=orders", "schema=shop/table=customers"] }

/-- Teiid, escaping as it does. -/
def shopTeiid : Teiid := Teiid.ascii fun _ => { schema := { name := "" } }

theorem getODataViewDdl_linesUp_shop :
    ∃ header select,
      LinesUp shopTeiid ordersTable (some customersTable) header select ∧
      getODataViewDdl shopTeiid shopFinder shopView =
        .ok (some ("CREATE VIEW v " ++ "(" ++ ", ".intercalate header ++ "" ++ ") " ++ "" ++
          "AS \nSELECT " ++ ", ".intercalate select ++ "\n" ++ "FROM " ++ "shop" ++ "." ++ "orders" ++
          " AS t1")) := by
  obtain ⟨header, select, key, hlines, hkey, hddl⟩ :=
    @getODataViewDdl_linesUp shopTeiid ("schema=shop/table=orders", shopSchema, ordersTable)
      (some ("schema=shop/table=customers", shopSchema, customersTable)) escapeAscii_injective
      shopFinder shopView rfl rfl
      ⟨[("schema", "shop"), ("table", "orders")], "shop", "orders", by decide, rfl, rfl, rfl, by decide⟩
      (by
        rintro _ ⟨⟩
        exact ⟨[("schema", "shop"), ("table", "customers")], "shop", "customers", by decide, rfl, rfl,
          rfl, by decide⟩)
      (by decide)
      (by
        rintro _ ⟨⟩
        decide)
  have hstart : startView shopTeiid shopView.name = "CREATE VIEW v " := by decide
  have hschema : shopTeiid.escapeSinglePart shopSchema.name = "shop" := by decide
  have htable : shopTeiid.escapeSinglePart ordersTable.name = "orders" := by decide
  rw [hkey rfl, hstart, hschema, htable] at hddl
  exact ⟨header, select, hlines, hddl⟩

end TeiidSyndesis.Server
