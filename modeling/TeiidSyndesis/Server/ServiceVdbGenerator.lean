/-
# TeiidSyndesis.Server.ServiceVdbGenerator — VDBs and view DDL from view definitions.

The three public methods of `ServiceVdbGenerator`: `createServiceVdb` and `createPreviewVdb` append
the DDL of the views of a virtualization to one model, and `getODataViewDdl` generates the DDL of a
view from the source tables its paths name.  A string builder is the text it has collected; a linked
map is the list of its entries in insertion order.

Main results:
* `previewDdl_eq`, `createPreviewVdb_congr` — what a preview VDB depends on;
* `serviceDdl_eq` — what a service VDB is made of.
-/
import TeiidSyndesis.Model.PathUtils

namespace TeiidSyndesis.Server

open TeiidSyndesis.Model

/-! ## VDBs -/

/-- `SchemaFinder`: the schemas and the registered data sources by connection name. -/
structure SchemaFinder where
  findSchema : String → Except Failure (Option Schema)
  findTeiidDatasource : String → Option TeiidDataSource

/-- No connection is registered. -/
def noSources : SchemaFinder where
  findSchema _ := .ok none
  findTeiidDatasource _ := none

/-- The last character of the text is a semicolon. -/
def endsWithSemicolon (ddl : String) : Bool := ddl.toList.getLast? == some ';'

/-- The loop of `createPreviewVdb`: a view that is complete and parsable adds its DDL, with a
semicolon in front of it unless it ends with one. -/
def previewDdl : List ViewDefinition → String → Except Failure String
  | [], allViewDdl => .ok allViewDdl
  | viewDef :: views, allViewDdl =>
      if viewDef.complete && viewDef.parsable then
        match viewDef.ddl with
        | none => .error (.nullPointer "viewDdl")
        | some viewDdl =>
            let allViewDdl := if endsWithSemicolon viewDdl then allViewDdl else allViewDdl ++ ";"
            previewDdl views (allViewDdl ++ viewDdl ++ "\n")
      else previewDdl views allViewDdl

/-- The model with the views. -/
def serviceModel (virtualizationName allViewDdl : String) : ModelMetaData :=
  { name := virtualizationName, ddl := allViewDdl }

/-- `createPreviewVdb`: one model with the texts, over the main preview VDB. -/
def createPreviewVdb (virtualizationName vdbName : String) (editorStates : List ViewDefinition) :
    Except Failure VDBMetaData := do
  let allViewDdl ← previewDdl editorStates ""
  pure
    { name := vdbName
      models := [serviceModel virtualizationName allViewDdl]
      imports := [previewVdb]
      preview := true }

/-- The tables of each physical schema the views read, in the order they are met. -/
abbrev SchemaTableMap := List (String × List String)

/-- A table is added to those of its schema. -/
def addTable (schemas : SchemaTableMap) (schema table : String) : SchemaTableMap :=
  match schemas with
  | [] => [(schema, [table])]
  | (name, tables) :: rest =>
      if name = schema then (name, if table ∈ tables then tables else tables ++ [table]) :: rest
      else (name, tables) :: addTable rest schema table

/-- What is read of a physical schema is collected. -/
def addIncoming (schemas : SchemaTableMap) : IncomingObject → SchemaTableMap
  | .table schema physical system name =>
      if physical && !system then addTable schemas schema name else schemas
  | .other => schemas

/-- The loop of `createServiceVdb`; `getTable` looks a view up in the schema of the preview VDB. -/
def serviceDdl (getTable : String → Option (List IncomingObject)) :
    List ViewDefinition → String → SchemaTableMap → Except Failure (String × SchemaTableMap)
  | [], allViewDdl, schemas => .ok (allViewDdl, schemas)
  | viewDef :: views, allViewDdl, schemas =>
      if viewDef.complete then
        match viewDef.ddl with
        | none => .error (.nullPointer "viewDdl")
        | some viewDdl =>
            let allViewDdl := allViewDdl ++ viewDdl
            let allViewDdl := if endsWithSemicolon viewDdl then allViewDdl else allViewDdl ++ ";"
            match getTable viewDef.name with
            | none => .error (.nullPointer "record")
            | some incoming =>
                serviceDdl getTable views (allViewDdl ++ "\n") (incoming.foldl addIncoming schemas)
      else serviceDdl getTable views allViewDdl schemas

/-- `Pattern.quote` of a name; an end marker inside the name is quoted on its own. -/
def patternQuote (name : String) : String :=
  let rec quoted : List Char → List Char
    | '\\' :: 'E' :: cs => "\\E\\\\E\\Q".toList ++ quoted cs
    | c :: cs => c :: quoted cs
    | [] => []
  "\\Q" ++ String.ofList (quoted name.toList) ++ "\\E"

/-- The model of one source, with the tables that are wanted of it. -/
def sourceModel (teiid : Teiid) (finder : SchemaFinder) (entry : String × List String) :
    ModelMetaData :=
  let regex := "|".intercalate (entry.2.map patternQuote)
  { name := entry.1
    physical := true
    visible := false
    ddl := teiid.getDDLString entry.1 regex
    sourceMappings :=
      match finder.findTeiidDatasource entry.1 with
      | some tds => [(tds.name, tds.translatorName, tds.name)]
      | none => [] }

/-- `createServiceVdb`: the model of the views, and one for each source. -/
def createServiceVdb (teiid : Teiid) (finder : SchemaFinder) (virtualizationName : String)
    (getTable : String → Option (List IncomingObject)) (editorStates : List ViewDefinition) :
    Except Failure VDBMetaData := do
  let (allViewDdl, schemas) ← serviceDdl getTable editorStates "" []
  let sources := schemas.map (sourceModel teiid finder)
  pure { name := virtualizationName, models := serviceModel virtualizationName allViewDdl :: sources }

/-! ## Source tables -/

/-- A column, as the text names it. -/
structure ColumnInfo where
  name : String
  aliasedName : String
  fqname : String
  deriving DecidableEq, Repr

/-- A table, as the text names it. -/
structure TableInfo where
  path : String
  tableAlias : Option String
  name : String
  fqname : String
  columnInfos : List ColumnInfo
  constraint : Option KeyRecord
  deriving DecidableEq, Repr

/-- The names of a column. -/
def columnInfo (teiid : Teiid) (tableFqn : String) (tableAlias : Option String) (column : Column) :
    ColumnInfo :=
  let name := teiid.escapeSinglePart column.name
  { name := name
    aliasedName :=
      match tableAlias with
      | some tableAlias => tableAlias ++ "." ++ name
      | none => name
    fqname := tableFqn ++ "." ++ name }

/-- The names of a table. -/
def tableInfo (teiid : Teiid) (schema : Schema) (path : String) (table : Table)
    (tableAlias : Option String) : TableInfo :=
  let name := teiid.escapeSinglePart table.name
  let fqname := teiid.escapeSinglePart schema.name ++ "." ++ name
  { path := path
    tableAlias := tableAlias
    name := name
    fqname := fqname
    columnInfos := table.columns.map (columnInfo teiid fqname tableAlias)
    constraint := table.primaryKey.or table.uniqueKeys.head? }

/-- The source tables of the paths from the `index`-th on; `none` where a path names no table. -/
def sourceTableInfos (teiid : Teiid) (finder : SchemaFinder) (aliased : Bool) :
    List String → Nat → Except Failure (Option (List TableInfo))
  | [], _ => .ok (some [])
  | path :: paths, index => do
      let options ← getOptions path
      let connectionName ← optionValue options 0
      let schemaModel ← finder.findSchema connectionName
      match schemaModel with
      | none => pure none
      | some schema =>
          let tableName ← optionValue options 1
          match schema.getTable teiid tableName with
          | none => pure none
          | some table =>
              let tableAlias := if aliased then some ("t" ++ toString (index + 1)) else none
              let rest ← sourceTableInfos teiid finder aliased paths (index + 1)
              pure (rest.map (tableInfo teiid schema path table tableAlias :: ·))

/-- `getSourceTableInfos`: the tables of a view, with aliases where there are several. -/
def getSourceTableInfos (teiid : Teiid) (finder : SchemaFinder) (viewDefinition : ViewDefinition) :
    Except Failure (Option (List TableInfo)) :=
  if viewDefinition.complete then
    sourceTableInfos teiid finder (decide (1 < viewDefinition.sourcePaths.length))
      viewDefinition.sourcePaths 0
  else .ok none

/-! ## View DDL -/

/-- How the text begins. -/
def startView (teiid : Teiid) (viewName : String) : String :=
  "CREATE VIEW " ++ teiid.escapeSinglePart viewName ++ " "

/-- The description, between quotes. -/
def getTableAnnotation (description : Option String) : String :=
  match description with
  | none => ""
  | some description =>
      if description = "" then "" else "OPTIONS (ANNOTATION '" ++ description ++ "') "

/-- `LinkedHashMap.put`: a name met again keeps its place and takes the new column. -/
def putColumn (columns : List ColumnInfo) (info : ColumnInfo) : List ColumnInfo :=
  if columns.any (·.name = info.name) then
    columns.map fun column => if column.name = info.name then info else column
  else columns ++ [info]

/-- The columns of the left table, then those of the right table with new names. -/
def projectedColumns (left : TableInfo) (right : Option TableInfo) : List ColumnInfo :=
  let columns := left.columnInfos.foldl putColumn []
  match right with
  | none => columns
  | some right =>
      right.columnInfos.foldl
        (fun columns info =>
          if columns.any (·.name = info.name) then columns else columns ++ [info])
        columns

/-- The key clause of a view over one table, when all columns of the key are projected. -/
def keyClause (columns : List ColumnInfo) (constraint : Option KeyRecord) : String :=
  match constraint with
  | none => ""
  | some constraint =>
      if constraint.columns.all fun column => columns.any (·.name = column.name) then
        ", " ++ (if constraint.primary then "PRIMARY KEY" else "UNIQUE") ++ "(" ++
          ", ".intercalate (constraint.columns.map (·.name)) ++ ")"
      else ""

/-- The DDL of a view over source tables; a join is generated over its first table only. -/
def getTablesViewDdl (teiid : Teiid) (viewDef : ViewDefinition) (left : TableInfo)
    (rest : List TableInfo) : String :=
  let columns := projectedColumns left rest.head?
  startView teiid viewDef.name ++ "(" ++ ", ".intercalate (columns.map (·.name)) ++
    (if rest.isEmpty then keyClause columns left.constraint else "") ++ ") " ++
    getTableAnnotation viewDef.description ++ "AS \nSELECT " ++
    ", ".intercalate (columns.map (·.aliasedName)) ++ "\n" ++ "FROM " ++
    (if rest.isEmpty then left.fqname
    else left.fqname ++ " AS " ++ left.tableAlias.getD "null")

/-- `getODataViewDdl`: the text of a complete view. -/
def getODataViewDdl (teiid : Teiid) (finder : SchemaFinder) (viewDef : ViewDefinition) :
    Except Failure (Option String) :=
  if viewDef.complete then do
    match ← getSourceTableInfos teiid finder viewDef with
    | none => .error (.kException "Error getting the ViewDefinition sources")
    | some [] =>
        pure (some (startView teiid viewDef.name ++ getTableAnnotation viewDef.description ++
          "AS \nSELECT 1 as col;"))
    | some (left :: rest) => pure (some (getTablesViewDdl teiid viewDef left rest))
  else .ok none

/-! ## What a preview VDB depends on -/

/-- The DDL a view adds to a preview VDB. -/
def usableDdl (viewDef : ViewDefinition) : Option (Option String) :=
  if viewDef.complete && viewDef.parsable then some viewDef.ddl else none

/-- The DDL texts of the complete and parsable views, in order. -/
def usableDdls (views : List ViewDefinition) : List (Option String) := views.filterMap usableDdl

/-- The loop of `createPreviewVdb` over the texts it does not skip. -/
def appendDdls : List (Option String) → String → Except Failure String
  | [], allViewDdl => .ok allViewDdl
  | none :: _, _ => .error (.nullPointer "viewDdl")
  | some viewDdl :: ddls, allViewDdl =>
      appendDdls ddls
        ((if endsWithSemicolon viewDdl then allViewDdl else allViewDdl ++ ";") ++ viewDdl ++ "\n")

/-- The loop takes the usable texts only. -/
theorem previewDdl_eq (views : List ViewDefinition) (allViewDdl : String) :
    previewDdl views allViewDdl = appendDdls (usableDdls views) allViewDdl := by
  induction views generalizing allViewDdl with
  | nil => rfl
  | cons viewDef views ih =>
      by_cases husable : (viewDef.complete && viewDef.parsable) = true
      · have hcons : usableDdls (viewDef :: views) = viewDef.ddl :: usableDdls views := by
          simp [usableDdls, usableDdl, husable]
        rw [hcons, previewDdl, if_pos husable]
        cases viewDef.ddl with
        | none => rfl
        | some viewDdl => exact ih _
      · have hskip : usableDdls (viewDef :: views) = usableDdls views := by
          simp [usableDdls, usableDdl, husable]
        rw [hskip, previewDdl, if_neg husable]
        exact ih _

/-- Views that agree on the texts that are not skipped make the same preview VDB. -/
theorem createPreviewVdb_congr {views views' : List ViewDefinition}
    (h : usableDdls views = usableDdls views') (virtualizationName vdbName : String) :
    createPreviewVdb virtualizationName vdbName views =
      createPreviewVdb virtualizationName vdbName views' := by
  unfold createPreviewVdb
  rw [previewDdl_eq, previewDdl_eq, h]

/-! ## What a service VDB is made of -/

/-- The DDL texts of the complete views, in order. -/
def completeDdls (views : List ViewDefinition) : List String :=
  views.filterMap fun viewDef => if viewDef.complete then viewDef.ddl else none

/-- The objects the complete views read, in order. -/
def incomingObjects (getTable : String → Option (List IncomingObject))
    (views : List ViewDefinition) : List IncomingObject :=
  views.flatMap fun viewDef =>
    if viewDef.complete then (getTable viewDef.name).getD [] else []

/-- What the loop of `createServiceVdb` appends for a text. -/
def appendViewDdl (allViewDdl viewDdl : String) : String :=
  (if endsWithSemicolon viewDdl then allViewDdl ++ viewDdl else allViewDdl ++ viewDdl ++ ";") ++ "\n"

/-- The loop returns where each complete view has a text and a table. -/
theorem serviceDdl_eq {getTable : String → Option (List IncomingObject)}
    {views : List ViewDefinition}
    (h : ∀ viewDef ∈ views, viewDef.complete →
      viewDef.ddl.isSome ∧ (getTable viewDef.name).isSome)
    (allViewDdl : String) (schemas : SchemaTableMap) :
    serviceDdl getTable views allViewDdl schemas =
      .ok ((completeDdls views).foldl appendViewDdl allViewDdl,
        (incomingObjects getTable views).foldl addIncoming schemas) := by
  induction views generalizing allViewDdl schemas with
  | nil => rfl
  | cons viewDef views ih =>
      rw [List.forall_mem_cons] at h
      by_cases hcomplete : viewDef.complete = true
      · obtain ⟨hddl, htable⟩ := h.1 hcomplete
        obtain ⟨viewDdl, hddl⟩ := Option.isSome_iff_exists.mp hddl
        obtain ⟨incoming, htable⟩ := Option.isSome_iff_exists.mp htable
        rw [serviceDdl, if_pos hcomplete, hddl]
        simp only [htable]
        rw [ih h.2]
        simp [completeDdls, incomingObjects, hcomplete, hddl, htable, appendViewDdl]
      · rw [serviceDdl, if_neg hcomplete, ih h.2]
        simp [completeDdls, incomingObjects, hcomplete]

end TeiidSyndesis.Server
