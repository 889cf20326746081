/-
# TeiidSyndesis.Server.SourcePaths — the tables the source paths of a view name.

An import and a validation write the names of schemas and tables into paths, and the generator of view
DDL reads them off again before it looks the tables up.  Whatever characters the names have, it looks
up the names that were written.

Main results:
* `sourceTableInfos_named`, `getSourceTableInfos_named` — the generator finds the named tables;
* `sourcePaths_importedView`, `sourcePaths_validated` — what an import and a validation write;
* `paths_read_back` — so both write what is read off again.
-/
import TeiidSyndesis.Model.PercentEncoding
import TeiidSyndesis.Server.Exportable

namespace TeiidSyndesis.Server

open TeiidSyndesis.Library TeiidSyndesis.Model

/-- A `FullyQualifiedName` percent-encodes the names of the schema and of the table. -/
def Encodes (literal : Char → Bool) (teiid : Teiid) : Prop :=
  ∀ schema table,
    teiid.fullyQualifiedName schema table = joinedPath literal [("schema", schema), ("table", table)]

/-- The source tables of these names of schemas and tables, without any path that is read. -/
def namedTableInfos (teiid : Teiid) (finder : SchemaFinder) (aliased : Bool) :
    List (String × String) → Nat → Except Failure (Option (List TableInfo))
  | [], _ => .ok (some [])
  | (schemaName, tableName) :: names, index => do
      match ← finder.findSchema schemaName with
      | none => pure none
      | some schema =>
          match schema.getTable teiid tableName with
          | none => pure none
          | some table =>
              let tableAlias := if aliased then some ("t" ++ toString (index + 1)) else none
              let rest ← namedTableInfos teiid finder aliased names (index + 1)
              pure (rest.map
                (tableInfo teiid schema (teiid.fullyQualifiedName schemaName tableName) table tableAlias :: ·))

/-- The paths of tables. -/
def namedPaths (teiid : Teiid) (names : List (String × String)) : List String :=
  names.map fun name => teiid.fullyQualifiedName name.1 name.2

/-- The names of the tables a view reads from. -/
def incomingTable : IncomingObject → Option (String × String)
  | .table schema _ _ name => some (schema, name)
  | .other => none

section ReadBack

variable {literal : Char → Bool} {teiid : Teiid} {finder : SchemaFinder}

/-- The paths are read as the names they have been made of. -/
theorem sourceTableInfos_named (hliteral : ∀ c, literal c = true → isUnreserved c = true)
    (hencodes : Encodes literal teiid) (aliased : Bool) {names : List (String × String)}
    (hnames : NoneEmpty names) (index : Nat) :
    sourceTableInfos teiid finder aliased (namedPaths teiid names) index =
      namedTableInfos teiid finder aliased names index := by
  induction names generalizing index with
  | nil => rfl
  | cons name names ih =>
      obtain ⟨schemaName, tableName⟩ := name
      rw [NoneEmpty, List.forall_mem_cons] at hnames
      have hoptions : getOptions (teiid.fullyQualifiedName schemaName tableName) =
          .ok [("schema", schemaName), ("table", tableName)] := by
        rw [hencodes]
        have hkeys : "schema" ≠ "" ∧ "table" ≠ "" := by decide
        refine getOptions_joined hliteral ?_
        rw [NoneEmpty, List.forall_mem_cons, List.forall_mem_singleton]
        exact ⟨⟨hkeys.1, hnames.1.1⟩, hkeys.2, hnames.1.2⟩
      rw [namedPaths, List.map_cons, sourceTableInfos, namedTableInfos, hoptions,
        ← ih hnames.2 (index + 1)]
      rfl

/-- The generator looks up the tables of a complete view by the names of which its paths are made. -/
theorem getSourceTableInfos_named (hliteral : ∀ c, literal c = true → isUnreserved c = true)
    (hencodes : Encodes literal teiid) {view : ViewDefinition} (hcomplete : view.complete = true)
    {names : List (String × String)} (hpaths : view.sourcePaths = namedPaths teiid names)
    (hnames : NoneEmpty names) :
    getSourceTableInfos teiid finder view =
      namedTableInfos teiid finder (decide (1 < names.length)) names 0 := by
  unfold getSourceTableInfos
  rw [if_pos hcomplete, hpaths, namedPaths, List.length_map]
  exact sourceTableInfos_named hliteral hencodes _ hnames 0

/-- An import names its table. -/
theorem sourcePaths_importedView {teiidSourceName : String} {t : Table}
    {viewDefn imported : ViewDefinition}
    (h : importedView teiid finder teiidSourceName t viewDefn = .ok imported) :
    imported.complete = true ∧
      imported.sourcePaths = viewDefn.sourcePaths ++ namedPaths teiid [(teiidSourceName, t.name)] := by
  unfold importedView at h
  obtain ⟨ddl, -, hresult⟩ := bind_eq_ok.mp h
  cases pure_eq_ok.mp hresult
  exact ⟨rfl, rfl⟩

/-- A validation names the tables that were resolved. -/
theorem sourcePaths_validated {view validated : ViewDefinition} {incoming : List IncomingObject}
    (hddl : view.ddl.all isBlank = false)
    (h : validateViewDefinition teiid view (.resolved incoming) = .ok validated) :
    validated.sourcePaths = namedPaths teiid (incoming.filterMap incomingTable) := by
  have hpaths : incomingPath teiid = fun object =>
      (incomingTable object).map fun name => teiid.fullyQualifiedName name.1 name.2 := by
    funext object
    cases object <;> rfl
  unfold validateViewDefinition at h
  rw [hddl] at h
  cases h
  rw [namedPaths, List.map_filterMap, hpaths]

/-- A validation leaves the request as it is but for its paths. -/
theorem complete_validated {view validated : ViewDefinition} {answer : ValidationAnswer}
    (h : validateViewDefinition teiid view answer = .ok validated) :
    validated.complete = view.complete := by
  unfold validateViewDefinition at h
  split at h
  · cases h
    rfl
  · cases answer <;> cases h <;> rfl

/-- A path is read as what has been written into it.  An import writes the path of its table, and a
validation the paths of all tables the view reads, in place of those of the request; so the tables that
are looked up for a view are those an import or a validation has put into its paths. -/
theorem paths_read_back (hliteral : ∀ c, literal c = true → isUnreserved c = true)
    (hencodes : Encodes literal teiid) :
    (∀ options, NoneEmpty options → getOptions (joinedPath literal options) = .ok options) ∧
    (∀ finder teiidSourceName t viewDefn imported, viewDefn.sourcePaths = [] →
      NoneEmpty [(teiidSourceName, t.name)] →
      importedView teiid finder teiidSourceName t viewDefn = .ok imported →
        ∀ finder', getSourceTableInfos teiid finder' imported =
          namedTableInfos teiid finder' false [(teiidSourceName, t.name)] 0) ∧
    ∀ view incoming validated, view.ddl.all isBlank = false →
      NoneEmpty (incoming.filterMap incomingTable) →
      validateViewDefinition teiid view (.resolved incoming) = .ok validated →
        validated.sourcePaths = namedPaths teiid (incoming.filterMap incomingTable) ∧
          (view.complete = true → ∀ finder, getSourceTableInfos teiid finder validated =
            namedTableInfos teiid finder (decide (1 < (incoming.filterMap incomingTable).length))
              (incoming.filterMap incomingTable) 0) := by
  refine ⟨fun options => getOptions_joined hliteral, ?_, ?_⟩
  · intro finder teiidSourceName t viewDefn imported hempty hnames h finder'
    obtain ⟨hcomplete, hpaths⟩ := sourcePaths_importedView h
    rw [hempty, List.nil_append] at hpaths
    exact getSourceTableInfos_named hliteral hencodes hcomplete hpaths hnames
  -- the paths are replaced; whether the view is looked up follows the flag of the request
  · intro view incoming validated hddl hnames h
    have hpaths := sourcePaths_validated hddl h
    refine ⟨hpaths, fun hcomplete finder => ?_⟩
    have hvalidated : validated.complete = true := (complete_validated h).trans hcomplete
    exact getSourceTableInfos_named hliteral hencodes hvalidated hpaths hnames

end ReadBack

/-- Teiid with paths that are percent-encoded. -/
def encodingTeiid : Teiid :=
  { Teiid.ascii fun _ => { schema := { name := "parsed" } } with
    fullyQualifiedName := fun schema table =>
      joinedPath isUnreserved [("schema", schema), ("table", table)] }

/-- A source with one table; both names have characters that are escaped. -/
def mySource : SchemaFinder where
  findSchema name :=
    .ok (if name = "my source" then some { name := name, tables := [{ name := "a/b=c%" }] } else none)
  findTeiidDatasource _ := none

/-- A user defined view that reads the table and one more object, and names another path. -/
def joiningView : ViewDefinition :=
  { name := "v", dataVirtualizationName := "shop", complete := true, userDefined := true
    ddl := some "CREATE VIEW v AS SELECT * FROM \"a/b=c%\" CROSS JOIN t"
    sourcePaths := ["schema=other/table=old"] }

/-- What its text reads: two tables, and something that is no table. -/
def joinedObjects : List IncomingObject :=
  [.table "my source" true false "a/b=c%", .other, .table "my source" true false "t é+"]

theorem paths_read_back_slash :
    getOptions (joinedPath isUnreserved [("schema", "my source"), ("table", "a/b=c%")]) =
        .ok [("schema", "my source"), ("table", "a/b=c%")] ∧
      (∃ imported,
        importedView encodingTeiid mySource "my source" { name := "a/b=c%" }
            { name := "v", dataVirtualizationName := "shop" } = .ok imported ∧
          getSourceTableInfos encodingTeiid mySource imported =
            namedTableInfos encodingTeiid mySource false [("my source", "a/b=c%")] 0) ∧
      ∃ validated,
        validateViewDefinition encodingTeiid joiningView (.resolved joinedObjects) = .ok validated ∧
          validated.sourcePaths =
            ["schema=my%20source/table=a%2Fb%3Dc%25", "schema=my%20source/table=t%20%C3%A9%2B"] ∧
          getSourceTableInfos encodingTeiid mySource validated =
            namedTableInfos encodingTeiid mySource true
              [("my source", "a/b=c%"), ("my source", "t é+")] 0 := by
  obtain ⟨hread, himport, hvalidate⟩ :=
    @paths_read_back isUnreserved encodingTeiid (fun _ h => h) fun _ _ => rfl
  have hview : ∃ imported, importedView encodingTeiid mySource "my source" { name := "a/b=c%" }
      { name := "v", dataVirtualizationName := "shop" } = .ok imported := by
    exact ⟨_, rfl⟩
  have hblank : joiningView.ddl.all isBlank = false := by decide
  have hvalid : ∃ validated,
      validateViewDefinition encodingTeiid joiningView (.resolved joinedObjects) = .ok validated := by
    exact ⟨_, rfl⟩
  obtain ⟨imported, h⟩ := hview
  obtain ⟨validated, h'⟩ := hvalid
  have hnames : NoneEmpty (joinedObjects.filterMap incomingTable) := by
    unfold NoneEmpty
    decide
  obtain ⟨hpaths, hlookup⟩ := hvalidate joiningView joinedObjects validated hblank hnames h'
  refine ⟨hread _ ?_, ⟨imported, h, himport _ _ _ _ _ rfl ?_ h mySource⟩, validated, h',
    hpaths.trans (by decide), hlookup rfl mySource⟩
  all_goals
    unfold NoneEmpty
    decide

end TeiidSyndesis.Server
