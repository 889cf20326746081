/-
# TeiidSyndesis.Server.LoadedVdbs — what Teiid makes of the generated VDBs.

A loaded VDB is a catalogue of tables.  The statements of a virtual model create views over other
tables; the DDL of a physical model creates tables that are read through the source mapping of the model;
an import brings in the tables of another deployed VDB; and every VDB has system tables, which describe
that VDB.  What a text creates and how a name in a query finds its table is Teiid's, and left open.

The VDBs loaded here are the ones the program generates: one for each source, the main preview VDB that
imports them, the preview VDB of a virtualization that imports that one, and the service VDB, which has
source models of its own instead.
-/
import TeiidSyndesis.Library.Catalogues
import TeiidSyndesis.Server.PreviewDeployment
import TeiidSyndesis.Server.ServiceVdbClosure
import TeiidSyndesis.Server.SourceDeployment
import TeiidSyndesis.Server.ViewDdlStatements

namespace TeiidSyndesis.Server

open TeiidSyndesis.Library TeiidSyndesis.Model

/-! ## The generated VDBs of sources -/

/-- `generateSourceVdb`: with a ddl the model is hidden and loads its tables from the stored ddl, without
one it is to import them from the source. -/
def generateSourceVdb (teiidSource : TeiidDataSource) (vdbName : String) (schema : Option String) :
    VDBMetaData :=
  { name := vdbName
    models :=
      [{ name := teiidSource.name
         physical := true
         visible := schema.isNone
         ddl := schema.getD ""
         sourceMappings := [(teiidSource.name, teiidSource.translatorName, teiidSource.name)] }] }

/-- The sources with their stored ddls, when the VDB of each is active. -/
structure ActiveSources where
  sources : List (TeiidDataSource × String)
  distinct : (sources.map (·.1.name)).Nodup

namespace ActiveSources

def sourceVdb (source : TeiidDataSource × String) : VDBMetaData :=
  generateSourceVdb source.1 (getWorkspaceSourceVdbName source.1.name) (some source.2)

/-- What `refreshPreviewVdb` deploys then. -/
def mainPreviewVdb (active : ActiveSources) : VDBMetaData :=
  { name := previewVdb
    imports := active.sources.map fun source => (sourceVdb source).name
    preview := true }

def deployed (active : ActiveSources) : List VDBMetaData :=
  active.mainPreviewVdb :: active.sources.map sourceVdb

theorem eq_of_name {active : ActiveSources} {source other : TeiidDataSource × String}
    (hsource : source ∈ active.sources) (hother : other ∈ active.sources)
    (hname : other.1.name = source.1.name) : other = source :=
  List.inj_on_of_nodup_map active.distinct hother hsource hname

end ActiveSources

/-! ## Loading -/

/-- Where the rows of a table come from. -/
inductive TableData (ForeignTable : Type)
  /-- a source, through a mapping of the model -/
  | foreign (sourceMappings : List (String × String × String)) (table : ForeignTable)
  /-- the VDB itself -/
  | system (vdb : VDBMetaData) (name : String)
  deriving DecidableEq, Repr

/-- What Teiid reads in DDL texts. -/
structure DdlLoader (ForeignTable Query : Type) where
  createView : Statement → Option (String × Query)
  foreignTables : String → List (String × ForeignTable)
  systemTables : List TableRecord
  system : ∀ table ∈ systemTables, table.system = true

abbrev TableCatalogue (ForeignTable Query : Type) :=
  Catalogue TableRecord (TableData ForeignTable) Query

/-- A table of a source. -/
def sourceTable (schema name : String) : TableRecord :=
  { schema := schema, physical := true, system := false, name := name }

namespace DdlLoader

variable {ForeignTable Query : Type} (loader : DdlLoader ForeignTable Query)

/-- The views the statements create. -/
def viewTables (virtualizationName : String) (statements : List Statement) :
    TableCatalogue ForeignTable Query :=
  statements.filterMap fun statement => (loader.createView statement).map fun view =>
    (TeiidVdb.ownTable virtualizationName view.1, .derived view.2)

def physicalTables (schema : String) (sourceMappings : List (String × String × String))
    (tables : List (String × ForeignTable)) : TableCatalogue ForeignTable Query :=
  tables.map fun table => (sourceTable schema table.1, .stored (.foreign sourceMappings table.2))

def modelTables (model : ModelMetaData) : TableCatalogue ForeignTable Query :=
  if model.physical then
    physicalTables model.name model.sourceMappings (loader.foreignTables model.ddl)
  else loader.viewTables model.name ((split model.ddl).getD [])

/-- The tables an import brings in, when imports are followed so many levels deep. -/
def importedTables (deployed : List VDBMetaData) : Nat → String → TableCatalogue ForeignTable Query
  | 0, _ => []
  | depth + 1, name =>
      match deployed.find? fun vdb => decide (vdb.name = name) with
      | none => []
      | some vdb =>
          vdb.models.flatMap loader.modelTables ++
            vdb.imports.flatMap (importedTables deployed depth)

def ownSystemTables (vdb : VDBMetaData) : TableCatalogue ForeignTable Query :=
  loader.systemTables.map fun table => (table, .stored (.system vdb table.name))

/-- The tables of a VDB.  The imports of a preview VDB go two levels deep: to the main preview VDB, and
from there to the VDBs of the sources. -/
def load (deployed : List VDBMetaData) (vdb : VDBMetaData) : TableCatalogue ForeignTable Query :=
  vdb.models.flatMap loader.modelTables ++ vdb.imports.flatMap (loader.importedTables deployed 2) ++
    loader.ownSystemTables vdb

/-! ### Names -/

variable {loader}

theorem mem_names_viewTables {virtualizationName : String} {statements : List Statement}
    {table : TableRecord} :
    table ∈ (loader.viewTables virtualizationName statements).names ↔
      ∃ name query, table = TeiidVdb.ownTable virtualizationName name ∧
        ∃ statement ∈ statements, loader.createView statement = some (name, query) := by
  unfold Catalogue.names viewTables
  rw [List.mem_map]
  constructor
  · rintro ⟨entry, hentry, rfl⟩
    obtain ⟨statement, hstatement, hcreate⟩ := List.mem_filterMap.mp hentry
    obtain ⟨⟨name, query⟩, hview, rfl⟩ := Option.map_eq_some_iff.mp hcreate
    exact ⟨name, query, rfl, statement, hstatement, hview⟩
  · rintro ⟨name, query, rfl, statement, hstatement, hview⟩
    refine ⟨(TeiidVdb.ownTable virtualizationName name, .derived query),
      List.mem_filterMap.mpr ⟨statement, hstatement, ?_⟩, rfl⟩
    rw [hview]
    rfl

theorem mem_names_physicalTables {schema : String}
    {sourceMappings : List (String × String × String)} {tables : List (String × ForeignTable)}
    {table : TableRecord} :
    table ∈ Catalogue.names
        (physicalTables schema sourceMappings tables : TableCatalogue ForeignTable Query) ↔
      ∃ name ∈ tables.map (·.1), table = sourceTable schema name := by
  unfold Catalogue.names physicalTables
  rw [List.map_map, List.mem_map]
  constructor
  · rintro ⟨entry, hentry, rfl⟩
    exact ⟨entry.1, List.mem_map_of_mem hentry, rfl⟩
  · rintro ⟨name, hname, rfl⟩
    obtain ⟨entry, hentry, rfl⟩ := List.mem_map.mp hname
    exact ⟨entry, hentry, rfl⟩

theorem mem_names_ownSystemTables {vdb : VDBMetaData} {table : TableRecord} :
    table ∈ (loader.ownSystemTables vdb).names ↔ table ∈ loader.systemTables := by
  unfold Catalogue.names ownSystemTables
  rw [List.map_map, List.mem_map]
  constructor
  · rintro ⟨entry, hentry, rfl⟩
    exact hentry
  · intro h
    exact ⟨table, h, rfl⟩

/-! ### The VDB of a virtualization -/

/-- The tables of a source, as its VDB has them. -/
def tablesOf (loader : DdlLoader ForeignTable Query) (source : TeiidDataSource × String) :
    TableCatalogue ForeignTable Query :=
  physicalTables source.1.name [(source.1.name, source.1.translatorName, source.1.name)]
    (loader.foreignTables source.2)

theorem modelTables_service {virtualizationName allViewDdl : String} {statements : List Statement}
    (h : split allViewDdl = some statements) :
    loader.modelTables (serviceModel virtualizationName allViewDdl) =
      loader.viewTables virtualizationName statements := by
  unfold modelTables serviceModel
  simp [h]

/-- The main preview VDB brings in the tables of all sources. -/
theorem importedTables_mainPreview (active : ActiveSources) :
    loader.importedTables active.deployed 2 previewVdb = active.sources.flatMap loader.tablesOf := by
  have hmain : (active.deployed.find? fun vdb => decide (vdb.name = previewVdb)) =
      some active.mainPreviewVdb := by
    unfold ActiveSources.deployed
    rw [List.find?_cons_of_pos]
    exact decide_eq_true rfl
  -- each source VDB is found under its own name: the sources have distinct names
  have hsource : ∀ source ∈ active.sources,
      loader.importedTables active.deployed 1 (ActiveSources.sourceVdb source).name =
        loader.tablesOf source := by
    intro source hmem
    have hne : active.mainPreviewVdb.name ≠ (ActiveSources.sourceVdb source).name :=
      Ne.symm (PreviewServer.connectionName_ne_previewVdb source.1.name)
    have hfind : (active.deployed.find? fun vdb =>
        decide (vdb.name = (ActiveSources.sourceVdb source).name)) =
          some (ActiveSources.sourceVdb source) := by
      unfold ActiveSources.deployed
      rw [List.find?_cons_of_neg (by simpa using hne), List.find?_map]
      have hsame : ((fun vdb : VDBMetaData =>
            decide (vdb.name = (ActiveSources.sourceVdb source).name)) ∘ ActiveSources.sourceVdb) =
          fun other => decide (other.1.name = source.1.name) := by
        funext other
        refine decide_eq_decide.mpr ⟨fun h => ?_, fun h => ?_⟩
        · exact String.append_left_inj _ |>.mp h
        · exact congrArg getWorkspaceSourceVdbName h
      rw [hsame, find?_of_mem active.distinct hmem]
      rfl
    unfold importedTables
    rw [hfind]
    simp [ActiveSources.sourceVdb, generateSourceVdb, modelTables, tablesOf]
  unfold importedTables
  rw [hmain]
  show List.flatMap _ [] ++ (active.sources.map _).flatMap _ = _
  rw [List.flatMap_nil, List.nil_append, List.flatMap_map]
  exact List.flatMap_congr hsource

/-! ### The names in a loaded VDB -/

theorem eq_sourceTable {source : TeiidDataSource × String} {table : TableRecord}
    (h : table ∈ (loader.tablesOf source).names) : table = sourceTable source.1.name table.name := by
  obtain ⟨name, -, rfl⟩ := mem_names_physicalTables.mp h
  rfl

end DdlLoader

end TeiidSyndesis.Server
