/-
# TeiidSyndesis.Server.PublishedMeaning — publishing preserves what the views mean.

A publish is accepted on the strength of the preview VDB, and what is published is another VDB: its view
model is put together differently, and its source models have the tables only that complete views read
directly.  Here both are loaded, and each view means the same in either.  The exception is a view over
system tables, which tell of the VDB they are in.

Main results:
* `loadedFrom_ofCatalogue` — either VDB is loaded from a catalogue of its tables;
* `mem_names_previewTables`, `names_serviceTables` — what the two catalogues have;
* `definition_ownTable`, `definition_sourceTable` — what they say of the same table;
* `keeps_previewTables` — so the published catalogue keeps all that the views use;
* `published_as_previewed` — and a publish that is accepted publishes what was previewed.
-/
import TeiidSyndesis.Server.PublishRequests
import TeiidSyndesis.Server.ViewStatements

namespace TeiidSyndesis.Server

open TeiidSyndesis.Library TeiidSyndesis.Model TeiidSyndesis.Repository

/-! ## The two catalogues -/

section

variable {ForeignTable Query Ref Value : Type} {teiid : Teiid}
  {loader : DdlLoader ForeignTable Query}
  {language : QueryLanguage (TableData ForeignTable) Query Ref Value}
  {resolver : Resolver Ref TableRecord} {active : ActiveSources} {finder : SchemaFinder}
  {dvName : String} {vdb : TeiidVdb} {views : List ViewDefinition} {statements : List Statement}

/-- `getDDLString` writes the tables of a schema whose names match the pattern, and these are what
the text loads. -/
def PrintsTables (teiid : Teiid) (loader : DdlLoader ForeignTable Query) (active : ActiveSources) :
    Prop :=
  ∀ source ∈ active.sources, ∀ pattern,
    loader.foreignTables (teiid.getDDLString source.1.name pattern) =
      (loader.foreignTables source.2).filter fun table => decide (table.1 ∈ alternatives pattern)

/-- The data sources of the active VDBs are still registered. -/
def FindsSources (finder : SchemaFinder) (active : ActiveSources) : Prop :=
  ∀ source ∈ active.sources, finder.findTeiidDatasource source.1.name = some source.1

/-- The tables of a loaded VDB, and the objects they read as their references were resolved. -/
structure LoadedFrom (language : QueryLanguage (TableData ForeignTable) Query Ref Value)
    (resolver : Resolver Ref TableRecord) (catalogue : TableCatalogue ForeignTable Query)
    (dvName : String) (vdb : TeiidVdb) : Prop where
  tables : ∀ name, name ∈ vdb.tables ↔ TeiidVdb.ownTable dvName name ∈ catalogue.names
  dependsOn : ∀ table used, vdb.DependsOn table used ↔ catalogue.Uses language resolver table used

/-- Tables are told apart by their objects. -/
theorem object_injective : Function.Injective TableRecord.object := by
  intro table other h
  cases table
  cases other
  simpa [TableRecord.object] using h

/-- A loaded VDB that reports the tables its views read, and nothing else. -/
def TeiidVdb.ofCatalogue (language : QueryLanguage (TableData ForeignTable) Query Ref Value)
    (resolver : Resolver Ref TableRecord) (catalogue : TableCatalogue ForeignTable Query)
    (dvName : String) : TeiidVdb where
  tables := (catalogue.names.filter fun table => decide (table = ownTable dvName table.name)).map (·.name)
  getIncomingObjects table :=
    match catalogue.definition table with
    | some (.derived query) =>
        (language.references query).filterMap fun ref =>
          (resolver.resolve catalogue.names ref).map TableRecord.object
    | _ => []

/-- A VDB that is made from a catalogue is loaded from it. -/
theorem loadedFrom_ofCatalogue (catalogue : TableCatalogue ForeignTable Query) :
    LoadedFrom language resolver catalogue dvName
      (TeiidVdb.ofCatalogue language resolver catalogue dvName) where
  tables name := by
    unfold TeiidVdb.ofCatalogue
    rw [List.mem_map]
    constructor
    · rintro ⟨table, htable, rfl⟩
      obtain ⟨hmem, hown⟩ := List.mem_filter.mp htable
      rw [← of_decide_eq_true hown]
      exact hmem
    · intro hmem
      exact ⟨_, List.mem_filter.mpr ⟨hmem, decide_eq_true rfl⟩, rfl⟩
  -- a view depends on what the names in its query resolve to
  dependsOn table used := by
    unfold TeiidVdb.DependsOn TeiidVdb.ofCatalogue Catalogue.Uses
    constructor
    · intro hobject
      dsimp only at hobject
      split at hobject
      · rename_i query hdefinition
        obtain ⟨ref, href, hresolve⟩ := List.mem_filterMap.mp hobject
        obtain ⟨found, hfound, hsame⟩ := Option.map_eq_some_iff.mp hresolve
        obtain rfl : found = used := object_injective hsame
        exact ⟨query, hdefinition, ref, href, hfound⟩
      · cases hobject
    · rintro ⟨query, hdefinition, ref, href, hresolve⟩
      dsimp only
      rw [hdefinition]
      refine List.mem_filterMap.mpr ⟨ref, href, ?_⟩
      rw [hresolve]
      rfl

/-- The tables of the preview VDB. -/
def previewTables (loader : DdlLoader ForeignTable Query) (active : ActiveSources) (dvName : String)
    (statements : List Statement) (preview : VDBMetaData) : TableCatalogue ForeignTable Query :=
  loader.viewTables dvName statements ++ active.sources.flatMap loader.tablesOf ++
    loader.ownSystemTables preview

/-- The tables of the service VDB, with source models for the tables of a map. -/
def serviceTables (teiid : Teiid) (loader : DdlLoader ForeignTable Query) (finder : SchemaFinder)
    (dvName : String) (statements : List Statement) (schemas : SchemaTableMap)
    (service : VDBMetaData) : TableCatalogue ForeignTable Query :=
  loader.viewTables dvName statements ++
      schemas.flatMap (fun entry => loader.modelTables (sourceModel teiid finder entry)) ++
    loader.ownSystemTables service

/-- How the preview VDB is loaded. -/
theorem load_preview {vdbName allViewDdl : String} (h : split allViewDdl = some statements) :
    loader.load active.deployed
        { name := vdbName
          models := [serviceModel dvName allViewDdl]
          imports := [previewVdb]
          preview := true } =
      previewTables loader active dvName statements
        { name := vdbName
          models := [serviceModel dvName allViewDdl]
          imports := [previewVdb]
          preview := true } := by
  unfold DdlLoader.load previewTables
  simp only [List.flatMap_cons, List.flatMap_nil, List.append_nil,
    DdlLoader.modelTables_service h, DdlLoader.importedTables_mainPreview]

/-- How the published VDB is loaded. -/
theorem load_service {allViewDdl : String} (h : split allViewDdl = some statements)
    (schemas : SchemaTableMap) :
    loader.load active.deployed
        { name := dvName
          models := serviceModel dvName allViewDdl :: schemas.map (sourceModel teiid finder) } =
      serviceTables teiid loader finder dvName statements schemas
        { name := dvName
          models := serviceModel dvName allViewDdl :: schemas.map (sourceModel teiid finder) } := by
  unfold DdlLoader.load serviceTables
  simp only [List.flatMap_cons, List.flatMap_nil, List.append_nil, List.flatMap_map,
    DdlLoader.modelTables_service h]

/-- A source model has the tables of its source that are listed. -/
theorem modelTables_source (hprints : PrintsTables teiid loader active)
    (hfinder : FindsSources finder active)
    {source : TeiidDataSource × String} (hsource : source ∈ active.sources)
    {entry : String × List String} (hname : entry.1 = source.1.name) (htables : entry.2 ≠ []) :
    loader.modelTables (sourceModel teiid finder entry) =
      (loader.tablesOf source).filter fun table => decide (table.1.name ∈ entry.2) := by
  have hfind : finder.findTeiidDatasource entry.1 = some source.1 := by
    rw [hname]
    exact hfinder source hsource
  have halternatives : alternatives ("|".intercalate (entry.2.map patternQuote)) = entry.2 :=
    alternatives_tablePattern htables
  unfold DdlLoader.modelTables sourceModel
  simp only [hfind, if_pos]
  rw [hname, hprints source hsource, halternatives]
  unfold DdlLoader.tablesOf DdlLoader.physicalTables
  rw [List.filter_map]
  rfl

/-! ### What the preview VDB has -/

/-- The preview VDB has the views, the tables of every active source, and the system tables. -/
theorem mem_names_previewTables {preview : VDBMetaData} {table : TableRecord} :
    table ∈ (previewTables loader active dvName statements preview).names ↔
      table ∈ (loader.viewTables dvName statements).names ∨
        (∃ source ∈ active.sources, table ∈ (loader.tablesOf source).names) ∨
          table ∈ loader.systemTables := by
  unfold previewTables
  rw [Catalogue.mem_names_append, Catalogue.mem_names_append, Catalogue.mem_names_flatMap,
    DdlLoader.mem_names_ownSystemTables, or_assoc]

/-- A table of the virtualization is one that a complete view creates. -/
theorem ownTable_mem_iff (hof : StatementsOf views statements) {preview : VDBMetaData}
    {name : String} :
    TeiidVdb.ownTable dvName name ∈ (previewTables loader active dvName statements preview).names ↔
      ∃ viewDef ∈ completeViews views, ∃ query, Creates loader viewDef name query := by
  rw [mem_names_previewTables]
  constructor
  · rintro (h | ⟨source, -, h⟩ | h)
    · obtain ⟨created, query, heq, hcreates⟩ := DdlLoader.mem_names_viewTables.mp h
      obtain rfl : name = created := congrArg TableRecord.name heq
      obtain ⟨viewDef, hview, hcreate⟩ := hof.creates_iff.mp hcreates
      exact ⟨viewDef, hview, query, hcreate⟩
    · exact absurd (congrArg TableRecord.physical (DdlLoader.eq_sourceTable h)) Bool.false_ne_true
    · exact absurd (loader.system _ h) Bool.false_ne_true
  · rintro ⟨viewDef, hview, query, hcreate⟩
    exact .inl (DdlLoader.mem_names_viewTables.mpr
      ⟨name, query, rfl, hof.creates_iff.mpr ⟨viewDef, hview, hcreate⟩⟩)

/-- Only tables of the virtualization are views. -/
theorem eq_ownTable_of_derived {preview : VDBMetaData} {table : TableRecord} {query : Query}
    (h : (previewTables loader active dvName statements preview).definition table =
      some (.derived query)) : table = TeiidVdb.ownTable dvName table.name := by
  have hmem := Catalogue.mem_of_definition h
  unfold previewTables at hmem
  rw [List.mem_append, List.mem_append] at hmem
  rcases hmem with (hmem | hmem) | hmem
  · obtain ⟨name, _, rfl, _⟩ := DdlLoader.mem_names_viewTables.mp (List.mem_map_of_mem hmem)
    rfl
  · obtain ⟨source, -, hmem⟩ := List.mem_flatMap.mp hmem
    obtain ⟨entry, -, heq⟩ := List.mem_map.mp hmem
    cases heq
  · obtain ⟨entry, -, heq⟩ := List.mem_map.mp hmem
    cases heq

/-- The table a view creates is the one that is found under its name. -/
theorem findTable_of_creates (hwell : WellFormed teiid loader views)
    (hof : StatementsOf views statements) {preview : VDBMetaData}
    (hloaded : LoadedFrom language resolver
      (previewTables loader active dvName statements preview) dvName vdb)
    {viewDef : ViewDefinition} (hview : viewDef ∈ completeViews views) {name : String} {query : Query}
    (hcreates : Creates loader viewDef name query) :
    vdb.findTable teiid viewDef.name = some name := by
  obtain ⟨name', query', hcreates', hfound⟩ := hwell.created viewDef hview
  obtain ⟨rfl, rfl⟩ := hcreates.unique hcreates'
  have hmem : name ∈ vdb.tables :=
    (hloaded.tables name).mpr ((ownTable_mem_iff hof).mpr ⟨viewDef, hview, query, hcreates⟩)
  unfold TeiidVdb.findTable
  cases hfind : vdb.tables.find? fun table => teiid.equalsIgnoreCase table viewDef.name with
  | none =>
      exact absurd ((hfound viewDef hview).mpr rfl) (List.find?_eq_none.mp hfind name hmem)
  | some other =>
      -- what is found is created by a view whose name it bears, so by this one
      obtain ⟨view, hother, query', hcreates'⟩ :=
        (ownTable_mem_iff hof).mp ((hloaded.tables other).mp (List.mem_of_find?_eq_some hfind))
      obtain ⟨_, _, hcreated, hnames⟩ := hwell.created view hother
      obtain ⟨rfl, rfl⟩ := hcreates'.unique hcreated
      have hsame : teiid.equalsIgnoreCase other viewDef.name = true := by
        simpa using List.find?_some hfind
      obtain rfl := (hnames viewDef hview).mp hsame
      exact congrArg some (hcreates'.unique hcreates).1

/-! ### What the source models are for -/

/-- The tables the loop of `createServiceVdb` has collected are the source tables that some view of the
virtualization reads. -/
theorem hasTable_iff_uses (hwell : WellFormed teiid loader views)
    (hof : StatementsOf views statements) {preview : VDBMetaData}
    (hloaded : LoadedFrom language resolver
      (previewTables loader active dvName statements preview) dvName vdb) {schema table : String} :
    HasTable ((incomingObjects (vdb.getTable teiid dvName) views).foldl addIncoming []) schema table ↔
      ∃ name, (previewTables loader active dvName statements preview).Uses language resolver
        (TeiidVdb.ownTable dvName name) (sourceTable schema table) := by
  rw [(foldl_addIncoming _ grouped_nil).2 schema table]
  have hnil : ¬HasTable [] schema table := by
    rintro ⟨_, hmem, _⟩
    cases hmem
  rw [or_iff_right hnil, show IncomingObject.table schema true false table =
    (sourceTable schema table).object from rfl, TeiidVdb.mem_incomingObjects]
  constructor
  · rintro ⟨viewDef, _, _, name, _, hobject⟩
    exact ⟨name, (hloaded.dependsOn _ _).mp hobject⟩
  · rintro ⟨name, huses⟩
    obtain ⟨query, hdefinition, _⟩ := id huses
    obtain ⟨viewDef, hview, query', hcreates⟩ :=
      (ownTable_mem_iff hof).mp (Catalogue.mem_names_of_definition hdefinition)
    obtain ⟨hmem, hcomplete⟩ := mem_completeViews.mp hview
    exact ⟨viewDef, hmem, hcomplete, name, findTable_of_creates hwell hof hloaded hview hcreates,
      (hloaded.dependsOn _ _).mpr huses⟩

/-- The source of a table that some view reads. -/
theorem source_of_uses {preview : VDBMetaData} {key : TableRecord} {schema table : String}
    (h : (previewTables loader active dvName statements preview).Uses language resolver key
      (sourceTable schema table)) :
    ∃ source ∈ active.sources, source.1.name = schema ∧
      sourceTable schema table ∈ (loader.tablesOf source).names := by
  obtain ⟨query, -, ref, -, hresolve⟩ := h
  rcases mem_names_previewTables.mp (resolver.mem hresolve) with hmem | ⟨source, hsource, hmem⟩ | hmem
  · obtain ⟨name, _, heq, _⟩ := DdlLoader.mem_names_viewTables.mp hmem
    exact absurd (congrArg TableRecord.physical heq).symm Bool.false_ne_true
  · exact ⟨source, hsource,
      (congrArg TableRecord.schema (DdlLoader.eq_sourceTable hmem)).symm, hmem⟩
  · exact absurd (loader.system _ hmem) Bool.false_ne_true

/-! ## What is kept -/

/-- No table the view is built on tells of the VDB. -/
def SystemFree (language : QueryLanguage (TableData ForeignTable) Query Ref Value)
    (resolver : Resolver Ref TableRecord) (catalogue : TableCatalogue ForeignTable Query)
    (table : TableRecord) : Prop :=
  ∀ used, catalogue.Reaches language resolver table used → used.system = false

/-- A list of other tables that a loaded VDB does not lead out of. -/
theorem systemFree_of_closed {catalogue : TableCatalogue ForeignTable Query}
    (hloaded : LoadedFrom language resolver catalogue dvName vdb) {tables : List TableRecord}
    (hclosed : ∀ table ∈ tables, table.system = false ∧
      ∀ object ∈ vdb.getIncomingObjects table, ∃ used ∈ tables, used.object = object)
    {table : TableRecord} (htable : table ∈ tables) :
    SystemFree language resolver catalogue table := by
  intro used hreach
  have hmem : used ∈ tables := by
    induction hreach with
    | refl => exact htable
    | tail _ huses ih =>
        obtain ⟨found, hfound, hobject⟩ := (hclosed _ ih).2 _ ((hloaded.dependsOn _ _).mpr huses)
        exact object_injective hobject ▸ hfound
  exact (hclosed used hmem).1

/-- The views over other than system tables, and the source tables they read. -/
def Kept (language : QueryLanguage (TableData ForeignTable) Query Ref Value)
    (resolver : Resolver Ref TableRecord) (catalogue : TableCatalogue ForeignTable Query)
    (dvName : String) (table : TableRecord) : Prop :=
  (table ∈ catalogue.names ∧ (∃ name, table = TeiidVdb.ownTable dvName name) ∧
      SystemFree language resolver catalogue table) ∨
    ∃ schema name, table = sourceTable schema name ∧
      ∃ own, catalogue.Uses language resolver (TeiidVdb.ownTable dvName own) table

/-- What a kept view uses is kept: another view of its own, or a table of a source. -/
theorem kept_of_uses {preview : VDBMetaData} {name : String} {used : TableRecord}
    (hfree : SystemFree language resolver
      (previewTables loader active dvName statements preview) (TeiidVdb.ownTable dvName name))
    (huses : (previewTables loader active dvName statements preview).Uses language resolver
      (TeiidVdb.ownTable dvName name) used) :
    Kept language resolver (previewTables loader active dvName statements preview) dvName used := by
  obtain ⟨query, -, ref, -, hresolve⟩ := id huses
  have hmem := resolver.mem hresolve
  rcases mem_names_previewTables.mp hmem with hown | ⟨source, -, hsource⟩ | hsystem
  · obtain ⟨name', _, heq, _⟩ := DdlLoader.mem_names_viewTables.mp hown
    exact .inl ⟨hmem, ⟨name', heq⟩, fun further hreach => hfree further (.head huses hreach)⟩
  · exact .inr ⟨_, _, DdlLoader.eq_sourceTable hsource, name, huses⟩
  · have hsystemUsed := hfree used (.single huses)
    rw [loader.system used hsystem] at hsystemUsed
    cases hsystemUsed

/-- The map lists, by source, the source tables that views of the virtualization read. -/
structure Collected (language : QueryLanguage (TableData ForeignTable) Query Ref Value)
    (resolver : Resolver Ref TableRecord) (catalogue : TableCatalogue ForeignTable Query)
    (dvName : String) (schemas : SchemaTableMap) : Prop where
  grouped : Grouped schemas
  hasTable : ∀ schema table, HasTable schemas schema table ↔
    ∃ name, catalogue.Uses language resolver (TeiidVdb.ownTable dvName name) (sourceTable schema table)

/-- What `createServiceVdb` collects are the tables the views read directly. -/
theorem collected_incomingObjects (hwell : WellFormed teiid loader views)
    (hof : StatementsOf views statements) {preview : VDBMetaData}
    (hloaded : LoadedFrom language resolver
      (previewTables loader active dvName statements preview) dvName vdb) :
    Collected language resolver (previewTables loader active dvName statements preview) dvName
      ((incomingObjects (vdb.getTable teiid dvName) views).foldl addIncoming []) where
  grouped := (foldl_addIncoming _ grouped_nil).1
  hasTable _ _ := hasTable_iff_uses hwell hof hloaded

variable {schemas : SchemaTableMap} {preview service : VDBMetaData}

/-- Each source model has the listed tables of one source. -/
theorem source_of_entry (hprints : PrintsTables teiid loader active)
    (hfinder : FindsSources finder active)
    (hcollected : Collected language resolver
      (previewTables loader active dvName statements preview) dvName schemas)
    {entry : String × List String} (hentry : entry ∈ schemas) :
    ∃ source ∈ active.sources, source.1.name = entry.1 ∧
      loader.modelTables (sourceModel teiid finder entry) =
        (loader.tablesOf source).filter fun table => decide (table.1.name ∈ entry.2) := by
  obtain ⟨-, hne⟩ := hcollected.grouped.tables entry hentry
  obtain ⟨table, htable⟩ := List.exists_mem_of_ne_nil _ hne
  obtain ⟨name, huses⟩ := (hcollected.hasTable entry.1 table).mp ⟨entry, hentry, rfl, htable⟩
  obtain ⟨source, hsource, hname, -⟩ := source_of_uses huses
  exact ⟨source, hsource, hname, modelTables_source hprints hfinder hsource hname.symm hne⟩

/-- The published VDB has nothing that the preview had not. -/
theorem names_serviceTables (hprints : PrintsTables teiid loader active)
    (hfinder : FindsSources finder active)
    (hcollected : Collected language resolver
      (previewTables loader active dvName statements preview) dvName schemas) :
    ∀ table ∈ (serviceTables teiid loader finder dvName statements schemas service).names,
      table ∈ (previewTables loader active dvName statements preview).names := by
  intro table hmem
  unfold serviceTables at hmem
  rw [Catalogue.mem_names_append, Catalogue.mem_names_append, Catalogue.mem_names_flatMap,
    DdlLoader.mem_names_ownSystemTables, or_assoc] at hmem
  rw [mem_names_previewTables]
  rcases hmem with hview | ⟨entry, hentry, hmem⟩ | hsystem
  · exact .inl hview
  · obtain ⟨source, hsource, -, hmodel⟩ := source_of_entry hprints hfinder hcollected hentry
    rw [hmodel] at hmem
    exact .inr (.inl ⟨source, hsource, (List.filter_sublist.map _).subset hmem⟩)
  · exact .inr (.inr hsystem)

/-- A view is defined by the same text in both. -/
theorem definition_ownTable {name : String}
    (h : TeiidVdb.ownTable dvName name ∈
      (previewTables loader active dvName statements preview).names) :
    (serviceTables teiid loader finder dvName statements schemas service).definition
        (TeiidVdb.ownTable dvName name) =
      (previewTables loader active dvName statements preview).definition
        (TeiidVdb.ownTable dvName name) := by
  have hview : TeiidVdb.ownTable dvName name ∈ (loader.viewTables dvName statements).names := by
    rcases mem_names_previewTables.mp h with hview | ⟨source, -, h⟩ | h
    · exact hview
    · exact absurd (congrArg TableRecord.physical (DdlLoader.eq_sourceTable h)) Bool.false_ne_true
    · exact absurd (loader.system _ h) Bool.false_ne_true
  unfold serviceTables previewTables
  simp only [List.append_assoc, Catalogue.definition_append]
  cases hdefinition :
      (loader.viewTables dvName statements).definition (TeiidVdb.ownTable dvName name) with
  | none => exact absurd hview (Catalogue.definition_eq_none_iff.mp hdefinition)
  | some object => rfl

/-- A source table that some view reads is looked up in its source, in either VDB. -/
theorem definition_sourceTable (hprints : PrintsTables teiid loader active)
    (hfinder : FindsSources finder active)
    (hcollected : Collected language resolver
      (previewTables loader active dvName statements preview) dvName schemas)
    {schema table name : String}
    (huses : (previewTables loader active dvName statements preview).Uses language resolver
      (TeiidVdb.ownTable dvName name) (sourceTable schema table)) :
    (serviceTables teiid loader finder dvName statements schemas service).definition
        (sourceTable schema table) =
      (previewTables loader active dvName statements preview).definition
        (sourceTable schema table) := by
  obtain ⟨source, hsource, rfl, hmem⟩ := source_of_uses huses
  obtain ⟨entry, hentry, hname, htable⟩ :=
    (hcollected.hasTable source.1.name table).mpr ⟨name, huses⟩
  -- a table of a source is no view
  have hview : (loader.viewTables dvName statements).definition
      (sourceTable source.1.name table) = none := by
    rw [Catalogue.definition_eq_none_iff]
    intro hmem
    obtain ⟨own, _, heq, _⟩ := DdlLoader.mem_names_viewTables.mp hmem
    exact absurd (congrArg TableRecord.physical heq).symm Bool.false_ne_true
  -- in the preview it is defined by its source
  have hwhole : Catalogue.definition (active.sources.flatMap loader.tablesOf)
        (sourceTable source.1.name table) =
      (loader.tablesOf source).definition (sourceTable source.1.name table) := by
    refine Catalogue.definition_flatMap hsource fun other hother hkey => ?_
    exact ActiveSources.eq_of_name hsource hother
      (congrArg TableRecord.schema (DdlLoader.eq_sourceTable hkey)).symm
  -- in the published VDB by the model of the same source, cut down to what was collected
  have hpart : Catalogue.definition
        (schemas.flatMap fun entry => loader.modelTables (sourceModel teiid finder entry))
        (sourceTable source.1.name table) =
      (loader.tablesOf source).definition (sourceTable source.1.name table) := by
    rw [Catalogue.definition_flatMap hentry]
    · obtain ⟨other, hother, hotherName, hmodel⟩ :=
        source_of_entry hprints hfinder hcollected hentry
      obtain rfl := ActiveSources.eq_of_name hsource hother (hotherName.trans hname)
      rw [hmodel]
      exact Catalogue.definition_filter (p := fun key : TableRecord => decide (key.name ∈ entry.2))
        (decide_eq_true htable)
    · intro other hother hkey
      obtain ⟨otherSource, -, hotherName, hmodel⟩ :=
        source_of_entry hprints hfinder hcollected hother
      rw [hmodel] at hkey
      have hschema : source.1.name = otherSource.1.name :=
        congrArg TableRecord.schema
          (DdlLoader.eq_sourceTable ((List.filter_sublist.map _).subset hkey))
      exact List.inj_on_of_nodup_map hcollected.grouped.names hother hentry
        (by rw [← hotherName, ← hschema, hname])
  unfold serviceTables previewTables
  simp only [List.append_assoc, Catalogue.definition_append, hview, Option.none_or, hwhole, hpart]
  cases hdefinition : (loader.tablesOf source).definition (sourceTable source.1.name table) with
  | none => exact absurd hmem (Catalogue.definition_eq_none_iff.mp hdefinition)
  | some object => rfl

/-- What the service VDB keeps of the preview VDB. -/
theorem keeps_previewTables (hprints : PrintsTables teiid loader active)
    (hfinder : FindsSources finder active)
    (hcollected : Collected language resolver
      (previewTables loader active dvName statements preview) dvName schemas)
    (hresolved : (previewTables loader active dvName statements preview).Resolved language resolver) :
    Catalogue.Keeps language resolver (previewTables loader active dvName statements preview)
      (serviceTables teiid loader finder dvName statements schemas service)
      (Kept language resolver (previewTables loader active dvName statements preview) dvName) where
  names := names_serviceTables hprints hfinder hcollected
  definition key hkey := by
    rcases hkey with ⟨hmem, ⟨name, rfl⟩, -⟩ | ⟨schema, name, rfl, own, huses⟩
    · exact definition_ownTable hmem
    · exact definition_sourceTable hprints hfinder hcollected huses
  used key query hkey hdefinition ref href := by
    obtain ⟨used, hused⟩ := Option.isSome_iff_exists.mp (hresolved key query hdefinition ref href)
    have huses : (previewTables loader active dvName statements preview).Uses language resolver key
        used := ⟨query, hdefinition, ref, href, hused⟩
    have hown := eq_ownTable_of_derived hdefinition
    refine ⟨used, hused, ?_⟩
    rcases hkey with ⟨-, -, hfree⟩ | ⟨schema, name, rfl, -⟩
    · rw [hown] at hfree huses
      exact kept_of_uses hfree huses
    · -- a source table has no definition of its own
      exact absurd (congrArg TableRecord.physical hown).symm Bool.false_ne_true

/-! ## Publishing -/

/-- What `updatePreviewVdb` returns for a virtualization with these views: the VDB that Teiid has loaded,
which has a validity error unless every reference of a view was resolved. -/
structure ReturnsPreview (loader : DdlLoader ForeignTable Query)
    (language : QueryLanguage (TableData ForeignTable) Query Ref Value)
    (resolver : Resolver Ref TableRecord) (active : ActiveSources) (dvName : String)
    (views : List ViewDefinition) (preview : VDBMetaData) (loaded : PreviewVdb) : Prop where
  generated : createPreviewVdb dvName (getPreviewVdbName dvName) views = .ok preview
  loadedFrom : LoadedFrom language resolver (loader.load active.deployed preview) dvName loaded.vdb
  valid : loaded.validityErrors = [] →
    (loader.load active.deployed preview).Resolved language resolver

/-- A service VDB means what the preview VDB does. -/
theorem denote_service (hprints : PrintsTables teiid loader active)
    (hfinder : FindsSources finder active) (hwell : WellFormed teiid loader views)
    (hparsable : ∀ viewDef ∈ views, viewDef.complete = true → viewDef.parsable = true)
    {loaded : PreviewVdb}
    (hpreview : ReturnsPreview loader language resolver active dvName views preview loaded)
    (hvalid : loaded.validityErrors = [])
    (hservice : createServiceVdb teiid finder dvName (loaded.vdb.getTable teiid dvName) views =
      .ok service)
    {viewDef : ViewDefinition} (hview : viewDef ∈ completeViews views) {name : String} {query : Query}
    (hcreates : Creates loader viewDef name query)
    (hfree : SystemFree language resolver (loader.load active.deployed preview)
      (TeiidVdb.ownTable dvName name)) (depth : Nat) :
    (loader.load active.deployed service).denote language resolver depth
        (TeiidVdb.ownTable dvName name) =
      (loader.load active.deployed preview).denote language resolver depth
        (TeiidVdb.ownTable dvName name) := by
  obtain ⟨statements, hof⟩ := hwell.exists_statements hparsable
  obtain ⟨previewText, hpreviewSplit, rfl⟩ := split_previewDdl hwell hof hpreview.generated
  obtain ⟨serviceText, hserviceSplit, rfl⟩ := split_serviceDdl hwell hof hservice
  have hloaded := hpreview.loadedFrom
  have hresolved := hpreview.valid hvalid
  rw [load_preview hpreviewSplit] at hloaded hresolved hfree
  rw [load_preview hpreviewSplit, load_service hserviceSplit]
  -- the service VDB keeps every table the view uses, so unfolding finds the same
  refine (keeps_previewTables hprints hfinder (collected_incomingObjects hwell hof hloaded)
    hresolved).denote depth (.inl ⟨?_, ⟨name, rfl⟩, hfree⟩)
  exact (ownTable_mem_iff hof).mpr ⟨viewDef, hview, query, hcreates⟩

/-- Views that are not built on each other in a circle mean something. -/
theorem denote_preview_isSome
    (hparsable : ∀ viewDef ∈ views, viewDef.complete = true → viewDef.parsable = true)
    (hwell : WellFormed teiid loader views) {loaded : PreviewVdb}
    (hpreview : ReturnsPreview loader language resolver active dvName views preview loaded)
    (hvalid : loaded.validityErrors = []) {rank : TableRecord → Nat}
    (hrank : ∀ table used,
      (loader.load active.deployed preview).Uses language resolver table used → rank used < rank table)
    {viewDef : ViewDefinition} (hview : viewDef ∈ completeViews views) {name : String} {query : Query}
    (hcreates : Creates loader viewDef name query) :
    ∃ depth, ((loader.load active.deployed preview).denote language resolver depth
      (TeiidVdb.ownTable dvName name)).isSome := by
  obtain ⟨statements, hof⟩ := hwell.exists_statements hparsable
  obtain ⟨previewText, hsplit, rfl⟩ := split_previewDdl hwell hof hpreview.generated
  refine ⟨_, Catalogue.denote_isSome (hpreview.valid hvalid) hrank _ ?_ (Nat.lt_succ_self _)⟩
  rw [load_preview hsplit]
  exact (ownTable_mem_iff hof).mpr ⟨viewDef, hview, query, hcreates⟩

/-- Whenever a publish hands a VDB to the OpenShift client, each complete view that is not built on
system tables means the same in it as in the preview VDB, however deep its definition is unfolded, and
means something unless views are built on each other in a circle.  The data source of each active source
is still registered then: without it `createServiceVdb` leaves the mapping of the source out. -/
theorem published_as_previewed {store : Store}
    {updatePreviewVdb : String → Except Failure (Option PreviewVdb)}
    {submit : PublishConfiguration → Except Failure OpenShift.BuildStatus}
    {payload : PublishRequestPayload} {answer : PublishAnswer} {config : PublishConfiguration}
    (hprints : PrintsTables teiid loader active) (hfinder : FindsSources finder active)
    (hname : payload.name = some dvName)
    (hwell : WellFormed teiid loader (store.findViewDefinitions dvName))
    (hpreview : ∀ loaded, updatePreviewVdb dvName = .ok (some loaded) →
      ReturnsPreview loader language resolver active dvName (store.findViewDefinitions dvName) preview
        loaded)
    (hpublish : publishVirtualization teiid finder store updatePreviewVdb submit payload = .ok answer)
    (hconfig : answer.config = some config) :
    ∀ viewDef ∈ store.findViewDefinitions dvName, viewDef.complete = true →
      ∃ name query, Creates loader viewDef name query ∧
        (SystemFree language resolver (loader.load active.deployed preview)
            (TeiidVdb.ownTable dvName name) →
          (∀ depth, (loader.load active.deployed config.vdb).denote language resolver depth
              (TeiidVdb.ownTable dvName name) =
            (loader.load active.deployed preview).denote language resolver depth
              (TeiidVdb.ownTable dvName name)) ∧
          ((∃ rank : TableRecord → Nat, ∀ table used,
              (loader.load active.deployed preview).Uses language resolver table used →
                rank used < rank table) →
            ∃ depth, ((loader.load active.deployed config.vdb).denote language resolver depth
              (TeiidVdb.ownTable dvName name)).isSome)) := by
  obtain ⟨_, loaded, hname', hupdate, hvalid, hparsable, hservice⟩ :=
    publishVirtualization_config hpublish hconfig
  obtain rfl := Option.some.inj (hname.symm.trans hname')
  intro viewDef hmem hcomplete
  have hview := mem_completeViews.mpr ⟨hmem, hcomplete⟩
  obtain ⟨name, query, hcreates, -⟩ := hwell.created viewDef hview
  refine ⟨name, query, hcreates, fun hfree => ?_⟩
  -- the same rows at every depth; the rank of the preview then gives a depth with an answer
  have hsame := denote_service hprints hfinder hwell hparsable (hpreview loaded hupdate) hvalid hservice
    hview hcreates hfree
  refine ⟨hsame, ?_⟩
  rintro ⟨rank, hrank⟩
  obtain ⟨depth, hdepth⟩ := denote_preview_isSome hparsable hwell (hpreview loaded hupdate) hvalid hrank
    hview hcreates
  exact ⟨depth, (hsame depth).symm ▸ hdepth⟩

end

/-! ## Two views over a source -/

/-- The words of a statement. -/
def wordsOf : Statement → List Char → List String
  | [], word => [String.ofList word]
  | .char c :: items, word => wordsOf items (word ++ [c])
  | _ :: items, word => String.ofList word :: wordsOf items []

/-- Teiid on statements with a blank between any two words: a foreign table stands for its name. -/
def wordLoader : DdlLoader String (List String) where
  createView statement :=
    match wordsOf statement [] with
    | "CREATE" :: "VIEW" :: name :: "AS" :: query => some (name, query)
    | _ => none
  foreignTables ddl :=
    ((split ddl).getD []).filterMap fun statement =>
      match wordsOf statement [] with
      | "CREATE" :: "FOREIGN" :: "TABLE" :: name :: _ => some (name, name)
      | _ => none
  systemTables := [{ schema := "SYS", physical := false, system := true, name := "Tables" }]
  system := by decide

/-- A table is read as a row that tells where it is; a view of one table has its rows. -/
def wordLanguage : QueryLanguage (TableData String) (List String) String (List String) where
  read
    | .foreign sourceMappings table => sourceMappings.map fun mapping => mapping.1 ++ "." ++ table
    | .system vdb name => [vdb.name ++ "." ++ name]
  references query := (query.dropWhile (· ≠ "FROM")).drop 1
  eval _ values := values.flatten

/-- A name of a query is the name of a table, or that name behind the name of the schema. -/
def wordResolver : Resolver String TableRecord :=
  .unique fun ref table => ref = table.name || ref = table.schema ++ "." ++ table.name

/-- The source the example reads. -/
def ordersSource : TeiidDataSource :=
  { name := "orders", translatorName := "postgresql", syndesisId := "1" }

/-- Its ddl, as the source prints it. -/
def foreignTable (name : String) : String := "CREATE FOREIGN TABLE " ++ name ++ " (id integer);\n"

/-- The schema of the source has two tables. -/
def wordTeiid : Teiid :=
  { Teiid.ascii fun _ => { schema := { name := "parsed" } } with
    getDDLString := fun _ pattern =>
      String.join ((["item", "customer"].filter fun table =>
        decide (table ∈ alternatives pattern)).map foreignTable) }

/-- It is the one active source. -/
def ordersActive : ActiveSources where
  sources := [(ordersSource, foreignTable "item" ++ foreignTable "customer")]
  distinct := by decide

/-- The same source, registered. -/
def ordersFinder : SchemaFinder where
  findSchema _ := .ok none
  findTeiidDatasource name := if name = "orders" then some ordersSource else none

/-- Two views, the second over the first. -/
def ordersStore : Store :=
  { virtualizations := [{ id := 1, name := "dv" }]
    views :=
      [plainView "recent" "CREATE VIEW recent AS SELECT * FROM stock;",
        plainView "stock" "CREATE VIEW stock AS SELECT * FROM orders.item"] }

/-- The preview that was deployed for them. -/
def ordersPreviewVdb : VDBMetaData :=
  { name := "dvvdb"
    models :=
      [serviceModel "dv"
        "CREATE VIEW recent AS SELECT * FROM stock;\n;CREATE VIEW stock AS SELECT * FROM orders.item\n"]
    imports := [previewVdb]
    preview := true }

/-- The preview, loaded from its catalogue. -/
def ordersPreview : PreviewVdb where
  hasLoaded := true
  validityErrors := []
  vdb := .ofCatalogue wordLanguage wordResolver
    (wordLoader.load ordersActive.deployed ordersPreviewVdb) "dv"

/-- A publish whose build is accepted. -/
def ordersSubmit (config : PublishConfiguration) : Except Failure OpenShift.BuildStatus :=
  .ok { openShiftName := OpenShift.getOpenShiftName config.vdb.name, status := .submitted }

theorem printsTables_word : PrintsTables wordTeiid wordLoader ordersActive := by
  intro source hsource pattern
  obtain rfl := List.mem_singleton.mp hsource
  have htables : wordLoader.foreignTables (foreignTable "item" ++ foreignTable "customer") =
      [("item", "item"), ("customer", "customer")] := by decide
  unfold wordTeiid
  dsimp only
  rw [htables]
  by_cases hitem : "item" ∈ alternatives pattern
  · by_cases hcustomer : "customer" ∈ alternatives pattern
    · simp only [hitem, hcustomer, decide_true, List.filter_cons_of_pos, List.filter_nil]
      decide
    · simp only [hitem, hcustomer, List.filter_cons, decide_true, decide_false, if_pos, List.filter_nil]
      decide
  · by_cases hcustomer : "customer" ∈ alternatives pattern
    · simp only [hitem, hcustomer, List.filter_cons, decide_true, decide_false, if_pos, List.filter_nil]
      decide
    · simp only [hitem, hcustomer, List.filter_cons, decide_false, List.filter_nil]
      decide

theorem findsSources_orders : FindsSources ordersFinder ordersActive := by
  intro source hsource
  obtain rfl := List.mem_singleton.mp hsource
  rfl

theorem wellFormed_orders :
    WellFormed wordTeiid wordLoader (ordersStore.findViewDefinitions "dv") where
  created := by
    have hviews : completeViews (ordersStore.findViewDefinitions "dv") = ordersStore.views := by decide
    rw [hviews]
    intro viewDef hview
    simp only [ordersStore, List.mem_cons, List.not_mem_nil, or_false] at hview
    rcases hview with rfl | rfl
    · exact ⟨"recent", ["SELECT", "*", "FROM", "stock"], ⟨_, _, rfl, rfl, by decide⟩, by decide⟩
    · exact ⟨"stock", ["SELECT", "*", "FROM", "orders.item"], ⟨_, _, rfl, rfl, by decide⟩, by decide⟩
  separated := by decide

theorem returnsPreview_orders :
    ReturnsPreview wordLoader wordLanguage wordResolver ordersActive "dv"
      (ordersStore.findViewDefinitions "dv") ordersPreviewVdb ordersPreview where
  generated := by decide
  loadedFrom := loadedFrom_ofCatalogue _
  valid _ := Catalogue.resolved_of_allResolved (by decide)

/-- View `recent` reads its source through `stock`. -/
theorem systemFree_recent :
    SystemFree wordLanguage wordResolver (wordLoader.load ordersActive.deployed ordersPreviewVdb)
      (TeiidVdb.ownTable "dv" "recent") := by
  have hclosed : ∀ table ∈ [TeiidVdb.ownTable "dv" "recent", TeiidVdb.ownTable "dv" "stock",
      sourceTable "orders" "item"], table.system = false ∧
        ∀ object ∈ ordersPreview.vdb.getIncomingObjects table,
          ∃ used ∈ [TeiidVdb.ownTable "dv" "recent", TeiidVdb.ownTable "dv" "stock",
            sourceTable "orders" "item"], used.object = object := by decide
  exact systemFree_of_closed returnsPreview_orders.loadedFrom hclosed (List.mem_cons_self)

theorem published_as_previewed_recent :
    ∃ answer config,
      publishVirtualization wordTeiid ordersFinder ordersStore (fun _ => .ok (some ordersPreview))
        ordersSubmit { name := some "dv" } = .ok answer ∧ answer.config = some config ∧
      (wordLoader.load ordersActive.deployed config.vdb).denote wordLanguage wordResolver 3
        (TeiidVdb.ownTable "dv" "recent") = some ["orders.item"] := by
  have hpublish : ∃ answer,
      publishVirtualization wordTeiid ordersFinder ordersStore (fun _ => .ok (some ordersPreview))
        ordersSubmit { name := some "dv" } = .ok answer ∧ answer.config.isSome := ⟨_, rfl, rfl⟩
  obtain ⟨answer, hanswer, hsome⟩ := hpublish
  obtain ⟨config, hconfig⟩ := Option.isSome_iff_exists.mp hsome
  obtain ⟨name, query, hcreates, hmeaning⟩ := published_as_previewed printsTables_word
    findsSources_orders rfl wellFormed_orders
    (fun loaded hloaded => by
      obtain rfl := Option.some.inj (Except.ok.inj hloaded)
      exact returnsPreview_orders)
    hanswer hconfig (ordersStore.views.head (by decide)) (by decide) rfl
  have hcreated : Creates wordLoader (ordersStore.views.head (by decide)) "recent"
      ["SELECT", "*", "FROM", "stock"] := ⟨_, _, rfl, rfl, by decide⟩
  obtain ⟨rfl, -⟩ := hcreates.unique hcreated
  refine ⟨answer, config, hanswer, hconfig, ?_⟩
  rw [(hmeaning systemFree_recent).1 3]
  decide

end TeiidSyndesis.Server
