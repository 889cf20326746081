/-
# TeiidSyndesis.Server.ServiceVdbClosure — a service VDB is closed under dependencies.

The loaded preview VDB is a graph: its nodes are the tables, and an edge leads from a table to each of
its incoming objects.  `createServiceVdb` follows one edge from each complete view.  When the preview
VDB is coherent with the views this is enough, because any table a longer path passes through is the
table of another complete view.

Main results:
* `Coherent` — what ties the loaded preview VDB to the views;
* `ofView_or_direct`, `mem_incomingObjects_iff` — one edge from each complete view is enough;
* `foldl_addIncoming`, `serviceDdl_grouped` — the tables that are collected, by schema and each once;
* `createServiceVdb_closed` — so the published VDB has every table that is reachable, and no other.
-/
import TeiidSyndesis.Server.TablePattern
import Mathlib.Data.List.Nodup
import Mathlib.Logic.Relation

namespace TeiidSyndesis.Server

open TeiidSyndesis.Model

/-! ## The loaded preview VDB -/

/-- A table of a loaded VDB; the others of its data are not read. -/
structure TableRecord where
  schema : String
  physical : Bool
  system : Bool
  name : String
  deriving DecidableEq, Repr

/-- The table, as the object of a dependency. -/
def TableRecord.object (table : TableRecord) : IncomingObject :=
  .table table.schema table.physical table.system table.name

/-- The preview VDB of a virtualization.  Objects other than tables have no incoming objects. -/
structure TeiidVdb where
  /-- the tables of the schema of the virtualization -/
  tables : List String
  getIncomingObjects : TableRecord → List IncomingObject

namespace TeiidVdb

variable {teiid : Teiid} {virtualizationName : String} {vdb : TeiidVdb} {views : List ViewDefinition}

/-- A table of the schema of the virtualization. -/
def ownTable (virtualizationName name : String) : TableRecord :=
  { schema := virtualizationName, physical := false, system := false, name := name }

/-- `Schema.getTable` -/
def findTable (teiid : Teiid) (vdb : TeiidVdb) (name : String) : Option String :=
  vdb.tables.find? fun table => teiid.equalsIgnoreCase table name

/-- The incoming objects of the table a view is looked up as. -/
def getTable (teiid : Teiid) (virtualizationName : String) (vdb : TeiidVdb) (name : String) :
    Option (List IncomingObject) :=
  (vdb.findTable teiid name).map fun table =>
    vdb.getIncomingObjects (ownTable virtualizationName table)

/-- An edge from a table to what it reads. -/
def DependsOn (vdb : TeiidVdb) (table dependency : TableRecord) : Prop :=
  dependency.object ∈ vdb.getIncomingObjects table

instance (vdb : TeiidVdb) (table dependency : TableRecord) :
    Decidable (vdb.DependsOn table dependency) :=
  inferInstanceAs (Decidable (_ ∈ _))

/-- Some complete view of the list reaches the table through any number of edges. -/
def Reachable (teiid : Teiid) (virtualizationName : String) (vdb : TeiidVdb)
    (views : List ViewDefinition) (table : TableRecord) : Prop :=
  ∃ viewDef ∈ views, viewDef.complete = true ∧ ∃ name, vdb.findTable teiid viewDef.name = some name ∧
    Relation.ReflTransGen vdb.DependsOn (ownTable virtualizationName name) table

/-- The preview VDB is made from the views. -/
structure Coherent (teiid : Teiid) (virtualizationName : String) (vdb : TeiidVdb)
    (views : List ViewDefinition) : Prop where
  /-- each complete view defines a table, by its DDL -/
  defined : ∀ viewDef ∈ views, viewDef.complete →
    viewDef.ddl.isSome ∧ (vdb.findTable teiid viewDef.name).isSome
  /-- no other tables are in the schema of the virtualization -/
  ofView : ∀ name ∈ vdb.tables, ∃ viewDef ∈ views, viewDef.complete = true ∧
    vdb.findTable teiid viewDef.name = some name
  /-- the other virtual tables that can be reached are system tables -/
  virtual : ∀ table, Reachable teiid virtualizationName vdb views table →
    table.physical = false → table.system = false →
      ∃ name ∈ vdb.tables, table = ownTable virtualizationName name
  leaf : ∀ table, table.physical = true ∨ table.system = true → vdb.getIncomingObjects table = []

/-! ## One edge is enough -/

/-- Every table that is reached is the table of a complete view, or a leaf and a direct dependency of
one. -/
theorem ofView_or_direct (h : Coherent teiid virtualizationName vdb views) {table : TableRecord}
    (hreach : Reachable teiid virtualizationName vdb views table) :
    (∃ name ∈ vdb.tables, table = ownTable virtualizationName name) ∨
      ((table.physical = true ∨ table.system = true) ∧
        ∃ name ∈ vdb.tables, vdb.DependsOn (ownTable virtualizationName name) table) := by
  obtain ⟨viewDef, hview, hcomplete, name, hname, hpath⟩ := hreach
  induction hpath with
  | refl => exact .inl ⟨name, List.mem_of_find?_eq_some hname, rfl⟩
  | @tail table dependency hpath hedge ih =>
      rcases ih with ⟨middle, hmiddle, rfl⟩ | ⟨hleaf, -⟩
      · by_cases hleaf : dependency.physical = true ∨ dependency.system = true
        · exact .inr ⟨hleaf, middle, hmiddle, hedge⟩
        · simp only [not_or, Bool.not_eq_true] at hleaf
          exact .inl (h.virtual dependency
            ⟨viewDef, hview, hcomplete, name, hname, hpath.tail hedge⟩ hleaf.1 hleaf.2)
      · -- a leaf has no edges
        unfold DependsOn at hedge
        rw [h.leaf table hleaf] at hedge
        cases hedge

/-- The objects that are collected are those of the complete views. -/
theorem mem_incomingObjects {object : IncomingObject} :
    object ∈ incomingObjects (vdb.getTable teiid virtualizationName) views ↔
      ∃ viewDef ∈ views, viewDef.complete = true ∧ ∃ name,
        vdb.findTable teiid viewDef.name = some name ∧
          object ∈ vdb.getIncomingObjects (ownTable virtualizationName name) := by
  unfold incomingObjects
  rw [List.mem_flatMap]
  constructor
  · rintro ⟨viewDef, hview, hobject⟩
    split at hobject
    · rename_i hcomplete
      refine ⟨viewDef, hview, hcomplete, ?_⟩
      unfold getTable at hobject
      cases hfind : vdb.findTable teiid viewDef.name with
      | none =>
          rw [hfind] at hobject
          cases hobject
      | some name =>
          rw [hfind] at hobject
          exact ⟨name, rfl, hobject⟩
    · cases hobject
  · rintro ⟨viewDef, hview, hcomplete, name, hname, hobject⟩
    refine ⟨viewDef, hview, ?_⟩
    rw [if_pos hcomplete, getTable, hname]
    exact hobject

/-- The physical tables the loop meets are the ones that can be reached. -/
theorem mem_incomingObjects_iff (h : Coherent teiid virtualizationName vdb views)
    {table : TableRecord} (hphysical : table.physical = true) :
    table.object ∈ incomingObjects (vdb.getTable teiid virtualizationName) views ↔
      Reachable teiid virtualizationName vdb views table := by
  rw [mem_incomingObjects]
  constructor
  · rintro ⟨viewDef, hview, hcomplete, name, hname, hobject⟩
    exact ⟨viewDef, hview, hcomplete, name, hname, .single hobject⟩
  · intro hreach
    rcases ofView_or_direct h hreach with ⟨name, -, rfl⟩ | ⟨-, name, hname, hedge⟩
    · cases hphysical
    · obtain ⟨viewDef, hview, hcomplete, hfind⟩ := h.ofView name hname
      exact ⟨viewDef, hview, hcomplete, name, hfind, hedge⟩

end TeiidVdb

/-! ## Grouping by schema -/

/-- The table is in the list of its schema. -/
def HasTable (schemas : SchemaTableMap) (schema table : String) : Prop :=
  ∃ entry ∈ schemas, entry.1 = schema ∧ table ∈ entry.2

/-- A schema comes once, in the order of its first table. -/
theorem names_addTable (schemas : SchemaTableMap) (schema table : String) :
    (addTable schemas schema table).map (·.1) =
      if schema ∈ schemas.map (·.1) then schemas.map (·.1) else schemas.map (·.1) ++ [schema] := by
  induction schemas with
  | nil => rfl
  | cons entry rest ih =>
      unfold addTable
      by_cases heq : entry.1 = schema
      · simp [heq]
      · simp only [if_neg heq, List.map_cons, ih, List.mem_cons, Ne.symm heq, false_or]
        split <;> rfl

/-- Adding a table adds that one. -/
theorem hasTable_addTable {schemas : SchemaTableMap} {schema table schema' table' : String} :
    HasTable (addTable schemas schema table) schema' table' ↔
      HasTable schemas schema' table' ∨ (schema' = schema ∧ table' = table) := by
  unfold HasTable
  induction schemas with
  | nil => simp [addTable, eq_comm]
  | cons entry rest ih =>
      unfold addTable
      by_cases heq : entry.1 = schema
      · simp only [if_pos heq, List.exists_mem_cons_iff]
        by_cases hmem : table ∈ entry.2
        · simp only [if_pos hmem]
          grind
        · simp only [if_neg hmem, List.mem_append, List.mem_singleton]
          grind
      · simp only [if_neg heq, List.exists_mem_cons_iff, ih]
        grind

/-- What the loop keeps of its map: a schema has one entry, a table is named once, and no entry is
empty. -/
structure Grouped (schemas : SchemaTableMap) : Prop where
  names : (schemas.map (·.1)).Nodup
  tables : ∀ entry ∈ schemas, entry.2.Nodup ∧ entry.2 ≠ []

theorem grouped_nil : Grouped [] := ⟨List.nodup_nil, fun _ h => nomatch h⟩

/-- The tables of a schema stay distinct. -/
theorem tables_addTable {schemas : SchemaTableMap} {schema table : String}
    (h : ∀ entry ∈ schemas, entry.2.Nodup ∧ entry.2 ≠ []) :
    ∀ entry ∈ addTable schemas schema table, entry.2.Nodup ∧ entry.2 ≠ [] := by
  induction schemas with
  | nil =>
      intro entry hentry
      rw [List.mem_singleton.mp hentry]
      exact ⟨List.nodup_singleton _, List.cons_ne_nil _ _⟩
  | cons first rest ih =>
      rw [List.forall_mem_cons] at h
      obtain ⟨hfirst, hrest⟩ := h
      unfold addTable
      split
      · rw [List.forall_mem_cons]
        refine ⟨?_, hrest⟩
        split
        · exact hfirst
        · rename_i hnot
          exact ⟨List.nodup_append.mpr ⟨hfirst.1, List.nodup_singleton _, by grind⟩, by simp⟩
      · rw [List.forall_mem_cons]
        exact ⟨hfirst, ih hrest⟩

/-- Adding a table keeps schemas, and the tables of each, distinct. -/
theorem grouped_addTable {schemas : SchemaTableMap} (h : Grouped schemas) (schema table : String) :
    Grouped (addTable schemas schema table) := by
  refine ⟨?_, tables_addTable h.tables⟩
  rw [names_addTable]
  split
  · exact h.names
  · rename_i hnew
    exact List.nodup_append.mpr ⟨h.names, List.nodup_singleton _, by grind⟩

/-- The loop groups the physical tables that are no system tables, and loses none. -/
theorem foldl_addIncoming (objects : List IncomingObject) {schemas : SchemaTableMap}
    (h : Grouped schemas) :
    Grouped (objects.foldl addIncoming schemas) ∧
      ∀ schema table, HasTable (objects.foldl addIncoming schemas) schema table ↔
        HasTable schemas schema table ∨ IncomingObject.table schema true false table ∈ objects := by
  -- on the incoming objects; a table is added under its schema if it is physical and no system table
  induction objects generalizing schemas with
  | nil => exact ⟨h, fun schema table => by simp⟩
  | cons object objects ih =>
      rw [List.foldl_cons]
      cases object with
      | other =>
          obtain ⟨hgrouped, htables⟩ := ih h
          refine ⟨hgrouped, fun schema table => ?_⟩
          rw [show addIncoming schemas .other = schemas from rfl, htables]
          simp
      | table schema physical system name =>
          by_cases hkept : (physical && !system) = true
          · have hadd : addIncoming schemas (.table schema physical system name) =
                addTable schemas schema name := by simp [addIncoming, hkept]
            obtain ⟨hgrouped, htables⟩ := ih (grouped_addTable h schema name)
            rw [hadd]
            refine ⟨hgrouped, fun schema' table => ?_⟩
            rw [htables, hasTable_addTable]
            simp only [Bool.and_eq_true, Bool.not_eq_true'] at hkept
            simp [hkept, or_assoc]
          · have hskip : addIncoming schemas (.table schema physical system name) = schemas := by
              simp [addIncoming, hkept]
            obtain ⟨hgrouped, htables⟩ := ih h
            rw [hskip]
            refine ⟨hgrouped, fun schema' table => ?_⟩
            rw [htables]
            simp only [Bool.and_eq_true, Bool.not_eq_true', not_and, Bool.not_eq_false] at hkept
            grind

/-! ## The source models -/

/-- The source model of a schema, with the pattern of its tables. -/
def physicalModel (teiid : Teiid) (finder : SchemaFinder) (source : String × String) :
    ModelMetaData :=
  { name := source.1
    physical := true
    visible := false
    ddl := teiid.getDDLString source.1 source.2
    sourceMappings :=
      match finder.findTeiidDatasource source.1 with
      | some tds => [(tds.name, tds.translatorName, tds.name)]
      | none => [] }

namespace TeiidVdb

variable {teiid : Teiid} {finder : SchemaFinder} {virtualizationName : String} {vdb : TeiidVdb}
  {views : List ViewDefinition}

/-- The views reach a table of this physical schema. -/
def ReadsSource (teiid : Teiid) (virtualizationName : String) (vdb : TeiidVdb)
    (views : List ViewDefinition) (schema table : String) : Prop :=
  Reachable teiid virtualizationName vdb views
    { schema := schema, physical := true, system := false, name := table }

/-- The names of the sources and of the virtualization differ in more than case. -/
def DistinctNames (teiid : Teiid) (virtualizationName : String) (vdb : TeiidVdb)
    (views : List ViewDefinition) : Prop :=
  (∀ schema table, ReadsSource teiid virtualizationName vdb views schema table →
    teiid.equalsIgnoreCase virtualizationName schema = false) ∧
  ∀ schema schema' table table', ReadsSource teiid virtualizationName vdb views schema table →
    ReadsSource teiid virtualizationName vdb views schema' table' → schema ≠ schema' →
      teiid.equalsIgnoreCase schema schema' = false

/-- The map the loop ends with. -/
theorem serviceDdl_grouped (h : Coherent teiid virtualizationName vdb views) :
    ∃ text schemas, serviceDdl (vdb.getTable teiid virtualizationName) views "" [] =
        .ok (text, schemas) ∧ Grouped schemas ∧
      ∀ schema table, HasTable schemas schema table ↔
        ReadsSource teiid virtualizationName vdb views schema table := by
  have hdefined : ∀ viewDef ∈ views, viewDef.complete →
      viewDef.ddl.isSome ∧ (vdb.getTable teiid virtualizationName viewDef.name).isSome := by
    intro viewDef hview hcomplete
    obtain ⟨hddl, htable⟩ := h.defined viewDef hview hcomplete
    exact ⟨hddl, by rw [getTable, Option.isSome_map]; exact htable⟩
  obtain ⟨hgrouped, htables⟩ := foldl_addIncoming
    (incomingObjects (vdb.getTable teiid virtualizationName) views) grouped_nil
  refine ⟨_, _, serviceDdl_eq hdefined "" [], hgrouped, fun schema table => ?_⟩
  rw [htables, ReadsSource, ← mem_incomingObjects_iff h rfl]
  exact or_iff_right fun ⟨_, hmem, _⟩ => nomatch hmem

/-- A service VDB has one source model for each physical schema the views reach, its pattern names
the tables of the schema that are reached, and its model names are distinct where the names of the
sources are. -/
theorem createServiceVdb_closed (h : Coherent teiid virtualizationName vdb views) :
    ∃ (result : VDBMetaData) (text : String) (sources : List (String × String)),
      createServiceVdb teiid finder virtualizationName (vdb.getTable teiid virtualizationName) views =
        .ok result ∧
      result.models = serviceModel virtualizationName text ::
        sources.map (physicalModel teiid finder) ∧
      (sources.map (·.1)).Nodup ∧
      (∀ source ∈ sources, (alternatives source.2).Nodup) ∧
      (∀ schema table, (∃ source ∈ sources, source.1 = schema ∧ table ∈ alternatives source.2) ↔
        ReadsSource teiid virtualizationName vdb views schema table) ∧
      (∀ schema ∈ sources.map (·.1), ∃ table,
        ReadsSource teiid virtualizationName vdb views schema table) ∧
      (DistinctNames teiid virtualizationName vdb views →
        (result.models.map (·.name)).Pairwise fun name name' =>
          teiid.equalsIgnoreCase name name' = false) := by
  obtain ⟨text, schemas, hloop, hgrouped, htables⟩ := serviceDdl_grouped h
  -- a schema is collected with its first table
  have hread : ∀ schema ∈ schemas.map (·.1), ∃ table,
      ReadsSource teiid virtualizationName vdb views schema table := by
    intro schema hschema
    obtain ⟨entry, hentry, rfl⟩ := List.mem_map.mp hschema
    obtain ⟨table, htable⟩ := List.exists_mem_of_ne_nil _ (hgrouped.tables entry hentry).2
    exact ⟨table, (htables entry.1 table).mp ⟨entry, hentry, rfl, htable⟩⟩
  -- the pattern of a source is read back to its tables
  have hpattern : ∀ entry ∈ schemas, alternatives (tablePattern entry.2) = entry.2 :=
    fun entry hentry => alternatives_tablePattern (hgrouped.tables entry hentry).2
  have hnames : (schemas.map fun entry => (entry.1, tablePattern entry.2)).map (·.1) =
      schemas.map (·.1) := by
    rw [List.map_map]
    rfl
  refine ⟨{ name := virtualizationName, models := _ }, text,
    schemas.map fun entry => (entry.1, tablePattern entry.2), ?_, rfl, ?_, ?_, ?_, ?_, ?_⟩
  · rw [createServiceVdb, hloop, List.map_map]
    rfl
  · rw [hnames]
    exact hgrouped.names
  · intro source hsource
    obtain ⟨entry, hentry, rfl⟩ := List.mem_map.mp hsource
    rw [hpattern entry hentry]
    exact (hgrouped.tables entry hentry).1
  · intro schema table
    rw [← htables]
    constructor
    · rintro ⟨source, hsource, rfl, htable⟩
      obtain ⟨entry, hentry, rfl⟩ := List.mem_map.mp hsource
      rw [hpattern entry hentry] at htable
      exact ⟨entry, hentry, rfl, htable⟩
    · rintro ⟨entry, hentry, rfl, htable⟩
      refine ⟨_, List.mem_map_of_mem hentry, rfl, ?_⟩
      rw [hpattern entry hentry]
      exact htable
  · rw [hnames]
    exact hread
  · rintro ⟨hown, hsources⟩
    -- the names of all models are those of the view model and of the schemas
    have hmodels : ((serviceModel virtualizationName text ::
        (schemas.map fun entry => (entry.1, tablePattern entry.2)).map
          (physicalModel teiid finder)).map (·.name)) = virtualizationName :: schemas.map (·.1) := by
      simp only [List.map_cons, List.map_map]
      rfl
    show (List.map _ _).Pairwise _
    rw [hmodels, List.pairwise_cons]
    constructor
    · intro schema hschema
      obtain ⟨table, htable⟩ := hread schema hschema
      exact hown schema table htable
    · refine hgrouped.names.imp_of_mem fun hschema hschema' hne => ?_
      obtain ⟨table, htable⟩ := hread _ hschema
      obtain ⟨table', htable'⟩ := hread _ hschema'
      exact hsources _ _ table table' htable htable' hne

/-- A view over tables of two sources, and a view over it that reads one more table and a system
table. -/
def layeredVdb : TeiidVdb where
  tables := ["v1", "v2"]
  getIncomingObjects table :=
    if table = ownTable "dv" "v1" then
      [.table "pg" true false "a", .table "my" true false "b", .other]
    else if table = ownTable "dv" "v2" then
      [.table "dv" false false "v1", .table "pg" true false "c", .table "SYS" false true "Tables"]
    else []

/-- A view over another one, which reads a table. -/
def layeredViews : List ViewDefinition :=
  [{ name := "v2", dataVirtualizationName := "dv", complete := true
     ddl := some "CREATE VIEW v2 AS SELECT * FROM v1, c, SYS.Tables" },
    { name := "draft", dataVirtualizationName := "dv" },
    { name := "v1", dataVirtualizationName := "dv", complete := true
      ddl := some "CREATE VIEW v1 AS SELECT * FROM a, b;" }]

/-- What can be reached from them. -/
theorem layered_tables {table : TableRecord}
    (h : Reachable (.ascii fun _ => { schema := { name := "parsed" } }) "dv" layeredVdb layeredViews
      table) :
    table ∈ [ownTable "dv" "v1", ownTable "dv" "v2", ⟨"pg", true, false, "a"⟩,
      ⟨"my", true, false, "b"⟩, ⟨"pg", true, false, "c"⟩, ⟨"SYS", false, true, "Tables"⟩] := by
  obtain ⟨viewDef, -, -, name, hname, hpath⟩ := h
  induction hpath with
  | refl =>
      have hmem : name ∈ layeredVdb.tables := List.mem_of_find?_eq_some hname
      simp only [layeredVdb, List.mem_cons, List.not_mem_nil, or_false] at hmem
      rcases hmem with rfl | rfl <;> simp
  | @tail table dependency hpath hedge ih =>
      obtain ⟨schema, physical, system, name⟩ := dependency
      unfold DependsOn layeredVdb at hedge
      simp only at hedge
      split at hedge
      · simp only [TableRecord.object, List.mem_cons, IncomingObject.table.injEq, List.not_mem_nil,
          reduceCtorEq, or_false] at hedge
        rcases hedge with ⟨rfl, rfl, rfl, rfl⟩ | ⟨rfl, rfl, rfl, rfl⟩ <;> simp
      · split at hedge
        · simp only [TableRecord.object, List.mem_cons, IncomingObject.table.injEq,
            List.not_mem_nil, or_false] at hedge
          rcases hedge with ⟨rfl, rfl, rfl, rfl⟩ | ⟨rfl, rfl, rfl, rfl⟩ | ⟨rfl, rfl, rfl, rfl⟩
          · exact List.mem_cons_self
          · simp
          · simp
        · cases hedge

/-- The preview is coherent with them. -/
theorem layered_coherent : Coherent (.ascii fun _ => { schema := { name := "parsed" } }) "dv"
    layeredVdb layeredViews where
  defined := by decide
  ofView := by decide
  virtual table hreach hphysical hsystem := by
    have hmem := layered_tables hreach
    simp only [List.mem_cons, List.not_mem_nil, or_false] at hmem
    rcases hmem with rfl | rfl | rfl | rfl | rfl | rfl
    · exact ⟨"v1", by decide, rfl⟩
    · exact ⟨"v2", by decide, rfl⟩
    · cases hphysical
    · cases hphysical
    · cases hphysical
    · cases hsystem
  leaf table hleaf := by
    have hown : ∀ name, table ≠ ownTable "dv" name := by
      rintro name rfl
      rcases hleaf with h | h
      · cases h
      · cases h
    simp [layeredVdb, hown]

/-- Table `a` is named for source `pg`, though `v2` reads it only through `v1`. -/
theorem createServiceVdb_closed_layered :
    ∃ (result : VDBMetaData) (sources : List (String × String)),
      createServiceVdb (.ascii fun _ => { schema := { name := "parsed" } })
          { findSchema := fun _ => .ok none, findTeiidDatasource := fun _ => none } "dv"
          (layeredVdb.getTable (.ascii fun _ => { schema := { name := "parsed" } }) "dv")
          layeredViews = .ok result ∧
        ∃ source ∈ sources, source.1 = "pg" ∧ "a" ∈ alternatives source.2 := by
  obtain ⟨result, text, sources, hresult, -, -, -, hnamed, -⟩ :=
    @createServiceVdb_closed (.ascii fun _ => { schema := { name := "parsed" } })
      { findSchema := fun _ => .ok none, findTeiidDatasource := fun _ => none } "dv" layeredVdb
      layeredViews layered_coherent
  refine ⟨result, sources, hresult, (hnamed "pg" "a").mpr ?_⟩
  refine ⟨layeredViews.head (List.cons_ne_nil _ _), by decide, rfl, "v2", by decide, ?_⟩
  have hv1 : layeredVdb.DependsOn (ownTable "dv" "v2") (ownTable "dv" "v1") := by decide
  have ha : layeredVdb.DependsOn (ownTable "dv" "v1") ⟨"pg", true, false, "a"⟩ := by decide
  exact (Relation.ReflTransGen.single hv1).tail ha

end TeiidVdb

end TeiidSyndesis.Server
