/-
# TeiidSyndesis.Server.ExportImport — what comes back when an exported virtualization is imported.

An import always succeeds under a fresh name, and the row of each view is the replay of the archived
view.  So a view comes back as it was exactly if its replay is the view itself: `importable` says what
that comes to.

Main results: `importable_view_iff` — an importable view is one that its replay leaves alone;
`exportImport_isOk` — the rows of the copy; `preserved_iff` — a virtualization is preserved exactly if
all its views are importable.
-/
import TeiidSyndesis.Server.ReplayedViews

namespace TeiidSyndesis.Server

open TeiidSyndesis.Library TeiidSyndesis.Model TeiidSyndesis.Repository

/-! ## Views that come back -/

/-- The copy has what an export and import are to preserve. -/
def sameView (view copy : ViewDefinition) : Bool :=
  copy.name == view.name && copy.ddl == view.ddl && copy.description == view.description &&
    copy.complete == view.complete && copy.userDefined == view.userDefined &&
    copy.parsable == view.parsable

/-- The replay of a view makes what it was: an incomplete view was not parsable, a generated one has
the DDL of a view without sources, and the text of a user defined one is still judged as it was and
describes the view as the view does. -/
def importable (teiid : Teiid) (view : ViewDefinition) : Bool :=
  if !view.complete then !view.parsable
  else if !view.userDefined then
    view.parsable && view.ddl == some (sourcelessDdl teiid view.name view.description)
  else
    match view.ddl with
    | none => !view.parsable
    | some ddl =>
        match usableTable teiid view.name ddl with
        | none => !view.parsable
        | some t =>
            t.annotation.all (fun text => view.description == some text) &&
              view.parsable == (teiid.parse ddl).metadataException.isNone

theorem sameView_eq_true {view copy : ViewDefinition} :
    sameView view copy = true ↔
      copy.name = view.name ∧ copy.ddl = view.ddl ∧ copy.description = view.description ∧
        copy.complete = view.complete ∧ copy.userDefined = view.userDefined ∧
        copy.parsable = view.parsable := by
  simp [sameView, and_assoc]

/-- An annotation leaves a description alone where it is missing or the same. -/
theorem described_iff {ddlDescr description : Option String} :
    ddlDescr.or description = description ↔
      (ddlDescr.all fun text => description == some text) = true := by
  cases ddlDescr with
  | none => simp
  | some text =>
      have hsame : some text = description ↔ description = some text := eq_comm
      simpa using hsame

/-- A view is importable exactly if its replay leaves it as it is. -/
theorem importable_view_iff {teiid : Teiid} {view : ViewDefinition} :
    importable teiid view = true ↔
      replay teiid (exportView view) = exportView view ∧
        replayParsable teiid (exportView view) = view.parsable := by
  unfold importable replay replayParsable exportView
  dsimp only
  cases hcomplete : view.complete with
  | false => simp
  | true =>
      cases huser : view.userDefined with
      | false =>
          have hddl : some (sourcelessDdl teiid view.name view.description) = view.ddl ↔
              view.ddl = some (sourcelessDdl teiid view.name view.description) := eq_comm
          simp [hddl, and_comm]
      | true =>
          cases hddl : view.ddl with
          | none => simp
          | some ddl =>
              cases ht : usableTable teiid view.name ddl with
              | none => simp [ht]
              | some t =>
                  have hparsable : view.parsable = (teiid.parse ddl).metadataException.isNone ↔
                      (teiid.parse ddl).metadataException.isNone = view.parsable := eq_comm
                  simp [ht, described_iff, hparsable]

/-- The row an archived view has become says what the view did exactly if the replay changed nothing. -/
theorem ReplayOf.sameView_iff {teiid : Teiid} {dvName : String} {view row : ViewDefinition}
    (h : ReplayOf teiid dvName (exportView view) row) :
    sameView view row = true ↔ importable teiid view = true := by
  rw [importable_view_iff, ← h.content, ← h.parsable, sameView_eq_true]
  simp [exportView, and_assoc]

/-! ## The rows that come back -/

/-- Rows of other names are no copies. -/
theorem countP_of_ne {teiid : Teiid} {dvName : String} {views rows : List ViewDefinition}
    {view : ViewDefinition} (h : List.Forall₂ (ReplayOf teiid dvName) (views.map exportView) rows)
    (hne : ∀ other ∈ views, teiid.toUpperCase other.name ≠ teiid.toUpperCase view.name) :
    rows.countP (sameView view) = 0 := by
  rw [List.countP_eq_zero]
  intro row hrow hsame
  have hname : row.name ∈ rows.map (·.name) := List.mem_map_of_mem hrow
  rw [names_of_replays h, List.map_map] at hname
  obtain ⟨other, hother, hothers⟩ := List.mem_map.mp hname
  have hrowName : other.name = row.name := hothers
  exact hne other hother (by rw [hrowName, (sameView_eq_true.mp hsame).1])

/-- A view comes back once if it is importable, and not at all if it is not. -/
theorem countP_replays {teiid : Teiid} {dvName : String} {views rows : List ViewDefinition}
    {view : ViewDefinition} (h : List.Forall₂ (ReplayOf teiid dvName) (views.map exportView) rows)
    (hdistinct : (views.map fun view => teiid.toUpperCase view.name).Nodup) (hmem : view ∈ views) :
    rows.countP (sameView view) = 1 ↔ importable teiid view = true := by
  induction views generalizing rows with
  | nil => cases hmem
  | cons first views ih =>
      rw [List.map_cons] at h
      rw [List.map_cons, List.nodup_cons] at hdistinct
      cases h with
      | @cons _ row _ rows hreplay hrest =>
          have hfirst : ∀ other ∈ views,
              teiid.toUpperCase other.name ≠ teiid.toUpperCase first.name := by
            intro other hother heq
            exact hdistinct.1 (List.mem_map.mpr ⟨other, hother, heq⟩)
          rcases List.mem_cons.mp hmem with rfl | hmem
          · have hothers := countP_of_ne hrest hfirst
            rw [← hreplay.sameView_iff, List.countP_cons, hothers]
            cases sameView view row <;> simp
          · have hrow : sameView view row ≠ true := by
              intro hsame
              have hname : row.name = view.name := (sameView_eq_true.mp hsame).1
              have hown : row.name = first.name := hreplay.name
              exact hfirst view hmem (by rw [← hname, hown])
            rw [List.countP_cons_of_neg hrow]
            exact ih hrest hdistinct.2 hmem

/-! ## Export, then import -/

/-- The archive of a virtualization, imported under a name and committed. -/
def exportImport (teiid : Teiid) (finder : SchemaFinder) (db : Database teiid)
    (virtualization name : String) : Except Failure (Database teiid) := do
  let archive ← exportDataVirtualization finder db.store virtualization
  let (store, _) ← importDataVirtualization teiid finder db.store (some name) archive
  commit teiid store

/-- The path names a connection whose data source is registered. -/
def registered (finder : SchemaFinder) (path : String) : Bool :=
  match connectionOf path with
  | .ok connection => (finder.findTeiidDatasource connection).isSome
  | .error _ => false

def SourcesRegistered (finder : SchemaFinder) (store : Store) (virtualization : String) : Prop :=
  ∀ view ∈ store.findViewDefinitions virtualization, ∀ path ∈ view.sourcePaths,
    registered finder path = true

instance (finder : SchemaFinder) (store : Store) (virtualization : String) :
    Decidable (SourcesRegistered finder store virtualization) :=
  inferInstanceAs (Decidable (∀ view ∈ store.findViewDefinitions virtualization,
    ∀ path ∈ view.sourcePaths, registered finder path = true))

/-- The copy has the description of the original, and each view of the original once. -/
def Preserved (teiid : Teiid) (finder : SchemaFinder) (db : Database teiid)
    (virtualization name : String) : Prop :=
  ∃ db', exportImport teiid finder db virtualization name = .ok db' ∧
    (db'.store.findDataVirtualization name).map (·.description) =
      (db.store.findDataVirtualization virtualization).map (·.description) ∧
    ∀ view ∈ db.store.findViewDefinitions virtualization,
      (db'.store.findViewDefinitions name).countP (sameView view) = 1

theorem addSource_isOk {finder : SchemaFinder} {path : String}
    (h : registered finder path = true) (sources : List (String × SourceV1)) :
    ∃ sources', addSource finder sources path = .ok sources' := by
  unfold registered at h
  unfold addSource
  cases hconnection : connectionOf path with
  | error failure =>
      rw [hconnection] at h
      cases h
  | ok connection =>
      rw [hconnection] at h
      obtain ⟨tds, htds⟩ := Option.isSome_iff_exists.mp h
      by_cases hknown : sources.any (·.1 = connection) = true
      · exact ⟨sources, bind_eq_ok.mpr ⟨connection, rfl, if_pos hknown⟩⟩
      · refine ⟨sources ++ [(connection, { sourceId := tds.syndesisId, name := tds.name })],
          bind_eq_ok.mpr ⟨connection, rfl, ?_⟩⟩
        rw [if_neg hknown, htds]
        rfl

theorem export_isOk {finder : SchemaFinder} {store : Store} {virtualization : String}
    {dv : DataVirtualization} (hdv : store.findDataVirtualization virtualization = some dv)
    (hsources : SourcesRegistered finder store virtualization) :
    ∃ sources, exportDataVirtualization finder store virtualization =
      .ok { id := some dv.id, name := dv.name, description := dv.description
            views := (store.findViewDefinitions virtualization).map exportView
            sources := sources } := by
  have hloop : ∃ sources, ((store.findViewDefinitions virtualization).flatMap (·.sourcePaths)).foldlM
      (addSource finder) [] = .ok sources := by
    refine foldlM_isOk [] ?_
    intro path hpath sources
    obtain ⟨view, hview, hmem⟩ := List.mem_flatMap.mp hpath
    exact addSource_isOk (hsources view hview path hmem) sources
  obtain ⟨sources, hloop⟩ := hloop
  refine ⟨sources.map (·.2), ?_⟩
  unfold exportDataVirtualization
  rw [hdv]
  exact bind_eq_ok.mpr ⟨sources, hloop, rfl⟩

/-- The names of the views of one virtualization are distinct. -/
theorem distinct_of_consistent {teiid : Teiid} {store : Store} (hs : store.Consistent teiid)
    (dvName : String) :
    ((store.findViewDefinitions dvName).map fun view => teiid.toUpperCase view.name).Nodup := by
  have hpairs : ((store.findViewDefinitions dvName).map fun view =>
      (teiid.toUpperCase view.name, view.dataVirtualizationName)).Nodup :=
    hs.viewNames.sublist (List.filter_sublist.map _)
  have hsame : ((store.findViewDefinitions dvName).map fun view =>
      (teiid.toUpperCase view.name, view.dataVirtualizationName)) =
        ((store.findViewDefinitions dvName).map fun view => teiid.toUpperCase view.name).map
          fun name => (name, dvName) := by
    rw [List.map_map]
    refine List.map_congr_left ?_
    intro view hview
    have hown : view.dataVirtualizationName = dvName := by
      simpa using (List.mem_filter.mp hview).2
    rw [hown]
    rfl
  rw [hsame] at hpairs
  exact hpairs.of_map _

/-- An export and import under a fresh name succeed; the rows of the copy are the replays of the views. -/
theorem exportImport_isOk {teiid : Teiid} {finder : SchemaFinder} {db : Database teiid}
    {virtualization name : String} {dv : DataVirtualization}
    (hdv : db.store.findDataVirtualization virtualization = some dv)
    (hsources : SourcesRegistered finder db.store virtualization) (hfresh : Fresh db name) :
    ∃ db', exportImport teiid finder db virtualization name = .ok db' ∧
      (db'.store.findDataVirtualization name).map (·.description) = some dv.description ∧
      List.Forall₂ (ReplayOf teiid name) ((db.store.findViewDefinitions virtualization).map exportView)
        (db'.store.findViewDefinitions name) := by
  obtain ⟨sources, hexport⟩ := export_isOk hdv hsources
  have hdistinct : ((((db.store.findViewDefinitions virtualization).map exportView)).map fun adapter =>
      teiid.toUpperCase adapter.name).Nodup := by
    rw [List.map_map]
    exact distinct_of_consistent db.consistent virtualization
  obtain ⟨store', statuses, rows, himport, himported⟩ :=
    @import_replays teiid finder db name
      { id := some dv.id, name := dv.name, description := dv.description
        views := (db.store.findViewDefinitions virtualization).map exportView, sources := sources }
      hdistinct hfresh
  refine ⟨⟨store', himported.consistent⟩, ?_, himported.description, ?_⟩
  · exact bind_eq_ok.mpr ⟨_, hexport, bind_eq_ok.mpr ⟨_, himport, commit_eq_ok.mpr rfl⟩⟩
  · rw [himported.own]
    exact himported.replays

/-- The import always succeeds with the description, and brings every view back exactly if all are
importable. -/
theorem preserved_iff {teiid : Teiid} {finder : SchemaFinder} {db : Database teiid}
    {virtualization name : String} {dv : DataVirtualization}
    (hdv : db.store.findDataVirtualization virtualization = some dv)
    (hsources : SourcesRegistered finder db.store virtualization) (hfresh : Fresh db name) :
    (∃ db', exportImport teiid finder db virtualization name = .ok db' ∧
        (db'.store.findDataVirtualization name).map (·.description) = some dv.description) ∧
      (Preserved teiid finder db virtualization name ↔
        ∀ view ∈ db.store.findViewDefinitions virtualization, importable teiid view = true) := by
  obtain ⟨db', himport, hdescription, hreplays⟩ := exportImport_isOk hdv hsources hfresh
  have hdistinct := distinct_of_consistent db.consistent virtualization
  refine ⟨⟨db', himport, hdescription⟩, ?_⟩
  constructor
  · rintro ⟨imported, himported, _, hviews⟩ view hview
    rw [himport] at himported
    cases himported
    exact (countP_replays hreplays hdistinct hview).mp (hviews view hview)
  · intro himportable
    refine ⟨db', himport, by rw [hdescription, hdv]; rfl, ?_⟩
    intro view hview
    exact (countP_replays hreplays hdistinct hview).mpr (himportable view hview)

namespace DvServer

/-- A generated view without sources, and one that is still edited. -/
def mixedViews : List Label :=
  [.createDataVirtualization { name := some "dv", description := some "two views" },
    .upsertViewEditorState noSources generatedRequest,
    .upsertViewEditorState noSources
      { name := "w", dataVirtualizationName := "dv", ddl := some "CREATE VIEW", userDefined := true }]

theorem preserved_mixedViews :
    Preserved unparsing noSources (System.after (@next unparsing) empty mixedViews).db "dv" "copy" := by
  have hdv : (System.after (@next unparsing) empty mixedViews).db.store.findDataVirtualization "dv" =
      some ⟨0, "dv", some "two views", 1⟩ := by decide
  exact (preserved_iff hdv (by decide) (by decide)).2.mpr (by decide)

/-- One connection, with one table. -/
def orders : SchemaFinder where
  findSchema name :=
    .ok (if name = "pg" then
      some { name := "pg", tables := [{ name := "orders", columns := [{ name := "id" }] }] }
    else none)
  findTeiidDatasource name :=
    if name = "pg" then some { name := "pg", translatorName := "postgresql", syndesisId := "1" }
    else none

/-- A table is imported as a view. -/
def importedOrders : List Label :=
  [.createDataVirtualization { name := some "dv" }, .importViews orders "dv" "pg" ["orders"]]

/-- The view that is imported from the table. -/
def ordersView : ViewDefinition :=
  { id := some 1, name := "orders", dataVirtualizationName := "dv",
    ddl := some "CREATE VIEW orders (id) AS \nSELECT id\nFROM pg.orders", complete := true,
    parsable := true, sourcePaths := ["schema=pg/table=orders"], version := some 0 }

theorem preserved_importedOrders :
    ¬ ∀ (teiid : Teiid) (finder : SchemaFinder) (s₀ s : DvServer teiid)
        (tr : List (DvServer teiid × Label)) (virtualization name : String) (dv : DataVirtualization),
      Initial s₀ → (system teiid).Run s₀ tr s →
        s.db.store.findDataVirtualization virtualization = some dv →
        SourcesRegistered finder s.db.store virtualization → Fresh s.db name →
          Preserved teiid finder s.db virtualization name := by
  intro h
  have hrun := System.run_after Initial (@next unparsing) empty importedOrders
  have hdv : (System.after (@next unparsing) empty importedOrders).db.store.findDataVirtualization
      "dv" = some ⟨0, "dv", none, 1⟩ := by decide
  obtain ⟨db', himport, _, hviews⟩ := h unparsing orders empty _ _ "dv" "copy" _ initial_empty hrun hdv
    (by decide) (by decide)
  have hcount : (exportImport unparsing orders
      (System.after (@next unparsing) empty importedOrders).db "dv" "copy").toOption.map
        (fun db => (db.store.findViewDefinitions "copy").countP (sameView ordersView)) = some 0 := by
    decide
  rw [himport] at hcount
  have hzero : (db'.store.findViewDefinitions "copy").countP (sameView ordersView) = 0 :=
    Option.some.inj hcount
  rw [hviews ordersView (by decide)] at hzero
  cases hzero

end DvServer

end TeiidSyndesis.Server
