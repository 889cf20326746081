/-
# TeiidSyndesis.Server.Exportable — source paths that an export can read.

An export reads the connection off every source path of a virtualization, and one path that cannot be
read ends it.  The paths come from clients.  Where a view is generated its DDL is generated from the
paths, which reads them; a user defined text that is read clears them; in the other cases an upsert
stores the paths of the request, or those the validation has put in their place, as they are.

Main results:
* `readable_iff`, `export_isOk_iff` — an export succeeds exactly if every path can be read;
* `readable_of_getODataViewDdl` — paths a text was generated from can be;
* `readablePaths_iff` — what an upsert stores is readable exactly where it takes no unreadable path over;
* `readable_step`, `exports_run_iff` — so of every run of the operations;
* `drafted_not_exported` — a draft that ends the export.
-/
import TeiidSyndesis.Library.Transition
import TeiidSyndesis.Server.ViewRows

namespace TeiidSyndesis.Server

open TeiidSyndesis.Library TeiidSyndesis.Model TeiidSyndesis.Repository

/-! ## upsertViewDefinition -/

/-- What the preview VDB has to say about a DDL text: nothing, that it does not define the view, or the
objects the view reads. -/
inductive ValidationAnswer
  | unavailable (failure : Failure)
  | rejected
  | resolved (incoming : List IncomingObject)

/-- The path of an object that is read. -/
def incomingPath (teiid : Teiid) : IncomingObject → Option String
  | .table schema _ _ name => some (teiid.fullyQualifiedName schema name)
  | .other => none

/-- The request after its validation; the status it gets is not stored. -/
def validateViewDefinition (teiid : Teiid) (restViewDefinition : ViewDefinition)
    (answer : ValidationAnswer) : Except Failure ViewDefinition :=
  if restViewDefinition.ddl.all isBlank then .ok restViewDefinition
  else
    match answer with
    | .unavailable failure => .error failure
    | .rejected => .ok restViewDefinition
    | .resolved incoming =>
        .ok { restViewDefinition with sourcePaths := incoming.filterMap (incomingPath teiid) }

/-- `upsertViewDefinition`: the request is validated, and saved as an editor state. -/
def upsertViewDefinition (teiid : Teiid) (finder : SchemaFinder) (store : Store)
    (restViewEditorState : ViewDefinition) (answer : ValidationAnswer) :
    Except Failure (Store × ViewDefinition) :=
  if isBlank restViewEditorState.name then
    .error (.forbidden "The view definition name is missing")
  else if isBlank restViewEditorState.dataVirtualizationName then
    .error (.forbidden "The view definition data virtualization name is missing")
  else do
    let restViewDefn ← validateViewDefinition teiid restViewEditorState answer
    upsertViewEditorState teiid finder store restViewDefn

/-! ## Reading paths -/

/-- The connection of the path can be read. -/
def readable (path : String) : Bool := (connectionOf path).isOk

/-- A readable path has a connection. -/
theorem readable_iff {path : String} :
    readable path = true ↔ ∃ connection, connectionOf path = .ok connection := by
  unfold readable
  cases connectionOf path with
  | error failure => exact iff_of_false nofun nofun
  | ok connection => exact iff_of_true rfl ⟨connection, rfl⟩

/-- Every path of the view can be read. -/
def ReadablePaths (view : ViewDefinition) : Prop := ∀ path ∈ view.sourcePaths, readable path = true

/-- One path is added exactly if it can be read. -/
theorem addSource_isOk_iff (finder : SchemaFinder) (path : String)
    (sources : List (String × SourceV1)) :
    (∃ sources', addSource finder sources path = .ok sources') ↔ readable path = true := by
  rw [readable_iff]
  unfold addSource
  constructor
  · rintro ⟨sources', h⟩
    obtain ⟨connection, hconnection, _⟩ := bind_eq_ok.mp h
    exact ⟨connection, hconnection⟩
  · rintro ⟨connection, hconnection⟩
    by_cases hknown : sources.any (·.1 = connection) = true
    · exact ⟨sources, bind_eq_ok.mpr ⟨connection, hconnection, if_pos hknown⟩⟩
    · cases htds : finder.findTeiidDatasource connection with
      | none =>
          refine ⟨sources, bind_eq_ok.mpr ⟨connection, hconnection, ?_⟩⟩
          rw [if_neg hknown, htds]
          rfl
      | some tds =>
          refine ⟨sources ++ [(connection, { sourceId := tds.syndesisId, name := tds.name })],
            bind_eq_ok.mpr ⟨connection, hconnection, ?_⟩⟩
          rw [if_neg hknown, htds]
          rfl

/-- A virtualization is exported exactly if all paths of its views can be read. -/
theorem export_isOk_iff {finder : SchemaFinder} {store : Store} {virtualization : String}
    {dv : DataVirtualization} (hdv : store.findDataVirtualization virtualization = some dv) :
    (∃ archive, exportDataVirtualization finder store virtualization = .ok archive) ↔
      ∀ view ∈ store.findViewDefinitions virtualization, ReadablePaths view := by
  have hloop : (∃ sources, ((store.findViewDefinitions virtualization).flatMap
      (·.sourcePaths)).foldlM (addSource finder) [] = .ok sources) ↔
        ∀ path ∈ (store.findViewDefinitions virtualization).flatMap (·.sourcePaths),
          readable path = true :=
    foldlM_isOk_iff fun path sources => addSource_isOk_iff finder path sources
  unfold exportDataVirtualization
  rw [hdv]
  constructor
  · rintro ⟨archive, h⟩ view hview path hpath
    obtain ⟨sources, hsources, _⟩ := bind_eq_ok.mp h
    exact hloop.mp ⟨sources, hsources⟩ path (List.mem_flatMap.mpr ⟨view, hview, hpath⟩)
  · intro h
    obtain ⟨sources, hsources⟩ := hloop.mpr fun path hpath => by
      obtain ⟨view, hview, hmem⟩ := List.mem_flatMap.mp hpath
      exact h view hview path hmem
    exact ⟨_, bind_eq_ok.mpr ⟨sources, hsources, rfl⟩⟩

/-- The generator reads the paths it generates from. -/
theorem readable_of_sourceTableInfos {teiid : Teiid} {finder : SchemaFinder} {aliased : Bool}
    {paths : List String} {index : Nat} {infos : List TableInfo}
    (h : sourceTableInfos teiid finder aliased paths index = .ok (some infos)) :
    ∀ path ∈ paths, readable path = true := by
  induction paths generalizing index infos with
  | nil => exact nofun
  | cons path paths ih =>
      rw [sourceTableInfos] at h
      obtain ⟨options, hoptions, h⟩ := bind_eq_ok.mp h
      obtain ⟨connection, hconnection, h⟩ := bind_eq_ok.mp h
      obtain ⟨schema, _, h⟩ := bind_eq_ok.mp h
      have hread : readable path = true :=
        readable_iff.mpr ⟨connection, bind_eq_ok.mpr ⟨options, hoptions, hconnection⟩⟩
      rw [List.forall_mem_cons]
      refine ⟨hread, ?_⟩
      -- without a schema or a table there are no infos
      split at h
      · cases pure_eq_ok.mp h
      · obtain ⟨tableName, _, h⟩ := bind_eq_ok.mp h
        split at h
        · cases pure_eq_ok.mp h
        · obtain ⟨rest, hrest, h⟩ := bind_eq_ok.mp h
          cases rest with
          | none => cases pure_eq_ok.mp h
          | some rest => exact ih hrest

/-- A text was generated from paths that could be read. -/
theorem readable_of_getODataViewDdl {teiid : Teiid} {finder : SchemaFinder} {view : ViewDefinition}
    {ddl : Option String} (hcomplete : view.complete = true)
    (h : getODataViewDdl teiid finder view = .ok ddl) : ReadablePaths view := by
  unfold getODataViewDdl at h
  rw [if_pos hcomplete] at h
  obtain ⟨infos, hinfos, h⟩ := bind_eq_ok.mp h
  unfold getSourceTableInfos at hinfos
  rw [if_pos hcomplete] at hinfos
  cases infos with
  | none => cases h
  | some infos => exact readable_of_sourceTableInfos hinfos

/-! ## What an upsert stores -/

/-- The upsert stores the paths of the request without having read them. -/
def takesPaths (found : Option ViewDefinition) (restViewDefn : ViewDefinition) : Bool :=
  !restViewDefn.complete ||
    (restViewDefn.userDefined &&
      (restViewDefn.ddl.isNone || found.any fun viewDefn => viewDefn.ddl == restViewDefn.ddl))

/-- A flush keeps the paths. -/
theorem readablePaths_flushed (old view : ViewDefinition) :
    ReadablePaths (Store.flushed old view) ↔ ReadablePaths view := by
  rcases Store.flushed_eq_or old view with heq | heq
  · rw [heq]
  · rw [heq]
    exact Iff.rfl

/-- The view has readable paths after the upsert exactly if the paths that are taken are readable. -/
theorem readablePaths_iff {teiid : Teiid} {finder : SchemaFinder}
    {viewDefn restViewDefn updated : ViewDefinition} {created touched : Bool}
    {found : Option ViewDefinition}
    (h : UpdatedView teiid finder viewDefn restViewDefn created updated touched)
    (hfound : (found = some viewDefn ∧ created = false) ∨
      (found = none ∧ created = true ∧ viewDefn.ddl = none))
    (hs : ∀ view ∈ found, ReadablePaths view) :
    ReadablePaths updated ↔ (takesPaths found restViewDefn = true → ReadablePaths restViewDefn) := by
  have hold {ddl : Option String} (hnew : viewDefn.ddl ≠ ddl) :
      (found.any fun view => view.ddl == ddl) = false := by
    rcases hfound with ⟨rfl, _⟩ | ⟨rfl, _⟩
    · simpa using hnew
    · rfl
  cases h with
  | incomplete hcomplete =>
      have htakes : takesPaths found restViewDefn = true := by simp [takesPaths, hcomplete]
      exact ⟨fun hupdated _ => hupdated, fun hpaths => hpaths htakes⟩
  | generated hcomplete huser _ hddl =>
      have htakes : takesPaths found restViewDefn = false := by simp [takesPaths, hcomplete, huser]
      have hread : ReadablePaths (copyRequest viewDefn restViewDefn) :=
        readable_of_getODataViewDdl hcomplete hddl
      rw [htakes]
      exact iff_of_true hread nofun
  | trusted hcomplete huser _ hcreated hpaths =>
      have htakes : takesPaths found restViewDefn = false := by simp [takesPaths, hcomplete, huser]
      rw [htakes]
      refine iff_of_true ?_ nofun
      -- the paths are those of a view that is there
      rcases hfound with ⟨rfl, _⟩ | ⟨_, hnew, _⟩
      · intro path hpath
        have hpath : path ∈ restViewDefn.sourcePaths := hpath
        rw [hpaths] at hpath
        exact hs viewDefn rfl path hpath
      · rw [hcreated] at hnew
        cases hnew
  | accepted hcomplete huser hddl hnew | partlyParsed hcomplete huser hddl hnew
  | unusable hcomplete huser hddl hnew =>
      have htakes : takesPaths found restViewDefn = false := by
        have hnone := hold hnew
        simp [takesPaths, hcomplete, huser, hddl, hnone]
      rw [htakes]
      exact iff_of_true (fun _ hpath => nomatch hpath) nofun
  | unread hcomplete huser hddl =>
      have htakes : takesPaths found restViewDefn = true := by
        rcases hddl with hnone | hsame
        · simp [takesPaths, huser, hnone]
        · rcases hfound with ⟨rfl, _⟩ | ⟨_, _, hnone⟩
          · simp [takesPaths, huser, hsame]
          · simp [takesPaths, huser, hsame, hnone]
      exact ⟨fun hupdated _ => hupdated, fun hpaths => hpaths htakes⟩

/-- The upsert takes no path that cannot be read. -/
def takesReadable (teiid : Teiid) (store : Store) (restViewDefn : ViewDefinition) : Bool :=
  match findPersistent teiid store restViewDefn with
  | .ok found => !takesPaths found restViewDefn || restViewDefn.sourcePaths.all readable
  | .error _ => true

/-- An upsert that stores readable paths keeps all of them readable. -/
theorem readable_upsert {teiid : Teiid} {finder : SchemaFinder} {store store' : Store}
    {restViewDefn view : ViewDefinition} (hs : AllRows ReadablePaths store)
    (h : upsertViewEditorState teiid finder store restViewDefn = .ok (store', view)) :
    AllRows ReadablePaths store' ↔ takesReadable teiid store restViewDefn = true := by
  rw [allRows_upsert readablePaths_flushed hs h]
  obtain ⟨found, base, viewDefn, touched, mid, hfound, hload, hupdate, _⟩ :=
    upsertViewEditorState_eq_ok.mp h
  have hrows : ∀ persistent ∈ found, ReadablePaths persistent := by
    rintro persistent rfl
    exact hs persistent (mem_of_findPersistent hfound)
  rw [readablePaths_iff (updateView_cases hupdate) (loaded_from hload) hrows]
  unfold takesReadable
  rw [hfound]
  cases htakes : takesPaths found restViewDefn with
  | false => simp [htakes]
  | true => simp [htakes, ReadablePaths]

/-- An import stores the path of its table. -/
theorem readable_import {teiid : Teiid} {finder : SchemaFinder} {store store' : Store}
    {virtualization teiidSourceName : String} {tables : List String} (hs : AllRows ReadablePaths store)
    (h : importViews teiid finder store virtualization teiidSourceName tables = .ok store') :
    AllRows ReadablePaths store' := by
  refine allRows_import readablePaths_flushed (fun _ _ hview => hview) ?_ hs h
  intro t viewDefn imported _ himported
  obtain ⟨ddl, hddl, hresult⟩ := bind_eq_ok.mp himported
  cases pure_eq_ok.mp hresult
  exact readable_of_getODataViewDdl rfl hddl

/-! ## The operations, one after another -/

/-- The operations that write views. -/
inductive ViewOperation
  | createDataVirtualization (restDataVirtualization : RestDataVirtualization)
  | upsertViewDefinition (finder : SchemaFinder) (restViewEditorState : ViewDefinition)
      (answer : ValidationAnswer)
  | importViews (finder : SchemaFinder) (virtualization teiidSourceName : String)
      (tables : List String)
  | removeViewDefinition (id : Nat)

namespace ViewOperation

variable {teiid : Teiid}

/-- The tables the transaction of an operation is to commit. -/
def transaction (teiid : Teiid) (store : Store) : ViewOperation → Except Failure Store
  | .createDataVirtualization restDataVirtualization =>
      Server.createDataVirtualization teiid store restDataVirtualization
  | .upsertViewDefinition finder restViewEditorState answer =>
      (Server.upsertViewDefinition teiid finder store restViewEditorState answer).map (·.1)
  | .importViews finder virtualization teiidSourceName tables =>
      Server.importViews teiid finder store virtualization teiidSourceName tables
  | .removeViewDefinition id => Server.removeViewDefinition store id

/-- An operation that succeeds. -/
def next (db : Database teiid) (operation : ViewOperation) : Option (Database teiid) :=
  (transaction teiid db.store operation >>= commit teiid).toOption

/-- Runs start with empty tables. -/
def Initial (db : Database teiid) : Prop := db.store = {}

def system (teiid : Teiid) : System (Database teiid) ViewOperation := .ofNext Initial next

/-- A step is an operation that was committed. -/
theorem transaction_of_next {db db' : Database teiid} {operation : ViewOperation}
    (h : next db operation = some db') : transaction teiid db.store operation = .ok db'.store := by
  obtain ⟨store, hstore, hcommit⟩ := bind_eq_ok.mp (toOption_eq_some.mp h)
  rw [hstore, commit_eq_ok.mp hcommit]

/-- The request of an upsert, as validated, takes no path that cannot be read. -/
def bringsReadable (db : Database teiid) : ViewOperation → Bool
  | .upsertViewDefinition _ restViewEditorState answer =>
      match validateViewDefinition teiid restViewEditorState answer with
      | .ok restViewDefn => takesReadable teiid db.store restViewDefn
      | .error _ => true
  | _ => true

/-- All virtualizations can be exported. -/
def Exports (db : Database teiid) : Prop :=
  ∀ finder, ∀ dv ∈ db.store.virtualizations,
    ∃ archive, exportDataVirtualization finder db.store dv.name = .ok archive

/-- Without source schemas every view belongs to a virtualization. -/
theorem exports_iff {db : Database teiid} (hschemas : db.store.schemas = []) :
    Exports db ↔ AllRows ReadablePaths db.store := by
  have hfind : ∀ dv ∈ db.store.virtualizations,
      ∃ found, db.store.findDataVirtualization dv.name = some found := by
    intro dv hdv
    refine Option.isSome_iff_exists.mp (List.find?_isSome.mpr ⟨dv, hdv, ?_⟩)
    exact decide_eq_true rfl
  constructor
  · intro h view hview
    have hrow := db.consistent.references view hview
    unfold Store.rowNames at hrow
    rw [hschemas, List.map_nil, List.append_nil] at hrow
    obtain ⟨dv, hdv, hname⟩ := List.mem_map.mp hrow
    obtain ⟨found, hfound⟩ := hfind dv hdv
    -- any finder will do, the paths are read before it is asked
    have hexport := (export_isOk_iff hfound).mp
      (h { findSchema := fun _ => .ok none, findTeiidDatasource := fun _ => none } dv hdv)
    exact hexport view (List.mem_filter.mpr ⟨hview, decide_eq_true hname.symm⟩)
  · intro h finder dv hdv
    obtain ⟨found, hfound⟩ := hfind dv hdv
    exact (export_isOk_iff hfound).mpr fun view hview => h view (List.mem_filter.mp hview).1

/-- Touching a virtualization writes no schema. -/
theorem schemas_of_touch {store store' : Store} {virtualization : String}
    (h : store.touch virtualization = .ok store') : store'.schemas = store.schemas := by
  obtain ⟨dv, _, rfl⟩ := Store.touch_eq_ok.mp h
  rfl

/-- An upsert writes no schema. -/
theorem schemas_upsert {finder : SchemaFinder} {store store' : Store}
    {restViewDefn view : ViewDefinition}
    (h : upsertViewEditorState teiid finder store restViewDefn = .ok (store', view)) :
    store'.schemas = store.schemas := by
  obtain ⟨base, viewDefn, created, touched, mid, hloaded, _, hmid, rfl⟩ := upsertViewEditorState_ok h
  have hbase : base.schemas = store.schemas := by
    cases hloaded with
    | new => rfl
    | persistent => rfl
  have htouched : mid.schemas = base.schemas := by
    cases touched with
    | true => exact schemas_of_touch hmid
    | false =>
        cases hmid
        rfl
  exact htouched.trans hbase

/-- An import writes no schema. -/
theorem schemas_import {finder : SchemaFinder} {store store' : Store}
    {virtualization teiidSourceName : String} {tables : List String}
    (h : Server.importViews teiid finder store virtualization teiidSourceName tables = .ok store') :
    store'.schemas = store.schemas := by
  obtain ⟨_, _, imported, toSave, _, _, himport, htouch⟩ := importViews_ok h
  have hloop : imported.schemas = store.schemas :=
    @importTables_rule _ _ _ _ _ (fun mid _ => mid.schemas = store.schemas)
      (fun _ _ _ _ _ _ hmid _ _ _ => hmid) (fun _ _ _ _ _ hmid _ _ _ => hmid) _ _ _ _ _ rfl himport
  have hsaved (toSave : List ViewDefinition) (mid : Store) :
      (toSave.foldl Store.persist mid).schemas = mid.schemas := by
    induction toSave generalizing mid with
    | nil => rfl
    | cons view toSave ih => exact ih (mid.persist view)
  exact (schemas_of_touch htouch).trans ((hsaved toSave imported).trans hloop)

/-- A removal writes no schema. -/
theorem schemas_remove {store store' : Store} {id : Nat}
    (h : Server.removeViewDefinition store id = .ok store') : store'.schemas = store.schemas := by
  unfold Server.removeViewDefinition at h
  split at h
  · cases h
  · split at h
    · obtain ⟨mid, hmid, h⟩ := bind_eq_ok.mp h
      cases pure_eq_ok.mp h
      show mid.schemas = store.schemas
      exact schemas_of_touch hmid
    · cases pure_eq_ok.mp h
      rfl

/-- A step keeps the source schemas, and keeps the paths readable exactly if it brings none that are
not. -/
theorem readable_step {db db' : Database teiid} {operation : ViewOperation}
    (h : next db operation = some db') :
    db'.store.schemas = db.store.schemas ∧
      (AllRows ReadablePaths db.store →
        (AllRows ReadablePaths db'.store ↔ bringsReadable db operation = true)) := by
  have htransaction := transaction_of_next h
  -- only an upsert takes paths from outside; the other operations write none or their own
  cases operation with
  | createDataVirtualization restDataVirtualization =>
      have hframe : db'.store.schemas = db.store.schemas ∧ db'.store.views = db.store.views := by
        obtain ⟨restName, _, hcreate⟩ := bind_eq_ok.mp htransaction
        split at hcreate
        · cases hcreate
        · rw [← pure_eq_ok.mp hcreate]
          exact ⟨rfl, rfl⟩
      exact ⟨hframe.1, fun hs => iff_of_true (allRows_of_subset hs fun view hview =>
        hframe.2 ▸ hview) rfl⟩
  | upsertViewDefinition finder restViewEditorState answer =>
      obtain ⟨⟨store, view⟩, hupsert, rfl⟩ := map_eq_ok.mp htransaction
      unfold Server.upsertViewDefinition at hupsert
      split at hupsert
      · cases hupsert
      · split at hupsert
        · cases hupsert
        · obtain ⟨restViewDefn, hvalid, hupsert⟩ := bind_eq_ok.mp hupsert
          refine ⟨schemas_upsert hupsert, fun hs => ?_⟩
          have hguard : bringsReadable db (.upsertViewDefinition finder restViewEditorState answer) =
              takesReadable teiid db.store restViewDefn := by
            simp only [bringsReadable, hvalid]
          rw [hguard]
          exact readable_upsert hs hupsert
  | importViews finder virtualization teiidSourceName tables =>
      exact ⟨schemas_import htransaction, fun hs => iff_of_true (readable_import hs htransaction) rfl⟩
  | removeViewDefinition id =>
      exact ⟨schemas_remove htransaction, fun hs => iff_of_true (allRows_remove hs htransaction) rfl⟩

/-- In a run all virtualizations can be exported in every state exactly if every upsert brings readable
paths; then the connection of every stored path can be read. -/
theorem exports_run_iff {db₀ db : Database teiid} {tr : List (Database teiid × ViewOperation)}
    (hinit : Initial db₀) (hrun : (system teiid).Run db₀ tr db) :
    ((Exports db ∧ ∀ x ∈ tr, Exports x.1) ↔
        System.Guarded (fun db operation => bringsReadable db operation = true) tr) ∧
      (System.Guarded (fun db operation => bringsReadable db operation = true) tr →
        AllRows ReadablePaths db.store) := by
  -- no operation of the run creates a source schema
  have haux : ∀ db operation db', db.store.schemas = [] → (system teiid).step db operation db' →
      db'.store.schemas = [] :=
    fun _ _ _ hschemas hstep => (readable_step hstep).1.trans hschemas
  have hstep : ∀ db operation db', db.store.schemas = [] → Exports db →
      (system teiid).step db operation db' →
        (Exports db' ↔ bringsReadable db operation = true) := by
    intro db operation db' hschemas hs hstep
    rw [exports_iff (haux _ _ _ hschemas hstep)]
    exact (readable_step hstep).2 ((exports_iff hschemas).mp hs)
  have hempty : db₀.store.schemas = [] := by rw [hinit]
  have hstart : Exports db₀ := by
    rw [exports_iff hempty, hinit]
    exact nofun
  have hvisited := hrun.visited_iff haux hstep hempty hstart
  refine ⟨hvisited, fun hguard => ?_⟩
  have hschemas : db.store.schemas = [] :=
    hrun.preserves (fun db operation db' hs _ hst => haux db operation db' hs hst) hguard hempty
  exact (exports_iff hschemas).mp (hvisited.mpr hguard).1

/-! ## Runs -/

/-- Teiid, where no text is a view. -/
def noViews : Teiid := .ascii fun _ => { schema := { name := "dv" } }

def emptyDb : Database noViews where
  store := {}
  consistent := ⟨.nil, .nil, .nil, nofun, .nil, nofun⟩

theorem initial_emptyDb : Initial emptyDb := rfl

/-- A virtualization, and an incomplete view that is to read from the path. -/
def drafted (path : String) : List ViewOperation :=
  [.createDataVirtualization { name := some "dv" },
    .upsertViewDefinition noSources
      { name := "v", dataVirtualizationName := "dv", sourcePaths := [path] } .rejected]

/-- A draft with a path that can be read. -/
theorem exports_run_iff_drafted :
    Exports (System.after (@next noViews) emptyDb (drafted "schema=pg/table=t")) := by
  have hrun := System.run_after Initial (@next noViews) emptyDb (drafted "schema=pg/table=t")
  have hguard : System.Guarded (fun db operation => bringsReadable db operation = true)
      (System.stepsOf (@next noViews) emptyDb (drafted "schema=pg/table=t")) := by decide
  exact ((exports_run_iff initial_emptyDb hrun).1.mpr hguard).1

/-- A path without an equals sign is stored, and cannot be exported. -/
theorem drafted_not_exported :
    ¬ ∀ (teiid : Teiid) (db₀ db : Database teiid) (tr : List (Database teiid × ViewOperation)),
      Initial db₀ → (system teiid).Run db₀ tr db → Exports db := by
  intro h
  have hrun := System.run_after Initial (@next noViews) emptyDb (drafted "foo")
  obtain ⟨archive, harchive⟩ := h noViews emptyDb _ _ initial_emptyDb hrun noSources
    ⟨0, "dv", none, 0⟩ (by decide)
  have hfails : exportDataVirtualization noSources
      (System.after (@next noViews) emptyDb (drafted "foo")).store "dv" = .error .noSuchElement := by
    decide
  rw [hfails] at harchive
  cases harchive

end ViewOperation

end TeiidSyndesis.Server
