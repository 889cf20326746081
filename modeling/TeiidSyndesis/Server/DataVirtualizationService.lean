/-
# TeiidSyndesis.Server.DataVirtualizationService — virtualizations: their life, import and export.

Each operation is the body of one transaction: it takes the tables and returns the tables to be
committed.  An archive is what the version 1 adapters expose, with the JSON and zip encodings taken as
lossless.  Of `publishVirtualization` the part is here that decides on and generates the service VDB.

Main results:
* `importTables_rule`, `importTables_invariant` — the rule for the loop of an import, by induction over its
  tables;
* `importViews_ok` — so what an import does to the tables.
-/
import TeiidSyndesis.Server.EditorService

namespace TeiidSyndesis.Server

open TeiidSyndesis.Library TeiidSyndesis.Model TeiidSyndesis.Repository

/-! ## Names of virtualizations -/

/-- `StringUtils.isBlank` of a text that is there. -/
def isBlank (text : String) : Bool := text.toList.all fun c => decide (c ≤ ' ')

/-- A number as `MessageFormat` writes it. -/
def grouped (n : Nat) : String :=
  if n < 1000 then toString n
  else grouped (n / 1000) ++ "," ++ String.ofList ((toString (1000 + n % 1000)).toList.drop 1)
  termination_by n
  decreasing_by omega

/-- `StringNameValidator.checkNameLength` -/
def checkNameLength (name : String) : Option String :=
  if utf16Length name < 1 then some "The name must be at least 1 character(s) long"
  else if 255 < utf16Length name then
    some ("The name length (" ++ grouped (utf16Length name) ++ ") is longer than allowed (255)")
  else none

/-- An ASCII letter or digit. -/
def letterOrDigit (c : Char) : Bool :=
  decide ('a' ≤ c ∧ c ≤ 'z' ∨ 'A' ≤ c ∧ c ≤ 'Z' ∨ '0' ≤ c ∧ c ≤ '9')

/-- `DATAVIRTUALIZATION_PATTERN` -/
def matchesPattern (name : String) : Bool :=
  (name.toList.all fun c => c == '-' || letterOrDigit c) && name.toList.getLast?.any letterOrDigit

/-- `getValidationMessage`: what is wrong with a name, if anything is. -/
def getValidationMessage (teiid : Teiid) (virtualization : String) : Option String :=
  match checkNameLength virtualization with
  | some errorMsg => some errorMsg
  | none =>
      if !matchesPattern virtualization then some "Must match pattern [-a-z0-9]*[a-z0-9]"
      else if teiid.reservedNames.any (teiid.equalsIgnoreCase virtualization) then
        some (virtualization ++ " is a reserved name.")
      else none

/-! ## Creating, updating and deleting -/

/-- The body of a request. -/
structure RestDataVirtualization where
  name : Option String
  description : Option String := none
  deriving DecidableEq, Repr

/-- The name of a request that has one. -/
def requiredName (restDataVirtualization : RestDataVirtualization) : Except Failure String :=
  match restDataVirtualization.name with
  | some name =>
      if isBlank name then
        .error (.forbidden "The DataService name is missing from the URL parameters")
      else .ok name
  | none => .error (.forbidden "The DataService name is missing from the URL parameters")

/-- `createDataVirtualization`, inside its transaction. -/
def createDataVirtualization (teiid : Teiid) (store : Store)
    (restDataVirtualization : RestDataVirtualization) : Except Failure Store := do
  let restName ← requiredName restDataVirtualization
  match getValidationMessage teiid restName with
  | some message => .error (.forbidden message)
  | none =>
      pure (store.createDataVirtualization restName restDataVirtualization.description)

/-- A violated constraint is reported as a conflict. -/
def conflictOnViolation {α : Type} : Except Failure α → Except Failure α
  | .error .dataIntegrityViolation =>
      .error (.conflict (some ("The DataService could not be created because a data service, " ++
        "data source, or other workspace object with the same name and path already exists.")))
  | result => result

/-- `updateDataVirtualization`, inside its transaction. -/
def updateDataVirtualization (store : Store) (virtualization : String)
    (restDataVirtualization : RestDataVirtualization) : Except Failure Store := do
  let restName ← requiredName restDataVirtualization
  if virtualization ≠ restName then
    .error (.forbidden ("The DataService name parameter " ++ virtualization ++ " and JSON " ++
      restName ++ " do not match so a DataService cannot be created."))
  else
    match store.findDataVirtualization restName with
    | none => .error (.notFound virtualization)
    | some existing =>
        if existing.description = restDataVirtualization.description then pure store
        else
          pure (store.writeDataVirtualization
            { existing with
              description := restDataVirtualization.description
              version := existing.version + 1 })

/-- `deleteDataVirtualization`, inside its transaction. -/
def deleteDataVirtualization (store : Store) (virtualization : String) : Except Failure Store :=
  match store.deleteDataVirtualization virtualization with
  | none => .error (.notFound virtualization)
  | some store => .ok store

/-! ## importViews -/

/-- The view of one table, on its way through the loop. -/
def importedView (teiid : Teiid) (finder : SchemaFinder) (teiidSourceName : String) (t : Table)
    (viewDefn : ViewDefinition) : Except Failure ViewDefinition := do
  let completed :=
    { viewDefn with
      complete := true
      sourcePaths := viewDefn.sourcePaths ++ [teiid.fullyQualifiedName teiidSourceName t.name] }
  let ddl ← getODataViewDdl teiid finder completed
  pure { completed with ddl := ddl, parsable := true }

/-- The loop over the tables: persistent views are changed, new ones collected. -/
def importTables (teiid : Teiid) (finder : SchemaFinder) (virtualization teiidSourceName : String)
    (s : Schema) : List String → Store → List ViewDefinition →
      Except Failure (Store × List ViewDefinition)
  | [], store, toSave => .ok (store, toSave)
  | name :: names, store, toSave =>
      match s.getTable teiid name with
      | none => importTables teiid finder virtualization teiidSourceName s names store toSave
      | some t =>
          match store.findViewDefinitionByNameIgnoreCase teiid virtualization name with
          | some viewDefn =>
              if !teiid.equalsIgnoreCase name viewDefn.name then
                .error (.assertionError "imported view name conflicts with an existing view name")
              else do
                let updated ← importedView teiid finder teiidSourceName t
                  { viewDefn with
                    sourcePaths := []
                    userDefined := false
                    ddl := none
                    description := none }
                importTables teiid finder virtualization teiidSourceName s names
                  (store.writeViewDefinition (Store.flushed viewDefn updated)) toSave
          | none => do
              let created ← importedView teiid finder teiidSourceName t
                { name := name, dataVirtualizationName := virtualization }
              importTables teiid finder virtualization teiidSourceName s names store
                (toSave ++ [created])

/-- `importViews`, inside its transaction. -/
def importViews (teiid : Teiid) (finder : SchemaFinder) (store : Store)
    (virtualization teiidSourceName : String) (tables : List String) : Except Failure Store := do
  match store.findDataVirtualization virtualization with
  | none => .error (.notFound virtualization)
  | some _ =>
      match ← finder.findSchema teiidSourceName with
      | none => .error (.notFound teiidSourceName)
      | some s =>
          let (store, toSave) ←
            importTables teiid finder virtualization teiidSourceName s tables store []
          (toSave.foldl Store.persist store).touch virtualization

/-- What importing makes of a view: a complete and parsable one with a generated DDL. -/
structure Imported (teiid : Teiid) (finder : SchemaFinder) (viewDefn imported : ViewDefinition) :
    Prop where
  id : imported.id = viewDefn.id
  name : imported.name = viewDefn.name
  dataVirtualizationName : imported.dataVirtualizationName = viewDefn.dataVirtualizationName
  complete : imported.complete = true
  parsable : imported.parsable = true
  generated : ∃ completed ddl, completed.complete = true ∧ completed.name = viewDefn.name ∧
    getODataViewDdl teiid finder completed = .ok (some ddl) ∧ imported.ddl = some ddl

/-- What an import makes of a table. -/
theorem imported_of_importedView {teiid : Teiid} {finder : SchemaFinder} {teiidSourceName : String}
    {t : Table} {viewDefn imported : ViewDefinition}
    (h : importedView teiid finder teiidSourceName t viewDefn = .ok imported) :
    Imported teiid finder viewDefn imported := by
  unfold importedView at h
  obtain ⟨ddl, hddl, hresult⟩ := bind_eq_ok.mp h
  obtain ⟨text, rfl⟩ := Option.isSome_iff_exists.mp (getODataViewDdl_isSome rfl hddl)
  cases pure_eq_ok.mp hresult
  have hgenerated : ∃ completed ddl, completed.complete = true ∧ completed.name = viewDefn.name ∧
      getODataViewDdl teiid finder completed = .ok (some ddl) ∧ some text = some ddl :=
    ⟨{ viewDefn with
        complete := true
        sourcePaths := viewDefn.sourcePaths ++ [teiid.fullyQualifiedName teiidSourceName t.name] },
      text, rfl, rfl, hddl, rfl⟩
  exact ⟨rfl, rfl, rfl, rfl, rfl, hgenerated⟩

/-- The rule for the loop over the tables: what holds before it and is kept by each row that is
changed and each view that is collected holds after it. -/
theorem importTables_rule {teiid : Teiid} {finder : SchemaFinder}
    {virtualization teiidSourceName : String} {s : Schema} {P : Store → List ViewDefinition → Prop}
    (hwrite : ∀ store toSave name t viewDefn imported, P store toSave →
      s.getTable teiid name = some t →
      store.findViewDefinitionByNameIgnoreCase teiid virtualization name = some viewDefn →
      importedView teiid finder teiidSourceName t
        { viewDefn with sourcePaths := [], userDefined := false, ddl := none, description := none } =
          .ok imported →
        P (store.writeViewDefinition (Store.flushed viewDefn imported)) toSave)
    (hcollect : ∀ store toSave name t created, P store toSave → s.getTable teiid name = some t →
      store.findViewDefinitionByNameIgnoreCase teiid virtualization name = none →
      importedView teiid finder teiidSourceName t
        { name := name, dataVirtualizationName := virtualization } = .ok created →
        P store (toSave ++ [created]))
    {names : List String} {store store' : Store} {toSave toSave' : List ViewDefinition}
    (hstart : P store toSave)
    (h : importTables teiid finder virtualization teiidSourceName s names store toSave =
      .ok (store', toSave')) : P store' toSave' := by
  -- on the names: each turn is one of the two kinds, or does nothing
  induction names generalizing store toSave with
  | nil =>
      cases h
      exact hstart
  | cons name names ih =>
      unfold importTables at h
      split at h
      · exact ih hstart h
      · rename_i t ht
        split at h
        · rename_i viewDefn hfind
          split at h
          · cases h
          · obtain ⟨imported, himported, hrest⟩ := bind_eq_ok.mp h
            exact ih (hwrite store toSave name t viewDefn imported hstart ht hfind himported) hrest
        · rename_i hfind
          obtain ⟨created, hcreated, hrest⟩ := bind_eq_ok.mp h
          exact ih (hcollect store toSave name t created hstart ht hfind hcreated) hrest

/-- The rule, for what is known of imported views. -/
theorem importTables_invariant {teiid : Teiid} {finder : SchemaFinder}
    {virtualization teiidSourceName : String} {s : Schema} {P : Store → List ViewDefinition → Prop}
    (hwrite : ∀ store toSave viewDefn imported, P store toSave → viewDefn ∈ store.views →
      viewDefn.dataVirtualizationName = virtualization → Imported teiid finder viewDefn imported →
        P (store.writeViewDefinition (Store.flushed viewDefn imported)) toSave)
    (hcollect : ∀ store toSave created, P store toSave →
      created.dataVirtualizationName = virtualization →
      (∃ viewDefn : ViewDefinition, Imported teiid finder viewDefn created) →
        P store (toSave ++ [created]))
    {names : List String} {store store' : Store} {toSave toSave' : List ViewDefinition}
    (hstart : P store toSave)
    (h : importTables teiid finder virtualization teiidSourceName s names store toSave =
      .ok (store', toSave')) : P store' toSave' := by
  refine importTables_rule ?_ ?_ hstart h
  · intro store toSave name t viewDefn imported hs _ hfind himported
    obtain ⟨hid, hname, hdv, hcomplete, hparsable, hgenerated⟩ := imported_of_importedView himported
    obtain ⟨hmem, hown, _⟩ := Store.row_of_findByNameIgnoreCase hfind
    exact hwrite store toSave viewDefn imported hs hmem hown
      ⟨hid, hname, hdv, hcomplete, hparsable, hgenerated⟩
  · intro store toSave name t created hs _ _ hcreated
    have himported := imported_of_importedView hcreated
    exact hcollect store toSave created hs himported.dataVirtualizationName ⟨_, himported⟩

/-- An import that succeeds has gone through the tables, saved the new views and touched the
virtualization. -/
theorem importViews_ok {teiid : Teiid} {finder : SchemaFinder} {store store' : Store}
    {virtualization teiidSourceName : String} {tables : List String}
    (h : importViews teiid finder store virtualization teiidSourceName tables = .ok store') :
    ∃ dv s imported toSave, store.findDataVirtualization virtualization = some dv ∧
      finder.findSchema teiidSourceName = .ok (some s) ∧
      importTables teiid finder virtualization teiidSourceName s tables store [] =
        .ok (imported, toSave) ∧
      (toSave.foldl Store.persist imported).touch virtualization = .ok store' := by
  unfold importViews at h
  split at h
  · cases h
  · rename_i dv hdv
    obtain ⟨schema, hschema, h⟩ := bind_eq_ok.mp h
    split at h
    · cases h
    · rename_i s
      obtain ⟨⟨imported, toSave⟩, himport, htouch⟩ := bind_eq_ok.mp h
      exact ⟨dv, s, imported, toSave, hdv, hschema, himport, htouch⟩

/-! ## Export and import -/

/-- `ViewDefinitionV1Adapter` -/
structure ViewDefinitionV1 where
  id : Option Nat
  name : String
  ddl : Option String
  description : Option String
  complete : Bool
  userDefined : Bool
  deriving DecidableEq, Repr

/-- `SourceV1` -/
structure SourceV1 where
  sourceId : String
  name : String
  deriving DecidableEq, Repr

/-- `DataVirtualizationV1Adapter` -/
structure DataVirtualizationV1 where
  id : Option Nat
  name : String
  description : Option String
  views : List ViewDefinitionV1
  sources : List SourceV1
  deriving DecidableEq, Repr

/-- A view, as it is archived. -/
def exportView (view : ViewDefinition) : ViewDefinitionV1 :=
  { id := view.id
    name := view.name
    ddl := view.ddl
    description := view.description
    complete := view.complete
    userDefined := view.userDefined }

/-- The connection a source path names. -/
def connectionOf (path : String) : Except Failure String := do
  optionValue (← getOptions path) 0

/-- The sources by connection, in the order the paths name them. -/
def addSource (finder : SchemaFinder) (sources : List (String × SourceV1)) (path : String) :
    Except Failure (List (String × SourceV1)) := do
  let connection ← connectionOf path
  if sources.any (·.1 = connection) then pure sources
  else
    match finder.findTeiidDatasource connection with
    | some tds => pure (sources ++ [(connection, { sourceId := tds.syndesisId, name := tds.name })])
    | none => pure sources

/-- `exportDataVirtualization`: the views of the virtualization, and the sources of their paths. -/
def exportDataVirtualization (finder : SchemaFinder) (store : Store) (virtualization : String) :
    Except Failure DataVirtualizationV1 := do
  match store.findDataVirtualization virtualization with
  | none => .error (.notFound virtualization)
  | some dv =>
      let views := store.findViewDefinitions virtualization
      let sources ← (views.flatMap (·.sourcePaths)).foldlM (addSource finder) []
      pure
        { id := some dv.id
          name := dv.name
          description := dv.description
          views := views.map exportView
          sources := sources.map (·.2) }

/-- The request an archived view is replayed as. -/
def importedEntity (virtualization : String) (adapter : ViewDefinitionV1) : ViewDefinition :=
  { id := none
    name := adapter.name
    dataVirtualizationName := virtualization
    ddl := adapter.ddl
    description := adapter.description
    complete := adapter.complete
    userDefined := adapter.userDefined }

/-- What an import reports on a source. -/
def sourceStatus (finder : SchemaFinder) (store : Store) (source : SourceV1) : Option String :=
  match finder.findTeiidDatasource source.name with
  | none =>
      match store.findSchemaBySourceId source.sourceId with
      | some _ => some "a syndesis connection exists with the given id, but does not match the name"
      | none => some "no syndesis connection can be found"
  | some tds =>
      if tds.syndesisId = source.sourceId then none
      else some "a syndesis connection with the same name exists, but the ids do not match"

/-- `StatusObject.addAttribute` -/
def addAttribute (attributes : List (String × String)) (subject message : String) :
    List (String × String) :=
  if attributes.any (·.1 = subject) then
    attributes.map fun entry => if entry.1 = subject then (subject, message) else entry
  else attributes ++ [(subject, message)]

/-- The status of each source of an archive. -/
def sourceStatuses (finder : SchemaFinder) (store : Store) (sources : List SourceV1) :
    List (String × String) :=
  sources.foldl
    (fun attributes source =>
      match sourceStatus finder store source with
      | some message => addAttribute attributes source.name message
      | none => attributes)
    []

/-- The views of an archive, upserted one after another. -/
def upsertAll (teiid : Teiid) (finder : SchemaFinder) (store : Store)
    (entities : List ViewDefinition) : Except Failure Store :=
  entities.foldlM
    (fun store vd => (upsertViewEditorState teiid finder store vd).map (·.1)) store

/-- `importDataVirtualization`, inside its transaction. -/
def importDataVirtualization (teiid : Teiid) (finder : SchemaFinder) (store : Store)
    (virtualization : Option String) (archive : DataVirtualizationV1) :
    Except Failure (Store × List (String × String)) := do
  let name := virtualization.getD archive.name
  let kso := sourceStatuses finder store archive.sources
  let store ← createDataVirtualization teiid store
    { name := some name, description := archive.description }
  let store ← upsertAll teiid finder store (archive.views.map (importedEntity name))
  pure (store, kso)

/-! ## publishVirtualization -/

/-- The service VDB is generated only when no complete view is unparsable. -/
def publishedVdb (teiid : Teiid) (finder : SchemaFinder) (virtualizationName : String)
    (getTable : String → Option (List IncomingObject)) (editorStates : List ViewDefinition) :
    Except Failure (Option VDBMetaData) :=
  if editorStates.any fun vd => vd.complete && !vd.parsable then .ok none
  else (createServiceVdb teiid finder virtualizationName getTable editorStates).map some

end TeiidSyndesis.Server
