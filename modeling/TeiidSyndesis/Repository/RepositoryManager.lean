/-
# TeiidSyndesis.Repository.RepositoryManager — the stored rows and the queries on them.

The tables are those of the migrations: virtualizations and source schemas in one table, so that
their names are unique together, and view definitions with a foreign key on the name of a row of that
table.  A transaction works on a copy of the tables; the database checks its constraints when the copy
is committed.  A row that is created takes the next identifier.

Main results:
* `commit_eq_ok` — a commit succeeds if the constraints are met, and leaves the copy;
* `findDataVirtualization_write`, `row_of_findByNameIgnoreCase` — what is found after a change;
* `Consistent.of_sameKeys`, `Consistent.createDataVirtualization` — changes that keep the constraints.
-/
import TeiidSyndesis.Library.Results
import TeiidSyndesis.Library.Tables
import TeiidSyndesis.Model.Entities

namespace TeiidSyndesis.Repository

open TeiidSyndesis.Library TeiidSyndesis.Model

/-! ## Tables -/

/-- The rows, and the next identifier. -/
structure Store where
  virtualizations : List DataVirtualization := []
  schemas : List SourceSchema := []
  views : List ViewDefinition := []
  nextId : Nat := 0
  deriving DecidableEq, Repr

namespace Store

/-- The names in the table the virtualizations and the schemas share. -/
def rowNames (store : Store) : List String :=
  store.virtualizations.map (·.name) ++ store.schemas.map (·.name)

/-- The constraints of the tables. -/
structure Consistent (teiid : Teiid) (store : Store) : Prop where
  /-- `data_virtualization_name_index` -/
  names : (store.rowNames.map teiid.toUpperCase).Nodup
  /-- `data_virtualization_source_id` -/
  sourceIds : (store.schemas.map (·.sourceId)).Nodup
  /-- primary key of the views; every identifier has been drawn -/
  ids : (store.views.map (·.id)).Nodup
  drawn : ∀ view ∈ store.views, ∀ id ∈ view.id, id < store.nextId
  /-- `view_definition_name_index` -/
  viewNames : (store.views.map fun view =>
    (teiid.toUpperCase view.name, view.dataVirtualizationName)).Nodup
  /-- foreign key of the views -/
  references : ∀ view ∈ store.views, view.dataVirtualizationName ∈ store.rowNames

instance (teiid : Teiid) (store : Store) : Decidable (store.Consistent teiid) :=
  decidable_of_iff
    ((store.rowNames.map teiid.toUpperCase).Nodup ∧ (store.schemas.map (·.sourceId)).Nodup ∧
      (store.views.map (·.id)).Nodup ∧
      (∀ view ∈ store.views, ∀ id ∈ view.id, id < store.nextId) ∧
      (store.views.map fun view =>
        (teiid.toUpperCase view.name, view.dataVirtualizationName)).Nodup ∧
      ∀ view ∈ store.views, view.dataVirtualizationName ∈ store.rowNames)
    ⟨fun ⟨names, sourceIds, ids, drawn, viewNames, references⟩ =>
        ⟨names, sourceIds, ids, drawn, viewNames, references⟩,
      fun h => ⟨h.names, h.sourceIds, h.ids, h.drawn, h.viewNames, h.references⟩⟩

end Store

/-- The committed tables. -/
structure Database (teiid : Teiid) where
  store : Store
  consistent : store.Consistent teiid

/-- The end of a transaction. -/
def commit (teiid : Teiid) (store : Store) : Except Failure (Database teiid) :=
  if h : store.Consistent teiid then .ok ⟨store, h⟩ else .error .dataIntegrityViolation

/-- A commit leaves the copy, if its constraints are met. -/
theorem commit_eq_ok {teiid : Teiid} {store : Store} {db : Database teiid} :
    commit teiid store = .ok db ↔ db.store = store := by
  unfold commit
  rw [checked_eq_ok]
  constructor
  · rintro ⟨_, rfl⟩
    rfl
  · rintro rfl
    exact ⟨db.consistent, rfl⟩

namespace Store

/-! ## Queries -/

def findDataVirtualization (store : Store) (virtualizationName : String) :
    Option DataVirtualization :=
  store.virtualizations.find? (·.name = virtualizationName)

def findViewDefinitions (store : Store) (dvName : String) : List ViewDefinition :=
  store.views.filter (·.dataVirtualizationName = dvName)

def findViewDefinition (store : Store) (id : Nat) : Option ViewDefinition :=
  store.views.find? (·.id = some id)

def findViewDefinitionByNameIgnoreCase (teiid : Teiid) (store : Store)
    (dvName viewDefinitionName : String) : Option ViewDefinition :=
  store.views.find? fun view =>
    view.dataVirtualizationName = dvName ∧
      teiid.toUpperCase view.name = teiid.toUpperCase viewDefinitionName

def findSchemaBySourceId (store : Store) (id : String) : Option SourceSchema :=
  store.schemas.find? (·.sourceId = id)

/-! ## Changes -/

/-- `createDataVirtualization`: a new row, at version 0. -/
def createDataVirtualization (store : Store) (virtualizationName : String)
    (description : Option String) : Store :=
  { store with
    virtualizations :=
      store.virtualizations ++
        [{ id := store.nextId, name := virtualizationName, description := description }]
    nextId := store.nextId + 1 }

/-- A row is written. -/
def writeDataVirtualization (store : Store) (dv : DataVirtualization) : Store :=
  { store with virtualizations := writeRow DataVirtualization.name dv store.virtualizations }

/-- `setModifiedAt(null)` -/
def touch (store : Store) (virtualizationName : String) : Except Failure Store :=
  match store.findDataVirtualization virtualizationName with
  | none => .error (.nullPointer "dv")
  | some dv => .ok (store.writeDataVirtualization { dv with version := dv.version + 1 })

/-- The views of a row go with it. -/
def deleteDataVirtualization (store : Store) (serviceName : String) : Option Store :=
  match store.findDataVirtualization serviceName with
  | none => none
  | some _ =>
      some
        { store with
          virtualizations := store.virtualizations.filter (·.name ≠ serviceName)
          views := store.views.filter (·.dataVirtualizationName ≠ serviceName) }

/-- The row of a new view. -/
def persisted (store : Store) (view : ViewDefinition) : ViewDefinition :=
  { view with id := some store.nextId, version := some 0 }

/-- A view is inserted under the next identifier. -/
def persist (store : Store) (view : ViewDefinition) : Store :=
  { store with views := store.views ++ [store.persisted view], nextId := store.nextId + 1 }

/-- `createViewDefiniton` -/
def createViewDefiniton (store : Store) (dvName viewName : String) : Store × ViewDefinition :=
  let view : ViewDefinition := { name := viewName, dataVirtualizationName := dvName }
  (store.persist view, store.persisted view)

/-- The row of a view that was loaded as `old`: one that has changed moves its version on. -/
def flushed (old view : ViewDefinition) : ViewDefinition :=
  if view = old then old else { view with version := old.version.map (· + 1) }

/-- A view is written. -/
def writeViewDefinition (store : Store) (view : ViewDefinition) : Store :=
  { store with views := writeRow ViewDefinition.id view store.views }

def deleteViewDefinition (store : Store) (id : Nat) : Store :=
  { store with views := store.views.filter (·.id ≠ some id) }

def createSchema (store : Store) (sourceId name : String) : Store :=
  { store with
    schemas := store.schemas ++ [{ id := store.nextId, name := name, sourceId := sourceId }]
    nextId := store.nextId + 1 }

def deleteSchemaBySourceId (store : Store) (sourceId : String) : Store :=
  { store with
    schemas := store.schemas.filter (·.sourceId ≠ sourceId)
    views := store.views.filter fun view =>
      view.dataVirtualizationName ∉
        (store.schemas.filter (·.sourceId = sourceId)).map (·.name) }

/-! ## What is found after a change -/

theorem name_of_findDataVirtualization {store : Store} {virtualizationName : String}
    {dv : DataVirtualization} (h : store.findDataVirtualization virtualizationName = some dv) :
    dv.name = virtualizationName := by
  simpa using List.find?_some h

/-- A virtualization is found as it was written. -/
theorem findDataVirtualization_write (store : Store) (dv : DataVirtualization)
    (virtualizationName : String) :
    (store.writeDataVirtualization dv).findDataVirtualization virtualizationName =
      if virtualizationName = dv.name then
        (store.findDataVirtualization virtualizationName).map fun _ => dv
      else store.findDataVirtualization virtualizationName :=
  find?_writeRow dv store.virtualizations virtualizationName

/-- A view that is found by name is a row with the name, ignoring case. -/
theorem row_of_findByNameIgnoreCase {teiid : Teiid} {store : Store} {dvName name : String}
    {view : ViewDefinition} (h : store.findViewDefinitionByNameIgnoreCase teiid dvName name = some view) :
    view ∈ store.views ∧ view.dataVirtualizationName = dvName ∧
      teiid.toUpperCase view.name = teiid.toUpperCase name := by
  unfold findViewDefinitionByNameIgnoreCase at h
  exact ⟨List.mem_of_find?_eq_some h, by simpa using List.find?_some h⟩

/-- A touch writes a row with the next version. -/
theorem touch_eq_ok {store store' : Store} {virtualizationName : String} :
    store.touch virtualizationName = .ok store' ↔
      ∃ dv, store.findDataVirtualization virtualizationName = some dv ∧
        store' = store.writeDataVirtualization { dv with version := dv.version + 1 } := by
  unfold touch
  constructor
  · intro h
    split at h
    · cases h
    · rename_i dv hfind
      cases h
      exact ⟨dv, hfind, rfl⟩
  · rintro ⟨dv, hfind, rfl⟩
    rw [hfind]

/-- Touching a virtualization writes no view. -/
theorem views_of_touch {store store' : Store} {virtualizationName : String}
    (h : store.touch virtualizationName = .ok store') : store'.views = store.views := by
  obtain ⟨dv, _, rfl⟩ := touch_eq_ok.mp h
  rfl

/-- A flush leaves a view, or moves its version on. -/
theorem flushed_eq_or (old view : ViewDefinition) :
    flushed old view = view ∨ flushed old view = { view with version := old.version.map (· + 1) } := by
  unfold flushed
  split
  · rename_i h
    exact .inl h.symm
  · exact .inr rfl

/-! ## Constraints that are kept -/

/-- Tables with the names and keys of consistent ones are consistent. -/
theorem Consistent.of_sameKeys {teiid : Teiid} {store store' : Store} (h : store.Consistent teiid)
    (hnames : store'.rowNames = store.rowNames) (hschemas : store'.schemas = store.schemas)
    (hkeys : store'.views.map (fun view => (view.id, view.name, view.dataVirtualizationName)) =
      store.views.map fun view => (view.id, view.name, view.dataVirtualizationName))
    (hnext : store.nextId ≤ store'.nextId) : store'.Consistent teiid := by
  -- every constraint is about some of these three columns
  have hmap {β : Type} (f : Option Nat × String × String → β) :
      (store'.views.map fun view => f (view.id, view.name, view.dataVirtualizationName)) =
        store.views.map fun view => f (view.id, view.name, view.dataVirtualizationName) := by
    have hmapped := congrArg (List.map f) hkeys
    rwa [List.map_map, List.map_map] at hmapped
  have hmem : ∀ view' ∈ store'.views, ∃ view ∈ store.views,
      view.id = view'.id ∧ view.dataVirtualizationName = view'.dataVirtualizationName := by
    intro view' hview'
    have hkey : (view'.id, view'.name, view'.dataVirtualizationName) ∈ store'.views.map fun view =>
        (view.id, view.name, view.dataVirtualizationName) := List.mem_map_of_mem hview'
    rw [hkeys] at hkey
    obtain ⟨view, hview, hsame⟩ := List.mem_map.mp hkey
    obtain ⟨hid, hrest⟩ := Prod.mk.inj hsame
    exact ⟨view, hview, hid, (Prod.mk.inj hrest).2⟩
  constructor
  · rw [hnames]
    exact h.names
  · rw [hschemas]
    exact h.sourceIds
  · exact hmap (fun k => k.1) ▸ h.ids
  · intro view' hview' id hid
    obtain ⟨view, hview, hsame, _⟩ := hmem view' hview'
    have hlt := h.drawn view hview id (hsame ▸ hid)
    omega
  · exact hmap (fun k => (teiid.toUpperCase k.2.1, k.2.2)) ▸ h.viewNames
  · intro view' hview'
    obtain ⟨view, hview, _, hsame⟩ := hmem view' hview'
    rw [hnames, ← hsame]
    exact h.references view hview

/-- A new row keeps the constraints if its name is new. -/
theorem Consistent.createDataVirtualization {teiid : Teiid} {store : Store} (h : store.Consistent teiid)
    {virtualizationName : String} {description : Option String}
    (hnames : ((store.createDataVirtualization virtualizationName description).rowNames.map
      teiid.toUpperCase).Nodup) :
    (store.createDataVirtualization virtualizationName description).Consistent teiid := by
  constructor
  · exact hnames
  · exact h.sourceIds
  · exact h.ids
  · intro view hview id hid
    have hlt := h.drawn view hview id hid
    show id < store.nextId + 1
    omega
  · exact h.viewNames
  · intro view hview
    have hname := h.references view hview
    unfold rowNames Store.createDataVirtualization at *
    rw [List.map_append]
    rcases List.mem_append.mp hname with hname | hname
    · exact List.mem_append_left _ (List.mem_append_left _ hname)
    · exact List.mem_append_right _ hname

theorem rowNames_writeDataVirtualization {store : Store} {dv : DataVirtualization} :
    (store.writeDataVirtualization dv).rowNames = store.rowNames := by
  unfold rowNames writeDataVirtualization
  rw [map_key_writeRow]

end Store

end TeiidSyndesis.Repository
